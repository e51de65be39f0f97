import ShardStore.Proofs.Log.Atomicity
import ShardStore.Proofs.Server.Framing

/-!
A log is loaded as a client is served who sends its bytes. The loop that replays a log and the one that
serves a connection sort what they read by different rules, but what the one passes over, the other
answers with an error, and both execute the same lines (`Server.answer?_replayed`). Only a bulk string
that stands alone is a line to the one and not to the other.
-/

namespace ShardStore

namespace Log

namespace Replay

@[simp] theorem prependSkip_applied (later : Replay) (reason : String) :
    (later.prependSkip reason).applied = later.applied := rfl

@[simp] theorem prependLine_applied (later : Replay) (done : Execution) :
    (later.prependLine done).applied =
      later.applied + if done.reply.errorText?.isSome then 0 else 1 := by
  unfold prependLine
  cases done.reply.errorText? <;> rfl

theorem ofItems_append_applied (engine : Engine) (selected : Nat) (items more : List LogItem) :
    let first := ofItems engine selected items
    (ofItems engine selected (items ++ more)).applied =
      first.applied + (ofItems first.engine first.selected more).applied := by
  induction items generalizing engine selected with
  | nil => exact (Nat.zero_add _).symm
  | cons item rest ih =>
      cases item with
      | line line =>
          have later := ih (engine.exec selected line).engine (engine.exec selected line).selected
          simp only [List.cons_append, ofItems_line, prependLine_applied, prependLine_engine,
            prependLine_selected, later]
          exact Nat.add_right_comm _ _ _
      | unexpected message => exact ih engine selected
      | corrupt fault => exact ih engine selected

end Replay

/-- An end inside of a line or body is passed over, and changes nothing else. -/
theorem replay_unfinished (engine : Engine) (bytes : Bytes) :
    let replayed := replay engine (some bytes)
    let whole := Replay.ofItems engine 0 (itemsOf {} bytes)
    replayed.engine = whole.engine ∧ replayed.selected = whole.selected ∧
      replayed.applied = whole.applied ∧
      replayed.skipped = whole.skipped + if (standing bytes).buffer = [] then 0 else 1 := by
  intro replayed whole
  let left := (Wire.Ending.finished.item? (standing bytes).buffer).toList.map LogItem.ofItem
  have split : replayed = .ofItems engine 0 (itemsOf {} bytes ++ left) :=
    congrArg (Replay.ofItems engine 0) (read_eq bytes)
  have last : left = if (standing bytes).buffer = [] then [] else [.corrupt .unfinished] := by
    simp only [left, Wire.Ending.item?, List.isEmpty_iff]
    split <;> rfl
  obtain ⟨engines, selections, skips⟩ := Replay.ofItems_append engine 0 (itemsOf {} bytes) left
  have applied := Replay.ofItems_append_applied engine 0 (itemsOf {} bytes) left
  rw [split, engines, selections, skips, applied, last]
  split <;> exact ⟨rfl, rfl, rfl, rfl⟩

end Log

namespace Server

open Wire Log

/-- What an item does to the databases and the selection when it is replayed, it does when a client
sends it; and it is passed over exactly if the client is answered with an error. -/
theorem answer?_replayed (durable : DurableEngine) (selected : Nat) {item : Item}
    (readable : Readable item) (unbulked : ∀ body, .ok (.bulk body) ≠ item) (rest : List LogItem) :
    ∃ served, answer? DurableEngine.service durable selected item = some served ∧
      let replayed := Replay.ofItems durable.engine selected (.ofItem item :: rest)
      let later := Replay.ofItems served.state.engine served.selected rest
      replayed.engine = later.engine ∧ replayed.selected = later.selected ∧
        replayed.applied = later.applied + (if served.reply.isError then 0 else 1) ∧
        replayed.skipped = later.skipped + if served.reply.isError then 1 else 0 := by
  cases item with
  | error fault =>
      have recoverable : fault.isRecoverable = true := by
        cases fault with
        | transport cause => exact readable.elim
        | _ => rfl
      exact ⟨_, if_pos recoverable, rfl, rfl, rfl, rfl⟩
  | ok message =>
      cases message with
      | bulk body => exact absurd rfl (unbulked body)
      | array elements =>
          obtain ⟨reply, switched, engine, -⟩ :=
            durable.exec_spec selected (elements.map (·.getD []))
          refine ⟨_, rfl, ?_⟩
          simp only [LogItem.ofItem, Replay.ofItems_line, DurableEngine.service,
            Replay.prependLine_engine, Replay.prependLine_selected, Replay.prependLine_applied,
            Replay.prependLine_skipped, reply, switched, engine, Message.isError_eq, and_self]
      | _ => exact ⟨_, rfl, rfl, rfl, rfl, rfl⟩

/-- Whole streams are replayed and served alike, if no bulk string stands alone in them. -/
theorem answerAll_replayed (durable : DurableEngine) (selected : Nat) {items : List Item}
    (readable : ∀ item ∈ items, Readable item) (unbulked : ∀ body, .ok (.bulk body) ∉ items) :
    let served := answerAll DurableEngine.service durable selected items
    let replayed := Replay.ofItems durable.engine selected (items.map .ofItem)
    replayed.engine = served.2.2.engine ∧ replayed.selected = served.2.1 ∧
      replayed.applied = served.1.countP (!·.isError) ∧
      replayed.skipped = served.1.countP (·.isError) := by
  induction items generalizing durable selected with
  | nil => exact ⟨rfl, rfl, rfl, rfl⟩
  | cons item rest ih =>
      obtain ⟨first, answered, engine, switched, applied, skipped⟩ :=
        answer?_replayed durable selected (readable item List.mem_cons_self)
          (fun body same => unbulked body (same ▸ List.mem_cons_self)) (rest.map .ofItem)
      obtain ⟨engines, selections, successes, failures⟩ := ih first.state first.selected
        (fun other mem => readable other (List.mem_cons_of_mem item mem))
        (fun body mem => unbulked body (List.mem_cons_of_mem item mem))
      simp only [List.map_cons, answerAll, answered, List.countP_cons]
      refine ⟨engine.trans engines, switched.trans selections, ?_, ?_⟩
      · rw [applied, successes]
        cases first.reply.isError <;> rfl
      · rw [skipped, failures]

/-- Bytes among which no bulk string stands alone leave the same databases and the same one of them
selected, whether they are replayed as a log or sent to a server in whatever pieces. As many lines count
as applied as the server answers without an error, and as many items as passed over as it answers with
one; an end inside of a line or body, which it does not answer, is one more of these. -/
theorem replay_eq_serve (engine : Engine) (log : LogState) {bytes : Bytes}
    (unbulked : ∀ body, .ok (.bulk body) ∉ Wire.decode bytes) {pieces : List Bytes}
    (sent : pieces.flatten = bytes) (ending : Ending) :
    let replayed := replay engine (some bytes)
    let served := serve DurableEngine.service ⟨engine, log⟩ pieces ending
    let undecoded := (({} : Decoder).feed bytes).2.buffer
    replayed.engine = served.2.2.engine ∧ replayed.selected = served.2.1 ∧
      replayed.applied = served.1.countP (!·.isError) ∧
      replayed.skipped = served.1.countP (·.isError) + if undecoded = [] then 0 else 1 := by
  intro replayed served undecoded
  have fresh : Decoder.advance? {} = none := rfl
  have answered : served = answerAll DurableEngine.service ⟨engine, log⟩ 0 (Wire.decode bytes) := by
    rw [← sent, Wire.decode, ← Decoder.feedAll_eq_feed fresh]
    exact serve_eq DurableEngine.service ⟨engine, log⟩ pieces ending
  obtain ⟨engines, selections, successes, failures⟩ :=
    answerAll_replayed ⟨engine, log⟩ 0 (fun _ => Decoder.readable_of_mem_drain) unbulked
  obtain ⟨enginesAll, selectionsAll, applied, skipped⟩ := replay_unfinished engine bytes
  rw [answered]
  exact ⟨enginesAll.trans engines, selectionsAll.trans selections, applied.trans successes,
    skipped.trans (congrArg (· + _) failures)⟩

/-- A line, an unknown kind of message, an empty line, a database that there is not, a status, and the
beginning of another line, sent in two pieces that are cut inside of a body. -/
theorem replay_eq_serve_of_six :
    let front : Bytes := Wire.encodeLine [[0x73, 0x65, 0x74], [0x6B], [0x31]] ++ [0x3F, 0x0D, 0x0A] ++
      Wire.encodeLine [] ++ [0x2A, 0x32, 0x0D, 0x0A, 0x24, 0x36, 0x0D, 0x0A, 0x53, 0x45, 0x4C]
    let back : Bytes := [0x45, 0x43, 0x54, 0x0D, 0x0A, 0x24, 0x31, 0x0D, 0x0A, 0x39, 0x0D, 0x0A] ++
      [0x2B, 0x4F, 0x4B, 0x0D, 0x0A] ++ [0x2A, 0x31, 0x0D]
    let replayed := replay (.new 2) (some (front ++ back))
    let served :=
      serve DurableEngine.service ⟨.new 2, .unlogged none⟩ [front, back] (.failed "reset")
    let undecoded := (({} : Decoder).feed (front ++ back)).2.buffer
    (∀ body, .ok (.bulk body) ∉ Wire.decode (front ++ back)) ∧
      [front, back].flatten = front ++ back ∧ replayed.engine = served.2.2.engine ∧
      replayed.selected = served.2.1 ∧ replayed.applied = served.1.countP (!·.isError) ∧
      replayed.skipped = served.1.countP (·.isError) + if undecoded = [] then 0 else 1 := by
  intro front back replayed served undecoded
  have read : Wire.decode (front ++ back) =
      [.ok (.ofList [[0x73, 0x65, 0x74], [0x6B], [0x31]]), .error (.unknownPrefix "?"),
        .ok (.array []), .ok (.ofList [[0x53, 0x45, 0x4C, 0x45, 0x43, 0x54], [0x39]]), .ok .ok] := by
    decide +kernel
  have unbulked : ∀ body, .ok (.bulk body) ∉ Wire.decode (front ++ back) := by
    rw [read]
    simp [Message.ofList]
  have sent : [front, back].flatten = front ++ back := by
    rw [List.flatten_cons, List.flatten_singleton]
  exact ⟨unbulked, sent, replay_eq_serve (.new 2) (.unlogged none) unbulked sent (.failed "reset")⟩

end Server

end ShardStore
