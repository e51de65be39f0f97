import ShardStore.Proofs.Command.Locality
import ShardStore.Proofs.Wire.Items
import ShardStore.Server

namespace ShardStore

open Bytes

namespace Message

theorem oneLine_of_normalize {message : Message} (oneLine : message.normalize.OneLine) :
    message.OneLine := by
  unfold normalize at oneLine
  split at oneLine
  · show '\n' ∉ "OK".toList
    decide
  · show '\n' ∉ "PONG".toList
    decide
  · trivial
  · exact oneLine

theorem quoted_oneLine_iff {front text back : String} (clear : '\n' ∉ front.toList)
    (clearBehind : '\n' ∉ back.toList) :
    (error (front ++ text ++ back)).OneLine ↔ '\n' ∉ text.toList := by
  simp only [OneLine, String.toList_append, List.mem_append, clear, clearBehind, false_or, or_false]

theorem oneLine_ofBytes? (value? : Option Bytes) : (ofBytes? value?).OneLine := by
  cases value? <;> trivial

end Message

theorem Engine.lf_of_mem_lowerName {name : Bytes} (mem : '\n' ∈ (lowerName name).toList) :
    lf ∈ name := by
  rw [lowerName, String.toList_map] at mem
  obtain ⟨c, shown, lower⟩ := List.mem_map.mp mem
  rw [Text.toLower_eq_lf lower] at shown
  exact Text.mem_of_mem_lossy (by decide) (by decide) shown

theorem Failure.unknownCommand_oneLine_iff {name : String} :
    (Failure.unknownCommand name).reply.OneLine ↔ '\n' ∉ name.toList :=
  Message.quoted_oneLine_iff (by decide) (by decide)

theorem Failure.wrongArity_oneLine_iff {name : String} :
    (Failure.wrongArity name).reply.OneLine ↔ '\n' ∉ name.toList :=
  Message.quoted_oneLine_iff (by decide) (by decide)

namespace Command

theorem lookup_failure {name : String} {words : Nat} {failure : Failure}
    (refused : lookup name words = .error failure) :
    failure = .unknownCommand (Text.lowercase name) ∨ failure = .wrongArity (Text.lowercase name) := by
  unfold lookup at refused
  cases found : named? (Text.lowercase name) with
  | none =>
      simp only [found, Except.error.injEq] at refused
      exact .inl refused.symm
  | some command =>
      simp only [found] at refused
      split at refused
      · cases refused
      · exact .inr (Except.error.inj refused).symm

theorem lf_not_mem_name (command : Command) : '\n' ∉ command.name.toList := by
  cases command <;> decide

theorem lookup_failure_oneLine {name : Bytes} (unbroken : lf ∉ name) {words : Nat}
    {failure : Failure} (refused : lookup (Engine.lowerName name) words = .error failure) :
    failure.reply.OneLine := by
  have lower : '\n' ∉ (Text.lowercase (Engine.lowerName name)).toList := fun mem =>
    unbroken (Engine.lf_of_mem_lowerName (Text.lf_of_mem_lowercase mem))
  rcases lookup_failure refused with rfl | rfl
  · exact Failure.unknownCommand_oneLine_iff.mpr lower
  · exact Failure.wrongArity_oneLine_iff.mpr lower

/-- No command has a line feed in its name, so a name with one is repeated as unknown. -/
theorem lookup_of_lf {name : Bytes} (broken : lf ∈ name) (words : Nat) :
    ∃ failure, lookup (Engine.lowerName name) words = .error failure ∧
      ¬ failure.reply.OneLine := by
  have mem := Text.mem_lowercase (Engine.mem_lowerName broken (by decide) (by decide))
    (by decide) (by decide)
  have absent : named? (Text.lowercase (Engine.lowerName name)) = none := by
    cases found : named? (Text.lowercase (Engine.lowerName name)) with
    | none => rfl
    | some command =>
        have named : command.name = Text.lowercase (Engine.lowerName name) := by
          simpa using List.find?_some found
        exact absurd (named ▸ mem) command.lf_not_mem_name
  have unknown : lookup (Engine.lowerName name) words =
      .error (.unknownCommand (Text.lowercase (Engine.lowerName name))) := by
    simp only [lookup, absent]
  exact ⟨_, unknown, fun oneLine => Failure.unknownCommand_oneLine_iff.mp oneLine mem⟩

variable {command : Command} {args : List Bytes}

theorem result_oneLine (admitted : command.arity.admits (args.length + 1) = true) (store : Store) :
    (command.result args store).1.OneLine := by
  have absent : Failure.noSuchKey.reply.OneLine :=
    (by decide : '\n' ∉ Failure.noSuchKey.message.toList)
  cases command with
  | ping => trivial
  | flushDb => trivial
  | get =>
      obtain ⟨key, rfl⟩ := single_of_admitted admitted
      exact Message.oneLine_ofBytes? _
  | strLen =>
      obtain ⟨key, rfl⟩ := single_of_admitted admitted
      trivial
  | keyType =>
      obtain ⟨key, rfl⟩ := single_of_admitted admitted
      show '\n' ∉ ((store.get? key).elim "none" Value.kind).toList
      cases store.get? key with
      | none => decide
      | some value => exact (by decide : '\n' ∉ "string".toList)
  | set =>
      obtain ⟨key, value, rfl⟩ := pair_of_admitted admitted
      trivial
  | getSet =>
      obtain ⟨key, value, rfl⟩ := pair_of_admitted admitted
      exact Message.oneLine_ofBytes? _
  | setNx =>
      obtain ⟨key, value, rfl⟩ := pair_of_admitted admitted
      rw [result_setNx]
      split <;> trivial
  | del => trivial
  | keyExists => trivial
  | rename =>
      obtain ⟨source, target, rfl⟩ := pair_of_admitted admitted
      rw [result_rename]
      cases store.get? source with
      | none => exact absent
      | some value => trivial
  | renameNx =>
      obtain ⟨source, target, rfl⟩ := pair_of_admitted admitted
      rw [result_renameNx]
      cases store.get? source with
      | none => exact absent
      | some value =>
          simp only [Option.elim_some]
          split <;> trivial
  | keys =>
      obtain ⟨pattern, rfl⟩ := single_of_admitted admitted
      trivial

end Command

namespace Engine

variable (engine : Engine) (selected : Nat)

theorem exec_select_oneLine {name : Bytes} (named : lowerName name = "select")
    (args : List Bytes) : (engine.exec selected (name :: args)).reply.OneLine := by
  have fixed : ∀ failure : Failure, '\n' ∉ failure.message.toList → failure.reply.OneLine :=
    fun _ absent => absent
  have refused : ∀ failure, engine.selectIndex args = .error failure → failure.reply.OneLine := by
    intro failure refused
    unfold selectIndex at refused
    split at refused
    · split at refused
      · cases refused
        exact fixed _ (by decide)
      · split at refused
        · cases refused
          exact fixed _ (by decide)
        · cases refused
    · cases refused
      exact fixed _ (by decide)
  simp only [exec, if_pos named]
  split
  · trivial
  · next failure found => exact refused failure found

/-- The reply to a line stays on one line exactly if the line's name does. -/
theorem exec_oneLine_iff (line : CommandLine) : (engine.exec selected line).reply.OneLine ↔
    ∀ name args, line = name :: args → lf ∉ name := by
  cases line with
  | nil =>
      refine ⟨fun _ _ _ same => (nomatch same), fun _ => ?_⟩
      show '\n' ∉ Failure.emptyCommand.message.toList
      decide
  | cons name args =>
      have fixed : ∀ breach, (Failure.internal breach).reply.OneLine := fun _ =>
        (by decide : '\n' ∉ "ERR unknown".toList)
      constructor
      · intro oneLine word rest same broken
        obtain ⟨rfl, rfl⟩ := List.cons.inj same
        have named : lowerName name ≠ "select" := fun same => by
          have mem := mem_lowerName broken (by decide) (by decide)
          rw [same] at mem
          exact absurd mem (by decide)
        obtain ⟨failure, unknown, echoed⟩ := Command.lookup_of_lf broken (args.length + 1)
        rw [(exec_of_unknown named unknown engine selected).1] at oneLine
        exact echoed oneLine
      · intro unbroken
        have unbroken := unbroken name args rfl
        by_cases named : lowerName name = "select"
        · exact exec_select_oneLine engine selected named args
        cases known : Command.lookup (lowerName name) (args.length + 1) with
        | error failure =>
            rw [(exec_of_unknown named known engine selected).1]
            exact Command.lookup_failure_oneLine unbroken known
        | ok command =>
            cases present : engine.databases[selected]? with
            | none =>
                simp only [exec, if_neg named, runCommand, known, present, bind, Except.bind]
                exact fixed _
            | some store =>
                rw [(exec_known named known present).1]
                exact Command.result_oneLine (Command.lookup_spec known).2 store

end Engine

namespace Server

open Wire

/-- Whether nothing of a request that its reply repeats has a line feed. -/
def Unbroken : Item → Prop
  | .error (.missingTerminator chunk) => '\n' ∉ chunk.toList
  | .error _ => True
  | .ok message => ∀ name args, message.commandLine? = some (name :: args) → lf ∉ name

theorem fault_oneLine_iff {fault : Fault} (readable : Readable (.error fault)) :
    fault.reply.OneLine ↔ Unbroken (.error fault) := by
  have quoted : fault.reply.OneLine ↔ '\n' ∉ fault.message.toList :=
    Message.quoted_oneLine_iff (by decide) (by decide)
  have named : ∀ {label text : String}, '\n' ∉ label.toList →
      ('\n' ∉ (label ++ text).toList ↔ '\n' ∉ text.toList) := by
    intro label text clear
    simp only [String.toList_append, List.mem_append, clear, false_or]
  rw [quoted]
  cases fault with
  | invalidHeader line => exact iff_of_true ((named (by decide)).mpr readable) trivial
  | unknownPrefix line => exact iff_of_true ((named (by decide)).mpr readable) trivial
  | missingTerminator chunk => exact named (by decide)
  | transport cause => exact readable.elim

theorem answer?_spec (engine : Engine) (selected : Nat) {item : Item} (readable : Readable item) :
    ∃ served, answer? Engine.service engine selected item = some served ∧
      (served.reply.OneLine ↔ Unbroken item) := by
  cases item with
  | error fault =>
      have recoverable : fault.isRecoverable = true := by
        cases fault with
        | transport cause => exact readable.elim
        | _ => rfl
      exact ⟨_, if_pos recoverable, fault_oneLine_iff readable⟩
  | ok message =>
      cases asked : message.commandLine? with
      | none =>
          refine ⟨⟨notCommandLine, selected, engine⟩, by simp only [answer?, asked], ?_⟩
          have fixed : notCommandLine.OneLine :=
            (by decide : '\n' ∉ (String.toList
              "ERR Protocol error: 'expected an array of bulk strings'"))
          exact iff_of_true fixed (by simp [Unbroken, asked])
      | some line =>
          refine ⟨Engine.service engine selected line, by simp only [answer?, asked], ?_⟩
          have spoken := engine.exec_oneLine_iff selected line
          simp only [Unbroken, asked, Option.some.injEq]
          exact spoken

theorem answerAll_spec {items : List Item} (readable : ∀ item ∈ items, Readable item)
    (engine : Engine) (selected : Nat) :
    let replies := (answerAll Engine.service engine selected items).1
    replies.length = items.length ∧
      ((∀ reply ∈ replies, reply.OneLine) ↔ ∀ item ∈ items, Unbroken item) := by
  induction items generalizing engine selected with
  | nil => simp [answerAll]
  | cons item rest ih =>
      obtain ⟨served, answered, oneLine⟩ :=
        answer?_spec engine selected (readable item List.mem_cons_self)
      obtain ⟨length, others⟩ := ih (fun other mem => readable other (List.mem_cons_of_mem _ mem))
        served.state served.selected
      simp only [answerAll, answered, List.length_cons, length, List.forall_mem_cons, oneLine,
        others, and_self]

variable {σ : Type}

theorem answerAll_transport (service : Service σ) (state : σ) (selected : Nat) (items : List Item)
    (cause : String) : answerAll service state selected (items ++ [.error (.transport cause)]) =
      answerAll service state selected items := by
  induction items generalizing state selected with
  | nil => rfl
  | cons item rest ih => simp only [List.cons_append, answerAll, ih]

theorem serve_eq (service : Service σ) (state : σ) (pieces : List Bytes) (ending : Ending) :
    serve service state pieces ending =
      answerAll service state 0 (Decoder.feedAll {} pieces).1 := by
  unfold serve readStream
  cases ending with
  | failed cause => exact answerAll_transport service state 0 _ cause
  | finished =>
      show answerAll service state 0 (_ ++ (if _ then none else some _).toList) = _
      split
      · rw [Option.toList_none, List.append_nil]
      · exact answerAll_transport service state 0 _ _

/-- Replies are read back one by one exactly if each of them stays on its line. -/
theorem decode_written_iff_oneLine {replies : List Message}
    (room : ∀ reply ∈ replies, reply.Addressable) :
    Wire.decode (written replies) = replies.map (.ok ·.normalize) ↔
      ∀ reply ∈ replies, reply.OneLine := by
  constructor
  · intro read reply mem
    have found : .ok reply.normalize ∈ Wire.decode (written replies) := by
      rw [read]
      exact List.mem_map_of_mem mem
    exact Message.oneLine_of_normalize (Decoder.readable_of_mem_drain found)
  · intro oneLine
    have read := Decoder.drain_messages oneLine room []
    rw [Decoder.drain_nil, List.append_nil, List.append_nil] at read
    exact congrArg Prod.fst read

/-- Each request that a server finds in a stream gets one reply, and the client reads from what it
receives these replies and nothing else exactly if no name of a command has a line feed in it, nor
has any line or body without a terminator. -/
theorem decode_written_iff (engine : Engine) (pieces : List Bytes) (ending : Ending)
    (room : ∀ reply ∈ (serve Engine.service engine pieces ending).1, reply.Addressable) :
    let requests := (Decoder.feedAll {} pieces).1
    let replies := (serve Engine.service engine pieces ending).1
    replies.length = requests.length ∧
      (Wire.decode (written replies) = replies.map (.ok ·.normalize) ↔
        ∀ request ∈ requests, Unbroken request) := by
  intro requests replies
  have readable : ∀ request ∈ requests, Readable request := fun _ mem =>
    Decoder.readable_of_mem_feedAll mem
  obtain ⟨length, unbroken⟩ := answerAll_spec readable engine 0
  rw [← serve_eq Engine.service engine pieces ending] at length unbroken
  exact ⟨length, (decode_written_iff_oneLine room).trans unbroken⟩

/-- An unknown command and a malformed header, both repeated to the client on one line. -/
theorem decode_written_iff_on_echoes :
    let pieces : List Bytes := [[0x24, 0x31, 0x0D, 0x0A, 0x78], [0x0D, 0x0A, 0x2A, 0x78, 0x0D, 0x0A]]
    let requests := (Decoder.feedAll {} pieces).1
    let replies := (serve Engine.service (.new 1) pieces .finished).1
    (∀ reply ∈ replies, reply.Addressable) ∧ replies.length = requests.length ∧
      (Wire.decode (written replies) = replies.map (.ok ·.normalize) ↔
        ∀ request ∈ requests, Unbroken request) := by
  intro pieces requests replies
  have answered : replies = [.error "ERR unknown command 'x'",
      .error "ERR Protocol error: 'invalid header: *x'"] := by decide +kernel
  have room : ∀ reply ∈ replies, reply.Addressable := by
    rw [answered]
    simp [Message.Addressable]
  exact ⟨room, decode_written_iff (.new 1) pieces .finished room⟩

/-- A line that ends in a line feed alone is repeated with it, and the client reads two items, neither
of which was written. -/
theorem decode_written_broken :
    let replies := (serve Engine.service (.new 1) [[0x2B, 0x4F, 0x4B, 0x0A]] .finished).1
    replies = [.error "ERR Protocol error: 'missing line terminator: +OK\n'"] ∧
      Wire.decode (written replies) =
        [.error (.missingTerminator "-ERR Protocol error: 'missing line terminator: +OK\n"),
          .error (.unknownPrefix "'")] ∧
      Wire.decode (written replies) ≠ replies.map (.ok ·.normalize) := by
  decide +kernel

end Server

end ShardStore
