import ShardStore.Log.Lifetime
import ShardStore.Log.Race
import ShardStore.Proofs.Command.Execution
import ShardStore.Proofs.Wire.RoundTrip

namespace ShardStore

/-- Whether an entry can be written so that it is read back. -/
def LogEntry.Addressable (entry : LogEntry) : Prop :=
  entry.database ≤ maxLength ∧ entry.line.Addressable

/-- Whether each entry is what the engine logs when it executes the entry behind those in front. -/
def Engine.Logs (engine : Engine) : List LogEntry → Prop
  | [] => True
  | entry :: rest =>
    let done := engine.exec entry.database entry.line
    Execution.entry? done = some entry ∧ done.engine.Logs rest

namespace Engine

theorem logs_append {engine : Engine} {entries more : List LogEntry} :
    engine.Logs (entries ++ more) ↔
      engine.Logs entries ∧ (engine.execEntries entries).Logs more := by
  induction entries generalizing engine with
  | nil => simp [Logs, execEntries]
  | cons entry rest ih =>
      simp only [List.cons_append, Logs, ih, and_assoc]
      rfl

/-- What is logged is no SELECT line, and its database is there. -/
theorem logs_spec {engine : Engine} {entries : List LogEntry} (logs : engine.Logs entries) :
    ∀ entry ∈ entries, (∃ name args, entry.line = name :: args ∧ lowerName name ≠ "select") ∧
      entry.database < engine.count := by
  induction entries generalizing engine with
  | nil => exact fun _ mem => nomatch mem
  | cons first rest ih =>
      intro entry mem
      rcases List.mem_cons.mp mem with rfl | mem
      · exact ⟨not_select_of_logged logs.1, (exec_of_logged logs.1).2.2.2⟩
      · have later := ih logs.2 entry mem
        rwa [exec_count] at later

theorem execEntries_append (engine : Engine) (entries more : List LogEntry) :
    engine.execEntries (entries ++ more) = (engine.execEntries entries).execEntries more :=
  List.foldl_append

theorem exec_selectLine {engine : Engine} {database : Nat} (selected : Nat)
    (fits : database ≤ maxLength) (within : database < engine.count) :
    ∃ notices, engine.exec selected (Log.selectLine database) =
      { reply := .ok, engine, selected := database, notices } := by
  have named : lowerName Log.selectWord = "select" := by decide +kernel
  simp only [exec, Log.selectLine, if_pos named, selectIndex_ofNat fits within]
  exact ⟨_, rfl⟩

end Engine

theorem DurableEngine.exec_unlogged (engine : Engine) (selected : Nat) (line : CommandLine) :
    (unlogged engine).exec selected line =
      (engine.exec selected line, unlogged (engine.exec selected line).engine) := by
  generalize done_eq : engine.exec selected line = done
  obtain ⟨reply, after, switched, entry?, notices⟩ := done
  simp only [exec, unlogged, done_eq]
  cases entry? with
  | none => rfl
  | some entry => simp only [LogState.enqueue, List.append_nil]

@[simp] theorem DurableEngine.unlogged_engine (engine : Engine) :
    (unlogged engine).engine = engine := rfl

namespace Log

def entryLines (current? : Option Nat) (entry : LogEntry) : List CommandLine :=
  (if current? = some entry.database then [] else [selectLine entry.database]) ++ [entry.line]

def entriesLines (current? : Option Nat) : List LogEntry → List CommandLine
  | [] => []
  | entry :: rest => entryLines current? entry ++ entriesLines (some entry.database) rest

/-- Whether a log consists of whole lines. -/
def Spells (file : Bytes) (lines : List CommandLine) : Prop :=
  file = lines.flatMap Wire.encodeLine ∧ ∀ line ∈ lines, line.Addressable

theorem spells_append {file more : Bytes} {lines others : List CommandLine}
    (front : Spells file lines) (back : Spells more others) :
    Spells (file ++ more) (lines ++ others) := by
  refine ⟨by rw [front.1, back.1, List.flatMap_append], fun line mem => ?_⟩
  rcases List.mem_append.mp mem with mem | mem
  · exact front.2 line mem
  · exact back.2 line mem

/-- Even the greatest index of a database has few digits. -/
theorem selectLine_addressable_of_word {database : Nat} (small : database < UInt64.size) :
    (selectLine database).Addressable := by
  have digits := Text.Decimal.ofNat_length_le database
  simp only [CommandLine.Addressable, selectLine, selectWord, List.length_cons, List.length_nil,
    List.mem_cons, List.not_mem_nil, or_false, forall_eq_or_imp, forall_eq]
  simp only [UInt64.size] at small
  unfold maxLength
  omega

theorem selectLine_addressable {database : Nat} (fits : database ≤ maxLength) :
    (selectLine database).Addressable :=
  selectLine_addressable_of_word (Nat.lt_of_le_of_lt fits (by decide))

theorem spells_entry {entry : LogEntry} (addressable : entry.Addressable)
    (current? : Option Nat) : Spells (entryBytes current? entry) (entryLines current? entry) := by
  have alone : Spells (Wire.encodeLine entry.line) [entry.line] :=
    ⟨by simp, by simpa using addressable.2⟩
  unfold entryBytes entryLines
  split
  · exact alone
  · refine spells_append ⟨by simp, ?_⟩ alone
    simpa using selectLine_addressable addressable.1

theorem spells_entries {entries : List LogEntry} (addressable : ∀ e ∈ entries, e.Addressable)
    (current? : Option Nat) :
    Spells (entriesBytes current? entries) (entriesLines current? entries) := by
  induction entries generalizing current? with
  | nil => exact ⟨rfl, by simp [entriesLines]⟩
  | cons entry rest ih =>
      have first := addressable entry List.mem_cons_self
      exact spells_append (spells_entry first current?)
        (ih (fun e mem => addressable e (List.mem_cons_of_mem _ mem)) _)

theorem read_of_spells {file : Bytes} {lines : List CommandLine} (spelled : Spells file lines) :
    read file = lines.map .line := by
  have drained := Decoder.drain_lines lines spelled.2 []
  rw [Decoder.drain_nil, List.append_nil, ← spelled.1] at drained
  have word : ∀ line : CommandLine, LogItem.ofItem (.ok (.ofList line)) = .line line := fun line => by
    simp [LogItem.ofItem, Message.ofList, Function.comp_def]
  simp [read, Wire.readStream, Decoder.feedAll, Decoder.feed, drained, Wire.Ending.item?, word,
    Function.comp_def]

namespace Replay

@[simp] theorem mk_engine (durable : DurableEngine) (selected applied skipped : Nat)
    (replies : List Message) (notices : List Notice) :
    (mk durable selected applied skipped replies notices).engine = durable.engine := rfl

@[simp] theorem prependSkip_engine (later : Replay) (reason : String) :
    (later.prependSkip reason).engine = later.engine := rfl

@[simp] theorem prependSkip_selected (later : Replay) (reason : String) :
    (later.prependSkip reason).selected = later.selected := rfl

@[simp] theorem prependSkip_skipped (later : Replay) (reason : String) :
    (later.prependSkip reason).skipped = later.skipped + 1 := rfl

@[simp] theorem prependLine_engine (later : Replay) (done : Execution) :
    (later.prependLine done).engine = later.engine := by
  unfold prependLine
  cases done.reply.errorText? <;> rfl

@[simp] theorem prependLine_selected (later : Replay) (done : Execution) :
    (later.prependLine done).selected = later.selected := by
  unfold prependLine
  cases done.reply.errorText? <;> rfl

@[simp] theorem prependLine_skipped (later : Replay) (done : Execution) :
    (later.prependLine done).skipped =
      later.skipped + if done.reply.errorText?.isSome then 1 else 0 := by
  unfold prependLine
  cases done.reply.errorText? <;> rfl

theorem ofItems_nil (engine : Engine) (selected : Nat) :
    ofItems engine selected [] = { durable := .unlogged engine, selected } := rfl

/-- A line that is replayed is executed, and nothing else becomes of it. -/
theorem ofItems_line (engine : Engine) (selected : Nat) (line : CommandLine)
    (rest : List LogItem) :
    let done := engine.exec selected line
    ofItems engine selected (.line line :: rest) =
      (ofItems done.engine done.selected rest).prependLine done := by
  simp only [ofItems, through, DurableEngine.exec_unlogged]

theorem ofItems_unexpected (engine : Engine) (selected : Nat) (message : Message)
    (rest : List LogItem) :
    ofItems engine selected (.unexpected message :: rest) =
      (ofItems engine selected rest).prependSkip
        s!"AOF entry is not a command: {message.summary}" := rfl

theorem ofItems_corrupt (engine : Engine) (selected : Nat) (fault : Fault)
    (rest : List LogItem) :
    ofItems engine selected (.corrupt fault :: rest) =
      (ofItems engine selected rest).prependSkip s!"Corrupt AOF entry: {fault.message}" := rfl

@[simp] theorem ofItems_count (engine : Engine) (selected : Nat) (items : List LogItem) :
    (ofItems engine selected items).engine.count = engine.count := by
  induction items generalizing engine selected with
  | nil => rfl
  | cons item rest ih =>
      cases item with
      | line line => rw [ofItems_line, prependLine_engine, ih, Engine.exec_count]
      | unexpected message => rw [ofItems_unexpected, prependSkip_engine, ih]
      | corrupt fault => rw [ofItems_corrupt, prependSkip_engine, ih]

/-- Items are replayed one part after the other, on the connection as the first part left it. -/
theorem ofItems_append (engine : Engine) (selected : Nat) (items more : List LogItem) :
    let first := ofItems engine selected items
    let second := ofItems first.engine first.selected more
    let whole := ofItems engine selected (items ++ more)
    whole.engine = second.engine ∧ whole.selected = second.selected ∧
      whole.skipped = first.skipped + second.skipped := by
  induction items generalizing engine selected with
  | nil => simp [ofItems_nil]
  | cons item rest ih =>
      cases item with
      | line line =>
          obtain ⟨engines, selections, skips⟩ :=
            ih (engine.exec selected line).engine (engine.exec selected line).selected
          simp only [List.cons_append, ofItems_line, prependLine_engine, prependLine_selected,
            prependLine_skipped, engines, selections, skips, true_and]
          omega
      | unexpected message =>
          obtain ⟨engines, selections, skips⟩ := ih engine selected
          simp only [List.cons_append, ofItems_unexpected, prependSkip_engine, prependSkip_selected,
            prependSkip_skipped, engines, selections, skips, true_and]
          omega
      | corrupt fault =>
          obtain ⟨engines, selections, skips⟩ := ih engine selected
          simp only [List.cons_append, ofItems_corrupt, prependSkip_engine, prependSkip_selected,
            prependSkip_skipped, engines, selections, skips, true_and]
          omega

/-- The lines of an entry put the connection on the entry's database and repeat what was logged. -/
theorem ofItems_entry {engine : Engine} {entry : LogEntry} {current? : Option Nat} {selected : Nat}
    (logged : Execution.entry? (engine.exec entry.database entry.line) = some entry)
    (fits : entry.database ≤ maxLength) (stands : ∀ database, current? = some database →
      selected = database) :
    let replayed := ofItems engine selected ((entryLines current? entry).map .line)
    replayed.engine = (engine.exec entry.database entry.line).engine ∧
      replayed.selected = entry.database ∧ replayed.skipped = 0 := by
  obtain ⟨-, kept, plain, within⟩ := Engine.exec_of_logged logged
  unfold entryLines
  split
  · next same =>
    rw [stands _ same]
    simp [ofItems_line, ofItems_nil, kept, plain]
  · obtain ⟨notices, switched⟩ := Engine.exec_selectLine selected fits within
    have silent : Message.ok.errorText? = none := rfl
    simp [ofItems_line, ofItems_nil, switched, kept, plain, silent]

theorem ofItems_entries {engine : Engine} {entries : List LogEntry} (current? : Option Nat)
    (selected : Nat) (logs : engine.Logs entries) (addressable : ∀ e ∈ entries, e.Addressable)
    (stands : ∀ database, current? = some database → selected = database) :
    let replayed := ofItems engine selected ((entriesLines current? entries).map .line)
    replayed.engine = engine.execEntries entries ∧ replayed.skipped = 0 := by
  induction entries generalizing engine current? selected with
  | nil => exact ⟨rfl, rfl⟩
  | cons entry rest ih =>
      obtain ⟨logged, more⟩ := logs
      have fits := (addressable entry List.mem_cons_self).1
      obtain ⟨engines, switched, skips⟩ := ofItems_entry logged fits stands
      have front : ∀ database, some entry.database = some database →
          (ofItems engine selected ((entryLines current? entry).map .line)).selected = database :=
        fun database same => switched.trans (Option.some.inj same)
      obtain ⟨tailEngines, tailSkips⟩ :=
        ih _ _ more (fun e mem => addressable e (List.mem_cons_of_mem _ mem)) front
      obtain ⟨wholeEngines, -, wholeSkips⟩ := ofItems_append engine selected
        ((entryLines current? entry).map .line) ((entriesLines (some entry.database) rest).map .line)
      rw [engines] at wholeEngines wholeSkips
      simp only [entriesLines, List.map_append]
      rw [wholeEngines, wholeSkips, skips, tailSkips]
      exact ⟨tailEngines, rfl⟩

end Replay

theorem replay_of_spells (engine : Engine) {file : Bytes} {lines : List CommandLine}
    (spelled : Spells file lines) :
    replay engine (some file) = .ofItems engine 0 (lines.map .line) := by
  rw [replay, Option.map_some, Option.getD_some, read_of_spells spelled]

/-- A log that does not exist is replayed as an empty one. -/
theorem replay_getD (engine : Engine) (file? : Option Bytes) :
    replay engine file? = replay engine (some (file?.getD [])) := by
  cases file? with
  | none =>
      have empty : Spells [] [] := ⟨rfl, by simp⟩
      exact (replay_of_spells engine empty).symm
  | some file => rfl

/-- The lines that an engine is opened with are not logged again: its log begins behind the file. -/
theorem opened_logged (databases : Nat) (policy : SyncPolicy) (file? : Option Bytes) (now : Time) :
    DurableEngine.opened ⟨databases, true, policy⟩ file? now =
      { engine := (replay (.new databases) file?).engine
        log := .running (.opened policy file? now) [] } := rfl

/-- Nothing is loaded from a log that does not exist or is empty. -/
theorem replay_of_fresh (engine : Engine) {file? : Option Bytes} (fresh : file?.getD [] = []) :
    (replay engine file?).engine = engine := by
  have empty : Spells (file?.getD []) [] := ⟨fresh, by simp⟩
  rw [replay_getD, replay_of_spells engine empty]
  rfl

end Log

end ShardStore
