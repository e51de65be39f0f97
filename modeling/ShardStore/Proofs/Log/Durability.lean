import ShardStore.Proofs.Log.Replaying

namespace ShardStore

namespace Log

def switched (current? : Option Nat) (entries : List LogEntry) : Option Nat :=
  entries.foldl (fun _ entry => some entry.database) current?

theorem entriesBytes_append (current? : Option Nat) (entries more : List LogEntry) :
    entriesBytes current? (entries ++ more) =
      entriesBytes current? entries ++ entriesBytes (switched current? entries) more := by
  induction entries generalizing current? with
  | nil => rfl
  | cons entry rest ih =>
      simp only [List.cons_append, entriesBytes, ih, List.append_assoc]
      rfl

theorem switched_append (current? : Option Nat) (entries more : List LogEntry) :
    switched current? (entries ++ more) = switched (switched current? entries) more :=
  List.foldl_append

namespace Writer

/-- What the file holds when everything gathered is in it. -/
def contents (writer : Writer) : Bytes :=
  writer.file ++ writer.gathered

@[simp] theorem pushOut_contents (writer : Writer) : writer.pushOut.contents = writer.contents := by
  simp [contents, pushOut]

@[simp] theorem flush_contents (writer : Writer) (now : Time) :
    (writer.flush now).contents = writer.contents := by
  unfold flush
  split
  · exact writer.pushOut_contents
  · exact writer.pushOut_contents

@[simp] theorem flush_current? (writer : Writer) (now : Time) :
    (writer.flush now).current? = writer.current? := by
  unfold flush
  split <;> rfl

theorem writeAll_spec (writer : Writer) (entries : List LogEntry) :
    (entries.foldl write writer).contents =
        writer.contents ++ entriesBytes writer.current? entries ∧
      (entries.foldl write writer).current? = switched writer.current? entries := by
  induction entries generalizing writer with
  | nil => exact ⟨by simp [entriesBytes], rfl⟩
  | cons entry rest ih =>
      obtain ⟨bytes, database⟩ := ih (writer.write entry)
      refine ⟨?_, database⟩
      rw [List.foldl_cons, bytes]
      simp [contents, write, entriesBytes]

end Writer

theorem takeBatch_appends (writer : Writer) (entries : List LogEntry) (rest : List Request) :
    takeBatch writer (entries.map .append ++ rest) =
      takeBatch (entries.foldl Writer.write writer) rest := by
  induction entries generalizing writer with
  | nil => rfl
  | cons entry more ih => exact ih (writer.write entry)

theorem wake_appends (writer : Writer) (now : Time) (first : LogEntry) (more : List LogEntry) :
    (({ writer } : Loop).wake (.batch now (.append first) (more.map .append))).writer =
      ((first :: more).foldl Writer.write writer).flush now := by
  have taken := takeBatch_appends writer (first :: more) []
  simp only [List.map_cons, List.append_nil, takeBatch] at taken
  simp only [Loop.wake, takeBatch, taken]
  rfl

/-- A shutdown leaves everything queued in front of it in the file. -/
theorem drain_shutdown (writer : Writer) (now : Time) (entries : List LogEntry) :
    (drain writer now (entries.map .append ++ [.shutdown])).writer.file =
      writer.contents ++ entriesBytes writer.current? entries := by
  have taken := takeBatch_appends writer entries [.shutdown]
  obtain ⟨bytes, -⟩ := writer.writeAll_spec entries
  cases requests : entries.map Request.append ++ [.shutdown] with
  | nil => simp at requests
  | cons first more =>
      rw [requests] at taken
      simp only [takeBatch] at taken
      simp only [drain, Loop.run, List.foldl_cons, List.foldl_nil, Loop.wake, taken]
      exact bytes

end Log

namespace LogState

open Log

/-- Whether a log at work on a file will leave, when it is closed, the file with entries behind. -/
def Records (log : LogState) (file : Bytes) (entries : List LogEntry) : Prop :=
  ∃ writer queued, log = .running writer queued ∧
    writer.contents ++ entriesBytes writer.current? queued = file ++ entriesBytes none entries ∧
    switched writer.current? queued = switched none entries

theorem opened_records (policy : SyncPolicy) (file? : Option Bytes) (now : Time) :
    Records (.running (.opened policy file? now) []) (file?.getD []) [] :=
  ⟨_, _, rfl, by simp [Writer.contents, Writer.opened, entriesBytes], rfl⟩

variable {log : LogState} {file : Bytes} {entries : List LogEntry}

theorem enqueue_records (records : log.Records file entries) (entry : LogEntry) :
    (log.enqueue entry).1.Records file (entries ++ [entry]) := by
  obtain ⟨writer, queued, rfl, bytes, database⟩ := records
  refine ⟨writer, queued ++ [entry], rfl, ?_, ?_⟩
  · rw [entriesBytes_append, entriesBytes_append, database, ← List.append_assoc, bytes,
      List.append_assoc]
  · rw [switched_append, switched_append, database]

theorem work_records (records : log.Records file entries) (now : Time) :
    (log.work now).Records file entries := by
  obtain ⟨writer, queued, rfl, bytes, database⟩ := records
  cases queued with
  | nil => exact ⟨writer, [], rfl, bytes, database⟩
  | cons first more =>
      obtain ⟨written, current⟩ := writer.writeAll_spec (first :: more)
      simp only [work, wake_appends]
      refine ⟨_, [], rfl, ?_, ?_⟩
      · rw [Writer.flush_contents, written, ← bytes, entriesBytes, List.append_nil]
      · rw [Writer.flush_current?, current, ← database]
        rfl

theorem close_records (records : log.Records file entries) (now : Time) :
    (log.close now).file? = some (file ++ entriesBytes none entries) := by
  obtain ⟨writer, queued, rfl, bytes, -⟩ := records
  simp only [close, file?, drain_shutdown, bytes]

end LogState

/-- A durable engine does to its databases and its connection what the engine alone does. -/
theorem DurableEngine.exec_spec (durable : DurableEngine) (selected : Nat) (line : CommandLine) :
    let done := durable.engine.exec selected line
    let result := durable.exec selected line
    result.1.reply = done.reply ∧ result.1.selected = done.selected ∧
      result.2.engine = done.engine ∧
      result.2.log = done.entry?.elim durable.log fun entry => (durable.log.enqueue entry).1 := by
  simp only [DurableEngine.exec]
  cases Execution.entry? (durable.engine.exec selected line) with
  | none => exact ⟨rfl, rfl, rfl, rfl⟩
  | some entry => exact ⟨rfl, rfl, rfl, rfl⟩

/-- Clients of a durable engine get what its databases make of their lines, whatever its log does. -/
theorem Clients.call_spec {κ : Type} [DecidableEq κ] (clients : Clients κ DurableEngine)
    (call : Call κ) :
    let done := clients.state.engine.exec (clients.selections call.connection) call.line
    let called := clients.call (fun _ => DurableEngine.service) call
    called.1 = done.reply ∧ called.2.state.engine = done.engine ∧
      called.2.selections = clients.selections.select call.connection done.selected := by
  obtain ⟨reply, shown, engine, -⟩ :=
    clients.state.exec_spec (clients.selections call.connection) call.line
  exact ⟨reply, engine, congrArg (clients.selections.select call.connection) shown⟩

namespace Lifetime

open Log LogState

variable {κ : Type} [DecidableEq κ]

def Addressable (lifetime : Lifetime κ) : Prop :=
  ∀ call, .call call ∈ lifetime.activities → call.line.Addressable

/-- The entry that an activity adds to the log, if any. -/
def added? (clients : Clients κ DurableEngine) : Activity κ → Option LogEntry
  | .call call =>
    let selected := clients.selections call.connection
    Execution.entry? (clients.state.engine.exec selected call.line)
  | .work _ => none

def loggedIn (clients : Clients κ DurableEngine) : List (Activity κ) → List LogEntry
  | [] => []
  | activity :: rest => (added? clients activity).toList ++ loggedIn (act clients activity) rest

/-- The entries that a lifetime adds to the log, in the order in which they were executed. -/
def logged (lifetime : Lifetime κ) (options : DurableOptions) (file? : Option Bytes) :
    List LogEntry :=
  loggedIn { state := .opened options file? lifetime.openedAt } lifetime.activities

/-- What holds while an engine that began as `start` runs on a log with a file. -/
structure Recorded (start : Engine) (file : Bytes) (entries : List LogEntry)
    (clients : Clients κ DurableEngine) : Prop where
  records : clients.state.log.Records file entries
  logs : start.Logs entries
  addressable : ∀ entry ∈ entries, entry.Addressable
  engine : clients.state.engine = start.execEntries entries
  selections : ∀ connection, clients.selections connection ≤ maxLength

variable {start : Engine} {file : Bytes} {entries : List LogEntry}
  {clients : Clients κ DurableEngine}

theorem call_recorded (recorded : Recorded start file entries clients) {call : Call κ}
    (room : call.line.Addressable) :
    Recorded start file (entries ++ (added? clients (.call call)).toList)
      (clients.call (fun _ => DurableEngine.service) call).2 := by
  have fits := recorded.selections call.connection
  generalize chosen : clients.selections call.connection = selected at fits
  obtain ⟨-, shown, after, log⟩ := clients.state.exec_spec selected call.line
  have selections : ∀ connection,
      (clients.call (fun _ => DurableEngine.service) call).2.selections connection ≤ maxLength := by
    intro connection
    simp only [Clients.call, DurableEngine.service, Selections.select, chosen, shown]
    split
    · exact Engine.exec_selected_le fits
    · exact recorded.selections connection
  simp only [added?, chosen]
  cases logged : Execution.entry? (clients.state.engine.exec selected call.line) with
  | none =>
      rw [logged] at log
      refine ⟨?_, ?_, ?_, ?_, selections⟩
      · simpa [Clients.call, DurableEngine.service, chosen, log] using recorded.records
      · simpa using recorded.logs
      · simpa using recorded.addressable
      · simpa [Clients.call, DurableEngine.service, chosen, after, Engine.exec_of_unlogged logged]
          using recorded.engine
  | some entry =>
      rw [logged] at log
      obtain ⟨rfl, -, -, -⟩ := Engine.exec_of_logged logged
      refine ⟨?_, ?_, ?_, ?_, selections⟩
      · simpa [Clients.call, DurableEngine.service, chosen, log] using
          enqueue_records recorded.records ⟨selected, call.line⟩
      · rw [Option.toList_some, Engine.logs_append, ← recorded.engine]
        exact ⟨recorded.logs, logged, trivial⟩
      · intro entry mem
        rcases List.mem_append.mp mem with mem | mem
        · exact recorded.addressable entry mem
        · rw [List.mem_singleton.mp mem]
          exact ⟨fits, room⟩
      · rw [Option.toList_some, Engine.execEntries_append, ← recorded.engine]
        simp only [Clients.call, DurableEngine.service, chosen, after]
        rfl

theorem act_recorded (recorded : Recorded start file entries clients) (activity : Activity κ)
    (room : ∀ call, activity = .call call → call.line.Addressable) :
    Recorded start file (entries ++ (added? clients activity).toList) (act clients activity) := by
  cases activity with
  | call call => exact call_recorded recorded (room call rfl)
  | work now =>
      rw [added?, Option.toList_none, List.append_nil]
      exact { recorded with records := work_records recorded.records now }

theorem acts_recorded {activities : List (Activity κ)}
    (recorded : Recorded start file entries clients)
    (room : ∀ call, .call call ∈ activities → call.line.Addressable) :
    Recorded start file (entries ++ loggedIn clients activities) (activities.foldl act clients) := by
  induction activities generalizing entries clients with
  | nil => simpa [loggedIn] using recorded
  | cons activity rest ih =>
      have first := act_recorded recorded activity fun call same => room call (by simp [same])
      have whole := ih first fun call mem => room call (List.mem_cons_of_mem _ mem)
      rw [List.append_assoc] at whole
      exact whole

/-- While an engine runs, its log holds what it was opened on and the entries that made its
databases what they are. -/
theorem live_recorded {lifetime : Lifetime κ} (room : lifetime.Addressable) (databases : Nat)
    (policy : SyncPolicy) (file? : Option Bytes) :
    Recorded (replay (.new databases) file?).engine (file?.getD [])
      (lifetime.logged ⟨databases, true, policy⟩ file?)
      (lifetime.live ⟨databases, true, policy⟩ file?) := by
  let clients : Clients κ DurableEngine :=
    { state := .opened ⟨databases, true, policy⟩ file? lifetime.openedAt }
  have begun : Recorded (replay (.new databases) file?).engine (file?.getD []) [] clients :=
    ⟨opened_records policy file? lifetime.openedAt, trivial, by simp, rfl, fun _ => Nat.zero_le _⟩
  exact acts_recorded begun room

/-- A log of whole lines is one again when the engine is closed. Replaying it makes the databases of
that engine, and passes over none of the lines that were added. -/
theorem closed_spells {lifetime : Lifetime κ} (room : lifetime.Addressable) (databases : Nat)
    (policy : SyncPolicy) {file? : Option Bytes} {lines : List CommandLine}
    (spelled : Spells (file?.getD []) lines) :
    let entries := lifetime.logged ⟨databases, true, policy⟩ file?
    let file := file?.getD [] ++ entriesBytes none entries
    fileAfter ⟨databases, true, policy⟩ file? lifetime = some file ∧
      Spells file (lines ++ entriesLines none entries) ∧
      (replay (.new databases) (some file)).engine =
        (lifetime.live ⟨databases, true, policy⟩ file?).state.engine ∧
      (replay (.new databases) (some file)).skipped =
        (replay (.new databases) file?).skipped := by
  intro entries file
  have recorded := live_recorded room databases policy file?
  have written : Spells file (lines ++ entriesLines none entries) :=
    spells_append spelled (spells_entries recorded.addressable none)
  have before := replay_of_spells (.new databases) spelled
  have after := replay_of_spells (.new databases) written
  rw [← replay_getD] at before
  refine ⟨close_records recorded.records lifetime.closedAt, written, ?_⟩
  obtain ⟨engines, -, skips⟩ := Replay.ofItems_append (.new databases) 0 (lines.map .line)
    ((entriesLines none entries).map .line)
  rw [← List.map_append, ← before, ← after] at engines skips
  obtain ⟨again, plain⟩ := Replay.ofItems_entries none _ recorded.logs recorded.addressable
    fun _ none => by cases none
  rw [engines, skips, again, plain]
  exact ⟨recorded.engine.symm, rfl⟩

/-- The log after lifetimes that may each have a sync policy of its own. -/
def fileAfterEach (databases : Nat) (file? : Option Bytes)
    (runs : List (SyncPolicy × Lifetime κ)) : Option Bytes :=
  runs.foldl (fun file? run => run.2.fileAfter ⟨databases, true, run.1⟩ file?) file?

theorem fileAfterEach_append (databases : Nat) (file? : Option Bytes)
    (runs more : List (SyncPolicy × Lifetime κ)) :
    fileAfterEach databases file? (runs ++ more) =
      fileAfterEach databases (fileAfterEach databases file? runs) more :=
  List.foldl_append

/-- The entries that each of some lifetimes adds to the log. -/
def loggedByEach (databases : Nat) (file? : Option Bytes) :
    List (SyncPolicy × Lifetime κ) → List (List LogEntry)
  | [] => []
  | (policy, lifetime) :: rest =>
    let options : DurableOptions := ⟨databases, true, policy⟩
    lifetime.logged options file? ::
      loggedByEach databases (lifetime.fileAfter options file?) rest

theorem each_spells (databases : Nat) {runs : List (SyncPolicy × Lifetime κ)}
    (room : ∀ run ∈ runs, run.2.Addressable) {file? : Option Bytes} {lines : List CommandLine}
    (spelled : Spells (file?.getD []) lines) :
    Spells ((fileAfterEach databases file? runs).getD [])
        (lines ++ (loggedByEach databases file? runs).flatMap (entriesLines none)) ∧
      (replay (.new databases) (fileAfterEach databases file? runs)).skipped =
        (replay (.new databases) file?).skipped := by
  induction runs generalizing file? lines with
  | nil => exact ⟨by simpa [fileAfterEach, loggedByEach] using spelled, rfl⟩
  | cons run rest ih =>
      obtain ⟨closed, whole, -, skips⟩ :=
        closed_spells (room run List.mem_cons_self) databases run.1 spelled
      obtain ⟨wholeRest, skipsRest⟩ := ih (fun other mem => room other (by simp [mem]))
        (show Spells ((some _).getD []) _ from whole)
      have first : fileAfterEach databases file? (run :: rest) = fileAfterEach databases
          (some (file?.getD [] ++
            entriesBytes none (run.2.logged ⟨databases, true, run.1⟩ file?))) rest := by
        simp only [fileAfterEach, List.foldl_cons, closed]
      rw [first, loggedByEach, closed, List.flatMap_cons, ← List.append_assoc]
      exact ⟨wholeRest, skipsRest.trans skips⟩

/-- However often an engine has been closed and opened again, it is opened with the databases that it
was closed with, and its log has no line that a replay passes over. A command line always has room in
memory, since it was there when it was executed. -/
theorem reopened_engine (databases : Nat) (file? : Option Bytes)
    (before : List (SyncPolicy × Lifetime κ)) (last : SyncPolicy × Lifetime κ)
    (policy : SyncPolicy) (now : Time) (fresh : file?.getD [] = [])
    (room : ∀ run ∈ before ++ [last], run.2.Addressable) :
    let found? := fileAfterEach databases file? before
    let left? := fileAfterEach databases file? (before ++ [last])
    (DurableEngine.opened ⟨databases, true, policy⟩ left? now).engine =
        (last.2.live ⟨databases, true, last.1⟩ found?).state.engine ∧
      (replay (.new databases) left?).skipped = 0 := by
  have empty : Spells (file?.getD []) [] := ⟨fresh, by simp⟩
  have silent : (replay (.new databases) file?).skipped = 0 := by
    rw [replay_getD, replay_of_spells _ empty]
    rfl
  obtain ⟨whole, skips⟩ :=
    each_spells databases (fun run mem => room run (List.mem_append_left [last] mem)) empty
  obtain ⟨closed, -, engines, added⟩ :=
    closed_spells (room last (by simp)) databases last.1 whole
  have left := (fileAfterEach_append databases file? before [last]).trans closed
  simp only [left, opened_logged]
  exact ⟨engines, by rw [added, skips, silent]⟩

theorem reopened_engine_on_two_databases :
    let set : CommandLine := [[0x73, 0x65, 0x74], [0x6B], Bytes.crlf]
    let first : Lifetime Bool :=
      { activities := [.call ⟨true, selectLine 1⟩, .call ⟨true, set⟩, .call ⟨false, set⟩, .work 5] }
    let last : Lifetime Bool :=
      { activities := [.call ⟨false, [[0x64, 0x65, 0x6C], [0x6B]]⟩, .call ⟨true, []⟩] }
    let left? := fileAfterEach 2 none [(.always, first), (.never, last)]
    (DurableEngine.opened ⟨2, true, .everySecond⟩ left? 9).engine =
        (last.live ⟨2, true, .never⟩ (fileAfterEach 2 none [(.always, first)])).state.engine ∧
      (replay (.new 2) left?).skipped = 0 := by
  intro set first last
  refine reopened_engine 2 none [(.always, first)] (.never, last) .everySecond 9 rfl ?_
  have digits := selectLine_addressable (show 1 ≤ maxLength by decide)
  intro run mem
  simp only [List.cons_append, List.nil_append, List.mem_cons, List.not_mem_nil, or_false] at mem
  rcases mem with rfl | rfl
  · simpa [Addressable, first, set, CommandLine.Addressable, Bytes.crlf, maxLength] using digits
  · simp [Addressable, last, CommandLine.Addressable, maxLength]

end Lifetime

end ShardStore
