import Mathlib.Data.List.Infix
import ShardStore.Proofs.Log.Durability

namespace ShardStore

open Log

theorem Log.entriesBytes_eq (current? : Option Nat) (entries : List LogEntry) :
    entriesBytes current? entries = (entriesLines current? entries).flatMap Wire.encodeLine := by
  induction entries generalizing current? with
  | nil => rfl
  | cons entry rest ih =>
      simp only [entriesBytes, entriesLines, List.flatMap_append, ih, entryBytes, entryLines]
      split <;> simp

theorem Log.Writer.writeAll_file (writer : Writer) (entries : List LogEntry) :
    (entries.foldl write writer).file = writer.file := by
  induction entries generalizing writer with
  | nil => rfl
  | cons entry rest ih => exact ih (writer.write entry)

theorem Log.Writer.file_prefix_flush (writer : Writer) (now : Time) :
    writer.file <+: (writer.flush now).file := by
  unfold flush
  split <;> exact List.prefix_append _ _

namespace LogState

/-- Whether all that the file of one log holds stands at the front of the other's. -/
def Extends (before after : LogState) : Prop :=
  before.file?.getD [] <+: after.file?.getD []

theorem enqueue_extends (log : LogState) (entry : LogEntry) : log.Extends (log.enqueue entry).1 := by
  cases log <;> exact List.prefix_rfl

theorem work_extends (log : LogState) (now : Time) : log.Extends (log.work now) := by
  cases log with
  | unlogged file? => exact List.prefix_rfl
  | stopped file => exact List.prefix_rfl
  | running writer queued =>
      cases queued with
      | nil => exact List.prefix_rfl
      | cons first more =>
          have flushed := ((first :: more).foldl Writer.write writer).file_prefix_flush now
          rw [Writer.writeAll_file, ← wake_appends] at flushed
          exact flushed

variable {log : LogState} {file : Bytes} {entries : List LogEntry}

theorem close_stopped (records : log.Records file entries) (now : Time) :
    log.close now = .stopped (file ++ entriesBytes none entries) := by
  obtain ⟨writer, queued, rfl, bytes, -⟩ := records
  simp only [close, drain_shutdown, bytes]

end LogState

/-- An engine and its clients as they are in memory, without the log. -/
def Clients.memory {κ : Type} (clients : Clients κ DurableEngine) : Clients κ Engine :=
  ⟨clients.state.engine, clients.selections⟩

theorem Clients.call_memory {κ : Type} [DecidableEq κ] (clients : Clients κ DurableEngine)
    (call : Call κ) :
    (clients.call (fun _ => DurableEngine.service) call).2.memory =
      (clients.memory.call (fun _ => Engine.service) call).2 := by
  obtain ⟨-, engine, selections⟩ := clients.call_spec call
  exact congrArg₂ Clients.mk engine selections

namespace Lifetime

variable {κ : Type} [DecidableEq κ] {clients : Clients κ DurableEngine} {file : Bytes}
  {entries : List LogEntry}

theorem act_records (records : clients.state.log.Records file entries) (activity : Activity κ) :
    (act clients activity).state.log.Records file (entries ++ (added? clients activity).toList) := by
  cases activity with
  | work now =>
      rw [added?, Option.toList_none, List.append_nil]
      exact LogState.work_records records now
  | call call =>
      obtain ⟨-, -, -, log⟩ :=
        clients.state.exec_spec (clients.selections call.connection) call.line
      simp only [act, Clients.call, DurableEngine.service, added?, log]
      cases Execution.entry? (clients.state.engine.exec (clients.selections call.connection)
          call.line) with
      | none => simpa using records
      | some entry => exact LogState.enqueue_records records entry

theorem acts_records (records : clients.state.log.Records file entries)
    (activities : List (Activity κ)) :
    (activities.foldl act clients).state.log.Records file
      (entries ++ loggedIn clients activities) := by
  induction activities generalizing clients entries with
  | nil => simpa [loggedIn] using records
  | cons activity rest ih =>
      have whole := ih (act_records records activity)
      rw [List.append_assoc] at whole
      exact whole

theorem act_extends (clients : Clients κ DurableEngine) (activity : Activity κ) :
    clients.state.log.Extends (act clients activity).state.log := by
  cases activity with
  | work now => exact LogState.work_extends _ now
  | call call =>
      obtain ⟨-, -, -, log⟩ :=
        clients.state.exec_spec (clients.selections call.connection) call.line
      simp only [act, Clients.call, DurableEngine.service, log]
      cases Execution.entry? (clients.state.engine.exec (clients.selections call.connection)
          call.line) with
      | none => exact List.prefix_rfl
      | some entry => exact LogState.enqueue_extends _ entry

theorem acts_extends (clients : Clients κ DurableEngine) (activities : List (Activity κ)) :
    clients.state.log.Extends (activities.foldl act clients).state.log := by
  induction activities generalizing clients with
  | nil => exact List.prefix_rfl
  | cons activity rest ih => exact (act_extends clients activity).trans (ih (act clients activity))

end Lifetime

namespace Run

variable {κ : Type} [DecidableEq κ]

/-- The calls among late activities. -/
def lateCalls (late : List (LateActivity κ)) : List (Call κ) :=
  late.filterMap fun activity =>
    match activity with
    | .call call => some call
    | _ => none

/-- Behind its last shutdown an engine goes on in memory, and its file stays what it is. -/
theorem late_spec {clients : Clients κ DurableEngine} {file : Bytes}
    (stopped : clients.state.log = .stopped file) (late : List (LateActivity κ)) :
    let after := late.foldl lateAct clients
    after.state.log = .stopped file ∧
      after.memory = (clients.memory.callAll (fun _ => Engine.service) (lateCalls late)).2 := by
  induction late generalizing clients with
  | nil => exact ⟨stopped, rfl⟩
  | cons activity rest ih =>
      cases activity with
      | work now =>
          have still : (lateAct clients (.work now)).state.log = .stopped file := by
            simp only [lateAct, DurableEngine.work, stopped, LogState.work]
          exact ih still
      | close now =>
          have still : (lateAct clients (.close now)).state.log = .stopped file := by
            simp only [lateAct, DurableEngine.close, stopped, LogState.close]
          exact ih still
      | call call =>
          obtain ⟨-, -, -, log⟩ :=
            clients.state.exec_spec (clients.selections call.connection) call.line
          have still : (clients.call (fun _ => DurableEngine.service) call).2.state.log =
              .stopped file := by
            simp only [Clients.call, DurableEngine.service, log, stopped]
            cases Execution.entry? (clients.state.engine.exec
              (clients.selections call.connection) call.line) <;> rfl
          obtain ⟨kept, memory⟩ := ih still
          rw [Clients.call_memory] at memory
          exact ⟨kept, memory⟩

/-- Whatever runs came before, and whatever the file held at first: opening an engine on what the
last run left adds nothing to it. While the engine runs, all of it stays at the front of the file,
and when the engine is closed there stand behind it the lines that were logged, in the order in
which they were executed, and a SELECT line before the first of them and wherever the database
changes. That is what the next run finds: lines that come later are executed in memory as if there
had never been a log, and add nothing, nor does closing the engine again. -/
theorem appends (databases : Nat) (file? : Option Bytes) (before : List (Run κ)) (run : Run κ) :
    let found? := fileAfterAll databases file? before
    let options := run.options databases
    let start : Clients κ DurableEngine :=
      { state := .opened options found? run.lifetime.openedAt }
    let closed := run.closed databases found?
    let logged := entriesLines none (run.lifetime.logged options found?)
    let whole := found?.getD [] ++ logged.flatMap Wire.encodeLine
    start.state.log.file? = some (found?.getD []) ∧
      (∀ count, start.state.log.Extends
        ((run.lifetime.activities.take count).foldl Lifetime.act start).state.log) ∧
      closed.state.log.file? = some whole ∧
      (∀ count,
        let late := run.late.take count
        let after := late.foldl lateAct closed
        after.state.log.file? = some whole ∧
          after.memory = (closed.memory.callAll (fun _ => Engine.service) (lateCalls late)).2) ∧
      fileAfterAll databases file? (before ++ [run]) = some whole := by
  intro found? options start closed logged whole
  have begun : start.state.log.Records (found?.getD []) [] :=
    LogState.opened_records run.policy found? run.lifetime.openedAt
  have records := Lifetime.acts_records begun run.lifetime.activities
  have stopped : closed.state.log = .stopped whole := by
    have shut := LogState.close_stopped records run.lifetime.closedAt
    rw [List.nil_append, entriesBytes_eq] at shut
    exact shut
  have late := fun count => late_spec stopped (run.late.take count)
  refine ⟨rfl, fun count => Lifetime.acts_extends start _, congrArg LogState.file? stopped,
    fun count => ⟨congrArg LogState.file? (late count).1, (late count).2⟩, ?_⟩
  have left := (late_spec stopped run.late).1
  rw [fileAfterAll, List.foldl_append]
  exact congrArg LogState.file? left

end Run

end ShardStore
