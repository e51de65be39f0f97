import ShardStore.Proofs.Command.Locality
import ShardStore.Service

namespace ShardStore

namespace Failure

theorem wrongArity_length (name : String) :
    (wrongArity name).message.length = 35 + name.length + 9 := by
  change (toString "ERR wrong number of arguments for '" ++ toString name ++
    toString "' command").length = _
  rw [String.length_append, String.length_append]
  rfl

theorem unknownCommand_length (name : String) :
    (unknownCommand name).message.length = 21 + name.length + 1 := by
  change (toString "ERR unknown command '" ++ toString name ++ toString "'").length = _
  rw [String.length_append, String.length_append]
  rfl

/-- No other failure is reported in the words in which every breach is. -/
theorem eq_internal_of_message {failure : Failure} {breach : Breach}
    (same : failure.message = (internal breach).message) :
    ∃ breach, failure = .internal breach := by
  have short : (internal breach).message.length = 11 := by
    change "ERR unknown".length = 11
    decide +kernel
  have length : failure.message.length = 11 := by rw [same, short]
  cases failure with
  | internal breach => exact ⟨breach, rfl⟩
  | wrongArity name =>
      rw [wrongArity_length] at length
      omega
  | unknownCommand name =>
      rw [unknownCommand_length] at length
      omega
  | _ => exact absurd length (by decide +kernel)

end Failure

/-- A move that may overwrite is never refused. -/
theorem Store.rename_overwriting (store : Store) (source target : Bytes) :
    (store.rename source target false).1 ≠ .destinationExists := by
  intro refused
  rw [Store.rename, Bool.false_and] at refused
  cases held : store.get? source with
  | none =>
      rw [held] at refused
      cases refused
  | some value =>
      rw [held] at refused
      cases refused

namespace Command

variable {command : Command} {args : List Bytes} {breach : Breach}

/-- With as many arguments as it admits, a command takes effect or lacks the key it is about. -/
theorem execute_admitted (admitted : command.arity.admits (args.length + 1) = true)
    (store : Store) :
    (∃ effect, command.execute args store = .ok effect) ∨
      command.execute args store = .error .noSuchKey := by
  cases command with
  | ping => exact .inl ⟨_, rfl⟩
  | flushDb => exact .inl ⟨_, rfl⟩
  | get =>
      obtain ⟨key, rfl⟩ := single_of_admitted admitted
      exact .inl ⟨_, rfl⟩
  | set =>
      obtain ⟨key, value, rfl⟩ := pair_of_admitted admitted
      exact .inl ⟨_, rfl⟩
  | setNx =>
      obtain ⟨key, value, rfl⟩ := pair_of_admitted admitted
      exact .inl ⟨_, rfl⟩
  | getSet =>
      obtain ⟨key, value, rfl⟩ := pair_of_admitted admitted
      exact .inl ⟨_, rfl⟩
  | strLen =>
      obtain ⟨key, rfl⟩ := single_of_admitted admitted
      exact .inl ⟨_, rfl⟩
  | del => exact .inl ⟨_, rfl⟩
  | keyExists => exact .inl ⟨_, rfl⟩
  | keyType =>
      obtain ⟨key, rfl⟩ := single_of_admitted admitted
      exact .inl ⟨_, rfl⟩
  | rename =>
      obtain ⟨source, target, rfl⟩ := pair_of_admitted admitted
      simp only [execute, executeRename, argument, bind, Except.bind, List.getElem?_cons_zero,
        List.getElem?_cons_succ]
      split
      · exact .inl ⟨_, rfl⟩
      · exact .inr rfl
      · next refused =>
        exact absurd (congrArg Prod.fst refused) (Store.rename_overwriting store source target)
  | renameNx =>
      obtain ⟨source, target, rfl⟩ := pair_of_admitted admitted
      simp only [execute, executeRenameNx, argument, bind, Except.bind, List.getElem?_cons_zero,
        List.getElem?_cons_succ]
      split
      · exact .inl ⟨_, rfl⟩
      · exact .inl ⟨_, rfl⟩
      · exact .inr rfl
  | keys =>
      obtain ⟨pattern, rfl⟩ := single_of_admitted admitted
      exact .inl ⟨_, rfl⟩

theorem lookup_unbroken (name : String) (words : Nat) :
    lookup name words ≠ .error (.internal breach) := by
  intro broken
  rw [lookup] at broken
  split at broken
  · cases broken
  · split at broken <;> cases broken

end Command

namespace Engine

variable {engine : Engine} {selected : Nat} {line : CommandLine} {breach : Breach}

/-- Why a line is not executed, if it is not. -/
def failure? (engine : Engine) (selected : Nat) : CommandLine → Option Failure
  | [] => some .emptyCommand
  | name :: args =>
    if lowerName name = "select" then
      match engine.selectIndex args with
      | .ok _ => none
      | .error failure => some failure
    else
      match engine.runCommand selected (lowerName name) args with
      | .ok _ => none
      | .error failure => some failure

theorem selectIndex_unbroken (args : List Bytes) :
    engine.selectIndex args ≠ .error (.internal breach) := by
  intro broken
  unfold selectIndex at broken
  split at broken
  · split at broken
    · cases broken
    · split at broken <;> cases broken
  · cases broken

theorem runCommand_unbroken (within : selected < engine.count) (name : String)
    (args : List Bytes) : engine.runCommand selected name args ≠ .error (.internal breach) := by
  have present := List.getElem?_eq_getElem within
  intro broken
  rw [runCommand] at broken
  cases known : Command.lookup name (args.length + 1) with
  | error failure =>
      rw [known] at broken
      cases broken
      exact Command.lookup_unbroken name _ known
  | ok command =>
      have admitted := (Command.lookup_spec known).2
      simp only [known, bind, Except.bind, present] at broken
      obtain ⟨effect, ran⟩ | lacking := Command.execute_admitted admitted engine.databases[selected]
      · rw [ran] at broken
        cases broken
      · rw [lacking] at broken
        cases broken

/-- What a line on a database that there is fails for is no breach. -/
theorem failure?_unbroken (within : selected < engine.count) (line : CommandLine)
    (breach : Breach) : engine.failure? selected line ≠ some (.internal breach) := by
  intro broken
  cases line with
  | nil => cases broken
  | cons name args =>
      rw [failure?] at broken
      split at broken
      · split at broken
        · cases broken
        · next failed =>
          cases broken
          exact selectIndex_unbroken args failed
      · split at broken
        · cases broken
        · next failed =>
          cases broken
          exact runCommand_unbroken within _ args failed

/-- A line is rejected for its failure, or it has none and is answered without an error. -/
theorem exec_cases (engine : Engine) (selected : Nat) (name : Bytes) (args : List Bytes) :
    (∃ failure, engine.failure? selected (name :: args) = some failure ∧
      engine.exec selected (name :: args) =
        engine.rejection selected name (dispatchNotices name) failure) ∨
      engine.failure? selected (name :: args) = none ∧
        (engine.exec selected (name :: args)).reply.errorText? = none ∧
        (engine.exec selected (name :: args)).notices = dispatchNotices name := by
  simp only [exec, failure?]
  by_cases named : lowerName name = "select"
  · simp only [if_pos named]
    cases engine.selectIndex args with
    | error failure => exact .inl ⟨failure, rfl, rfl⟩
    | ok index => exact .inr ⟨rfl, rfl, rfl⟩
  · simp only [if_neg named]
    cases ran : engine.runCommand selected (lowerName name) args with
    | error failure => exact .inl ⟨failure, rfl, rfl⟩
    | ok effect =>
        obtain ⟨command, store, known, present, executed⟩ := runCommand_eq_ok ran
        have change := Command.execute_change executed (Command.lookup_spec known).2
        exact .inr ⟨rfl, change.reply_plain, rfl⟩

/-- The reply tells why a line is not executed. -/
theorem exec_errorText? (engine : Engine) (selected : Nat) (line : CommandLine) :
    (engine.exec selected line).reply.errorText? =
      (engine.failure? selected line).map Failure.message := by
  cases line with
  | nil => rfl
  | cons name args =>
      obtain ⟨failure, failed, done⟩ | ⟨succeeded, plain, -⟩ :=
        engine.exec_cases selected name args
      · rw [failed, done]
        rfl
      · rw [succeeded, plain]
        rfl

theorem dispatchNotices_severity {name : Bytes} {notice : Notice}
    (mem : notice ∈ dispatchNotices name) : notice.severity ≠ .error := by
  rw [dispatchNotices, List.mem_append, List.mem_singleton] at mem
  obtain mem | rfl := mem
  · split at mem
    · rw [List.mem_singleton.mp mem]
      nofun
    · cases mem
  · nofun

/-- The operator is told of an error only where a breach is what stands in the way. -/
theorem exec_notices {notice : Notice} (mem : notice ∈ (engine.exec selected line).notices)
    (alarming : notice.severity = .error) :
    ∃ breach, engine.failure? selected line = some (.internal breach) := by
  cases line with
  | nil => cases mem
  | cons name args =>
      obtain ⟨failure, failed, done⟩ | ⟨-, -, notices⟩ := engine.exec_cases selected name args
      · cases failure with
        | internal breach => exact ⟨breach, failed⟩
        | _ =>
            rw [done] at mem
            exact absurd alarming (dispatchNotices_severity mem)
      · rw [notices] at mem
        exact absurd alarming (dispatchNotices_severity mem)

end Engine

namespace Clients

variable {κ : Type} [DecidableEq κ]

/-- Whether every connection has selected a database that there is. -/
def Within (clients : Clients κ Engine) : Prop :=
  ∀ connection, clients.selections connection < clients.state.count

theorem Within.call {clients : Clients κ Engine} (within : clients.Within) (call : Call κ) :
    (clients.call (fun _ => Engine.service) call).2.Within := by
  intro connection
  simp only [Clients.call, Engine.service, Selections.select, Engine.exec_count]
  split
  · exact Engine.exec_selected_lt (within call.connection)
  · exact within connection

theorem Within.callAll {clients : Clients κ Engine} (within : clients.Within)
    (calls : List (Call κ)) : (clients.callAll (fun _ => Engine.service) calls).2.Within := by
  induction calls generalizing clients with
  | nil => exact within
  | cons call calls ih => exact ih (within.call call)

theorem callAll_count (clients : Clients κ Engine) (calls : List (Call κ)) :
    (clients.callAll (fun _ => Engine.service) calls).2.state.count = clients.state.count := by
  induction calls generalizing clients with
  | nil => rfl
  | cons call calls ih => exact (ih _).trans (Engine.exec_count _ _ _)

end Clients

/-- Whatever lines connections have sent to a new engine, all are on databases that there are, and
the next line is not rejected for a breach: neither its sender nor the operator is told of one. -/
theorem Engine.never_breached {κ : Type} [DecidableEq κ] (databases : Nat)
    (calls : List (Call κ)) (call : Call κ) :
    let opened : Clients κ Engine := { state := .new databases }
    let clients := (opened.callAll (fun _ => Engine.service) calls).2
    let selected := clients.selections call.connection
    let done := clients.state.exec selected call.line
    (∀ connection, clients.selections connection < (Engine.new databases).count) ∧
      (∀ breach, clients.state.failure? selected call.line ≠ some (.internal breach)) ∧
      (∀ breach, done.reply ≠ (Failure.internal breach).reply) ∧
      ∀ notice ∈ done.notices, notice.severity ≠ .error := by
  intro opened clients selected done
  have standing : opened.Within := fun _ => new_count_pos databases
  have within : clients.Within := standing.callAll calls
  have count : clients.state.count = (new databases).count := opened.callAll_count calls
  have unbroken := failure?_unbroken (within call.connection) call.line
  refine ⟨fun connection => count ▸ within connection, unbroken, fun breach same => ?_, ?_⟩
  · have told : done.reply.errorText? = _ := exec_errorText? clients.state selected call.line
    rw [same] at told
    obtain ⟨failure, failed, worded⟩ := Option.map_eq_some_iff.mp told.symm
    obtain ⟨other, rfl⟩ := Failure.eq_internal_of_message worded
    exact unbroken other failed
  · intro notice mem alarming
    obtain ⟨breach, failed⟩ := exec_notices mem alarming
    exact unbroken breach failed

end ShardStore
