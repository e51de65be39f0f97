import ShardStore.Log.Race
import ShardStore.Proofs.Command.Locality

namespace ShardStore

namespace CommandLine

/-- What a line makes of the store that it runs on. -/
def transform (line : CommandLine) (store : Store) : Store :=
  match line with
  | [] => store
  | name :: args =>
    match Command.lookup (Engine.lowerName name) (args.length + 1) with
    | .ok command => (command.result args store).2
    | .error _ => store

/-- The keys that a line names; none if it concerns all keys. A line that runs no command names no
key. -/
def keys? : CommandLine → Option (List Bytes)
  | [] => some []
  | name :: args =>
    match Command.lookup (Engine.lowerName name) (args.length + 1) with
    | .ok command => command.footprint? args
    | .error _ => some []

/-- Whether what a line does may depend on what is under a key, or change it. -/
def Concerns (line : CommandLine) (key : Bytes) : Prop :=
  ∀ keys, line.keys? = some keys → key ∈ keys

/-- Whether no key concerns both of two lines. -/
def Apart (first second : CommandLine) : Prop :=
  ∀ key, first.Concerns key → ¬ second.Concerns key

variable {line first second : CommandLine} {key : Bytes}

theorem Apart.symm (apart : first.Apart second) : second.Apart first :=
  fun key concerned other => apart key other concerned

/-- A line names no key and keeps every store, or it runs a command. -/
theorem transform_cases (line : CommandLine) :
    line.keys? = some [] ∧ line.transform = id ∨
      ∃ (command : Command) (args : List Bytes), command.arity.admits (args.length + 1) = true ∧
        line.keys? = command.footprint? args ∧
        line.transform = fun store => (command.result args store).2 := by
  cases line with
  | nil => exact .inl ⟨rfl, rfl⟩
  | cons name args =>
      cases known : Command.lookup (Engine.lowerName name) (args.length + 1) with
      | error failure =>
          refine .inl ⟨by simp only [keys?, known], funext fun store => ?_⟩
          simp only [transform, known, id]
      | ok command =>
          refine .inr ⟨command, args, (Command.lookup_spec known).2, by simp only [keys?, known], ?_⟩
          funext store
          simp only [transform, known]

/-- A line leaves alone what is under the keys that it does not concern. -/
theorem transform_frame (outside : ¬ line.Concerns key) (store : Store) :
    (line.transform store).get? key = store.get? key := by
  rcases line.transform_cases with ⟨-, kept⟩ | ⟨command, args, admitted, named, runs⟩
  · rw [kept, id]
  · simp only [Concerns, named, not_forall] at outside
    obtain ⟨keys, footprint, absent⟩ := outside
    rw [runs]
    exact Command.result_frame admitted footprint store absent

/-- What a line leaves under the keys that it concerns depends on these alone. -/
theorem transform_agree {left right : Store} (concerned : line.Concerns key)
    (agree : ∀ key, line.Concerns key → left.get? key = right.get? key) :
    (line.transform left).get? key = (line.transform right).get? key := by
  rcases line.transform_cases with ⟨-, kept⟩ | ⟨command, args, admitted, named, runs⟩
  · rw [kept, id, id]
    exact agree key concerned
  · rw [runs]
    cases footprint : command.footprint? args with
    | some keys =>
        have listed : line.keys? = some keys := named.trans footprint
        have inside : ∀ other ∈ keys, line.Concerns other := fun other mem others spelled => by
          rw [listed] at spelled
          exact Option.some.inj spelled ▸ mem
        have same : Store.AgreeOn keys left right := fun other mem => agree other (inside other mem)
        exact (Command.result_agree admitted footprint same).2 key (concerned keys listed)
    | none =>
        have all : ∀ other, line.Concerns other := fun other keys spelled => by
          rw [named, footprint] at spelled
          cases spelled
        rw [Store.ext_get? fun other => agree other (all other)]

/-- Two lines agree in either order on a key that the second one does not concern. -/
theorem transform_swap (apart : first.Apart second) (outside : ¬ second.Concerns key)
    (store : Store) : (second.transform (first.transform store)).get? key =
      (first.transform (second.transform store)).get? key := by
  rw [transform_frame outside]
  by_cases concerned : first.Concerns key
  · refine transform_agree concerned fun other mine => ?_
    rw [transform_frame (apart other mine)]
  · rw [transform_frame concerned, transform_frame concerned, transform_frame outside]

theorem transform_commute (apart : first.Apart second) :
    second.transform ∘ first.transform = first.transform ∘ second.transform := by
  funext store
  apply Store.ext_get?
  intro key
  by_cases outside : second.Concerns key
  · exact (transform_swap apart.symm (apart.symm key outside) store).symm
  · exact transform_swap apart outside store

end CommandLine

namespace Engine

variable {engine : Engine} {selected : Nat}

theorem exec_of_absent (absent : engine.databases[selected]? = none) (line : CommandLine) :
    (engine.exec selected line).engine = engine := by
  have outcome := engine.exec_outcome selected line
  generalize engine.exec selected line = done at outcome ⊢
  cases outcome with
  | rejected => rfl
  | switched => rfl
  | ran notices named known present =>
      rw [absent] at present
      cases present

/-- No command is named like the line that selects a database. -/
theorem lookup_select {name : Bytes} (named : lowerName name = "select") (words : Nat) :
    Command.lookup (lowerName name) words = .error (.unknownCommand "select") := by
  have lower : Text.lowercase "select" = "select" := by decide +kernel
  rw [named, Command.lookup, lower]
  rfl

theorem exec_of_present {store : Store} (present : engine.databases[selected]? = some store)
    (line : CommandLine) :
    (engine.exec selected line).engine =
      ⟨engine.databases.set selected (line.transform store)⟩ := by
  cases line with
  | nil =>
      rw [CommandLine.transform, set_of_getElem? present]
      rfl
  | cons name args =>
      by_cases named : lowerName name = "select"
      · simp only [CommandLine.transform, lookup_select named, set_of_getElem? present]
        exact (exec_select named rfl selected args).2.2
      · cases known : Command.lookup (lowerName name) (args.length + 1) with
        | ok command =>
            simp only [CommandLine.transform, known]
            exact (exec_known named known present).2.2
        | error failure =>
            simp only [CommandLine.transform, known, set_of_getElem? present]
            exact (exec_of_unknown named known engine selected).2.2

/-- A line changes the selected database, if it is there, as it changes any store. -/
theorem exec_engine (engine : Engine) (selected : Nat) (line : CommandLine) :
    (engine.exec selected line).engine = ⟨engine.databases.modify selected line.transform⟩ := by
  cases present : engine.databases[selected]? with
  | none =>
      have outside := List.getElem?_eq_none_iff.mp present
      rw [exec_of_absent present, List.modify_eq_self outside]
  | some store =>
      rw [exec_of_present present, List.modify_eq_set_getElem?, present]
      rfl

/-- Whether two entries are of different databases or concern different keys. -/
def Independent (first second : LogEntry) : Prop :=
  first.database ≠ second.database ∨ first.line.Apart second.line

theorem exec_commute {first second : LogEntry} (independent : Independent first second)
    (engine : Engine) :
    ((engine.exec first.database first.line).engine.exec second.database second.line).engine =
      ((engine.exec second.database second.line).engine.exec first.database first.line).engine := by
  simp only [exec_engine]
  by_cases same : first.database = second.database
  · rcases independent with differs | apart
    · exact absurd same differs
    · rw [same, List.modify_modify_eq, List.modify_modify_eq, CommandLine.transform_commute apart]
  · rw [List.modify_modify_ne _ _ _ same]

/-- An entry may run in front of entries that it is independent of instead of behind them. -/
theorem execEntries_commute {front : List LogEntry} {entry : LogEntry}
    (independent : ∀ other ∈ front, Independent other entry) (engine : Engine) :
    (engine.exec entry.database entry.line).engine.execEntries front =
      ((engine.execEntries front).exec entry.database entry.line).engine := by
  induction front generalizing engine with
  | nil => rfl
  | cons first rest ih =>
      have commuted := exec_commute (independent first List.mem_cons_self) engine
      have later : ∀ other ∈ rest, Independent other entry := fun other mem =>
        independent other (List.mem_cons_of_mem first mem)
      calc (engine.exec entry.database entry.line).engine.execEntries (first :: rest)
          = ((engine.exec first.database first.line).engine.exec entry.database
              entry.line).engine.execEntries rest := congrArg (execEntries · rest) commuted.symm
        _ = _ := ih later _

end Engine

end ShardStore
