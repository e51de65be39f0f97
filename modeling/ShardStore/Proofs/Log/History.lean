import ShardStore.Proofs.Log.Durability

namespace ShardStore.Lifetime

open Log

variable {κ : Type} [DecidableEq κ]

/-- A lifetime up to some of its activities. -/
def upTo (lifetime : Lifetime κ) (count : Nat) : Lifetime κ :=
  { lifetime with activities := lifetime.activities.take count }

/-- Whether the engine of one of some lifetimes has certain databases at a moment, when certain entries
have been logged since before the first of these lifetimes. -/
def Passes (databases : Nat) (file? : Option Bytes) (runs : List (SyncPolicy × Lifetime κ))
    (entries : List LogEntry) (engine : Engine) : Prop :=
  ∃ (done : List (SyncPolicy × Lifetime κ)) (policy : SyncPolicy) (lifetime : Lifetime κ)
    (later : List (SyncPolicy × Lifetime κ)) (count : Nat),
    runs = done ++ (policy, lifetime) :: later ∧
      let found? := fileAfterEach databases file? done
      let options : DurableOptions := ⟨databases, true, policy⟩
      (loggedByEach databases file? done).flatten ++ (lifetime.upTo count).logged options found? =
          entries ∧
        ((lifetime.upTo count).live options found?).state.engine = engine

variable {databases : Nat} {runs : List (SyncPolicy × Lifetime κ)} {file? : Option Bytes}
  {lines : List CommandLine} {entries : List LogEntry}

omit [DecidableEq κ] in
theorem upTo_addressable {lifetime : Lifetime κ} (room : lifetime.Addressable) (count : Nat) :
    (lifetime.upTo count).Addressable :=
  fun call mem => room call (List.mem_of_mem_take mem)

/-- An activity logs one entry at most, so any first part of the entries is logged by a first part of
the activities. -/
theorem loggedIn_of_prefix {activities : List (Activity κ)} {clients : Clients κ DurableEngine}
    (begins : entries <+: loggedIn clients activities) :
    ∃ count, loggedIn clients (activities.take count) = entries := by
  induction activities generalizing clients entries with
  | nil => exact ⟨0, (List.prefix_nil.mp begins).symm⟩
  | cons activity rest ih =>
      rw [loggedIn] at begins
      cases found : added? clients activity with
      | none =>
          rw [found] at begins
          obtain ⟨count, same⟩ := ih begins
          exact ⟨count + 1, by simp [loggedIn, found, same]⟩
      | some first =>
          rw [found] at begins
          cases entries with
          | nil => exact ⟨0, rfl⟩
          | cons head tail =>
              rw [Option.toList_some, List.singleton_append] at begins
              obtain ⟨rfl, shorter⟩ := List.cons_prefix_cons.mp begins
              obtain ⟨count, same⟩ := ih shorter
              exact ⟨count + 1, by simp [loggedIn, found, same]⟩

theorem each_logged (room : ∀ run ∈ runs, run.2.Addressable)
    (spelled : Spells (file?.getD []) lines) :
    let start := (replay (.new databases) file?).engine
    let entries := (loggedByEach databases file? runs).flatten
    start.Logs entries ∧ (∀ entry ∈ entries, entry.Addressable) ∧
      (replay (.new databases) (fileAfterEach databases file? runs)).engine =
        start.execEntries entries := by
  induction runs generalizing file? lines with
  | nil => exact ⟨trivial, by simp [loggedByEach], rfl⟩
  | cons run rest ih =>
      have roomFirst := room run List.mem_cons_self
      have recorded := live_recorded roomFirst databases run.1 file?
      obtain ⟨closed, whole, engines, -⟩ := closed_spells roomFirst databases run.1 spelled
      rw [recorded.engine] at engines
      obtain ⟨logs, addressable, again⟩ := ih (fun other mem => room other (by simp [mem]))
        (show Spells ((some _).getD []) _ from whole)
      rw [engines] at logs again
      simp only [loggedByEach, fileAfterEach, List.foldl_cons, closed, List.flatten_cons]
      refine ⟨Engine.logs_append.mpr ⟨recorded.logs, logs⟩, fun entry mem => ?_, ?_⟩
      · rcases List.mem_append.mp mem with mem | mem
        · exact recorded.addressable entry mem
        · exact addressable entry mem
      · rw [Engine.execEntries_append]
        exact again

theorem loggedByEach_append (databases : Nat) (file? : Option Bytes)
    (before : List (SyncPolicy × Lifetime κ)) (last : SyncPolicy × Lifetime κ) :
    loggedByEach databases file? (before ++ [last]) = loggedByEach databases file? before ++
      [last.2.logged ⟨databases, true, last.1⟩ (fileAfterEach databases file? before)] := by
  induction before generalizing file? with
  | nil => rfl
  | cons run rest ih =>
      simp only [List.cons_append, loggedByEach, ih]
      rfl

/-- The databases of the last of some lifetimes are those that all logged entries make. -/
theorem live_logged {before : List (SyncPolicy × Lifetime κ)} {last : SyncPolicy × Lifetime κ}
    (room : ∀ run ∈ before ++ [last], run.2.Addressable) (spelled : Spells (file?.getD []) lines) :
    (last.2.live ⟨databases, true, last.1⟩ (fileAfterEach databases file? before)).state.engine =
      (replay (.new databases) file?).engine.execEntries
        (loggedByEach databases file? (before ++ [last])).flatten := by
  obtain ⟨-, -, found⟩ := each_logged (fun run mem => room run (List.mem_append_left [last] mem))
    spelled
  have recorded := live_recorded (room last (by simp)) databases last.1
    (fileAfterEach databases file? before)
  rw [recorded.engine, found, loggedByEach_append, List.flatten_append, List.flatten_singleton,
    Engine.execEntries_append]

/-- Any first part of what a lifetime logs has been logged at some moment of it. -/
theorem passes_of_logged {policy : SyncPolicy} {lifetime : Lifetime κ}
    (room : lifetime.Addressable) (rest : List (SyncPolicy × Lifetime κ))
    (begins : entries <+: lifetime.logged ⟨databases, true, policy⟩ file?) :
    Passes databases file? ((policy, lifetime) :: rest) entries
      ((replay (.new databases) file?).engine.execEntries entries) := by
  obtain ⟨count, logged⟩ := loggedIn_of_prefix begins
  have recorded := live_recorded (upTo_addressable room count) databases policy file?
  exact ⟨[], policy, lifetime, rest, count, rfl, logged,
    recorded.engine.trans (congrArg _ logged)⟩

/-- A moment of later lifetimes is one of a series that starts with one lifetime more, whose entries
have been logged then too. -/
theorem Passes.cons {run : SyncPolicy × Lifetime κ} {engine : Engine}
    (passes : Passes databases (fileAfterEach databases file? [run]) runs entries engine) :
    Passes databases file? (run :: runs)
      (run.2.logged ⟨databases, true, run.1⟩ file? ++ entries) engine := by
  obtain ⟨done, policy, lifetime, later, count, rfl, logged, found⟩ := passes
  refine ⟨run :: done, policy, lifetime, later, count, rfl, ?_, found⟩
  rw [loggedByEach, List.flatten_cons, List.append_assoc]
  exact congrArg _ logged

/-- The databases that a first part of the logged entries makes were there when these had been logged
and no others. -/
theorem passes_of_prefix (room : ∀ run ∈ runs, run.2.Addressable)
    (spelled : Spells (file?.getD []) lines) (nonempty : runs ≠ [])
    (begins : entries <+: (loggedByEach databases file? runs).flatten) :
    Passes databases file? runs entries
      ((replay (.new databases) file?).engine.execEntries entries) := by
  induction runs generalizing file? lines entries with
  | nil => exact absurd rfl nonempty
  | cons run rest ih =>
      have roomFirst := room run List.mem_cons_self
      rw [loggedByEach, List.flatten_cons] at begins
      rcases List.prefix_or_prefix_of_prefix begins (List.prefix_append _ _) with short | ⟨more, rfl⟩
      · exact passes_of_logged roomFirst rest short
      · have begins := (List.prefix_append_right_inj _).mp begins
        by_cases last : rest = []
        · subst last
          rw [List.prefix_nil.mp begins, List.append_nil]
          exact passes_of_logged roomFirst [] (List.prefix_refl _)
        · have recorded := live_recorded roomFirst databases run.1 file?
          obtain ⟨closed, whole, engines, -⟩ := closed_spells roomFirst databases run.1 spelled
          rw [recorded.engine] at engines
          have passes := ih (fun other mem => room other (by simp [mem]))
            (show Spells ((some _).getD []) _ from whole) last (closed ▸ begins)
          rw [engines, ← Engine.execEntries_append, ← closed] at passes
          exact passes.cons

end ShardStore.Lifetime
