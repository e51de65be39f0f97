import ShardStore.Engine
import ShardStore.Keyspace.StoreLemmas
import ShardStore.Proofs.Text.Utf8
import ShardStore.Proofs.Wire.Unfinished

namespace ShardStore

namespace Store

theorem contains_eq_false {store : Store} {key : Bytes} :
    store.contains key = false ↔ store.get? key = none := by
  simp [contains]

theorem erase_of_absent {store : Store} {key : Bytes} (absent : store.contains key = false) :
    store.erase key = store := by
  apply ext_get?
  intro other
  rw [get?_erase]
  split
  · next same => rw [← same, contains_eq_false.mp absent]
  · rfl

theorem removeAll_cons (store : Store) (key : Bytes) (keys : List Bytes) :
    store.removeAll (key :: keys) =
      ((if store.contains key then 1 else 0) + ((store.erase key).removeAll keys).1,
        ((store.erase key).removeAll keys).2) :=
  rfl

theorem removeAll_of_none_removed {store : Store} {keys : List Bytes}
    (none : (store.removeAll keys).1 = 0) : (store.removeAll keys).2 = store := by
  induction keys generalizing store with
  | nil => rfl
  | cons key keys ih =>
      rw [removeAll_cons] at none ⊢
      cases held : store.contains key with
      | true => simp [held] at none
      | false =>
          rw [erase_of_absent held] at none ⊢
          exact ih (by simpa [held] using none)

@[simp] theorem get?_removeAll (store : Store) (keys : List Bytes) (other : Bytes) :
    (store.removeAll keys).2.get? other = if other ∈ keys then none else store.get? other := by
  induction keys generalizing store with
  | nil => simp [removeAll]
  | cons key keys ih =>
      rw [removeAll_cons, ih, get?_erase]
      by_cases later : other ∈ keys
      · simp [later]
      · by_cases same : key = other
        · simp [same]
        · simp [later, same, Ne.symm same]

end Store

theorem Text.mem_lowercase {text : String} {c : Char} (mem : c ∈ text.toList)
    (ascii : c.toNat < 0x80) (lower : c.toLower = c) : c ∈ (Text.lowercase text).toList := by
  have found : ∀ before cs, c ∈ cs → c ∈ lowerFrom before cs := by
    intro before cs mem
    induction cs generalizing before with
    | nil => cases mem
    | cons d cs ih =>
        rw [lowerFrom, List.mem_append]
        rcases List.mem_cons.mp mem with same | mem
        · subst same
          have small : c ≠ 'Σ' := fun sigma => absurd ascii (by rw [sigma]; decide)
          refine .inl ?_
          rw [if_neg small, lowerChar, if_pos ascii, lower]
          exact List.mem_singleton_self c
        · exact .inr (ih _ mem)
  rw [lowercase, String.toList_ofList]
  exact found [] _ mem

theorem Text.lowerRuns_beyond_lf : ∀ run ∈ lowerRuns, 10 < (run.first : Int) + run.shift := by decide +kernel

theorem Text.toLower_eq_lf {c : Char} (lower : c.toLower = '\n') : c = '\n' := by
  unfold Char.toLower at lower
  split at lower
  · next upper =>
    have code : (c.val + 32).toNat = 10 := congrArg (fun d : Char => d.val.toNat) lower
    have range : 65 ≤ c.val.toNat ∧ c.val.toNat ≤ 90 := upper
    rw [UInt32.toNat_add] at code
    have shift : (32 : UInt32).toNat = 32 := rfl
    omega
  · exact lower

/-- Only a line feed is lower-cased to one. -/
theorem Text.eq_lf_of_mem_lowerChar {c : Char} (mem : '\n' ∈ lowerChar c) : c = '\n' := by
  unfold lowerChar at mem
  split at mem
  · exact toLower_eq_lf (List.mem_singleton.mp mem).symm
  · split at mem
    · exact absurd mem (by decide)
    · split at mem
      · next run found =>
        have beyond := lowerRuns_beyond_lf run (List.mem_of_find?_eq_some found)
        have covered := List.find?_some found
        simp only [CaseRun.covers, Bool.and_eq_true, decide_eq_true_eq] at covered
        have code := congrArg Char.toNat (List.mem_singleton.mp mem)
        have value := toNat_ofNat_or (↑c.toNat + run.shift).toNat
        rw [← code] at value
        have line : '\n'.toNat = 10 := rfl
        omega
      · exact (List.mem_singleton.mp mem).symm

theorem Text.lf_of_mem_lowercase {text : String} (mem : '\n' ∈ (lowercase text).toList) :
    '\n' ∈ text.toList := by
  have found : ∀ before cs, '\n' ∈ lowerFrom before cs → '\n' ∈ cs := by
    intro before cs mem
    induction cs generalizing before with
    | nil => cases mem
    | cons c cs ih =>
        rw [lowerFrom, List.mem_append] at mem
        rcases mem with here | later
        · split at here
          · have sigma := List.mem_singleton.mp here
            unfold lowerSigma at sigma
            split at sigma <;> exact absurd sigma (by decide)
          · rw [eq_lf_of_mem_lowerChar here]
            exact List.mem_cons_self
        · exact List.mem_cons_of_mem _ (ih _ later)
  rw [lowercase, String.toList_ofList] at mem
  exact found [] _ mem

theorem Engine.mem_lowerName {name : Bytes} {b : UInt8} (mem : b ∈ name) (ascii : b.toNat < 0x80)
    (lower : (Char.ofNat b.toNat).toLower = Char.ofNat b.toNat) :
    Char.ofNat b.toNat ∈ (lowerName name).toList := by
  rw [lowerName, String.toList_map]
  exact List.mem_map.mpr ⟨_, Text.mem_lossy mem ascii, lower⟩

theorem Engine.asterisk_mem_lowerName {name : Bytes} (marked : asterisk ∈ name) :
    '*' ∈ (lowerName name).toList :=
  mem_lowerName marked (by decide) (by decide)

theorem Engine.lowerName_ne_select {name : Bytes} (marked : asterisk ∈ name) :
    lowerName name ≠ "select" := by
  intro same
  have mem := asterisk_mem_lowerName marked
  rw [same] at mem
  exact absurd mem (by decide)

namespace Command

theorem lookup_spec {name : String} {words : Nat} {command : Command}
    (known : lookup name words = .ok command) :
    command.name = Text.lowercase name ∧ command.arity.admits words = true := by
  simp only [lookup] at known
  split at known
  · cases known
  · next other found =>
    split at known
    · next admitted =>
      cases known
      have named := List.find?_some found
      exact ⟨by simpa using named, admitted⟩
    · cases known

theorem lookup_of_asterisk {name : Bytes} (marked : asterisk ∈ name) (words : Nat)
    (command : Command) : lookup (Engine.lowerName name) words ≠ .ok command := by
  intro known
  have mem := Text.mem_lowercase (Engine.asterisk_mem_lowerName marked) (by decide) (by decide)
  rw [← (lookup_spec known).1] at mem
  revert mem
  cases command <;> decide

theorem argument_eq_ok {args : List Bytes} {index : Nat} {arg : Bytes} :
    argument args index = .ok arg ↔ args[index]? = some arg := by
  unfold argument
  split
  · next found => simp [found]
  · next missing => simp [missing]

theorem args_eq_pair {args : List Bytes} {first second : Bytes} (words : args.length + 1 = 3)
    (front : argument args 0 = .ok first) (back : argument args 1 = .ok second) :
    args = [first, second] := by
  rw [argument_eq_ok] at front back
  match args, words, front, back with
  | [_, _], _, rfl, rfl => rfl

/-- What a command may do to its database. It keeps it, clears it, puts a value under a key, removes
keys or moves a value, and except where it keeps the database it is logged. -/
inductive Change (args : List Bytes) (store : Store) : Effect → Prop where
  | reading {reply : Message} (plain : reply.errorText? = none) :
    Change args store (.reading reply store)
  | clearing : Change args store ⟨.ok, ∅, true⟩
  | putting {reply : Message} {key value : Bytes} (plain : reply.errorText? = none)
    (spelled : args = [key, value]) : Change args store ⟨reply, store.insert key value, true⟩
  | removing : Change args store ⟨.ofNat (store.removeAll args).1, (store.removeAll args).2,
      0 < (store.removeAll args).1⟩
  | moving {reply : Message} {source target : Bytes} {value : Value}
    (plain : reply.errorText? = none) (spelled : args = [source, target])
    (held : store.get? source = some value) :
    Change args store ⟨reply, (store.erase source).insert target value, true⟩

theorem rename_renamed {store after : Store} {source target : Bytes} {onlyIfAbsent : Bool}
    (moved : store.rename source target onlyIfAbsent = (.renamed, after)) :
    ∃ value, store.get? source = some value ∧ after = (store.erase source).insert target value := by
  unfold Store.rename at moved
  split at moved
  · cases moved
  · next value held =>
    split at moved
    · cases moved
    · cases moved
      exact ⟨value, held, rfl⟩

theorem execute_change {command : Command} {args : List Bytes} {store : Store} {effect : Effect}
    (executed : command.execute args store = .ok effect)
    (admitted : command.arity.admits (args.length + 1) = true) : Change args store effect := by
  have words : ∀ count, command.arity = .exactly count → args.length + 1 = count := by
    intro count exactly
    rw [exactly] at admitted
    simpa [Arity.admits] using admitted
  cases command with
  | ping => cases executed; exact .reading rfl
  | flushDb => cases executed; exact .clearing
  | get =>
      obtain ⟨key, -, executed⟩ := bind_eq_ok executed
      cases executed
      refine .reading ?_
      cases store.get? key <;> rfl
  | strLen =>
      obtain ⟨key, -, executed⟩ := bind_eq_ok executed
      cases executed
      exact .reading rfl
  | set =>
      obtain ⟨key, front, executed⟩ := bind_eq_ok executed
      obtain ⟨value, back, executed⟩ := bind_eq_ok executed
      cases executed
      exact .putting rfl (args_eq_pair (words 3 rfl) front back)
  | setNx =>
      obtain ⟨key, front, executed⟩ := bind_eq_ok executed
      obtain ⟨value, back, executed⟩ := bind_eq_ok executed
      cases held : store.contains key with
      | true =>
          rw [Store.putIfAbsent, if_pos held] at executed
          cases executed
          exact .reading rfl
      | false =>
          rw [Store.putIfAbsent, if_neg (by simp [held])] at executed
          cases executed
          exact .putting rfl (args_eq_pair (words 3 rfl) front back)
  | getSet =>
      obtain ⟨key, front, executed⟩ := bind_eq_ok executed
      obtain ⟨value, back, executed⟩ := bind_eq_ok executed
      cases executed
      refine .putting ?_ (args_eq_pair (words 3 rfl) front back)
      cases store.get? key <;> rfl
  | del => cases executed; exact .removing
  | keyExists => cases executed; exact .reading rfl
  | keyType =>
      obtain ⟨key, -, executed⟩ := bind_eq_ok executed
      cases executed
      exact .reading rfl
  | rename =>
      obtain ⟨source, front, executed⟩ := bind_eq_ok executed
      obtain ⟨target, back, executed⟩ := bind_eq_ok executed
      split at executed
      · next moved =>
        obtain ⟨value, held, rfl⟩ := rename_renamed moved
        cases executed
        exact .moving rfl (args_eq_pair (words 3 rfl) front back) held
      · cases executed
      · cases executed
  | renameNx =>
      obtain ⟨source, front, executed⟩ := bind_eq_ok executed
      obtain ⟨target, back, executed⟩ := bind_eq_ok executed
      split at executed
      · next moved =>
        obtain ⟨value, held, rfl⟩ := rename_renamed moved
        cases executed
        exact .moving rfl (args_eq_pair (words 3 rfl) front back) held
      · cases executed
        exact .reading rfl
      · cases executed
  | keys =>
      obtain ⟨pattern, -, executed⟩ := bind_eq_ok executed
      cases executed
      exact .reading rfl

variable {args : List Bytes} {store : Store} {effect : Effect}

theorem Change.reply_plain (change : Change args store effect) :
    effect.reply.errorText? = none := by
  cases change with
  | reading plain => exact plain
  | clearing => rfl
  | putting plain => exact plain
  | removing => rfl
  | moving plain => exact plain

theorem Change.of_unlogged (change : Change args store effect) (unlogged : effect.logged = false) :
    effect.store = store := by
  cases change with
  | reading => rfl
  | clearing => cases unlogged
  | putting => cases unlogged
  | removing => exact Store.removeAll_of_none_removed (by simpa using unlogged)
  | moving => cases unlogged

/-- A value that is found under a key behind a command was there before, or it was put there by a
line that says both, or it was moved there from another key and nothing else has changed. -/
theorem Change.origin (change : Change args store effect) {key : Bytes} {value : Value}
    (found : effect.store.get? key = some value) :
    store.get? key = some value ∨ args = [key, value] ∨ ∃ source, source ≠ key ∧
      store.get? source = some value ∧ ∀ other, other ≠ key →
        effect.store.get? other = if other = source then none else store.get? other := by
  cases change with
  | reading => exact .inl found
  | clearing => cases found
  | putting _ spelled =>
      rw [Store.get?_insert] at found
      split at found
      · next same =>
        cases found
        exact .inr (.inl (same ▸ spelled))
      · exact .inl found
  | removing =>
      rw [Store.get?_removeAll] at found
      split at found
      · cases found
      · exact .inl found
  | @moving _ source target _ _ _ held =>
      rw [Store.get?_insert, Store.get?_erase] at found
      split at found
      · next same =>
        cases found
        subst same
        by_cases stays : source = target
        · exact .inl (stays ▸ held)
        · refine .inr (.inr ⟨source, stays, held, fun other differs => ?_⟩)
          rw [Store.get?_insert, if_neg (Ne.symm differs), Store.get?_erase]
          simp only [eq_comm]
      · split at found
        · cases found
        · exact .inl found

end Command

namespace Engine

theorem new_count_pos (databases : Nat) : 0 < (new databases).count := by
  simp only [count, new, List.length_replicate, defaultCount]
  split <;> omega

/-- The ways in which a line can be executed, with what is told to the operator left open. -/
inductive Outcome (engine : Engine) (selected : Nat) : CommandLine → Execution → Prop where
  | rejected {line : CommandLine} (failure : Failure) (notices : List Notice) :
    Outcome engine selected line
      { reply := failure.reply, engine, selected, notices }
  | switched {name : Bytes} {args : List Bytes} {index : Nat} (notices : List Notice)
    (named : lowerName name = "select") (allowed : engine.selectIndex args = .ok index) :
    Outcome engine selected (name :: args)
      { reply := .ok, engine, selected := index, notices }
  | ran {name : Bytes} {args : List Bytes} {command : Command} {store : Store} {effect : Effect}
    (notices : List Notice) (named : lowerName name ≠ "select")
    (known : Command.lookup (lowerName name) (args.length + 1) = .ok command)
    (present : engine.databases[selected]? = some store)
    (executed : command.execute args store = .ok effect)
    (change : Command.Change args store effect) :
    Outcome engine selected (name :: args)
      { reply := effect.reply
        engine := ⟨engine.databases.set selected effect.store⟩
        selected
        entry? := if effect.logged then some ⟨selected, name :: args⟩ else none
        notices }

theorem runCommand_eq_ok {engine : Engine} {selected : Nat} {name : String} {args : List Bytes}
    {effect : Effect} (ran : engine.runCommand selected name args = .ok effect) :
    ∃ command store, Command.lookup name (args.length + 1) = .ok command ∧
      engine.databases[selected]? = some store ∧ command.execute args store = .ok effect := by
  obtain ⟨command, known, ran⟩ := bind_eq_ok ran
  split at ran
  · cases ran
  · next store present => exact ⟨command, store, known, present, ran⟩

theorem exec_outcome (engine : Engine) (selected : Nat) (line : CommandLine) :
    Outcome engine selected line (engine.exec selected line) := by
  cases line with
  | nil => exact .rejected .emptyCommand []
  | cons name args =>
      simp only [exec]
      split
      · next named =>
        split
        · next index allowed => exact .switched _ named allowed
        · next failure _ => exact .rejected failure _
      · next named =>
        split
        · next effect ran =>
          obtain ⟨command, store, known, present, executed⟩ := runCommand_eq_ok ran
          have admitted := (Command.lookup_spec known).2
          exact .ran _ named known present executed (Command.execute_change executed admitted)
        · next failure _ => exact .rejected failure _

theorem set_of_getElem? {databases : List Store} {index : Nat} {store : Store}
    (present : databases[index]? = some store) : databases.set index store = databases := by
  obtain ⟨within, same⟩ := List.getElem?_eq_some_iff.mp present
  rw [← same, List.set_getElem_self]

variable {engine : Engine} {selected : Nat} {line : CommandLine}

@[simp] theorem exec_count (engine : Engine) (selected : Nat) (line : CommandLine) :
    (engine.exec selected line).engine.count = engine.count := by
  have outcome := engine.exec_outcome selected line
  generalize engine.exec selected line = done at outcome ⊢
  cases outcome with
  | rejected => rfl
  | switched => rfl
  | ran => exact List.length_set

/-- What is not logged has changed nothing. -/
theorem exec_of_unlogged (unlogged : Execution.entry? (engine.exec selected line) = none) :
    (engine.exec selected line).engine = engine := by
  have outcome := engine.exec_outcome selected line
  generalize engine.exec selected line = done at outcome unlogged ⊢
  cases outcome with
  | rejected => rfl
  | switched => rfl
  | ran notices named known present executed change =>
      have kept := change.of_unlogged (by simpa using unlogged)
      simp only [kept, set_of_getElem? present]

/-- What is logged is the line itself, on the database that stays selected, and it is answered
without an error. -/
theorem exec_of_logged {entry : LogEntry}
    (logged : Execution.entry? (engine.exec selected line) = some entry) :
    entry = ⟨selected, line⟩ ∧ (engine.exec selected line).selected = selected ∧
      (engine.exec selected line).reply.errorText? = none ∧ selected < engine.count := by
  have outcome := engine.exec_outcome selected line
  generalize engine.exec selected line = done at outcome logged ⊢
  cases outcome with
  | rejected => cases logged
  | switched => cases logged
  | ran notices named known present executed change =>
      obtain ⟨-, same⟩ := Option.ite_none_right_eq_some.mp logged
      cases same
      exact ⟨rfl, rfl, change.reply_plain, (List.getElem?_eq_some_iff.mp present).1⟩

theorem not_select_of_logged {entry : LogEntry}
    (logged : Execution.entry? (engine.exec selected line) = some entry) :
    ∃ name args, line = name :: args ∧ lowerName name ≠ "select" := by
  have outcome := engine.exec_outcome selected line
  generalize engine.exec selected line = done at outcome logged
  cases outcome with
  | rejected => cases logged
  | switched => cases logged
  | ran notices named => exact ⟨_, _, rfl, named⟩

theorem selectIndex_spec {args : List Bytes} {index : Nat}
    (allowed : engine.selectIndex args = .ok index) : index < engine.count ∧ index ≤ maxLength := by
  unfold selectIndex at allowed
  split at allowed
  · split at allowed
    · cases allowed
    · next word _ =>
      split at allowed
      · cases allowed
      · next within =>
        cases allowed
        have most := word.toInt_le
        rw [← maxLength_eq] at most
        simp only [Bool.or_eq_true, decide_eq_true_eq, not_or] at within
        exact ⟨Nat.lt_of_not_le within.2, by omega⟩
  · cases allowed

theorem selectIndex_ofNat {index : Nat} (fits : index ≤ maxLength) (within : index < engine.count) :
    engine.selectIndex [Text.Decimal.ofNat index] = .ok index := by
  have word : (index : Int) ≤ Int64.maxValue.toInt := by
    rw [← maxLength_eq]
    exact_mod_cast fits
  simp only [selectIndex, Text.Decimal.int64?_ofNat word, Wire.toInt_count fits, Int.toNat_natCast,
    Wire.count_not_negative fits, decide_false, Bool.false_or, decide_eq_true_eq,
    if_neg (Nat.not_le.mpr within)]

theorem eq_of_selectIndex_ofNat {database index : Nat}
    (allowed : engine.selectIndex [Text.Decimal.ofNat database] = .ok index) :
    index = database := by
  simp only [selectIndex] at allowed
  split at allowed
  · cases allowed
  · rename_i word read
    split at allowed
    · cases allowed
    · cases allowed
      rw [Text.Decimal.toInt_of_int64?_ofNat read, Int.toNat_natCast]

theorem exec_selected_le (fits : selected ≤ maxLength) :
    (engine.exec selected line).selected ≤ maxLength := by
  have outcome := engine.exec_outcome selected line
  generalize engine.exec selected line = done at outcome ⊢
  cases outcome with
  | rejected => exact fits
  | switched _ _ allowed => exact (selectIndex_spec allowed).2
  | ran => exact fits

/-- A line that switches its connection has two words, and no asterisk in them. -/
theorem exec_selected_of_unlike_select (unlike : line.length ≠ 2 ∨ line.Marked) :
    (engine.exec selected line).selected = selected := by
  have outcome := engine.exec_outcome selected line
  generalize engine.exec selected line = done at outcome ⊢
  cases outcome with
  | rejected => rfl
  | ran => rfl
  | @switched name args index _ named allowed =>
      exfalso
      unfold selectIndex at allowed
      split at allowed
      · next arg =>
        split at allowed
        · cases allowed
        · next word spelled =>
          rcases unlike with length | ⟨marked, mem, mark⟩
          · exact length rfl
          · rcases List.mem_cons.mp mem with same | mem
            · exact lowerName_ne_select (same ▸ mark) named
            · rw [List.mem_singleton.mp mem] at mark
              rw [Text.Decimal.int64?_eq_none mark (by decide) (by decide) (by decide)] at spelled
              cases spelled
      · cases allowed

theorem exec_databases_of_ne {other : Nat} (differs : other ≠ selected) :
    (engine.exec selected line).engine.databases[other]? = engine.databases[other]? := by
  have outcome := engine.exec_outcome selected line
  generalize engine.exec selected line = done at outcome ⊢
  cases outcome with
  | rejected => rfl
  | switched => rfl
  | ran => exact List.getElem?_set_ne (Ne.symm differs)

/-- A value that is found under a key behind a line was there before, or the line put it there and
has no asterisk in its name, or it was moved there from another key and nothing else has changed. -/
theorem exec_origin {key : Bytes} {value : Value}
    (found : (engine.exec selected line).engine.value? selected key = some value) :
    engine.value? selected key = some value ∨
      (∃ name, line = [name, key, value] ∧ asterisk ∉ name) ∨
      ∃ source, source ≠ key ∧ engine.value? selected source = some value ∧
        ∀ other, other ≠ key → (engine.exec selected line).engine.value? selected other =
          if other = source then none else engine.value? selected other := by
  have outcome := engine.exec_outcome selected line
  generalize engine.exec selected line = done at outcome found ⊢
  cases outcome with
  | rejected => exact .inl found
  | switched => exact .inl found
  | @ran name args _ store _ _ _ known present _ change =>
      have within := (List.getElem?_eq_some_iff.mp present).1
      simp only [value?, List.getElem?_set_self within, Option.bind_some, present] at found ⊢
      rcases change.origin found with held | spelled | moved
      · exact .inl held
      · exact .inr (.inl ⟨name, by rw [spelled], fun marked =>
          Command.lookup_of_asterisk marked _ _ known⟩)
      · exact .inr (.inr moved)

theorem exec_selected_lt (within : selected < engine.count) :
    (engine.exec selected line).selected < engine.count := by
  have outcome := engine.exec_outcome selected line
  generalize engine.exec selected line = done at outcome ⊢
  cases outcome with
  | rejected => exact within
  | switched _ _ allowed => exact (selectIndex_spec allowed).1
  | ran => exact within

end Engine

end ShardStore
