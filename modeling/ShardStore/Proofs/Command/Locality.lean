import Mathlib.Algebra.BigOperators.Group.List.Basic
import Mathlib.Algebra.GroupWithZero.Nat
import ShardStore.Proofs.Command.Execution
import ShardStore.Proofs.Wire.RoundTrip

namespace ShardStore

namespace Store

/-- Whether two stores hold the same under some keys. -/
def AgreeOn (keys : List Bytes) (left right : Store) : Prop :=
  ∀ key ∈ keys, left.get? key = right.get? key

/-- Whether a store is what another one holds under the keys of an owner. -/
def PartOf (owned : Bytes → Prop) [DecidablePred owned] (part whole : Store) : Prop :=
  ∀ key, part.get? key = if owned key then whole.get? key else none

def Roomy (store : Store) : Prop :=
  ∀ key value, store.get? key = some value → value.length ≤ maxLength

theorem contains_congr {left right : Store} {key : Bytes}
    (same : left.get? key = right.get? key) : left.contains key = right.contains key := by
  rw [contains, contains, same]

theorem AgreeOn.insert {keys : List Bytes} {left right : Store} (agree : AgreeOn keys left right)
    (key : Bytes) (value : Value) : AgreeOn keys (left.insert key value) (right.insert key value) := by
  intro other mem
  rw [get?_insert, get?_insert, agree other mem]

theorem AgreeOn.erase {keys : List Bytes} {left right : Store} (agree : AgreeOn keys left right)
    (key : Bytes) : AgreeOn keys (left.erase key) (right.erase key) := by
  intro other mem
  rw [get?_erase, get?_erase, agree other mem]

theorem AgreeOn.removed {keys : List Bytes} {left right : Store} (agree : AgreeOn keys left right) :
    (left.removeAll keys).1 = (right.removeAll keys).1 := by
  induction keys generalizing left right with
  | nil => rfl
  | cons key keys ih =>
      have first := contains_congr (agree key List.mem_cons_self)
      have behind : AgreeOn keys left right := fun other mem =>
        agree other (List.mem_cons_of_mem key mem)
      rw [removeAll_cons, removeAll_cons, first, ih (behind.erase key)]

variable {owned : Bytes → Prop} [DecidablePred owned]

theorem PartOf.agreeOn {part whole : Store} (within : PartOf owned part whole) {keys : List Bytes}
    (inside : ∀ key ∈ keys, owned key) : AgreeOn keys part whole := by
  intro key mem
  rw [within key, if_pos (inside key mem)]

theorem PartOf.removeAll {part whole : Store} (within : PartOf owned part whole)
    (keys : List Bytes) : PartOf owned (part.removeAll keys).2 (whole.removeAll keys).2 := by
  intro key
  rw [get?_removeAll, get?_removeAll, within key]
  split
  · exact (ite_self none).symm
  · rfl

theorem PartOf.roomy {part whole : Store} (within : PartOf owned part whole)
    (roomy : whole.Roomy) : part.Roomy := by
  intro key value found
  rw [within key] at found
  split at found
  · exact roomy key value found
  · cases found

theorem partOf_empty : PartOf owned ∅ ∅ := fun _ => (ite_self none).symm

theorem sum_owner {nodes : List String} (distinct : nodes.Nodup) {owner : String}
    (member : owner ∈ nodes) (n : Nat) :
    (nodes.map fun node => if owner = node then n else 0).sum = n := by
  have elsewhere : ∀ node, node ≠ owner → node ∈ nodes → (if owner = node then n else 0) = 0 :=
    fun node differs _ => if_neg differs.symm
  rw [List.sum_map_eq_nsmul_single owner _ elsewhere, distinct.count, if_pos member, if_pos rfl,
    one_nsmul]

/-- What is removed from a store is removed from its parts together. -/
theorem removeAll_parts {nodes : List String} (distinct : nodes.Nodup) {owner : Bytes → String}
    (placed : ∀ key, owner key ∈ nodes) {parts : String → Store} {whole : Store}
    (divided : ∀ node ∈ nodes, PartOf (owner · = node) (parts node) whole) (keys : List Bytes) :
    (whole.removeAll keys).1 = (nodes.map fun node => ((parts node).removeAll keys).1).sum := by
  induction keys generalizing parts whole with
  | nil => simp [removeAll]
  | cons key keys ih =>
      have erased : ∀ node ∈ nodes,
          PartOf (owner · = node) ((parts node).erase key) (whole.erase key) := by
        intro node mem
        exact (divided node mem).removeAll [key]
      have counted : ∀ node ∈ nodes, (if (parts node).contains key then 1 else 0) =
          if owner key = node then (if whole.contains key then 1 else 0) else 0 := by
        intro node mem
        rw [contains, divided node mem key]
        split <;> rfl
      simp only [removeAll_cons, List.sum_map_add]
      rw [← ih erased, List.map_congr_left counted, sum_owner distinct (placed key)]

end Store

namespace Command

/-- What a command answers, and the database behind it, which a failure leaves alone. -/
def result (command : Command) (args : List Bytes) (store : Store) : Message × Store :=
  match command.execute args store with
  | .ok effect => (effect.reply, effect.store)
  | .error failure => (failure.reply, store)

/-- The keys among a command's arguments; none if it concerns all keys. -/
def footprint? (command : Command) (args : List Bytes) : Option (List Bytes) :=
  match command with
  | .flushDb | .keys => none
  | .ping => some []
  | .get | .set | .setNx | .getSet | .strLen | .keyType => some (args.take 1)
  | .rename | .renameNx => some (args.take 2)
  | .del | .keyExists => some args

theorem lookup_eq {name : String} {words : Nat} {command other : Command}
    (listed : named? (Text.lowercase name) = some other) (known : lookup name words = .ok command) :
    command = other ∧ other.arity.admits words = true := by
  simp only [lookup, listed] at known
  split at known
  · next admitted =>
    cases known
    exact ⟨rfl, admitted⟩
  · cases known

theorem single_of_admitted {args : List Bytes}
    (admitted : (Arity.exactly 2).admits (args.length + 1) = true) : ∃ key, args = [key] := by
  have words : args.length = 1 := by simpa [Arity.admits] using admitted
  exact List.length_eq_one_iff.mp words

theorem pair_of_admitted {args : List Bytes}
    (admitted : (Arity.exactly 3).admits (args.length + 1) = true) : ∃ a b, args = [a, b] := by
  have words : args.length = 2 := by simpa [Arity.admits] using admitted
  exact List.length_eq_two.mp words

theorem result_rename (source target : Bytes) (store : Store) :
    rename.result [source, target] store =
      (store.get? source).elim (Failure.noSuchKey.reply, store) fun value =>
        (.ok, (store.erase source).insert target value) := by
  simp only [result, execute, executeRename, argument, bind, Except.bind, List.getElem?_cons_zero,
    List.getElem?_cons_succ, Store.rename]
  cases store.get? source with
  | none => rfl
  | some value => rfl

theorem result_renameNx (source target : Bytes) (store : Store) :
    renameNx.result [source, target] store =
      (store.get? source).elim (Failure.noSuchKey.reply, store) fun value =>
        if store.contains target then (.ofNat 0, store)
        else (.ofNat 1, (store.erase source).insert target value) := by
  simp only [result, execute, executeRenameNx, argument, bind, Except.bind,
    List.getElem?_cons_zero, List.getElem?_cons_succ, Store.rename]
  cases store.get? source with
  | none => rfl
  | some value => cases store.contains target <;> rfl

theorem result_setNx (key value : Bytes) (store : Store) :
    setNx.result [key, value] store =
      if store.contains key then (.ofNat 0, store) else (.ofNat 1, store.insert key value) := by
  have executed : setNx.execute [key, value] store =
      .ok ⟨.ofNat (store.putIfAbsent key value).1, (store.putIfAbsent key value).2,
        0 < (store.putIfAbsent key value).1⟩ := rfl
  rw [result, executed, Store.putIfAbsent]
  cases store.contains key <;> rfl

variable {command : Command} {args keys : List Bytes}

theorem result_agree (admitted : command.arity.admits (args.length + 1) = true)
    (footprint : command.footprint? args = some keys) {left right : Store}
    (agree : Store.AgreeOn keys left right) :
    (command.result args left).1 = (command.result args right).1 ∧
      Store.AgreeOn keys (command.result args left).2 (command.result args right).2 := by
  cases command with
  | flushDb => cases footprint
  | keys => cases footprint
  | ping => exact ⟨rfl, agree⟩
  | get =>
      obtain ⟨key, rfl⟩ := single_of_admitted admitted
      cases footprint
      have held : left.get? key = right.get? key := agree key (by simp)
      exact ⟨congrArg Message.ofBytes? held, agree⟩
  | strLen =>
      obtain ⟨key, rfl⟩ := single_of_admitted admitted
      cases footprint
      have held : left.get? key = right.get? key := agree key (by simp)
      have answered : ∀ store, (strLen.result [key] store).1 =
          .ofNat ((store.get? key).elim 0 List.length) := fun _ => rfl
      exact ⟨by rw [answered, answered, held], agree⟩
  | keyType =>
      obtain ⟨key, rfl⟩ := single_of_admitted admitted
      cases footprint
      have held : left.get? key = right.get? key := agree key (by simp)
      have answered : ∀ store, (keyType.result [key] store).1 =
          .simple ((store.get? key).elim "none" Value.kind) := fun _ => rfl
      exact ⟨by rw [answered, answered, held], agree⟩
  | set =>
      obtain ⟨key, value, rfl⟩ := pair_of_admitted admitted
      exact ⟨rfl, agree.insert key value⟩
  | getSet =>
      obtain ⟨key, value, rfl⟩ := pair_of_admitted admitted
      cases footprint
      have held : left.get? key = right.get? key := agree key (by simp)
      exact ⟨congrArg Message.ofBytes? held, agree.insert key value⟩
  | setNx =>
      obtain ⟨key, value, rfl⟩ := pair_of_admitted admitted
      cases footprint
      have held := Store.contains_congr (agree key (by simp))
      rw [result_setNx, result_setNx, held]
      split
      · exact ⟨rfl, agree⟩
      · exact ⟨rfl, agree.insert key value⟩
  | del =>
      cases footprint
      refine ⟨congrArg Message.ofNat agree.removed, fun key mem => ?_⟩
      have left : ((del.result args left).2).get? key = none :=
        (Store.get?_removeAll left args key).trans (if_pos mem)
      have right : ((del.result args right).2).get? key = none :=
        (Store.get?_removeAll right args key).trans (if_pos mem)
      rw [left, right]
  | keyExists =>
      cases footprint
      have counted : args.countP left.contains = args.countP right.contains :=
        List.countP_congr fun key mem => by rw [Store.contains_congr (agree key mem)]
      exact ⟨congrArg Message.ofNat counted, agree⟩
  | rename =>
      obtain ⟨source, target, rfl⟩ := pair_of_admitted admitted
      cases footprint
      have held : left.get? source = right.get? source := agree source (by simp)
      rw [result_rename, result_rename, held]
      cases right.get? source with
      | none => exact ⟨rfl, agree⟩
      | some value => exact ⟨rfl, (agree.erase source).insert target value⟩
  | renameNx =>
      obtain ⟨source, target, rfl⟩ := pair_of_admitted admitted
      cases footprint
      have held : left.get? source = right.get? source := agree source (by simp)
      have taken := Store.contains_congr (agree target (by simp))
      rw [result_renameNx, result_renameNx, held, taken]
      cases right.get? source with
      | none => exact ⟨rfl, agree⟩
      | some value =>
          simp only [Option.elim_some]
          split
          · exact ⟨rfl, agree⟩
          · exact ⟨rfl, (agree.erase source).insert target value⟩

/-- A command leaves alone what is not under its keys. -/
theorem result_frame (admitted : command.arity.admits (args.length + 1) = true)
    (footprint : command.footprint? args = some keys) (store : Store) {key : Bytes}
    (outside : key ∉ keys) : (command.result args store).2.get? key = store.get? key := by
  have put : ∀ (store : Store) (other : Bytes) (value : Value), other ∈ keys →
      (store.insert other value).get? key = store.get? key := by
    intro store other value mem
    have differs : other ≠ key := fun same => outside (same ▸ mem)
    rw [Store.get?_insert, if_neg differs]
  have gone : ∀ other, other ∈ keys → (store.erase other).get? key = store.get? key := by
    intro other mem
    have differs : other ≠ key := fun same => outside (same ▸ mem)
    rw [Store.get?_erase, if_neg differs]
  cases command with
  | flushDb => cases footprint
  | keys => cases footprint
  | ping => rfl
  | keyExists => rfl
  | get =>
      obtain ⟨_, rfl⟩ := single_of_admitted admitted
      rfl
  | strLen =>
      obtain ⟨_, rfl⟩ := single_of_admitted admitted
      rfl
  | keyType =>
      obtain ⟨_, rfl⟩ := single_of_admitted admitted
      rfl
  | set =>
      obtain ⟨other, value, rfl⟩ := pair_of_admitted admitted
      cases footprint
      exact put store other value (by simp)
  | getSet =>
      obtain ⟨other, value, rfl⟩ := pair_of_admitted admitted
      cases footprint
      exact put store other value (by simp)
  | setNx =>
      obtain ⟨other, value, rfl⟩ := pair_of_admitted admitted
      cases footprint
      rw [result_setNx]
      split
      · rfl
      · exact put store other value (by simp)
  | del =>
      cases footprint
      exact (Store.get?_removeAll store args key).trans (if_neg outside)
  | rename =>
      obtain ⟨source, target, rfl⟩ := pair_of_admitted admitted
      cases footprint
      rw [result_rename]
      cases store.get? source with
      | none => rfl
      | some value => exact (put _ target value (by simp)).trans (gone source (by simp))
  | renameNx =>
      obtain ⟨source, target, rfl⟩ := pair_of_admitted admitted
      cases footprint
      rw [result_renameNx]
      cases store.get? source with
      | none => rfl
      | some value =>
          simp only [Option.elim_some]
          split
          · rfl
          · exact (put _ target value (by simp)).trans (gone source (by simp))

variable {owned : Bytes → Prop} [DecidablePred owned] {part whole : Store}

/-- The owner of a command's keys does for its part of a store what a node with the whole does. -/
theorem result_owned (admitted : command.arity.admits (args.length + 1) = true)
    (footprint : command.footprint? args = some keys) (inside : ∀ key ∈ keys, owned key)
    (within : Store.PartOf owned part whole) :
    (command.result args part).1 = (command.result args whole).1 ∧
      Store.PartOf owned (command.result args part).2 (command.result args whole).2 := by
  obtain ⟨replies, after⟩ := result_agree admitted footprint (within.agreeOn inside)
  refine ⟨replies, fun key => ?_⟩
  by_cases mem : key ∈ keys
  · rw [after key mem, if_pos (inside key mem)]
  · rw [result_frame admitted footprint part mem, result_frame admitted footprint whole mem,
      within key]

/-- A command does nothing to a part of a store that has none of its keys. -/
theorem result_unowned (admitted : command.arity.admits (args.length + 1) = true)
    (footprint : command.footprint? args = some keys) (outside : ∀ key ∈ keys, ¬ owned key)
    (within : Store.PartOf owned part whole) :
    Store.PartOf owned part (command.result args whole).2 := by
  intro key
  rw [within key]
  by_cases mine : owned key
  · rw [if_pos mine, if_pos mine, result_frame admitted footprint whole fun mem =>
      outside key mem mine]
  · rw [if_neg mine, if_neg mine]

theorem result_roomy (admitted : command.arity.admits (args.length + 1) = true)
    (words : ∀ word ∈ args, word.length ≤ maxLength) {store : Store} (roomy : store.Roomy) :
    (command.result args store).2.Roomy := by
  intro key value found
  unfold result at found
  split at found
  · next effect executed =>
    rcases (execute_change executed admitted).origin found with held | rfl | ⟨source, -, held, -⟩
    · exact roomy key value held
    · exact words value (by simp)
    · exact roomy source value held
  · exact roomy key value found

/-- Except for KEYS, a command is answered with a message that any client reads as it is. -/
theorem result_plain (admitted : command.arity.admits (args.length + 1) = true)
    (unlisted : command ≠ .keys) {store : Store} (roomy : store.Roomy) :
    (command.result args store).1.Plain := by
  have absent : Failure.noSuchKey.reply.Plain :=
    ⟨(by decide : '\n' ∉ Failure.noSuchKey.message.toList), trivial, rfl⟩
  cases command with
  | keys => exact absurd rfl unlisted
  | ping => exact ⟨trivial, trivial, rfl⟩
  | flushDb => exact ⟨trivial, trivial, rfl⟩
  | get =>
      obtain ⟨key, rfl⟩ := single_of_admitted admitted
      exact Message.plain_ofBytes? (roomy key)
  | strLen =>
      obtain ⟨key, rfl⟩ := single_of_admitted admitted
      exact Message.plain_ofNat _
  | keyType =>
      obtain ⟨key, rfl⟩ := single_of_admitted admitted
      have answered : (keyType.result [key] store).1 =
          .simple ((store.get? key).elim "none" Value.kind) := rfl
      rw [answered]
      cases store.get? key with
      | none => exact ⟨(by decide : '\n' ∉ "none".toList), trivial, rfl⟩
      | some value => exact ⟨(by decide : '\n' ∉ "string".toList), trivial, rfl⟩
  | set =>
      obtain ⟨key, value, rfl⟩ := pair_of_admitted admitted
      exact ⟨trivial, trivial, rfl⟩
  | getSet =>
      obtain ⟨key, value, rfl⟩ := pair_of_admitted admitted
      exact Message.plain_ofBytes? (roomy key)
  | setNx =>
      obtain ⟨key, value, rfl⟩ := pair_of_admitted admitted
      rw [result_setNx]
      split
      · exact Message.plain_ofNat 0
      · exact Message.plain_ofNat 1
  | del => exact Message.plain_ofNat _
  | keyExists => exact Message.plain_ofNat _
  | rename =>
      obtain ⟨source, target, rfl⟩ := pair_of_admitted admitted
      rw [result_rename]
      cases store.get? source with
      | none => exact absent
      | some value => exact ⟨trivial, trivial, rfl⟩
  | renameNx =>
      obtain ⟨source, target, rfl⟩ := pair_of_admitted admitted
      rw [result_renameNx]
      cases store.get? source with
      | none => exact absent
      | some value =>
          simp only [Option.elim_some]
          split
          · exact Message.plain_ofNat 0
          · exact Message.plain_ofNat 1

end Command

namespace Engine

theorem exec_known {engine : Engine} {selected : Nat} {name : Bytes} {args : List Bytes}
    {command : Command} {store : Store} (named : lowerName name ≠ "select")
    (known : Command.lookup (lowerName name) (args.length + 1) = .ok command)
    (present : engine.databases[selected]? = some store) :
    let done := engine.exec selected (name :: args)
    done.reply = (command.result args store).1 ∧ done.selected = selected ∧
      done.engine = ⟨engine.databases.set selected (command.result args store).2⟩ := by
  have ran : engine.runCommand selected (lowerName name) args = command.execute args store := by
    simp only [runCommand, known, present, bind, Except.bind]
  simp only [exec, if_neg named, ran, Command.result]
  cases command.execute args store with
  | ok effect => exact ⟨rfl, rfl, rfl⟩
  | error failure =>
      refine ⟨rfl, rfl, ?_⟩
      simp only [rejection, set_of_getElem? present]

theorem exec_of_unknown {name : Bytes} {args : List Bytes} {failure : Failure}
    (named : lowerName name ≠ "select")
    (unknown : Command.lookup (lowerName name) (args.length + 1) = .error failure)
    (engine : Engine) (selected : Nat) :
    let done := engine.exec selected (name :: args)
    done.reply = failure.reply ∧ done.selected = selected ∧ done.engine = engine := by
  have rejected : engine.runCommand selected (lowerName name) args = .error failure := by
    simp only [runCommand, unknown, bind, Except.bind]
  simp only [exec, if_neg named, rejected]
  exact ⟨rfl, rfl, rfl⟩

/-- A SELECT line is answered alike by engines with equally many databases. -/
theorem exec_select {left right : Engine} {name : Bytes} (named : lowerName name = "select")
    (count : left.count = right.count) (selected : Nat) (args : List Bytes) :
    (left.exec selected (name :: args)).reply = (right.exec selected (name :: args)).reply ∧
      (left.exec selected (name :: args)).selected =
        (right.exec selected (name :: args)).selected ∧
      (left.exec selected (name :: args)).engine = left := by
  have same : left.selectIndex args = right.selectIndex args := by
    simp only [selectIndex, count]
  simp only [exec, if_pos named, same]
  cases right.selectIndex args with
  | ok index => exact ⟨rfl, rfl, rfl⟩
  | error failure => exact ⟨rfl, rfl, rfl⟩

end Engine

end ShardStore
