import Mathlib.Data.Finmap
import ShardStore.Keyspace.Table
import ShardStore.Proofs.Keyspace.Matching

namespace ShardStore

/-- What is stored, as a finite partial function. -/
abbrev Content := Finmap fun _ : Bytes => Value

namespace Content

/-- A consumer is shown entries of the content, none twice, and goes on while it wants more: until it has
seen every key, or until the first entry behind which it wants none. -/
structure Shown (content : Content) (wants : List Entry → Bool) (shown : List Entry) : Prop where
  once : (shown.map Prod.fst).Nodup
  held : ∀ entry ∈ shown, content.lookup entry.1 = some entry.2
  wanted : ∀ count, 0 < count → count < shown.length → wants (shown.take count) = true
  ended : (∀ key ∈ content, key ∈ shown.map Prod.fst) ∨ (shown ≠ [] ∧ wants shown = false)

/-- What a finite map answers to an operation, and what it is behind it. -/
inductive Step (content : Content) : Operation → Answer → Content → Prop
  | get (key : Bytes) : Step content (.get key) (.value (content.lookup key)) content
  | contains_present {key : Bytes} (present : key ∈ content) :
      Step content (.contains key) (.flag true) content
  | contains_absent {key : Bytes} (absent : key ∉ content) :
      Step content (.contains key) (.flag false) content
  | put_new {key : Bytes} (value : Value) (absent : key ∉ content) :
      Step content (.put key value) (.count 1) (content.insert key value)
  | put_over {key : Bytes} (value : Value) (present : key ∈ content) :
      Step content (.put key value) (.count 0) (content.insert key value)
  | replace (key : Bytes) (value : Value) :
      Step content (.replace key value) (.value (content.lookup key)) (content.insert key value)
  | putIfAbsent_stored {key : Bytes} (value : Value) (absent : key ∉ content) :
      Step content (.putIfAbsent key value) (.count 1) (content.insert key value)
  | putIfAbsent_kept {key : Bytes} (value : Value) (present : key ∈ content) :
      Step content (.putIfAbsent key value) (.count 0) content
  | putIfPresent_stored {key : Bytes} (value : Value) (present : key ∈ content) :
      Step content (.putIfPresent key value) (.count 1) (content.insert key value)
  | putIfPresent_kept {key : Bytes} (value : Value) (absent : key ∉ content) :
      Step content (.putIfPresent key value) (.count 0) content
  | remove (key : Bytes) :
      Step content (.remove key) (.value (content.lookup key)) (content.erase key)
  | removeAll {keys : List Bytes} {after : Content}
      (left : ∀ key, after.lookup key = if key ∈ keys then none else content.lookup key) :
      Step content (.removeAll keys) (.count (content.keys ∩ keys.toFinset).card) after
  | rename_missing {source : Bytes} (target : Bytes) (onlyIfAbsent : Bool)
      (absent : source ∉ content) :
      Step content (.rename source target onlyIfAbsent) (.renaming .noSuchKey) content
  | rename_taken {source target : Bytes} (present : source ∈ content) (taken : target ∈ content) :
      Step content (.rename source target true) (.renaming .destinationExists) content
  | rename_itself {source : Bytes} (present : source ∈ content) :
      Step content (.rename source source false) (.renaming .renamed) content
  | rename_moved {source target : Bytes} {onlyIfAbsent : Bool} {value : Value}
      (found : content.lookup source = some value) (apart : source ≠ target)
      (free : onlyIfAbsent = true → target ∉ content) :
      Step content (.rename source target onlyIfAbsent) (.renaming .renamed)
        ((content.erase source).insert target value)
  | clear : Step content .clear .nothing ∅
  | forEach {wants : List Entry → Bool} {shown : List Entry} (seen : content.Shown wants shown) :
      Step content (.forEach wants) (.entries shown) content
  | size : Step content .size (.count content.keys.card) content
  | isEmpty : Step content .isEmpty (.flag (content.keys.card == 0)) content

/-- The answers of a finite map to a run of operations, and what it is at the end. -/
inductive Run : Content → List Operation → List Answer → Content → Prop
  | nil (content : Content) : Run content [] [] content
  | cons {content next last : Content} {operation : Operation} {answer : Answer}
      {operations : List Operation} {answers : List Answer}
      (step : content.Step operation answer next) (rest : Run next operations answers last) :
      Run content (operation :: operations) (answer :: answers) last

/-- An operation other than the clearing leaves alone the keys that it does not name. -/
theorem Step.untouched {content after : Content} {operation : Operation} {answer : Answer}
    (step : content.Step operation answer after) (kept : operation ≠ .clear) {key : Bytes}
    (unnamed : key ∉ operation.names) : after.lookup key = content.lookup key := by
  have inserted : ∀ {map : Content} {named : Bytes} {value : Value}, key ∉ [named] →
      (map.insert named value).lookup key = map.lookup key := fun other =>
    Finmap.lookup_insert_of_ne _ (List.ne_of_not_mem_cons other)
  cases step with
  | get | contains_present | contains_absent | putIfAbsent_kept | putIfPresent_kept
  | rename_missing | rename_taken | rename_itself | forEach | size | isEmpty => rfl
  | put_new | put_over | replace | putIfAbsent_stored | putIfPresent_stored => exact inserted unnamed
  | remove => exact Finmap.lookup_erase_ne (List.ne_of_not_mem_cons unnamed)
  | removeAll left => exact (left key).trans (if_neg unnamed)
  | rename_moved =>
      have notSource := List.ne_of_not_mem_cons unnamed
      exact (inserted (List.not_mem_of_not_mem_cons unnamed)).trans
        (Finmap.lookup_erase_ne notSource)
  | clear => exact absurd rfl kept

end Content

namespace Store

def content (store : Store) : Content :=
  (store.entries.map fun entry => (⟨entry.1, entry.2⟩ : Sigma fun _ : Bytes => Value)).toFinmap

theorem lookup_entries (key : Bytes) (entries : List Entry) :
    (entries.map fun entry => (⟨entry.1, entry.2⟩ : Sigma fun _ : Bytes => Value)).dlookup key =
      find? key entries := by
  induction entries with
  | nil => rfl
  | cons head rest ih =>
      by_cases same : head.1 = key
      · subst same
        simp [find?]
      · rw [List.map_cons, List.dlookup_cons_ne _ _ (Ne.symm same), ih, find?, if_neg same]

@[simp] theorem lookup_content (store : Store) (key : Bytes) :
    store.content.lookup key = store.get? key :=
  (Finmap.dlookup_list_toFinmap _ _).trans (lookup_entries key store.entries)

variable {store : Store} {key : Bytes}

theorem mem_content : key ∈ store.content ↔ store.contains key = true := by
  rw [← Finmap.lookup_isSome, lookup_content, contains]

theorem not_mem_content : key ∉ store.content ↔ store.contains key = false :=
  mem_content.not.trans (by rw [Bool.not_eq_true])

theorem content_insert (store : Store) (key : Bytes) (value : Value) :
    (store.insert key value).content = store.content.insert key value := by
  refine Finmap.ext_lookup fun other => ?_
  rw [lookup_content, get?_insert]
  by_cases same : key = other
  · subst same
    rw [if_pos rfl, Finmap.lookup_insert]
  · rw [if_neg same, Finmap.lookup_insert_of_ne _ (Ne.symm same), lookup_content]

theorem content_erase (store : Store) (key : Bytes) :
    (store.erase key).content = store.content.erase key := by
  refine Finmap.ext_lookup fun other => ?_
  rw [lookup_content, get?_erase]
  by_cases same : key = other
  · subst same
    rw [if_pos rfl, Finmap.lookup_erase]
  · rw [if_neg same, Finmap.lookup_erase_ne (Ne.symm same), lookup_content]

theorem keys_content (store : Store) : store.content.keys = store.keys.toFinset := by
  ext key
  rw [Finmap.mem_keys, mem_content, List.mem_toFinset, mem_keys_iff, contains]

theorem card_content (store : Store) : store.content.keys.card = store.size := by
  rw [keys_content, List.toFinset_card_of_nodup store.keys_nodup, keys, List.length_map, size]

/-- A key counts at its first removal only, behind which it is no longer there. -/
theorem removeAll_count (store : Store) (keys : List Bytes) :
    (store.removeAll keys).1 = (store.content.keys ∩ keys.toFinset).card := by
  induction keys generalizing store with
  | nil => simp [removeAll]
  | cons key rest ih =>
      rw [removeAll_cons, ih, content_erase, Finmap.keys_erase, List.toFinset_cons]
      cases held : store.contains key with
      | true =>
          have present : key ∈ store.content.keys := Finmap.mem_keys.mpr (mem_content.mpr held)
          rw [Finset.inter_insert_of_mem present, Finset.erase_inter, if_pos rfl, Nat.add_comm,
            ← Finset.erase_insert_eq_erase]
          exact Finset.card_erase_add_one (Finset.mem_insert_self key _)
      | false =>
          have absent : key ∉ store.content.keys := fun mem =>
            not_mem_content.mpr held (Finmap.mem_keys.mp mem)
          rw [Finset.erase_eq_of_notMem absent, Finset.inter_insert_of_notMem absent]
          exact Nat.zero_add _

end Store

namespace Table

/-- Behind what a consumer has seen come the next entries of the list, up to the first at which it wants
no more. -/
theorem visit_spec (wants : List Entry → Bool) (seen entries : List Entry) :
    ∃ more, more <+: entries ∧
      Store.forEach.visit (fun seen entry => (wants (seen ++ [entry]), seen ++ [entry])) seen entries =
        seen ++ more ∧
      (∀ count, seen.length < count → count < (seen ++ more).length →
        wants ((seen ++ more).take count) = true) ∧
      (more = entries ∨ (more ≠ [] ∧ wants (seen ++ more) = false)) := by
  induction entries generalizing seen with
  | nil =>
      refine ⟨[], List.nil_prefix, (List.append_nil seen).symm, fun count above below => ?_, .inl rfl⟩
      rw [List.append_nil] at below
      exact absurd (Nat.lt_trans above below) (Nat.lt_irrefl _)
  | cons entry rest ih =>
      cases wanted : wants (seen ++ [entry]) with
      | true =>
          obtain ⟨more, start, visited, goesOn, ends⟩ := ih (seen ++ [entry])
          rw [← List.append_cons] at visited goesOn ends
          refine ⟨entry :: more, List.cons_prefix_cons.mpr ⟨rfl, start⟩, ?_, ?_, ?_⟩
          · simp only [Store.forEach.visit, wanted]
            exact visited
          · intro count above below
            rcases Nat.eq_or_lt_of_le (Nat.succ_le_of_lt above) with next | beyond
            · rw [← next, List.append_cons, List.take_left' (by simp)]
              exact wanted
            · exact goesOn count (by simpa using beyond) below
          · rcases ends with all | ⟨_, stopped⟩
            · exact .inl (congrArg (entry :: ·) all)
            · exact .inr ⟨List.cons_ne_nil _ _, stopped⟩
      | false =>
          refine ⟨[entry], ⟨rest, rfl⟩, ?_, fun count above below => ?_, .inr ⟨by simp, wanted⟩⟩
          · simp only [Store.forEach.visit, wanted]
          · rw [List.length_append, List.length_singleton] at below
            omega

theorem shown_spec (layout : Layout) (table : Table) (wants : List Entry → Bool) :
    table.store.content.Shown wants (shown wants (layout.order table)) := by
  obtain ⟨more, start, visited, goesOn, ends⟩ := visit_spec wants [] (layout.order table)
  rw [List.nil_append] at visited goesOn ends
  rw [shown, visited]
  have perm := layout.perm table
  refine ⟨?_, fun entry mem => ?_, fun count above below => goesOn count above below,
    ends.imp_left fun all key present => ?_⟩
  · exact ((perm.map Prod.fst).nodup_iff.mpr table.store.keys_nodup).sublist (start.sublist.map _)
  · rw [Store.lookup_content]
    exact (Store.mem_entries_iff _ _ _).mp (perm.subset (start.subset mem))
  · rw [all, (perm.map Prod.fst).mem_iff]
    exact Store.mem_keys_iff.mpr (Store.mem_content.mp present)

end Table

namespace Store

open Content (Step)

variable (store : Store) (key : Bytes) (value : Value)

theorem get_step : store.content.Step (.get key) (.value (store.get? key)) store.content :=
  lookup_content store key ▸ .get key

theorem contains_step :
    store.content.Step (.contains key) (.flag (store.contains key)) store.content := by
  cases held : store.contains key with
  | true => exact .contains_present (mem_content.mpr held)
  | false => exact .contains_absent (not_mem_content.mpr held)

theorem put_step : store.content.Step (.put key value) (.count (store.put key value).1)
    (store.put key value).2.content := by
  rw [put, content_insert]
  cases held : store.contains key with
  | true => exact .put_over value (mem_content.mpr held)
  | false => exact .put_new value (not_mem_content.mpr held)

theorem replace_step : store.content.Step (.replace key value) (.value (store.replace key value).1)
    (store.replace key value).2.content := by
  rw [replace, content_insert, ← lookup_content]
  exact .replace key value

theorem putIfAbsent_step :
    store.content.Step (.putIfAbsent key value) (.count (store.putIfAbsent key value).1)
      (store.putIfAbsent key value).2.content := by
  cases held : store.contains key with
  | true =>
      rw [putIfAbsent, if_pos held]
      exact .putIfAbsent_kept value (mem_content.mpr held)
  | false =>
      rw [putIfAbsent, if_neg (Bool.eq_false_iff.mp held), content_insert]
      exact .putIfAbsent_stored value (not_mem_content.mpr held)

theorem putIfPresent_step :
    store.content.Step (.putIfPresent key value) (.count (store.putIfPresent key value).1)
      (store.putIfPresent key value).2.content := by
  cases held : store.contains key with
  | true =>
      rw [putIfPresent, if_pos held, content_insert]
      exact .putIfPresent_stored value (mem_content.mpr held)
  | false =>
      rw [putIfPresent, if_neg (Bool.eq_false_iff.mp held)]
      exact .putIfPresent_kept value (not_mem_content.mpr held)

theorem remove_step : store.content.Step (.remove key) (.value (store.remove key).1)
    (store.remove key).2.content := by
  rw [remove, content_erase, ← lookup_content]
  exact .remove key

theorem removeAll_step (keys : List Bytes) :
    store.content.Step (.removeAll keys) (.count (store.removeAll keys).1)
      (store.removeAll keys).2.content := by
  rw [removeAll_count]
  refine .removeAll fun key => ?_
  rw [lookup_content, get?_removeAll, lookup_content]

/-- A key that is moved onto itself is taken out and put back. -/
theorem insert_erase_self {store : Store} {key : Bytes} {value : Value}
    (found : store.get? key = some value) : (store.erase key).insert key value = store := by
  refine ext_get? fun other => ?_
  rw [get?_insert, get?_erase]
  split
  · next same => rw [← same, found]
  · rfl

theorem rename_step (source target : Bytes) (onlyIfAbsent : Bool) :
    store.content.Step (.rename source target onlyIfAbsent)
      (.renaming (store.rename source target onlyIfAbsent).1)
      (store.rename source target onlyIfAbsent).2.content := by
  cases found : store.get? source with
  | none =>
      have absent : source ∉ store.content := by
        rw [← Finmap.lookup_eq_none, lookup_content, found]
      rw [rename, found]
      exact .rename_missing target onlyIfAbsent absent
  | some value =>
      have there : store.content.lookup source = some value := by rw [lookup_content, found]
      have present : source ∈ store.content := Finmap.mem_of_lookup_eq_some there
      cases refused : onlyIfAbsent && store.contains target with
      | true =>
          have kept : store.rename source target onlyIfAbsent = (.destinationExists, store) := by
            rw [rename, found]
            exact if_pos refused
          rw [kept]
          obtain ⟨rfl, taken⟩ := Bool.and_eq_true_iff.mp refused
          exact .rename_taken present (mem_content.mpr taken)
      | false =>
          have moved : store.rename source target onlyIfAbsent =
              (.renamed, (store.erase source).insert target value) := by
            rw [rename, found]
            exact if_neg (Bool.eq_false_iff.mp refused)
          have free : onlyIfAbsent = true → target ∉ store.content := by
            rintro rfl
            exact not_mem_content.mpr refused
          rw [moved]
          by_cases same : source = target
          · subst same
            have unconditional : onlyIfAbsent = false :=
              Bool.eq_false_iff.mpr fun only => free only present
            subst unconditional
            rw [insert_erase_self found]
            exact .rename_itself present
          · rw [content_insert, content_erase]
            exact .rename_moved there same free

theorem size_step : store.content.Step .size (.count store.size) store.content :=
  card_content store ▸ .size

theorem isEmpty_step : store.content.Step .isEmpty (.flag store.isEmpty) store.content := by
  have empty : store.isEmpty = (store.content.keys.card == 0) := by
    rw [card_content, size, isEmpty]
    cases store.entries <;> rfl
  exact empty ▸ .isEmpty

end Store

namespace Table

open Content (Step Run)

/-- A table answers as the finite map in its store does, and holds next what that one comes to. -/
theorem perform_step (layout : Layout) (table : Table) (operation : Operation) :
    table.store.content.Step operation (table.perform layout operation).1
      (table.perform layout operation).2.store.content := by
  cases operation with
  | get key => exact table.store.get_step key
  | contains key => exact table.store.contains_step key
  | put key value => exact table.store.put_step key value
  | replace key value => exact table.store.replace_step key value
  | putIfAbsent key value => exact table.store.putIfAbsent_step key value
  | putIfPresent key value => exact table.store.putIfPresent_step key value
  | remove key => exact table.store.remove_step key
  | removeAll keys => exact table.store.removeAll_step keys
  | rename source target onlyIfAbsent => exact table.store.rename_step source target onlyIfAbsent
  | clear => exact .clear
  | forEach wants => exact .forEach (shown_spec layout table wants)
  | size => exact table.store.size_step
  | isEmpty => exact table.store.isEmpty_step

theorem performAll_run (layout : Layout) (table : Table) (operations : List Operation) :
    Run table.store.content operations (table.performAll layout operations).1
      (table.performAll layout operations).2.store.content := by
  induction operations generalizing table with
  | nil => exact .nil _
  | cons operation rest ih => exact .cons (table.perform_step layout operation) (ih _)

/-- Whatever its capacity and its layout, a new table answers every run of operations as a finite map
does, and holds the same under each key at the end. No operation but the clearing touches a key that
it does not name. -/
theorem performAll_finite (layout : Layout) (capacity : Nat) (operations : List Operation) :
    let run := ({ capacity } : Table).performAll layout operations
    ∃ content : Content, Run ∅ operations run.1 content ∧
      (∀ key, content.lookup key = run.2.store.get? key) ∧
      ∀ operation key, operation ≠ .clear → key ∉ operation.names →
        (run.2.perform layout operation).2.store.get? key = run.2.store.get? key := by
  intro run
  refine ⟨run.2.store.content, performAll_run layout { capacity } operations, Store.lookup_content _,
    fun operation key kept unnamed => ?_⟩
  rw [← Store.lookup_content, ← Store.lookup_content]
  exact (run.2.perform_step layout operation).untouched kept unnamed

/-- Entries come in falling order of their keys to a consumer that is content with one of them, after a
key was moved and two others were removed, one of them twice and one that was not there. -/
theorem performAll_finite_of_seven :
    let layout : Layout := ⟨fun table => table.store.entries.reverse, fun _ => List.reverse_perm _⟩
    let operations : List Operation :=
      [.put [0x61] [0x31], .putIfAbsent [0x62] [], .replace [0x61] [0x32],
        .rename [0x61] [0x63] true, .putIfPresent [0x62] [0x33], .forEach fun _ => false,
        .removeAll [[0x62], [0x64], [0x62]]]
    let run := ({ capacity := 1024 } : Table).performAll layout operations
    run.1 = [.count 1, .count 1, .value (some [0x31]), .renaming .renamed, .count 1,
        .entries [([0x63], [0x32])], .count 1] ∧
      ∃ content : Content, Run ∅ operations run.1 content ∧ content.lookup [0x63] = some [0x32] ∧
        (run.2.perform layout (.remove [0x62])).2.store.get? [0x63] = some [0x32] := by
  intro layout operations run
  obtain ⟨content, ran, holds, untouched⟩ := performAll_finite layout 1024 operations
  have held : run.2.store.get? [0x63] = some [0x32] := by decide +kernel
  refine ⟨by decide +kernel, content, ran, (holds _).trans held, ?_⟩
  exact (untouched (.remove [0x62]) [0x63] (by simp) (by decide)).trans held

end Table

end ShardStore
