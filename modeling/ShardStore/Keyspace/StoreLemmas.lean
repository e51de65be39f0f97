import ShardStore.Keyspace.Store

namespace ShardStore.Store

theorem find?_insertEntry (key other : Bytes) (value : Value) (entries : List Entry) :
    find? other (insertEntry key value entries) =
      if key = other then some value else find? other entries := by
  induction entries with
  | nil => simp [insertEntry, find?]
  | cons head rest ih =>
      simp only [insertEntry]
      split
      · simp [find?]
      · next notLower =>
        split
        · next higher =>
          have differs : head.1 ≠ key := fun same => List.lt_irrefl key (same ▸ higher)
          by_cases same : head.1 = other
          · have : ¬ key = other := fun hit => differs (same.trans hit.symm)
            simp [find?, same, this]
          · simp [find?, same, ih]
        · next notHigher =>
          have same : head.1 = key := lt_of_not_lt notHigher notLower
          by_cases hit : key = other <;> simp [find?, same, hit]

@[simp] theorem get?_insert (store : Store) (key other : Bytes) (value : Value) :
    (store.insert key value).get? other = if key = other then some value else store.get? other :=
  find?_insertEntry key other value store.entries

theorem find?_filter_ne (key other : Bytes) (entries : List Entry) :
    find? other (entries.filter (·.1 != key)) =
      if key = other then none else find? other entries := by
  induction entries with
  | nil => simp [find?]
  | cons head rest ih =>
      by_cases same : key = other
      · subst same
        by_cases drop : head.1 = key <;> simp_all [find?]
      · by_cases drop : head.1 = key
        · simp [drop, same, ih, find?]
        · simp [drop, same, ih, find?]

@[simp] theorem get?_erase (store : Store) (key other : Bytes) :
    (store.erase key).get? other = if key = other then none else store.get? other :=
  find?_filter_ne key other store.entries

@[simp] theorem get?_empty (key : Bytes) : (∅ : Store).get? key = none := rfl

theorem find?_of_mem {entries : List Entry} (sorted : entries.Pairwise (fun a b => a.1 < b.1))
    {entry : Entry} (mem : entry ∈ entries) : find? entry.1 entries = some entry.2 := by
  induction entries with
  | nil => simp at mem
  | cons head rest ih =>
      obtain ⟨before, sortedRest⟩ := List.pairwise_cons.mp sorted
      rcases List.mem_cons.mp mem with rfl | mem
      · simp [find?]
      · have differs : ¬ head.1 = entry.1 := fun same =>
          List.lt_irrefl entry.1 (by have := before entry mem; rwa [same] at this)
        simp [find?, differs, ih sortedRest mem]

theorem mem_of_find? {entries : List Entry} {key : Bytes} {value : Value}
    (found : find? key entries = some value) : (key, value) ∈ entries := by
  induction entries with
  | nil => simp [find?] at found
  | cons head rest ih =>
      simp only [find?] at found
      split at found
      · next same =>
        cases found
        exact List.mem_cons.mpr (.inl (Prod.ext same.symm rfl))
      · exact List.mem_cons.mpr (.inr (ih found))

theorem mem_entries_iff (store : Store) (key : Bytes) (value : Value) :
    (key, value) ∈ store.entries ↔ store.get? key = some value :=
  ⟨fun mem => find?_of_mem store.sorted mem, mem_of_find?⟩

theorem entries_eq_of_mem_iff {left right : List Entry}
    (sortedLeft : left.Pairwise (fun a b => a.1 < b.1))
    (sortedRight : right.Pairwise (fun a b => a.1 < b.1))
    (same : ∀ entry, entry ∈ left ↔ entry ∈ right) : left = right := by
  induction left generalizing right with
  | nil =>
      cases right with
      | nil => rfl
      | cons head rest => exact absurd ((same head).mpr (by simp)) (by simp)
  | cons head rest ih =>
      obtain ⟨beforeLeft, restLeft⟩ := List.pairwise_cons.mp sortedLeft
      cases right with
      | nil => exact absurd ((same head).mp (by simp)) (by simp)
      | cons other more =>
          obtain ⟨beforeRight, restRight⟩ := List.pairwise_cons.mp sortedRight
          have heads : head = other := by
            rcases List.mem_cons.mp ((same head).mp (by simp)) with hit | mem
            · exact hit
            · rcases List.mem_cons.mp ((same other).mpr (by simp)) with hit | mem'
              · exact hit.symm
              · exact absurd (List.lt_trans (beforeLeft other mem') (beforeRight head mem))
                  (List.lt_irrefl _)
          subst heads
          rw [ih restLeft restRight (fun entry => ?_)]
          constructor
          · intro mem
            rcases List.mem_cons.mp ((same entry).mp (by simp [mem])) with rfl | mem'
            · exact absurd (beforeLeft entry mem) (List.lt_irrefl _)
            · exact mem'
          · intro mem
            rcases List.mem_cons.mp ((same entry).mpr (by simp [mem])) with rfl | mem'
            · exact absurd (beforeRight entry mem) (List.lt_irrefl _)
            · exact mem'

/-- A store is determined by what is under each key. -/
theorem ext_get? {left right : Store} (same : ∀ key, left.get? key = right.get? key) :
    left = right := by
  have entries := entries_eq_of_mem_iff left.sorted right.sorted (fun entry => by
    obtain ⟨key, value⟩ := entry
    rw [mem_entries_iff, mem_entries_iff, same])
  cases left; cases right
  simpa using entries

end ShardStore.Store
