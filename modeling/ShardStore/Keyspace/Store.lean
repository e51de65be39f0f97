import ShardStore.Bytes

namespace ShardStore

/-- A value under a key. Strings of bytes are the only kind. -/
abbrev Value := Bytes

abbrev Entry := Bytes × Value

def Value.kind (_ : Value) : String := "string"

structure Store where
  entries : List Entry := []
  sorted : entries.Pairwise (fun a b => a.1 < b.1) := by exact List.Pairwise.nil
deriving DecidableEq

namespace Store

instance : Inhabited Store := ⟨{}⟩

instance : EmptyCollection Store := ⟨{}⟩

instance : Membership Bytes Store := ⟨fun store key => key ∈ store.entries.map Prod.fst⟩

instance (key : Bytes) (store : Store) : Decidable (key ∈ store) :=
  inferInstanceAs (Decidable (key ∈ store.entries.map Prod.fst))

def keys (store : Store) : List Bytes :=
  store.entries.map Prod.fst

def size (store : Store) : Nat :=
  store.entries.length

def isEmpty (store : Store) : Bool :=
  store.entries.isEmpty

def find? (key : Bytes) : List Entry → Option Value
  | [] => none
  | entry :: rest => if entry.1 = key then some entry.2 else find? key rest

def get? (store : Store) (key : Bytes) : Option Value :=
  find? key store.entries

def contains (store : Store) (key : Bytes) : Bool :=
  (store.get? key).isSome

/-- Puts an entry at its place among sorted entries, over the one with the same key. -/
def insertEntry (key : Bytes) (value : Value) : List Entry → List Entry
  | [] => [(key, value)]
  | entry :: rest =>
    if key < entry.1 then (key, value) :: entry :: rest
    else if entry.1 < key then entry :: insertEntry key value rest
    else (key, value) :: rest

theorem mem_insertEntry {key : Bytes} {value : Value} {entries : List Entry} {entry : Entry}
    (mem : entry ∈ insertEntry key value entries) : entry = (key, value) ∨ entry ∈ entries := by
  induction entries with
  | nil => simpa [insertEntry] using mem
  | cons head rest ih =>
      simp only [insertEntry] at mem
      split at mem
      · simpa using mem
      · split at mem
        · rcases List.mem_cons.mp mem with same | mem
          · exact .inr (by simp [same])
          · rcases ih mem with same | mem
            · exact .inl same
            · exact .inr (by simp [mem])
        · rcases List.mem_cons.mp mem with same | mem
          · exact .inl same
          · exact .inr (by simp [mem])

theorem lt_of_not_lt {a b : Bytes} (ab : ¬ a < b) (ba : ¬ b < a) : a = b :=
  List.le_antisymm (List.not_lt.mp ba) (List.not_lt.mp ab)

theorem insertEntry_sorted (key : Bytes) (value : Value) {entries : List Entry}
    (sorted : entries.Pairwise (fun a b => a.1 < b.1)) :
    (insertEntry key value entries).Pairwise (fun a b => a.1 < b.1) := by
  induction entries with
  | nil => simp [insertEntry]
  | cons head rest ih =>
      obtain ⟨before, sortedRest⟩ := List.pairwise_cons.mp sorted
      simp only [insertEntry]
      split
      · next lower =>
        refine List.pairwise_cons.mpr ⟨fun entry mem => ?_, sorted⟩
        rcases List.mem_cons.mp mem with same | mem
        · rw [same]; exact lower
        · exact List.lt_trans lower (before entry mem)
      · next notLower =>
        split
        · next higher =>
          refine List.pairwise_cons.mpr ⟨fun entry mem => ?_, ih sortedRest⟩
          rcases mem_insertEntry mem with same | mem
          · rw [same]; exact higher
          · exact before entry mem
        · next notHigher =>
          have same : head.1 = key := lt_of_not_lt notHigher notLower
          refine List.pairwise_cons.mpr ⟨fun entry mem => ?_, sortedRest⟩
          have := before entry mem
          rwa [same] at this

def insert (store : Store) (key : Bytes) (value : Value) : Store :=
  ⟨insertEntry key value store.entries, insertEntry_sorted key value store.sorted⟩

def erase (store : Store) (key : Bytes) : Store :=
  ⟨store.entries.filter (·.1 != key), store.sorted.filter _⟩

def replace (store : Store) (key : Bytes) (value : Value) : Option Value × Store :=
  (store.get? key, store.insert key value)

/-- Puts a value under a key and answers how many keys are new. -/
def put (store : Store) (key : Bytes) (value : Value) : Nat × Store :=
  (if store.contains key then 0 else 1, store.insert key value)

def putIfAbsent (store : Store) (key : Bytes) (value : Value) : Nat × Store :=
  if store.contains key then (0, store) else (1, store.insert key value)

def putIfPresent (store : Store) (key : Bytes) (value : Value) : Nat × Store :=
  if store.contains key then (1, store.insert key value) else (0, store)

def remove (store : Store) (key : Bytes) : Option Value × Store :=
  (store.get? key, store.erase key)

def removeAll (store : Store) : List Bytes → Nat × Store
  | [] => (0, store)
  | key :: keys =>
    let (count, last) := (store.erase key).removeAll keys
    ((if store.contains key then 1 else 0) + count, last)

inductive RenameOutcome where
  | renamed
  | noSuchKey
  | destinationExists
deriving Repr, DecidableEq

/-- Moves the value under `source` to `target`. With `onlyIfAbsent`, the target must have none. -/
def rename (store : Store) (source target : Bytes) (onlyIfAbsent : Bool) : RenameOutcome × Store :=
  match store.get? source with
  | none => (.noSuchKey, store)
  | some value =>
    if onlyIfAbsent && store.contains target then (.destinationExists, store)
    else (.renamed, (store.erase source).insert target value)

/-- Shows the entries one after another to a consumer, which says after each whether it wants
another; gives the consumer's last state. -/
def forEach {σ : Type} (store : Store) (consumer : σ → Entry → Bool × σ) (start : σ) : σ :=
  visit start store.entries
where
  visit (state : σ) : List Entry → σ
    | [] => state
    | entry :: rest =>
      match consumer state entry with
      | (true, next) => visit next rest
      | (false, next) => next

end Store

end ShardStore
