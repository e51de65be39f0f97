import ShardStore.Keyspace.Store

/-!
The operations of a store as data, so that one can speak of what follows from a run of them. In which
order the entries come to a consumer is left to the table that holds them: any order may come, and
after each operation another one.
-/

namespace ShardStore

inductive Operation where
  | get (key : Bytes)
  | contains (key : Bytes)
  | put (key : Bytes) (value : Value)
  | replace (key : Bytes) (value : Value)
  | putIfAbsent (key : Bytes) (value : Value)
  | putIfPresent (key : Bytes) (value : Value)
  | remove (key : Bytes)
  | removeAll (keys : List Bytes)
  | rename (source target : Bytes) (onlyIfAbsent : Bool)
  | clear
  /-- Shows entries to a consumer. What it was shown up to now decides if it wants more. -/
  | forEach (wants : List Entry → Bool)
  | size
  | isEmpty

/-- The keys that an operation is called with. -/
def Operation.names : Operation → List Bytes
  | .get key | .contains key | .remove key => [key]
  | .put key _ | .replace key _ | .putIfAbsent key _ | .putIfPresent key _ => [key]
  | .removeAll keys => keys
  | .rename source target _ => [source, target]
  | .clear | .forEach _ | .size | .isEmpty => []

inductive Answer where
  | nothing
  | value (value? : Option Value)
  | flag (yes : Bool)
  | count (number : Nat)
  | renaming (outcome : Store.RenameOutcome)
  | entries (shown : List Entry)
deriving Repr, DecidableEq

/-- A store, with what the order of its entries may depend on: how much room it was given at first,
and all that was done to it since. -/
structure Table where
  capacity : Nat
  past : List Operation := []
  store : Store := ∅

/-- The order in which a table gives out its entries. -/
structure Layout where
  order : Table → List Entry
  perm : ∀ table, (order table).Perm table.store.entries

namespace Table

/-- The entries that a consumer is shown of a list. -/
def shown (wants : List Entry → Bool) (entries : List Entry) : List Entry :=
  Store.forEach.visit (fun seen entry => (wants (seen ++ [entry]), seen ++ [entry])) [] entries

def answer (layout : Layout) (table : Table) : Operation → Answer × Store
  | .get key => (.value (table.store.get? key), table.store)
  | .contains key => (.flag (table.store.contains key), table.store)
  | .put key value => (table.store.put key value).map .count id
  | .replace key value => (table.store.replace key value).map .value id
  | .putIfAbsent key value => (table.store.putIfAbsent key value).map .count id
  | .putIfPresent key value => (table.store.putIfPresent key value).map .count id
  | .remove key => (table.store.remove key).map .value id
  | .removeAll keys => (table.store.removeAll keys).map .count id
  | .rename source target onlyIfAbsent =>
    (table.store.rename source target onlyIfAbsent).map .renaming id
  | .clear => (.nothing, ∅)
  | .forEach wants => (.entries (shown wants (layout.order table)), table.store)
  | .size => (.count table.store.size, table.store)
  | .isEmpty => (.flag table.store.isEmpty, table.store)

def perform (layout : Layout) (table : Table) (operation : Operation) : Answer × Table :=
  let (answer, store) := table.answer layout operation
  (answer, { table with past := table.past ++ [operation], store })

def performAll (layout : Layout) (table : Table) : List Operation → List Answer × Table
  | [] => ([], table)
  | operation :: rest =>
    let (answer, next) := table.perform layout operation
    let (answers, last) := next.performAll layout rest
    (answer :: answers, last)

end Table

end ShardStore
