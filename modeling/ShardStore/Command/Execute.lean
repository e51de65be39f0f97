import ShardStore.Command.Failure
import ShardStore.Keyspace.Glob
import ShardStore.Keyspace.Store

namespace ShardStore

structure Effect where
  reply : Message
  store : Store
  logged : Bool
deriving DecidableEq

namespace Effect

def reading (reply : Message) (store : Store) : Effect :=
  ⟨reply, store, false⟩

end Effect

namespace Command

def argument (args : List Bytes) (index : Nat) : Except Failure Bytes :=
  match args[index]? with
  | some arg => .ok arg
  | none => .error (.internal (.missingArgument index))

def executeGet (args : List Bytes) (store : Store) : Except Failure Effect := do
  let key ← argument args 0
  .ok (.reading (.ofBytes? (store.get? key)) store)

def executeStrLen (args : List Bytes) (store : Store) : Except Failure Effect := do
  let key ← argument args 0
  .ok (.reading (.ofNat ((store.get? key).elim 0 List.length)) store)

def executeSet (args : List Bytes) (store : Store) : Except Failure Effect := do
  let key ← argument args 0
  let value ← argument args 1
  .ok ⟨.ok, (store.put key value).2, true⟩

def executeSetNx (args : List Bytes) (store : Store) : Except Failure Effect := do
  let key ← argument args 0
  let value ← argument args 1
  let (stored, after) := store.putIfAbsent key value
  .ok ⟨.ofNat stored, after, 0 < stored⟩

def executeGetSet (args : List Bytes) (store : Store) : Except Failure Effect := do
  let key ← argument args 0
  let value ← argument args 1
  let (previous, after) := store.replace key value
  .ok ⟨.ofBytes? previous, after, true⟩

def executeDel (args : List Bytes) (store : Store) : Except Failure Effect :=
  let (removed, after) := store.removeAll args
  .ok ⟨.ofNat removed, after, 0 < removed⟩

/-- A key that is named twice counts twice. -/
def executeExists (args : List Bytes) (store : Store) : Except Failure Effect :=
  .ok (.reading (.ofNat (args.countP store.contains)) store)

def executeType (args : List Bytes) (store : Store) : Except Failure Effect := do
  let key ← argument args 0
  .ok (.reading (.simple ((store.get? key).elim "none" Value.kind)) store)

def executeRename (args : List Bytes) (store : Store) : Except Failure Effect := do
  let source ← argument args 0
  let target ← argument args 1
  match store.rename source target false with
  | (.renamed, after) => .ok ⟨.ok, after, true⟩
  | (.noSuchKey, _) => .error .noSuchKey
  | (.destinationExists, _) => .error (.internal .renameRefused)

def executeRenameNx (args : List Bytes) (store : Store) : Except Failure Effect := do
  let source ← argument args 0
  let target ← argument args 1
  match store.rename source target true with
  | (.renamed, after) => .ok ⟨.ofNat 1, after, true⟩
  | (.destinationExists, _) => .ok (.reading (.ofNat 0) store)
  | (.noSuchKey, _) => .error .noSuchKey

/-- The keys that match a pattern, in byte order. -/
def executeKeys (args : List Bytes) (store : Store) : Except Failure Effect := do
  let pattern ← argument args 0
  let tokens := Glob.tokens pattern
  .ok (.reading (.ofList (store.keys.filter (Glob.matchesTokens tokens))) store)

def execute (command : Command) (args : List Bytes) (store : Store) : Except Failure Effect :=
  match command with
  | .ping => .ok (.reading .pong store)
  | .flushDb => .ok ⟨.ok, ∅, true⟩
  | .get => executeGet args store
  | .set => executeSet args store
  | .setNx => executeSetNx args store
  | .getSet => executeGetSet args store
  | .strLen => executeStrLen args store
  | .del => executeDel args store
  | .keyExists => executeExists args store
  | .keyType => executeType args store
  | .rename => executeRename args store
  | .renameNx => executeRenameNx args store
  | .keys => executeKeys args store

end Command

end ShardStore
