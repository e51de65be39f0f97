import ShardStore.Clock
import ShardStore.Log.Entry
import ShardStore.Log.SyncPolicy

namespace ShardStore.Log

/-- How long the policy `everySecond` lets synced and flushed bytes differ. -/
def syncInterval : Time := 1000

structure Writer where
  policy : SyncPolicy
  file : Bytes
  /-- How many bytes of the file are known to be on disk. -/
  synced : Nat := 0
  lastSync : Time := 0
  gathered : Bytes := []
  /-- The database that the log was last switched to by this writer. -/
  current? : Option Nat := none
deriving Repr, DecidableEq

namespace Writer

/-- A writer behind what a file holds; a file that does not exist is made. -/
def opened (policy : SyncPolicy) (file? : Option Bytes) (now : Time) : Writer :=
  { policy, file := file?.getD [], lastSync := now }

/-- Gathers an entry, after a SELECT line if its database differs from the last one's. -/
def write (writer : Writer) (entry : LogEntry) : Writer :=
  { writer with
    gathered := writer.gathered ++ entryBytes writer.current? entry
    current? := some entry.database }

def sync (writer : Writer) (now : Time) : Writer :=
  { writer with synced := writer.file.length, lastSync := now }

def pushOut (writer : Writer) : Writer :=
  { writer with file := writer.file ++ writer.gathered, gathered := [] }

def syncDue (writer : Writer) (now : Time) : Bool :=
  match writer.policy with
  | .always => true
  | .everySecond => syncInterval ≤ now - writer.lastSync
  | .never => false

/-- Moves what was gathered into the file, and syncs if the policy asks for it. -/
def flush (writer : Writer) (now : Time) : Writer :=
  if writer.syncDue now then writer.pushOut.sync now else writer.pushOut

/-- Leaves nothing behind: everything gathered is in the file and the file is on disk. -/
def finish (writer : Writer) (now : Time) : Writer :=
  writer.pushOut.sync now

end Writer

end ShardStore.Log
