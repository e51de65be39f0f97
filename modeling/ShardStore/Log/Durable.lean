import ShardStore.Engine
import ShardStore.Log.Queue

namespace ShardStore

inductive LogState where
  /-- There is no log; a file that may exist is left alone. -/
  | unlogged (file? : Option Bytes)
  /-- The writer at work and what it has not yet taken. -/
  | running (writer : Log.Writer) (queued : List LogEntry)
  /-- The writer has shut down, and the file is as it left it. -/
  | stopped (file : Bytes)
deriving Repr, DecidableEq

namespace LogState

/-- What the file holds at this moment, if there is one. -/
def file? : LogState → Option Bytes
  | .unlogged file? => file?
  | .running writer _ => some writer.file
  | .stopped file => some file

def enqueue (state : LogState) (entry : LogEntry) : LogState × List Notice :=
  match state with
  | .unlogged file? => (.unlogged file?, [])
  | .running writer queued => (.running writer (queued ++ [entry]), [])
  | .stopped file =>
    (.stopped file,
      [⟨.warn, s!"AOF writer has stopped, dropping entry for db {toString entry.database}"⟩])

def work (state : LogState) (now : Time) : LogState :=
  match state with
  | .running writer (first :: more) =>
    let loop : Log.Loop := { writer }
    .running (loop.wake (.batch now (.append first) (more.map .append))).writer []
  | state => state

def close (state : LogState) (now : Time) : LogState :=
  match state with
  | .running writer queued =>
    .stopped (Log.drain writer now (queued.map .append ++ [.shutdown])).writer.file
  | state => state

end LogState

structure DurableEngine where
  engine : Engine
  log : LogState
deriving DecidableEq

namespace DurableEngine

/-- An engine whose lines are not logged. -/
def unlogged (engine : Engine) : DurableEngine :=
  { engine, log := .unlogged none }

/-- Logs the lines that are executed from now on behind what the file holds. -/
def bind (durable : DurableEngine) (policy : SyncPolicy) (file? : Option Bytes) (now : Time) :
    DurableEngine :=
  { durable with log := .running (.opened policy file? now) [] }

def exec (durable : DurableEngine) (selected : Nat) (line : CommandLine) :
    Execution × DurableEngine :=
  let done := durable.engine.exec selected line
  match done.entry? with
  | none => (done, { durable with engine := done.engine })
  | some entry =>
    let (log, notices) := durable.log.enqueue entry
    ({ done with notices := done.notices ++ notices }, { engine := done.engine, log })

def work (durable : DurableEngine) (now : Time) : DurableEngine :=
  { durable with log := durable.log.work now }

def close (durable : DurableEngine) (now : Time) : DurableEngine :=
  { durable with log := durable.log.close now }

end DurableEngine

end ShardStore
