import ShardStore.Log.Queue
import ShardStore.Log.Sessions

/-!
The writer's task in single steps. It waits for a request or for the timer. With a request begins a batch,
to which it takes what else has arrived, one request after the other, until there is nothing left or it
is told to shut down. Between any two of its steps requests may arrive, the last sender may go, and the
buffer may pass something on. `Loop.wake` is a whole batch during which nothing arrives.
-/

namespace ShardStore.Log

/-- What the task does next. A marker is a request to shut down, known by its place in the queue. -/
inductive Stage where
  | waiting
  /-- A request was taken out of the queue and is to be dealt with. -/
  | holding (place : Nat) (request : Request)
  /-- An entry was written, and the batch goes on if there is another request. -/
  | looking
  | flushing
  /-- The last flush, the last sync, and then the answer to the marker if there was one. -/
  | finishing (marker? : Option Nat)
  | syncing (marker? : Option Nat)
  | answering (marker? : Option Nat)
  | ended
deriving Repr, DecidableEq

structure Task where
  writer : Writer
  /-- All that was ever put into the queue. -/
  arrived : List Request := []
  /-- How many requests were taken out of it. -/
  taken : Nat := 0
  /-- Whether anybody can still put requests into the queue. -/
  hasSenders : Bool := true
  stage : Stage := .waiting
  /-- The places of the markers that were acknowledged. -/
  acknowledged : List Nat := []
deriving Repr, DecidableEq

inductive TaskStep where
  | arrive (request : Request)
  /-- The last sender goes. -/
  | hangUp
  | tick (now : Time)
  | spill (count : Nat)
  | proceed (now : Time)
deriving Repr, DecidableEq

namespace Task

def next? (task : Task) : Option Request :=
  task.arrived[task.taken]?

def take (task : Task) (request : Request) : Task :=
  { task with taken := task.taken + 1, stage := .holding task.taken request }

/-- Puts a request into the queue, which is there until the task has ended. -/
def arrive (task : Task) (request : Request) : Task :=
  if task.hasSenders ∧ task.stage ≠ .ended then { task with arrived := task.arrived ++ [request] }
  else task

/-- The timer, which the task hears only while it waits. -/
def tick (task : Task) (now : Time) : Task :=
  if task.stage = .waiting ∧ task.writer.policy = .everySecond then
    { task with writer := task.writer.flush now }
  else task

def proceed (task : Task) (now : Time) : Task :=
  match task.stage with
  | .waiting =>
    match task.next? with
    | some request => task.take request
    | none => if task.hasSenders then task else { task with stage := .finishing none }
  | .holding _ (.append entry) => { task with writer := task.writer.write entry, stage := .looking }
  | .holding place .shutdown => { task with stage := .finishing (some place) }
  | .looking =>
    match task.next? with
    | some request => task.take request
    | none => { task with stage := .flushing }
  | .flushing => { task with writer := task.writer.flush now, stage := .waiting }
  | .finishing marker? => { task with writer := task.writer.pushOut, stage := .syncing marker? }
  | .syncing marker? => { task with writer := task.writer.sync now, stage := .answering marker? }
  | .answering marker? =>
    { task with acknowledged := task.acknowledged ++ marker?.toList, stage := .ended }
  | .ended => task

def step (task : Task) : TaskStep → Task
  | .arrive request => task.arrive request
  | .hangUp => { task with hasSenders := false }
  | .tick now => task.tick now
  | .spill count => { task with writer := task.writer.spill count }
  | .proceed now => task.proceed now

def run (task : Task) (steps : List TaskStep) : Task :=
  steps.foldl step task

end Task

end ShardStore.Log
