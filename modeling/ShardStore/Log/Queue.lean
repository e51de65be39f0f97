import ShardStore.Log.Writer

namespace ShardStore.Log

inductive Request where
  | append (entry : LogEntry)
  /-- Write everything in front, make it safe, acknowledge, stop. -/
  | shutdown
deriving Repr, DecidableEq

inductive Wake where
  | tick (now : Time)
  /-- Requests were in the queue at some time, the first one and those behind it. -/
  | batch (now : Time) (first : Request) (more : List Request)
deriving Repr, DecidableEq

/-- The writer's loop: the writer, and once it has shut down, that the shutdown was acknowledged. -/
structure Loop where
  writer : Writer
  acknowledged : Bool := false
deriving Repr, DecidableEq

def takeBatch (writer : Writer) : List Request → Writer × Bool
  | [] => (writer, false)
  | .append entry :: rest => takeBatch (writer.write entry) rest
  | .shutdown :: _ => (writer, true)

namespace Loop

/-- What the loop does when it wakes. After a shutdown it does nothing any more. -/
def wake (loop : Loop) (event : Wake) : Loop :=
  if loop.acknowledged then loop
  else
    match event with
    | .tick now =>
      if loop.writer.policy = .everySecond then { loop with writer := loop.writer.flush now }
      else loop
    | .batch now first more =>
      match takeBatch loop.writer (first :: more) with
      | (writer, true) => { writer := writer.finish now, acknowledged := true }
      | (writer, false) => { loop with writer := writer.flush now }

/-- Runs until nobody can put requests into the queue any more. -/
def run (loop : Loop) (events : List Wake) (last : Time) : Loop :=
  let loop := events.foldl wake loop
  if loop.acknowledged then loop else { loop with writer := loop.writer.finish last }

end Loop

def drain (writer : Writer) (now : Time) : List Request → Loop
  | [] => ({ writer } : Loop).run [] now
  | first :: more => ({ writer } : Loop).run [.batch now first more] now

end ShardStore.Log
