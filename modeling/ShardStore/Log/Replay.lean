import ShardStore.Log.Durable
import ShardStore.Log.Reader

/-!
Replaying a log: every command line runs on one connection, in order. What cannot be read or run is
skipped with a warning. An engine is opened by replaying its log before it is bound to the log, so
that nothing is logged twice.
-/

namespace ShardStore

namespace Log

structure Replay where
  durable : DurableEngine
  selected : Nat := 0
  applied : Nat := 0
  skipped : Nat := 0
  replies : List Message := []
  notices : List Notice := []
deriving DecidableEq

namespace Replay

def engine (replayed : Replay) : Engine :=
  replayed.durable.engine

/-- Puts an item that is passed over in front, telling the operator why. -/
def prependSkip (later : Replay) (reason : String) : Replay :=
  { later with
    skipped := later.skipped + 1
    notices := ⟨.warn, s!"{reason}. Skipping."⟩ :: later.notices }

/-- Puts a line that was executed in front. One that failed counts as passed over. -/
def prependLine (later : Replay) (done : Execution) : Replay :=
  let counted :=
    match done.reply.errorText? with
    | some text => later.prependSkip s!"Failed to replay AOF entry: {text}"
    | none => { later with applied := later.applied + 1 }
  { counted with
    replies := done.reply :: counted.replies
    notices := done.notices ++ counted.notices }

def through (durable : DurableEngine) (selected : Nat) : List LogItem → Replay
  | [] => { durable, selected }
  | .line line :: rest =>
    let (done, durable) := durable.exec selected line
    (through durable done.selected rest).prependLine done
  | .unexpected message :: rest =>
    (through durable selected rest).prependSkip s!"AOF entry is not a command: {message.summary}"
  | .corrupt fault :: rest =>
    (through durable selected rest).prependSkip s!"Corrupt AOF entry: {fault.message}"

/-- Replays items into an engine that is not bound to a log yet. -/
def ofItems (engine : Engine) (selected : Nat) (items : List LogItem) : Replay :=
  through (.unlogged engine) selected items

end Replay

def replay (engine : Engine) (file? : Option Bytes) : Replay :=
  .ofItems engine 0 ((file?.map read).getD [])

end Log

structure DurableOptions where
  databases : Nat := Engine.defaultCount
  logged : Bool := true
  policy : SyncPolicy := .everySecond
deriving Repr, DecidableEq

namespace DurableEngine

def opened (options : DurableOptions) (file? : Option Bytes) (now : Time) : DurableEngine :=
  let engine := Engine.new options.databases
  if options.logged then (Log.replay engine file?).durable.bind options.policy file? now
  else { engine, log := .unlogged file? }

end DurableEngine

end ShardStore
