import ShardStore.Service

/-!
Executing and logging as two steps. A line changes its database first, and its entry is queued
afterwards; in between, the lines of other connections may do either. A connection's next line waits
until the entry of its last one is queued.
-/

namespace ShardStore

/-- Connections at work on one engine, and what they have queued for the log. -/
structure Race (κ : Type) where
  clients : Clients κ Engine
  /-- The entry that each connection has still to queue. -/
  held : κ → Option LogEntry := fun _ => none
  queued : List LogEntry := []

inductive RaceStep (κ : Type) where
  | execute (call : Call κ)
  | enqueue (connection : κ)
deriving Repr, DecidableEq

namespace Race

variable {κ : Type} [DecidableEq κ]

def hold (race : Race κ) (connection : κ) (held? : Option LogEntry) : Race κ :=
  { race with held := fun other => if other = connection then held? else race.held other }

def step (race : Race κ) : RaceStep κ → Race κ
  | .execute call =>
    match race.held call.connection with
    | some _ => race
    | none =>
      let selected := race.clients.selections call.connection
      let done := race.clients.state.exec selected call.line
      let clients :=
        { state := done.engine
          selections := race.clients.selections.select call.connection done.selected }
      { race with clients }.hold call.connection done.entry?
  | .enqueue connection =>
    match race.held connection with
    | some entry => { race with queued := race.queued ++ [entry] }.hold connection none
    | none => race

def run (race : Race κ) (steps : List (RaceStep κ)) : Race κ :=
  steps.foldl step race

end Race

def Engine.execEntries (engine : Engine) (entries : List LogEntry) : Engine :=
  entries.foldl (fun engine entry => (engine.exec entry.database entry.line).engine) engine

end ShardStore
