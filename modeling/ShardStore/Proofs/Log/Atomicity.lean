import ShardStore.Proofs.Log.TornTail

namespace ShardStore

theorem Message.isError_eq (message : Message) :
    message.isError = message.errorText?.isSome := by
  cases message <;> rfl

/-- What an execution of a line leaves alone. -/
structure Execution.Framed (engine : Engine) (selected : Nat) (line : CommandLine)
    (done : Execution) : Prop where
  rejected : done.reply.isError = true →
    done.engine = engine ∧ done.selected = selected ∧ done.entry? = none
  frame : ∀ database, database ≠ selected →
    done.engine.databases[database]? = engine.databases[database]?
  entry : ∀ entry ∈ done.entry?, entry = ⟨selected, line⟩
  unlogged : done.entry? = none → done.engine = engine

variable {κ : Type} [DecidableEq κ]

/-- What a call to an engine leaves alone, and what it adds to the log. -/
structure Call.Framed (call : Call κ) (before after : Clients κ DurableEngine) (reply : Message)
    (added : List LogEntry) : Prop where
  rejected : reply.isError = true →
    after.state.engine = before.state.engine ∧ after.selections = before.selections ∧ added = []
  selections : ∀ connection, connection ≠ call.connection →
    after.selections connection = before.selections connection
  databases : ∀ database, database ≠ before.selections call.connection →
    after.state.engine.databases[database]? = before.state.engine.databases[database]?
  logged : added = [] ∨ added = [⟨before.selections call.connection, call.line⟩]
  unlogged : added = [] → after.state.engine = before.state.engine

end ShardStore
