import ShardStore.Log.Replay

/-!
Services: what executes command lines for connections. A service knows a connection by its selected
database alone. Clients who share a service have a connection each; all begin on database 0, and only
a connection's own lines change which one it has selected.
-/

namespace ShardStore

/-- What a command line comes to in a program whose state is of type `σ`. -/
structure Served (σ : Type) where
  reply : Message
  selected : Nat
  state : σ
deriving Repr, DecidableEq

/-- Executes command lines for connections, each known by its selected database. -/
abbrev Service (σ : Type) := σ → Nat → CommandLine → Served σ

def Engine.service : Service Engine := fun engine selected line =>
  let done := engine.exec selected line
  ⟨done.reply, done.selected, done.engine⟩

def DurableEngine.service : Service DurableEngine := fun durable selected line =>
  let (done, durable) := durable.exec selected line
  ⟨done.reply, done.selected, durable⟩

abbrev Selections (κ : Type) := κ → Nat

namespace Selections

variable {κ : Type}

def initial : Selections κ := fun _ => 0

def select [DecidableEq κ] (selections : Selections κ) (connection : κ) (database : Nat) : Selections κ :=
  fun other => if other = connection then database else selections other

/-- Selecting the database that is selected already changes nothing. -/
theorem select_self [DecidableEq κ] (selections : Selections κ) (connection : κ) :
    selections.select connection (selections connection) = selections := by
  funext other
  rw [select]
  split
  · next same => rw [same]
  · rfl

end Selections

structure Call (κ : Type) where
  connection : κ
  line : CommandLine
deriving Repr, DecidableEq

structure Clients (κ σ : Type) where
  state : σ
  selections : Selections κ := .initial

namespace Clients

variable {κ σ : Type} [DecidableEq κ]

/-- Executes a line on a connection. Which service it meets depends on where it is connected to. -/
def call (clients : Clients κ σ) (service : κ → Service σ) (call : Call κ) :
    Message × Clients κ σ :=
  let served :=
    service call.connection clients.state (clients.selections call.connection) call.line
  (served.reply,
    { state := served.state
      selections := clients.selections.select call.connection served.selected })

def callAll (clients : Clients κ σ) (service : κ → Service σ) :
    List (Call κ) → List Message × Clients κ σ
  | [] => ([], clients)
  | next :: calls =>
    let (reply, clients) := clients.call service next
    let (replies, clients) := clients.callAll service calls
    (reply :: replies, clients)

end Clients

end ShardStore
