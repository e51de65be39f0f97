import ShardStore.Service

/-!
Lifetimes of an engine with a log. In each the engine is opened on what the file holds, executes the
lines of its clients while the log catches up from time to time, and is closed. The next lifetime
begins with the file as the last one left it, and with new connections.

Connections can outlive their engine's log: until the program ends, their lines are still executed, and
the engine may be closed again.
-/

namespace ShardStore

inductive Activity (κ : Type) where
  | call (call : Call κ)
  | work (now : Time)
deriving Repr, DecidableEq

structure Lifetime (κ : Type) where
  openedAt : Time := 0
  activities : List (Activity κ)
  closedAt : Time := 0
deriving Repr, DecidableEq

namespace Lifetime

variable {κ : Type} [DecidableEq κ]

def act (clients : Clients κ DurableEngine) : Activity κ → Clients κ DurableEngine
  | .call call => (clients.call (fun _ => DurableEngine.service) call).2
  | .work now => { clients with state := clients.state.work now }

/-- The engine and its clients just before it is closed. -/
def live (lifetime : Lifetime κ) (options : DurableOptions) (file? : Option Bytes) :
    Clients κ DurableEngine :=
  lifetime.activities.foldl act { state := .opened options file? lifetime.openedAt }

def closed (lifetime : Lifetime κ) (options : DurableOptions) (file? : Option Bytes) :
    DurableEngine :=
  (lifetime.live options file?).state.close lifetime.closedAt

def fileAfter (options : DurableOptions) (file? : Option Bytes) (lifetime : Lifetime κ) :
    Option Bytes :=
  (lifetime.closed options file?).log.file?

def fileAfterAll (options : DurableOptions) (file? : Option Bytes)
    (lifetimes : List (Lifetime κ)) : Option Bytes :=
  lifetimes.foldl (fileAfter options) file?

end Lifetime

inductive LateActivity (κ : Type) where
  | call (call : Call κ)
  | work (now : Time)
  | close (now : Time)
deriving Repr, DecidableEq

/-- A run of the program, from when its engine is opened to when it ends. -/
structure Run (κ : Type) where
  policy : SyncPolicy := .everySecond
  lifetime : Lifetime κ
  late : List (LateActivity κ) := []
deriving Repr, DecidableEq

namespace Run

variable {κ : Type} [DecidableEq κ]

def options (run : Run κ) (databases : Nat) : DurableOptions :=
  ⟨databases, true, run.policy⟩

/-- The engine and its clients just after it is closed for the first time. -/
def closed (run : Run κ) (databases : Nat) (file? : Option Bytes) : Clients κ DurableEngine :=
  let live := run.lifetime.live (run.options databases) file?
  { live with state := live.state.close run.lifetime.closedAt }

def lateAct (clients : Clients κ DurableEngine) : LateActivity κ → Clients κ DurableEngine
  | .call call => (clients.call (fun _ => DurableEngine.service) call).2
  | .work now => { clients with state := clients.state.work now }
  | .close now => { clients with state := clients.state.close now }

def fileAfter (databases : Nat) (file? : Option Bytes) (run : Run κ) : Option Bytes :=
  (run.late.foldl lateAct (run.closed databases file?)).state.log.file?

def fileAfterAll (databases : Nat) (file? : Option Bytes) (runs : List (Run κ)) : Option Bytes :=
  runs.foldl (fileAfter databases) file?

end Run

end ShardStore
