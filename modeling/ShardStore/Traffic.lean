import ShardStore.Cluster

/-!
Lines between nodes when many are under way at once. The lines that a node gives to others, and to
its own engine while others get some too, are parcels, which move independently of each other, a
step at a time. A parcel for a peer gets a channel, goes over it behind a SELECT of its database,
and gives the channel back; when no channel is free it waits. What a peer gets over a channel it
handles like a line of a client's.

Which lines nodes got from each other, and which their engines executed, is kept for those who
look on.
-/

namespace ShardStore

/-- How far a line has come on its way to a node. -/
inductive Stage where
  | waiting
  | borrowed (pooled : Pooled Channel)
  /-- The peer has selected the database. -/
  | switched (pooled : Pooled Channel)
deriving Repr, DecidableEq

/-- A line on its way to a node, with the number of the client's line that it is for. -/
structure Parcel where
  number : Nat
  sender : NodeId
  receiver : NodeId
  selected : Nat
  line : CommandLine
  stage : Stage := .waiting
deriving Repr, DecidableEq

/-- A client's line, the node it came to, and the database that the client had selected. -/
structure Issue where
  node : NodeId
  selected : Nat
  line : CommandLine
deriving Repr, DecidableEq

/-- A line that a node got from a peer. -/
structure Receipt where
  number : Nat
  node : NodeId
  line : CommandLine
deriving Repr, DecidableEq

/-- A line that the engine of a node executed on a database. -/
structure Deed where
  number : Nat
  node : NodeId
  selected : Nat
  line : CommandLine
deriving Repr, DecidableEq

structure Traffic (κ : Type) where
  cluster : Cluster
  selections : Selections κ := .initial
  /-- The clients' lines; the number of each is its place. -/
  issued : List Issue := []
  underWay : List Parcel := []
  received : List Receipt := []
  executed : List Deed := []

inductive TrafficEvent (κ : Type) where
  | issue (call : Call κ)
  /-- The parcel at some place among those under way goes a step further. -/
  | advance (index : Nat)
deriving Repr, DecidableEq

namespace Traffic

variable {κ : Type}

def execute (number : Nat) (address : NodeId) : Service (Traffic κ) := fun traffic selected line =>
  let served := Cluster.execHere address traffic.cluster selected line
  ⟨served.reply, served.selected,
    { traffic with
      cluster := served.state
      executed := traffic.executed ++ [⟨number, address, selected, line⟩] }⟩

def send (traffic : Traffic κ) (number : Nat) (sender : NodeId) (selected : Nat)
    (assignments : List Assignment) : Traffic κ :=
  { traffic with
    underWay := traffic.underWay ++ assignments.map fun assignment =>
      { number, sender, receiver := assignment.node, selected, line := assignment.line } }

/-- Handles a line. One that is not answered at once nor kept is sent, and has no answer yet. -/
def handle (number : Nat) (address : NodeId) : Service (Traffic κ) := fun traffic selected line =>
  match traffic.cluster.site? address with
  | none => ⟨Cluster.nobody, selected, traffic⟩
  | some (.single _) => execute number address traffic selected line
  | some (.member node) =>
    match node.membership.plan line with
    | .answer reply => ⟨reply, selected, traffic⟩
    | .one assignment =>
      if assignment.node = node.membership.self then
        execute number address traffic selected assignment.line
      else ⟨Cluster.nobody, selected, traffic.send number address selected [assignment]⟩
    | .all merge line =>
      ⟨Cluster.nobody, selected,
        traffic.send number address selected (node.membership.assignments (.all merge line))⟩

/-- Handles a line that comes from a peer. -/
def receive (number : Nat) (address : NodeId) : Service (Traffic κ) := fun traffic selected line =>
  let receipt : Receipt := ⟨number, address, line⟩
  handle number address { traffic with received := traffic.received ++ [receipt] } selected line

def put (traffic : Traffic κ) (index : Nat) (parcel : Parcel) : Traffic κ :=
  { traffic with underWay := traffic.underWay.set index parcel }

def drop (traffic : Traffic κ) (index : Nat) : Traffic κ :=
  { traffic with underWay := traffic.underWay.eraseIdx index }

def setPool (traffic : Traffic κ) (parcel : Parcel) (pool : Pool Channel) : Traffic κ :=
  { traffic with cluster := traffic.cluster.setPool parcel.sender parcel.receiver pool }

/-- Asks for a channel. A parcel that would have to wait for one will ask again. -/
def borrow (network : Network) (traffic : Traffic κ) (index : Nat) (parcel : Parcel) : Traffic κ :=
  match traffic.cluster.pool? parcel.sender parcel.receiver with
  | none => traffic.drop index
  | some pool =>
    match pool.request (Channel.factory network parcel.receiver) 0 0 with
    | (none, _) => traffic
    | (some (.error _), pool) => (traffic.setPool parcel pool).drop index
    | (some (.ok pooled), pool) =>
      (traffic.setPool parcel pool).put index { parcel with stage := .borrowed pooled }

/-- Ends a parcel, and gives its channel back. -/
def finish (traffic : Traffic κ) (index : Nat) (parcel : Parcel) (pooled : Pooled Channel) :
    Traffic κ :=
  let traffic := traffic.drop index
  match traffic.cluster.pool? parcel.sender parcel.receiver with
  | some pool => traffic.setPool parcel (pool.giveBack pooled)
  | none => traffic

/-- Sends the SELECT line in front. Without that database at the peer, the line itself is not
sent. -/
def switch (network : Network) (traffic : Traffic κ) (index : Nat) (parcel : Parcel)
    (pooled : Pooled Channel) : Traffic κ :=
  let (reply, channel, traffic) := pooled.object.request network
    (receive parcel.number parcel.receiver) traffic (selectLine parcel.selected)
  let pooled := { pooled with object := channel }
  if reply.isError then traffic.finish index parcel pooled
  else traffic.put index { parcel with stage := .switched pooled }

def deliver (network : Network) (traffic : Traffic κ) (index : Nat) (parcel : Parcel)
    (pooled : Pooled Channel) : Traffic κ :=
  let (_, channel, traffic) := pooled.object.request network
    (receive parcel.number parcel.receiver) traffic parcel.line
  traffic.finish index parcel { pooled with object := channel }

def advance (network : Network) (traffic : Traffic κ) (index : Nat) : Traffic κ :=
  match traffic.underWay[index]? with
  | none => traffic
  | some parcel =>
    if parcel.receiver = parcel.sender then
      (execute parcel.number parcel.receiver (traffic.drop index) parcel.selected parcel.line).state
    else
      match parcel.stage with
      | .waiting => traffic.borrow network index parcel
      | .borrowed pooled => traffic.switch network index parcel pooled
      | .switched pooled => traffic.deliver network index parcel pooled

def issueOf (home : κ → NodeId) (traffic : Traffic κ) (call : Call κ) : Issue :=
  ⟨home call.connection, traffic.selections call.connection, call.line⟩

variable [DecidableEq κ]

/-- Hands a client's line to the node that the client is connected to. -/
def issue (home : κ → NodeId) (traffic : Traffic κ) (call : Call κ) : Traffic κ :=
  let issue := traffic.issueOf home call
  let served := handle traffic.issued.length issue.node
    { traffic with issued := traffic.issued ++ [issue] } issue.selected issue.line
  { served.state with
    selections := served.state.selections.select call.connection served.selected }

def step (network : Network) (home : κ → NodeId) (traffic : Traffic κ) :
    TrafficEvent κ → Traffic κ
  | .issue call => traffic.issue home call
  | .advance index => traffic.advance network index

def run (network : Network) (home : κ → NodeId) (traffic : Traffic κ)
    (events : List (TrafficEvent κ)) : Traffic κ :=
  events.foldl (step network home) traffic

end Traffic

end ShardStore
