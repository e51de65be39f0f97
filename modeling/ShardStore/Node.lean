import ShardStore.Peering.Link
import ShardStore.Pool
import ShardStore.Routing.Plan
import ShardStore.Server

namespace ShardStore

/-- A link together with the connection that its peer sees at the other end. -/
structure Channel where
  link : Link
  far : Session := {}
deriving Repr, DecidableEq

namespace Channel

/-- Makes channels to a peer. One whose link takes no requests any more is not handed out again. -/
def factory (network : Network) (peer : NodeId) : Factory Channel where
  make _ :=
    match Link.connect network peer with
    | .ok link => .ok { link }
    | .error failure => .error failure.message
  isValid pooled := !pooled.object.link.closed

def outcome (number : Nat) (completions : List Completion) : Except LinkError Message :=
  match completions.find? (·.number == number) with
  | some completion => completion.result
  | none => .error .timeout

inductive Incident where
  | hangUp
  | redial (succeeded : Bool)
deriving Repr, DecidableEq

/-- The channel behind an incident. At the other end of a new connection the peer sees a new one. -/
def suffer (channel : Channel) : Incident → Channel
  | .hangUp => { channel with link := channel.link.hangUp.2 }
  | .redial succeeded =>
    let link := (channel.link.redial succeeded).2
    if link.generation = channel.link.generation then { channel with link } else { link, far := {} }

/-- Dials again, if the connection was lost, until the peer is reached or the link gives up. -/
def restore (channel : Channel) (network : Network) : Channel :=
  match channel.link.connection, network channel.link.address with
  | .gone, .ok () => channel.suffer (.redial true)
  | .gone, .error _ => (List.replicate Link.maxAttempts (.redial false)).foldl suffer channel
  | _, _ => channel

/-- Sends a line over a channel on which nothing else is under way, and waits for its reply from a
peer that executes lines by `service`. -/
def request {σ : Type} (channel : Channel) (network : Network) (service : Service σ) (state : σ)
    (line : CommandLine) : Message × Channel × σ :=
  match channel.link.submit line with
  | (.error failure, link) => (failure.reply, { channel with link }, state)
  | (.ok number, link) =>
    let (written?, unsent, link) := link.transmit none
    let (replies, far, state) :=
      channel.far.receive service state (written?.elim [] LinkRequest.bytes)
    let (answered, link) := link.receive (Server.written replies)
    let reply :=
      match outcome number (unsent ++ answered) with
      | .ok reply => reply
      | .error failure => failure.reply
    (reply, restore { link, far } network, state)

end Channel

def selectLine (database : Nat) : CommandLine :=
  Log.selectLine database

structure Node where
  membership : Membership
  durable : DurableEngine
  pools : List (NodeId × Pool Channel)
deriving DecidableEq

namespace Node

structure Options where
  self : NodeId
  peers : List NodeId := []
  durable : DurableOptions := {}
deriving Repr, DecidableEq

/-- Opens a node on what its log file holds. No peer is dialled yet. -/
def opened (options : Options) (file? : Option Bytes) (now : Time) : Node :=
  let membership := Membership.of options.self options.peers
  { membership
    durable := .opened options.durable file? now
    pools := membership.peers.map fun peer => (peer, .new {}) }

def setPool (node : Node) (peer : NodeId) (pool : Pool Channel) : Node :=
  { node with
    pools := node.pools.map fun entry => if entry.1 = peer then (peer, pool) else entry }

def close (node : Node) (now : Time) : Node :=
  { node with
    durable := node.durable.close now
    pools := node.pools.map fun (peer, pool) => (peer, pool.close) }

def unknownPeer (peer : NodeId) : Message :=
  .error s!"ERR unknown peer '{peer}'"

def noChannel (failure : PoolError) : Message :=
  .error s!"ERR {failure.message}"

end Node

end ShardStore
