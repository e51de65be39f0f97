import ShardStore.Node

/-!
Nodes that relay command lines to each other. A relayed line is preceded on its channel by a SELECT
of the client's database, so that it runs on the same database at the peer; the peer handles it like
any other line, and may relay it in turn. Lines are handled one at a time and every request is
answered before the next is made.
-/

namespace ShardStore

inductive Site where
  | member (node : Node)
  /-- An engine that belongs to no cluster. -/
  | single (durable : DurableEngine)
deriving DecidableEq

def Site.durable : Site → DurableEngine
  | .member node => node.durable
  | .single durable => durable

structure Cluster where
  sites : List (NodeId × Site)
deriving DecidableEq

namespace Cluster

def site? (cluster : Cluster) (address : NodeId) : Option Site :=
  cluster.sites.lookup address

def node? (cluster : Cluster) (address : NodeId) : Option Node :=
  match cluster.site? address with
  | some (.member node) => some node
  | _ => none

def setSite (cluster : Cluster) (address : NodeId) (site : Site) : Cluster :=
  ⟨cluster.sites.map fun entry => if entry.1 = address then (address, site) else entry⟩

def setPool (cluster : Cluster) (address peer : NodeId) (pool : Pool Channel) : Cluster :=
  match cluster.node? address with
  | some node => cluster.setSite address (.member (node.setPool peer pool))
  | none => cluster

def pool? (cluster : Cluster) (address peer : NodeId) : Option (Pool Channel) :=
  (cluster.node? address).bind fun node => node.pools.lookup peer

def nobody : Message :=
  LinkError.reply .timeout

/-- Executes a line with the engine at an address, without routing. -/
def execHere (address : NodeId) : Service Cluster := fun cluster selected line =>
  match cluster.site? address with
  | none => ⟨nobody, selected, cluster⟩
  | some site =>
    let served := DurableEngine.service site.durable selected line
    let site :=
      match site with
      | .member node => .member { node with durable := served.state }
      | .single _ => .single served.state
    ⟨served.reply, served.selected, cluster.setSite address site⟩

/-- Sends a line over a channel behind a SELECT of its database. Without that database at the peer,
the line is not sent. -/
def converse (network : Network) (service : Service Cluster) (channel : Channel) (selected : Nat)
    (line : CommandLine) (cluster : Cluster) : Message × Channel × Cluster :=
  let (reply, channel, cluster) :=
    channel.request network service cluster (selectLine selected)
  if reply.isError then (reply, channel, cluster)
  else channel.request network service cluster line

def relay (network : Network) (service : Service Cluster) (address peer : NodeId) (selected : Nat)
    (line : CommandLine) (cluster : Cluster) : Message × Cluster :=
  match cluster.pool? address peer with
  | none => (Node.unknownPeer peer, cluster)
  | some pool =>
    match pool.request (Channel.factory network peer) 0 0 with
    | (none, _) => (Node.noChannel .exhausted, cluster)
    | (some (.error failure), pool) =>
      (Node.noChannel failure, cluster.setPool address peer pool)
    | (some (.ok pooled), pool) =>
      let cluster := cluster.setPool address peer pool
      let (reply, channel, cluster) :=
        converse network service pooled.object selected line cluster
      let back := (cluster.pool? address peer).map fun pool =>
        pool.giveBack { pooled with object := channel }
      (reply, match back with
        | some pool => cluster.setPool address peer pool
        | none => cluster)

/-- Executes a line at an address. A line is relayed at most `hops` times in a row. -/
def exec (network : Network) : Nat → NodeId → Service Cluster
  | 0, _, cluster, selected, _ => ⟨nobody, selected, cluster⟩
  | hops + 1, address, cluster, selected, line =>
    match cluster.site? address with
    | none => ⟨nobody, selected, cluster⟩
    | some (.single _) => execHere address cluster selected line
    | some (.member node) =>
      let ask (assignment : Assignment) (state : Cluster × Nat) : Message × Cluster × Nat :=
        let (cluster, selected) := state
        if assignment.node = node.membership.self then
          let served := execHere address cluster selected assignment.line
          (served.reply, served.state, served.selected)
        else
          let service := exec network hops assignment.node
          let (reply, cluster) :=
            relay network service address assignment.node selected assignment.line cluster
          (reply, cluster, selected)
      let (reply, cluster, selected) := node.membership.carryOut ask line (cluster, selected)
      ⟨reply, selected, cluster⟩

/-- How often a line can be relayed in a row: each node passes a key on only to a node that is
nearer to it on the ring. -/
def maxHops (cluster : Cluster) : Nat :=
  cluster.sites.length + 1

def service (network : Network) (address : NodeId) : Service Cluster :=
  fun cluster selected line => exec network cluster.maxHops address cluster selected line

def mapDurable (cluster : Cluster) (address : NodeId) (change : DurableEngine → DurableEngine) :
    Cluster :=
  match cluster.site? address with
  | some (.member node) =>
    cluster.setSite address (.member { node with durable := change node.durable })
  | some (.single durable) => cluster.setSite address (.single (change durable))
  | none => cluster

def work (cluster : Cluster) (address : NodeId) (now : Time) : Cluster :=
  cluster.mapDurable address (·.work now)

def closeNode (cluster : Cluster) (address : NodeId) (now : Time) : Cluster :=
  match cluster.site? address with
  | some (.member node) => cluster.setSite address (.member (node.close now))
  | some (.single durable) => cluster.setSite address (.single (durable.close now))
  | none => cluster

end Cluster

end ShardStore
