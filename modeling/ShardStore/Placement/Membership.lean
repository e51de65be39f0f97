import ShardStore.Placement.Ring

namespace ShardStore

structure Membership where
  self : NodeId
  /-- The other nodes, each once. -/
  peers : List NodeId
deriving Repr, DecidableEq

namespace Membership

def meet (membership : Membership) (peer : NodeId) : Membership :=
  if peer.isEmpty || peer == membership.self || membership.peers.contains peer then membership
  else { membership with peers := membership.peers ++ [peer] }

/-- The membership of a node whose peers are listed, maybe with repetitions and the node itself. -/
def of (self : NodeId) (listed : List NodeId) : Membership :=
  listed.foldl meet { self, peers := [] }

def nodes (membership : Membership) : List NodeId :=
  membership.self :: membership.peers

def ring (membership : Membership) : Ring Crc32.checksum :=
  (∅ : Ring Crc32.checksum).addAll membership.nodes

/-- The node a key is routed to. Keys stay here if no node is on the ring. -/
def owner (membership : Membership) (key : Bytes) : NodeId :=
  (membership.ring.owner? key).getD membership.self

end Membership

end ShardStore
