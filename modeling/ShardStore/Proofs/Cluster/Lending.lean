import ShardStore.Proofs.Cluster.Relaying

namespace ShardStore

namespace Pool

/-- Whether the channels of some numbers are out of a pool which is open, nobody waits for it, and
nothing is under way on the channels that it has. -/
structure Lends (numbers : List Nat) (pool : Pool Channel) : Prop where
  opened : pool.closed = false
  waiting : pool.waiting = []
  idle : ∀ pooled ∈ pool.idle, pooled.object.Idle
  borrowed : pool.borrowed.Perm numbers
  permits : pool.free + numbers.length = pool.limits.borrowed
  positive : 0 < pool.limits.borrowed

theorem new_lends {limits : PoolLimits} (positive : 0 < limits.borrowed) : (new limits).Lends [] :=
  ⟨rfl, rfl, (fun _ mem => nomatch mem), .refl _, rfl, positive⟩

namespace Lends

variable {pool : Pool Channel} {numbers : List Nat}

theorem perm (lends : pool.Lends numbers) {others : List Nat} (same : numbers.Perm others) :
    pool.Lends others :=
  { lends with
    borrowed := lends.borrowed.trans same
    permits := by rw [← same.length_eq, lends.permits] }

theorem free_pos (lends : pool.Lends numbers) (none : numbers = []) : 0 < pool.free := by
  have all := lends.permits
  have positive := lends.positive
  rw [none, List.length_nil] at all
  omega

theorem request (lends : pool.Lends numbers) (permits : 0 < pool.free) {network : Network}
    {peer : NodeId} (reachable : network peer = .ok ()) :
    ∃ pooled after, pool.request (Channel.factory network peer) 0 0 = (some (.ok pooled), after) ∧
      pooled.object.Idle ∧ after.Lends (pooled.number :: numbers) := by
  obtain ⟨pooled, after, asked, lent⟩ := request_lent lends.opened permits lends.idle reachable
  have all := lends.permits
  refine ⟨pooled, after, asked, lent.object, lent.closed.trans lends.opened,
    lent.waiting.trans lends.waiting, lent.idle, ?_, ?_, ?_⟩
  · rw [lent.borrowed]
    exact lends.borrowed.cons pooled.number
  · rw [lent.free, lent.limits, List.length_cons]
    omega
  · rw [lent.limits]
    exact lends.positive

theorem request_waits (lends : pool.Lends numbers) (exhausted : pool.free = 0)
    (factory : Factory Channel) : ∃ after, pool.request factory 0 0 = (none, after) := by
  have opened := lends.opened
  exact ⟨_, by simp only [Pool.request, opened, exhausted, Nat.lt_irrefl, if_false]; rfl⟩

theorem giveBack {pooled : Pooled Channel} (lends : pool.Lends (pooled.number :: numbers))
    (rests : pooled.object.Idle) : (pool.giveBack pooled).Lends numbers := by
  have out : pooled.number ∈ pool.borrowed := lends.borrowed.mem_iff.mpr List.mem_cons_self
  have left : (pool.borrowed.erase pooled.number).Perm numbers := by
    have erased := lends.borrowed.erase pooled.number
    rwa [List.erase_cons_head] at erased
  have permits : pool.free + 1 + numbers.length = pool.limits.borrowed := by
    have all := lends.permits
    rw [List.length_cons] at all
    omega
  have waiting := lends.waiting
  rw [Pool.giveBack, if_pos out]
  dsimp only
  split
  · simp only [releasePermit, waiting]
    refine ⟨lends.opened, rfl, fun other mem => ?_, left, permits, lends.positive⟩
    rcases List.mem_cons.mp mem with rfl | mem
    · exact rests
    · exact lends.idle other mem
  · simp only [releasePermit, waiting]
    exact ⟨lends.opened, rfl, lends.idle, left, permits, lends.positive⟩

end Lends

end Pool

/-- Whether nodes with some memberships are a cluster: each knows the others and itself, and each
once. -/
structure Membership.Acquainted (ids : List NodeId) (members : NodeId → Membership) : Prop where
  self : ∀ id ∈ ids, (members id).self = id
  known : ∀ id ∈ ids, ∀ other, other ∈ (members id).nodes ↔ other ∈ ids
  distinct : ∀ id ∈ ids, (members id).nodes.Nodup

theorem Membership.Acquainted.mem_peers {ids : List NodeId} {members : NodeId → Membership}
    (acquainted : Acquainted ids members) {id peer : NodeId} (mem : id ∈ ids) (there : peer ∈ ids)
    (differs : peer ≠ id) : peer ∈ (members id).peers := by
  rcases List.mem_cons.mp ((acquainted.known id mem peer).mpr there) with same | listed
  · exact absurd (same.trans (acquainted.self id mem)) differs
  · exact listed

theorem Membership.Acquainted.member {ids : List NodeId} {members : NodeId → Membership}
    (acquainted : Acquainted ids members) {id : NodeId} (mem : id ∈ ids) {membership : Membership}
    (same : membership = members id) : membership.self = id ∧
      (∀ other, other ∈ membership.nodes ↔ other ∈ ids) ∧ membership.nodes.Nodup := by
  subst same
  exact ⟨acquainted.self id mem, acquainted.known id mem, acquainted.distinct id mem⟩

namespace Cluster

/-- Whether the nodes of a cluster have some memberships and so many databases each, and have lent
to each peer the channels of some numbers. -/
def Lends (ids : List NodeId) (members : NodeId → Membership) (databases : Nat)
    (lent : NodeId → NodeId → List Nat) (cluster : Cluster) : Prop :=
  ∀ id ∈ ids, ∃ node, cluster.site? id = some (.member node) ∧ node.membership = members id ∧
    node.durable.engine.count = databases ∧
    ∀ peer ∈ (members id).peers, ∃ pool, node.pools.lookup peer = some pool ∧
      pool.Lends (lent id peer)

namespace Lends

variable {ids : List NodeId} {members : NodeId → Membership} {databases : Nat}
  {lent : NodeId → NodeId → List Nat} {cluster : Cluster} {address peer : NodeId}

theorem node (lends : cluster.Lends ids members databases lent) (mem : address ∈ ids) :
    ∃ node, cluster.site? address = some (.member node) ∧ node.membership = members address ∧
      node.durable.engine.count = databases := by
  obtain ⟨node, present, membership, count, -⟩ := lends address mem
  exact ⟨node, present, membership, count⟩

theorem perm (lends : cluster.Lends ids members databases lent) {others : NodeId → NodeId → List Nat}
    (same : ∀ id peer, (lent id peer).Perm (others id peer)) :
    cluster.Lends ids members databases others := by
  intro id mem
  obtain ⟨node, present, membership, count, pools⟩ := lends id mem
  refine ⟨node, present, membership, count, fun peer listed => ?_⟩
  obtain ⟨pool, found, lending⟩ := pools peer listed
  exact ⟨pool, found, lending.perm (same id peer)⟩

theorem execHere (lends : cluster.Lends ids members databases lent) (mem : address ∈ ids)
    (selected : Nat) (line : CommandLine) :
    (execHere address cluster selected line).state.Lends ids members databases lent := by
  obtain ⟨node, present, membership, count, pools⟩ := lends address mem
  obtain ⟨durable, ran, engine⟩ := execHere_spec present selected line
  rw [ran]
  intro id known
  by_cases same : id = address
  · subst same
    refine ⟨_, site?_setSite_self present _, membership, ?_, pools⟩
    dsimp only
    rw [engine, Engine.exec_count, count]
  · rw [site?_setSite_ne same]
    exact lends id known

theorem pool (lends : cluster.Lends ids members databases lent) (mem : address ∈ ids)
    (listed : peer ∈ (members address).peers) :
    ∃ pool, cluster.pool? address peer = some pool ∧ pool.Lends (lent address peer) := by
  obtain ⟨node, present, -, -, pools⟩ := lends address mem
  rw [pool?_eq present]
  exact pools peer listed

/-- When one pool has lent other channels than before, the rest of the cluster is as it was. -/
theorem setPool (lends : cluster.Lends ids members databases lent) (mem : address ∈ ids)
    (listed : peer ∈ (members address).peers) {others : NodeId → NodeId → List Nat}
    {pool : Pool Channel} (lending : pool.Lends (others address peer))
    (elsewhere : ∀ id other, ¬ (id = address ∧ other = peer) → others id other = lent id other) :
    (cluster.setPool address peer pool).Lends ids members databases others := by
  obtain ⟨node, present, membership, count, pools⟩ := lends address mem
  rw [setPool_eq present]
  intro id known
  by_cases same : id = address
  · subst same
    refine ⟨_, site?_setSite_self present _, membership, count, fun other listedToo => ?_⟩
    obtain ⟨held, found, holds⟩ := pools other listedToo
    rw [Node.setPool_lookup]
    split
    · next same =>
      subst same
      exact ⟨pool, by rw [found, Option.map_some], lending⟩
    · next differs =>
      refine ⟨held, found, ?_⟩
      rw [elsewhere id other fun both => differs both.2]
      exact holds
  · rw [site?_setSite_ne same]
    obtain ⟨held, presentToo, membershipToo, countToo, poolsToo⟩ := lends id known
    refine ⟨held, presentToo, membershipToo, countToo, fun other listedToo => ?_⟩
    rw [elsewhere id other fun both => same both.1]
    exact poolsToo other listedToo

end Lends

end Cluster

end ShardStore
