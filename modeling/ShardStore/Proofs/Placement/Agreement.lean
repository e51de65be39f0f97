import ShardStore.Proofs.Placement.Precedence

namespace ShardStore

/-- The ring on which nodes of some identifiers share their keys. -/
def sharedRing (ids : List NodeId) : Ring Crc32.checksum :=
  (∅ : Ring Crc32.checksum).addAll ids

namespace Membership

theorem meet_self (membership : Membership) (peer : NodeId) :
    (membership.meet peer).self = membership.self := by
  unfold meet
  split <;> rfl

theorem mem_meet_nodes (membership : Membership) (peer other : NodeId) :
    other ∈ (membership.meet peer).nodes ↔ other ∈ membership.nodes ∨ other = peer ∧ other ≠ "" := by
  unfold meet
  split
  · next known =>
    refine ⟨.inl, fun either => either.elim id ?_⟩
    rintro ⟨rfl, named⟩
    simpa [nodes, named] using known
  · next unknown =>
    have named : peer ≠ "" := by
      rintro rfl
      simp at unknown
    have same : other = peer ∧ other ≠ "" ↔ other = peer :=
      and_iff_left_of_imp fun same => same ▸ named
    simp [nodes, or_assoc, same]

theorem meet_nodup {membership : Membership} (distinct : membership.nodes.Nodup) (peer : NodeId) :
    (membership.meet peer).nodes.Nodup := by
  unfold meet
  split
  · exact distinct
  · next unknown =>
    simp only [Bool.or_eq_true, not_or, beq_iff_eq, List.contains_iff_mem] at unknown
    obtain ⟨⟨-, other⟩, fresh⟩ := unknown
    have front : peer ∉ membership.nodes := by simp [nodes, other, fresh]
    show (membership.self :: (membership.peers ++ [peer])).Nodup
    rw [← List.cons_append, List.nodup_append]
    refine ⟨distinct, by simp, fun known mem last single => ?_⟩
    rw [List.mem_singleton.mp single]
    exact fun same => front (same ▸ mem)

theorem foldl_meet_self (membership : Membership) (listed : List NodeId) :
    (listed.foldl meet membership).self = membership.self := by
  induction listed generalizing membership with
  | nil => rfl
  | cons peer rest ih => rw [List.foldl_cons, ih, meet_self]

theorem of_self (self : NodeId) (listed : List NodeId) : (of self listed).self = self :=
  foldl_meet_self _ listed

theorem mem_of_nodes {self : NodeId} {listed : List NodeId} (other : NodeId) :
    other ∈ (of self listed).nodes ↔ other = self ∨ other ∈ listed ∧ other ≠ "" := by
  have gather : ∀ membership : Membership, other ∈ (listed.foldl meet membership).nodes ↔
      other ∈ membership.nodes ∨ other ∈ listed ∧ other ≠ "" := by
    induction listed with
    | nil => simp
    | cons peer rest ih =>
        intro membership
        rw [List.foldl_cons, ih, mem_meet_nodes, List.mem_cons, or_and_right, or_assoc]
  rw [of, gather]
  simp [nodes]

theorem Lists.mem_nodes {members listed : List NodeId} {self node : NodeId}
    (lists : Lists members self listed) (mem : node ∈ (of self listed).nodes) : node ∈ members := by
  rcases (mem_of_nodes node).mp mem with rfl | ⟨mem, named⟩
  · exact lists.member
  · exact (lists.known node mem).resolve_left named

theorem of_nodup (self : NodeId) (listed : List NodeId) : (of self listed).nodes.Nodup := by
  have gather : ∀ membership : Membership, membership.nodes.Nodup →
      (listed.foldl meet membership).nodes.Nodup := by
    induction listed with
    | nil => exact fun _ distinct => distinct
    | cons peer rest ih => exact fun membership distinct => ih _ (meet_nodup distinct peer)
  exact gather _ (by simp [nodes])

variable {ids : List NodeId} {membership : Membership}

theorem mem_sharedRing (separates : Hash.Separates Crc32.checksum ids)
    (named : ∀ id ∈ ids, id ≠ "") (node : NodeId) :
    node ∈ (sharedRing ids).nodes ↔ node ∈ ids := by
  rw [sharedRing, Ring.mem_addAll_empty, Hash.first?_self_iff separates named]

theorem ring_eq_shared (separates : Hash.Separates Crc32.checksum ids)
    (named : ∀ id ∈ ids, id ≠ "") (same : ∀ id, id ∈ membership.nodes ↔ id ∈ ids) :
    membership.ring = sharedRing ids := by
  have separatesToo : Hash.Separates Crc32.checksum membership.nodes := fun a memA b memB =>
    separates a ((same a).mp memA) b ((same b).mp memB)
  have namedToo : ∀ id ∈ membership.nodes, id ≠ "" := fun id mem => named id ((same id).mp mem)
  apply Ring.eq_of_mem_iff
  intro node
  rw [mem_sharedRing separates named, ← same node, ring, Ring.mem_addAll_empty,
    Hash.first?_self_iff separatesToo namedToo]

/-- All nodes route a key to the one that owns it on the ring they share. -/
theorem owner_eq_shared (separates : Hash.Separates Crc32.checksum ids)
    (named : ∀ id ∈ ids, id ≠ "") (same : ∀ id, id ∈ membership.nodes ↔ id ∈ ids) (key : Bytes) :
    (sharedRing ids).owner? key = some (membership.owner key) ∧ membership.owner key ∈ ids := by
  have self : membership.self ∈ (sharedRing ids).nodes :=
    (mem_sharedRing separates named _).mpr ((same _).mp List.mem_cons_self)
  have nonempty : (sharedRing ids).isEmpty = false := by
    rw [Ring.isEmpty, List.isEmpty_eq_false_iff]
    exact List.ne_nil_of_mem self
  obtain ⟨owner, owned⟩ := Option.isSome_iff_exists.mp (Ring.owner?_isSome nonempty key)
  have routed : membership.owner key = owner := by
    rw [Membership.owner, ring_eq_shared separates named same, owned, Option.getD_some]
  rw [routed]
  exact ⟨owned, (mem_sharedRing separates named _).mp (Ring.mem_of_owner?_eq_some owned)⟩

end Membership

end ShardStore
