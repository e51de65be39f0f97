import Mathlib.Data.List.Pairwise
import ShardStore.Placement.Ring

namespace ShardStore

/-- How far a node is from a key, going round the ring in the direction of greater positions. -/
def Hash.distance (hash : Hash) (key : Bytes) (node : NodeId) : UInt32 :=
  hash.position node - hash key

/-- Of two positions, the first is met first from a start: it lies between the start and the other
one, or only the other one lies before the start, or both do. -/
theorem sub_le_sub_of_ahead {start first second : UInt32}
    (ahead : start ≤ first ∧ (first ≤ second ∨ second < start) ∨
      first ≤ second ∧ second < start) : first - start ≤ second - start := by
  have startSize := start.toNat_lt
  have firstSize := first.toNat_lt
  have secondSize := second.toNat_lt
  simp only [UInt32.le_iff_toNat_le, UInt32.lt_iff_toNat_lt, UInt32.toNat_sub] at ahead ⊢
  omega

theorem Hash.position_eq_of_distance {hash : Hash} {key : Bytes} {node other : NodeId}
    (level : hash.distance key node = hash.distance key other) :
    hash.position node = hash.position other := by
  have shifted := congrArg (· + hash key) level
  simpa only [distance, UInt32.sub_add_cancel] using shifted

namespace Ring

variable {hash : Hash} {ring : Ring hash} {key : Bytes} {node other : NodeId}

theorem eq_of_position (mem : node ∈ ring.nodes) (held : other ∈ ring.nodes)
    (level : hash.position node = hash.position other) : node = other := by
  have apart := ring.sorted.imp (S := fun a b => hash.position a ≠ hash.position b)
    fun before level => UInt32.lt_irrefl _ (level ▸ before)
  have symmetric : Std.Symm fun a b => hash.position a ≠ hash.position b := ⟨fun _ _ => Ne.symm⟩
  by_cases same : node = other
  · exact same
  · exact absurd level (apart.forall mem held same)

theorem owner?_nearest (owned : ring.owner? key = some node) (mem : other ∈ ring.nodes) :
    hash.distance key node ≤ hash.distance key other := by
  apply sub_le_sub_of_ahead
  rcases Option.or_eq_some_iff.mp owned with found | ⟨missed, first⟩
  · obtain ⟨behind, front, rest, nodes, skipped⟩ := List.find?_eq_some_iff_append.mp found
    have sorted := ring.sorted
    rw [nodes] at mem sorted
    refine .inl ⟨by simpa using behind, ?_⟩
    rcases List.mem_append.mp mem with before | after
    · have short := skipped other before
      exact .inr (UInt32.not_le.mp (by simpa using short))
    · refine .inl ?_
      rcases List.mem_cons.mp after with rfl | after
      · exact UInt32.le_refl _
      · have above := List.rel_of_pairwise_cons (List.pairwise_append.mp sorted).2.1 after
        exact UInt32.le_of_lt above
  · have short : hash.position other < hash key := by
      simpa using List.find?_eq_none.mp missed other mem
    refine .inr ⟨?_, short⟩
    obtain ⟨rest, nodes⟩ := List.head?_eq_some_iff.mp first
    have sorted := ring.sorted
    rw [nodes] at mem sorted
    rcases List.mem_cons.mp mem with rfl | after
    · exact UInt32.le_refl _
    · exact UInt32.le_of_lt (List.rel_of_pairwise_cons sorted after)

/-- A key belongs to the node nearest to it. -/
theorem owner?_eq_some_iff : ring.owner? key = some node ↔
    node ∈ ring.nodes ∧ ∀ other ∈ ring.nodes, hash.distance key node ≤ hash.distance key other := by
  constructor
  · intro owned
    exact ⟨mem_of_owner?_eq_some owned, fun other mem => owner?_nearest owned mem⟩
  · rintro ⟨mem, nearest⟩
    have nonempty : ring.isEmpty = false := by
      rw [isEmpty, List.isEmpty_eq_false_iff]
      exact List.ne_nil_of_mem mem
    obtain ⟨owner, owned⟩ := Option.isSome_iff_exists.mp (owner?_isSome nonempty key)
    have held := mem_of_owner?_eq_some owned
    have level := UInt32.le_antisymm (nearest owner held) (owner?_nearest owned mem)
    rw [owned, eq_of_position mem held (Hash.position_eq_of_distance level)]

end Ring

end ShardStore
