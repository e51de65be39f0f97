import ShardStore.Proofs.Placement.Seating

namespace ShardStore

namespace Ring

variable {hash : Hash} {ring : Ring hash} {node newcomer : NodeId} {batch : List NodeId}

theorem mem_add_of_mem (mem : node ∈ ring.nodes) (newcomer : NodeId) :
    node ∈ (ring.add newcomer).nodes := by
  unfold add
  split
  · exact mem
  · exact (mem_place_iff ring.sorted).mpr (.inl mem)

theorem mem_of_mem_add (mem : node ∈ (ring.add newcomer).nodes) :
    node ∈ ring.nodes ∨ node = newcomer := by
  unfold add at mem
  split at mem
  · exact .inl mem
  · exact (mem_place mem).symm

/-- Who is on the ring stays on it. -/
theorem mem_addAll_of_mem (mem : node ∈ ring.nodes) (batch : List NodeId) :
    node ∈ (ring.addAll batch).nodes := by
  induction batch generalizing ring with
  | nil => exact mem
  | cons newcomer rest ih => exact ih (mem_add_of_mem mem newcomer)

theorem mem_of_mem_addAll (mem : node ∈ (ring.addAll batch).nodes) :
    node ∈ ring.nodes ∨ node ∈ batch := by
  induction batch generalizing ring with
  | nil => exact .inl mem
  | cons newcomer rest ih =>
      rcases ih mem with early | late
      · exact (mem_of_mem_add early).imp_right fun same => by simp [same]
      · exact .inr (List.mem_cons_of_mem newcomer late)

theorem owner?_addAll (nonempty : ring.isEmpty = false) (batch : List NodeId) (key : Bytes) :
    ∃ owner, (ring.addAll batch).owner? key = some owner ∧
      (ring.owner? key = some owner ∨ owner ∈ batch ∧ owner ∉ ring.nodes) := by
  obtain ⟨former, owned⟩ := Option.isSome_iff_exists.mp (owner?_isSome nonempty key)
  have kept := mem_addAll_of_mem (mem_of_owner?_eq_some owned) batch
  have grown : (ring.addAll batch).isEmpty = false :=
    List.isEmpty_eq_false_iff.mpr (List.ne_nil_of_mem kept)
  obtain ⟨owner, ownedNow⟩ := Option.isSome_iff_exists.mp (owner?_isSome grown key)
  refine ⟨owner, ownedNow, ?_⟩
  by_cases old : owner ∈ ring.nodes
  · -- Nearest among more nodes, so also among those that were there before.
    refine .inl (owner?_eq_some_iff.mpr ⟨old, fun other mem => ?_⟩)
    exact owner?_nearest ownedNow (mem_addAll_of_mem mem batch)
  · have mem := mem_of_owner?_eq_some ownedNow
    exact .inr ⟨(mem_of_mem_addAll mem).resolve_left old, old⟩

/-- Nodes that find all their positions taken change nothing. -/
theorem addAll_eq_self (taken : ∀ position ∈ (ring.addAll batch).positions,
    position ∈ ring.positions) : ring.addAll batch = ring := by
  refine eq_of_mem_iff fun node => ⟨fun mem => ?_, fun mem => mem_addAll_of_mem mem batch⟩
  obtain ⟨holder, held, level⟩ := List.mem_map.mp (taken _ (List.mem_map_of_mem mem))
  rwa [eq_of_position mem (mem_addAll_of_mem held batch) level.symm]

end Ring

namespace Seating

/-- When a ring that is not empty is given more nodes, every key keeps its owner or goes to one of these
nodes that was not on the ring before, whatever the hash. If no position is new, all keys keep their
owners. The ring of sorted nodes has the same owners before and after. -/
theorem seatAll_moves (hash : Hash) (calls : List (List NodeId)) (batch : List NodeId)
    (nonempty : (ofCalls hash calls).positions ≠ []) :
    let before := ofCalls hash calls
    let after := before.seatAll hash batch
    let ring := calls.foldl Ring.addAll (∅ : Ring hash)
    (∀ key, ∃ owner, after.owner? hash key = some owner ∧
      (before.owner? hash key = some owner ∨
        owner ∈ batch ∧ ∀ position, before.occupants.lookup position ≠ some owner)) ∧
    ((∀ position ∈ after.positions, position ∈ before.positions) →
      ∀ key, after.owner? hash key = before.owner? hash key) ∧
    ∀ key, ring.owner? key = before.owner? hash key ∧
      (ring.addAll batch).owner? key = after.owner? hash key := by
  intro before after ring
  have grown : after = ofCalls hash (calls ++ [batch]) := by
    rw [ofCalls, List.foldl_append]
    rfl
  have ringBefore : ring = (∅ : Ring hash).addAll calls.flatten := List.foldl_flatten.symm
  have ringAfter : ring.addAll batch = (∅ : Ring hash).addAll (calls ++ [batch]).flatten := by
    rw [ringBefore, List.flatten_append, List.flatten_singleton]
    exact List.foldl_append.symm
  have seats : Seats hash before calls.flatten := ofCalls_seats hash calls
  have positions : ring.positions = before.positions := by
    rw [ringBefore]
    exact seats.positions_ring (ofCalls_ascending hash calls)
  have positionsAfter : (ring.addAll batch).positions = after.positions := by
    rw [ringAfter, grown]
    exact (ofCalls_seats hash _).positions_ring (ofCalls_ascending hash _)
  have owners (key : Bytes) : ring.owner? key = before.owner? hash key :=
    (owner?_ofCalls hash calls key).symm
  have ownersAfter (key : Bytes) : (ring.addAll batch).owner? key = after.owner? hash key := by
    rw [grown, owner?_ofCalls, List.foldl_append]
    rfl
  have seated : ring.isEmpty = false := by
    rw [← positions, Ring.positions, ne_eq, List.map_eq_nil_iff] at nonempty
    exact List.isEmpty_eq_false_iff.mpr nonempty
  refine ⟨fun key => ?_, fun taken key => ?_, fun key => ⟨owners key, ownersAfter key⟩⟩
  · obtain ⟨owner, owned, origin⟩ := Ring.owner?_addAll seated batch key
    refine ⟨owner, ownersAfter key ▸ owned, origin.imp (owners key ▸ ·) ?_⟩
    rintro ⟨new, absent⟩
    refine ⟨new, fun position held => absent ?_⟩
    rw [seats.occupants] at held
    obtain rfl := Hash.position_of_firstAt? held
    rw [ringBefore]
    exact (Ring.mem_addAll_empty _ owner).mpr held
  · rw [← positions, ← positionsAfter] at taken
    rw [← ownersAfter, ← owners, Ring.addAll_eq_self taken]

theorem seatAll_moves_past_a_collision :
    let calls : List (List NodeId) := [["10.0.131.28:7000"], ["10.0.0.1:7000", ""]]
    let batch : List NodeId := ["10.3.132.139:16379", "10.0.0.1:7000", "", "10.0.0.2:7000"]
    let before := ofCalls Crc32.checksum calls
    let after := before.seatAll Crc32.checksum batch
    let ring := calls.foldl Ring.addAll (∅ : Ring Crc32.checksum)
    before.positions ≠ [] ∧
    (∀ key, ∃ owner, after.owner? Crc32.checksum key = some owner ∧
      (before.owner? Crc32.checksum key = some owner ∨
        owner ∈ batch ∧ ∀ position, before.occupants.lookup position ≠ some owner)) ∧
    ((∀ position ∈ after.positions, position ∈ before.positions) →
      ∀ key, after.owner? Crc32.checksum key = before.owner? Crc32.checksum key) ∧
    ∀ key, ring.owner? key = before.owner? Crc32.checksum key ∧
      (ring.addAll batch).owner? key = after.owner? Crc32.checksum key := by
  intro calls batch before after ring
  have nonempty : before.positions ≠ [] := by
    refine List.ne_nil_of_mem (a := Hash.position Crc32.checksum "10.0.131.28:7000") ?_
    rw [(ofCalls_seats Crc32.checksum calls).positions, Hash.firstAt?_isSome_iff]
    exact ⟨_, by decide, by decide, rfl⟩
  exact ⟨nonempty, seatAll_moves Crc32.checksum calls batch nonempty⟩

end Seating

end ShardStore
