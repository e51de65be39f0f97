import ShardStore.Placement.Seating
import ShardStore.Proofs.Placement.Precedence

namespace ShardStore

/-- The first of some listed nodes that belongs at a position. -/
def Hash.firstAt? (hash : Hash) (listed : List NodeId) (position : UInt32) : Option NodeId :=
  listed.find? fun node => !node.isEmpty && hash.position node == position

namespace Hash

variable {hash : Hash} {listed more : List NodeId} {node : NodeId} {position : UInt32}

theorem firstAt?_position (hash : Hash) (listed : List NodeId) (node : NodeId) :
    hash.firstAt? listed (hash.position node) = hash.first? listed node := rfl

theorem firstAt?_append (hash : Hash) (listed more : List NodeId) (position : UInt32) :
    hash.firstAt? (listed ++ more) position =
      (hash.firstAt? listed position).or (hash.firstAt? more position) :=
  List.find?_append

theorem position_of_firstAt? (found : hash.firstAt? listed position = some node) :
    hash.position node = position := by
  have fits := List.find?_some found
  simp only [Bool.and_eq_true, beq_iff_eq] at fits
  exact fits.2

theorem firstAt?_isSome_iff : (hash.firstAt? listed position).isSome ↔
    ∃ node ∈ listed, node ≠ "" ∧ hash.position node = position := by
  simp [firstAt?, List.find?_isSome]

/-- What is at a position behind one more node. -/
theorem firstAt?_concat (hash : Hash) (listed : List NodeId) (named : node ≠ "")
    (position : UInt32) : hash.firstAt? (listed ++ [node]) position =
      (hash.firstAt? listed position).or
        (if hash.position node = position then some node else none) := by
  have visible : node.isEmpty = false := by simpa using named
  rw [firstAt?_append]
  congr 1
  by_cases level : hash.position node = position <;> simp [firstAt?, visible, level]

end Hash

namespace Seating

variable {hash : Hash} {seating : Seating} {listed : List NodeId}

/-- Whether both parts of a seating hold what some nodes make of it that were listed one after the
other: at each position the first of them that belongs there. -/
structure Seats (hash : Hash) (seating : Seating) (listed : List NodeId) : Prop where
  occupants : ∀ position, seating.occupants.lookup position = hash.firstAt? listed position
  positions : ∀ position, position ∈ seating.positions ↔ (hash.firstAt? listed position).isSome
  distinct : seating.positions.Nodup

theorem empty_seats (hash : Hash) : Seats hash ∅ [] :=
  ⟨fun _ => rfl, fun _ => by simp [Hash.firstAt?, EmptyCollection.emptyCollection], List.nodup_nil⟩

theorem Seats.seat (seats : Seats hash seating listed) (node : NodeId) :
    Seats hash (seat hash seating node) (listed ++ [node]) := by
  have taken : hash.position node ∈ seating.occupants ↔
      (hash.firstAt? listed (hash.position node)).isSome := by
    rw [← seats.occupants, AList.lookup_isSome]
  unfold Seating.seat
  dsimp only
  split
  case isTrue unnamed =>
    have passed (position : UInt32) :
        hash.firstAt? (listed ++ [node]) position = hash.firstAt? listed position := by
      simp [Hash.firstAt?, unnamed]
    exact ⟨fun position => by rw [passed, seats.occupants], fun position => by
      rw [passed, seats.positions], seats.distinct⟩
  case isFalse named =>
    have visible : node ≠ "" := by simpa using named
    have concat := Hash.firstAt?_concat hash listed visible
    split
    case isTrue held =>
      have passed (position : UInt32) :
          hash.firstAt? (listed ++ [node]) position = hash.firstAt? listed position := by
        obtain ⟨holder, found⟩ := Option.isSome_iff_exists.mp (taken.mp held)
        rw [concat]
        split
        · next level => rw [← level, found, Option.some_or]
        · exact Option.or_none
      exact ⟨fun position => by rw [passed, seats.occupants], fun position => by
        rw [passed, seats.positions], seats.distinct⟩
    case isFalse free =>
      have fresh : hash.firstAt? listed (hash.position node) = none := by
        rw [← Option.not_isSome_iff_eq_none]
        exact mt taken.mpr free
      refine ⟨fun position => ?_, fun position => ?_, ?_⟩
      · rw [concat]
        by_cases level : hash.position node = position
        · subst level
          rw [AList.lookup_insert, fresh, if_pos rfl, Option.none_or]
        · rw [AList.lookup_insert_ne (Ne.symm level), seats.occupants, if_neg level,
            Option.or_none]
      · rw [concat, List.mem_append, seats.positions, List.mem_singleton, Option.isSome_or,
          Bool.or_eq_true]
        by_cases level : hash.position node = position
        · simp [level]
        · simp [level, Ne.symm level]
      · refine List.nodup_append.mpr ⟨seats.distinct, List.nodup_singleton _, ?_⟩
        intro position mem other single same
        rw [List.mem_singleton.mp single] at same
        rw [same, seats.positions, fresh] at mem
        cases mem

theorem Seats.seatEach (seats : Seats hash seating listed) (nodes : List NodeId) :
    Seats hash (nodes.foldl (Seating.seat hash) seating) (listed ++ nodes) := by
  induction nodes generalizing seating listed with
  | nil => rwa [List.append_nil]
  | cons node rest ih =>
      have further := ih (seats.seat node)
      rwa [List.append_assoc, List.singleton_append] at further

theorem Seats.sort (seats : Seats hash seating listed) : Seats hash seating.sort listed := by
  have shuffled := List.mergeSort_perm seating.positions fun a b => decide (a ≤ b)
  exact ⟨seats.occupants, fun position => shuffled.mem_iff.trans (seats.positions position),
    shuffled.nodup_iff.mpr seats.distinct⟩

theorem Seats.seatAll (seats : Seats hash seating listed) (nodes : List NodeId) :
    Seats hash (seatAll hash seating nodes) (listed ++ nodes) :=
  (seats.seatEach nodes).sort

theorem Seats.seatCalls (seats : Seats hash seating listed) (calls : List (List NodeId)) :
    Seats hash (calls.foldl (Seating.seatAll hash) seating) (listed ++ calls.flatten) := by
  induction calls generalizing seating listed with
  | nil => rwa [List.flatten_nil, List.append_nil]
  | cons nodes rest ih =>
      have further := ih (seats.seatAll nodes)
      rwa [List.append_assoc] at further

theorem ofCalls_seats (hash : Hash) (calls : List (List NodeId)) :
    Seats hash (ofCalls hash calls) calls.flatten :=
  (empty_seats hash).seatCalls calls

theorem sort_ascending {seating : Seating} (distinct : seating.positions.Nodup) :
    seating.sort.positions.Pairwise (· < ·) := by
  have sorted : seating.sort.positions.Pairwise fun a b => decide (a ≤ b) = true := by
    apply List.pairwise_mergeSort
    · intro a b c first second
      exact decide_eq_true (UInt32.le_trans (of_decide_eq_true first) (of_decide_eq_true second))
    · intro a b
      simpa using UInt32.le_total a b
  have apart := (List.mergeSort_perm seating.positions
    fun a b => decide (a ≤ b)).nodup_iff.mpr distinct
  refine (sorted.and apart).imp ?_
  rintro a b ⟨ordered, different⟩
  exact UInt32.lt_of_le_of_ne (of_decide_eq_true ordered) different

theorem ofCalls_ascending (hash : Hash) (calls : List (List NodeId)) :
    (ofCalls hash calls).positions.Pairwise (· < ·) := by
  rcases List.eq_nil_or_concat calls with rfl | ⟨before, last, rfl⟩
  · exact List.Pairwise.nil
  · rw [List.concat_eq_append, ofCalls, List.foldl_append]
    exact sort_ascending (((ofCalls_seats hash before).seatEach last).distinct)

/-- Two ascending lists of the same positions are the same list. -/
theorem eq_of_ascending {positions others : List UInt32} (ascending : positions.Pairwise (· < ·))
    (ascendingToo : others.Pairwise (· < ·)) (same : ∀ p, p ∈ positions ↔ p ∈ others) :
    positions = others := by
  have distinct {list : List UInt32} (sorted : list.Pairwise (· < ·)) : list.Nodup :=
    sorted.imp fun less => UInt32.ne_of_lt less
  have shuffled := (List.perm_ext_iff_of_nodup (distinct ascending) (distinct ascendingToo)).mpr same
  refine shuffled.eq_of_pairwise (fun a b _ _ less more => ?_) ascending ascendingToo
  exact absurd (UInt32.lt_trans less more) (UInt32.lt_irrefl _)

/-- All positions in front of the one that is found, and no others, are in front of the start. -/
theorem searchBetween_spec {start : UInt32} {positions : List UInt32} {low high : Nat}
    (within : high ≤ positions.length) (ordered : low ≤ high)
    (ascending : positions.Pairwise (· < ·))
    (below : ∀ i (inside : i < positions.length), i < low → positions[i] < start)
    (above : ∀ i (inside : i < positions.length), high ≤ i → start ≤ positions[i]) :
    ∀ i (inside : i < positions.length),
      positions[i] < start ↔ i < searchBetween start positions low high within := by
  fun_induction searchBetween start positions low high within with
  | case1 low high within wide middle inside less ih =>
      refine ih (by omega) (fun i insideToo front => ?_) above
      rcases Nat.lt_or_eq_of_le (Nat.le_of_lt_succ front) with before | rfl
      · exact UInt32.lt_trans (List.pairwise_iff_getElem.mp ascending i middle _ _ before) less
      · exact less
  | case2 low high within wide middle inside notLess ih =>
      refine ih (by omega) below (fun i insideToo behind => ?_)
      have reached := UInt32.not_lt.mp notLess
      rcases Nat.lt_or_eq_of_le behind with after | rfl
      · exact UInt32.le_trans reached
          (UInt32.le_of_lt (List.pairwise_iff_getElem.mp ascending middle i _ _ after))
      · exact reached
  | case3 low high within closed =>
      intro i inside
      constructor
      · intro less
        rcases Nat.lt_or_ge i low with front | behind
        · exact front
        · exact absurd less (UInt32.not_lt.mpr (above i inside (by omega)))
      · exact below i inside

theorem getElem?_search {positions : List UInt32} (ascending : positions.Pairwise (· < ·))
    (start : UInt32) :
    positions[search start positions]? = positions.find? fun position => decide (start ≤ position) := by
  have spec : ∀ i (inside : i < positions.length),
      positions[i] < start ↔ i < search start positions :=
    searchBetween_spec (Nat.le_refl positions.length) (Nat.zero_le _) ascending
      (fun _ _ none => absurd none (Nat.not_lt_zero _))
      (fun i inside beyond => absurd inside (Nat.not_lt.mpr beyond))
  cases read : positions[search start positions]? with
  | none =>
      have all := List.getElem?_eq_none_iff.mp read
      refine (List.find?_eq_none.mpr fun position mem => ?_).symm
      obtain ⟨i, inside, rfl⟩ := List.getElem_of_mem mem
      have less := (spec i inside).mpr (Nat.lt_of_lt_of_le inside all)
      simpa using less
  | some position =>
      obtain ⟨inside, rfl⟩ := List.getElem?_eq_some_iff.mp read
      refine (List.find?_eq_some_iff_getElem.mpr ⟨?_, _, inside, rfl, fun j before => ?_⟩).symm
      · have := mt (spec _ inside).mp (Nat.lt_irrefl _)
        simpa using this
      · have less := (spec j (Nat.lt_trans before inside)).mpr before
        simpa using less

theorem getElem?_firstIndex {positions : List UInt32} (ascending : positions.Pairwise (· < ·))
    (start : UInt32) : positions[firstIndex start positions]? =
      (positions.find? fun position => decide (start ≤ position)).or positions.head? := by
  rw [← getElem?_search ascending]
  unfold firstIndex
  dsimp only
  split
  · next past => rw [past, List.getElem?_eq_none (Nat.le_refl _), Option.none_or, List.head?_eq_getElem?]
  · next inside =>
    have most : search start positions ≤ positions.length :=
      searchBetween_le (Nat.le_refl _) (Nat.zero_le _)
    rw [List.getElem?_eq_getElem (Nat.lt_of_le_of_ne most inside), Option.some_or]

theorem owner?_eq (ascending : seating.positions.Pairwise (· < ·)) (key : Bytes) :
    seating.owner? hash key =
      ((seating.positions.find? fun position => decide (hash key ≤ position)).or
        seating.positions.head?).bind seating.occupants.lookup := by
  rw [← getElem?_firstIndex ascending]
  unfold owner?
  split
  · next taken =>
    rw [List.getElem?_eq_getElem (firstIndex_lt taken _), Option.bind_some]
  · next free =>
    rw [Decidable.not_not.mp free]
    rfl

/-- A ring and a seating tell the same of each position. -/
theorem Seats.positions_ring (seats : Seats hash seating listed)
    (ascending : seating.positions.Pairwise (· < ·)) :
    ((∅ : Ring hash).addAll listed).positions = seating.positions := by
  refine eq_of_ascending (List.pairwise_map.mpr (Ring.sorted _)) ascending fun position => ?_
  rw [seats.positions, Ring.positions, List.mem_map]
  constructor
  · rintro ⟨node, mem, rfl⟩
    rw [Hash.firstAt?_position, (Ring.mem_addAll_empty listed node).mp mem, Option.isSome_some]
  · intro held
    obtain ⟨node, found⟩ := Option.isSome_iff_exists.mp held
    obtain rfl := Hash.position_of_firstAt? found
    exact ⟨node, (Ring.mem_addAll_empty listed node).mpr found, rfl⟩

theorem Seats.lookup_ring (seats : Seats hash seating listed) {node : NodeId}
    (mem : node ∈ ((∅ : Ring hash).addAll listed).nodes) :
    seating.occupants.lookup (hash.position node) = some node := by
  rw [seats.occupants, Hash.firstAt?_position]
  exact (Ring.mem_addAll_empty listed node).mp mem

theorem Seats.owner?_ring (seats : Seats hash seating listed)
    (ascending : seating.positions.Pairwise (· < ·)) (key : Bytes) :
    seating.owner? hash key = ((∅ : Ring hash).addAll listed).owner? key := by
  have found : (seating.positions.find? fun position => decide (hash key ≤ position)).or
      seating.positions.head? =
        (((∅ : Ring hash).addAll listed).owner? key).map hash.position := by
    rw [← seats.positions_ring ascending, Ring.owner?, Ring.positions, List.find?_map,
      List.head?_map, Option.map_or]
    rfl
  rw [owner?_eq ascending, found]
  cases owned : ((∅ : Ring hash).addAll listed).owner? key with
  | none => rfl
  | some node => exact seats.lookup_ring (Ring.mem_of_owner?_eq_some owned)

theorem seat_occupants (hash : Hash) {seating other : Seating}
    (same : seating.occupants = other.occupants) (node : NodeId) :
    (seat hash seating node).occupants = (seat hash other node).occupants := by
  unfold seat
  dsimp only
  rw [same]
  split
  · exact same
  · split
    · exact same
    · rfl

theorem seatEach_occupants (hash : Hash) {seating other : Seating}
    (same : seating.occupants = other.occupants) (nodes : List NodeId) :
    (nodes.foldl (seat hash) seating).occupants = (nodes.foldl (seat hash) other).occupants := by
  induction nodes generalizing seating other with
  | nil => exact same
  | cons node rest ih => exact ih (seat_occupants hash same node)

/-- Sorting between the calls does not touch the table. -/
theorem seatCalls_occupants (hash : Hash) {seating other : Seating}
    (same : seating.occupants = other.occupants) (calls : List (List NodeId)) :
    (calls.foldl (seatAll hash) seating).occupants =
      (calls.flatten.foldl (seat hash) other).occupants := by
  induction calls generalizing seating other with
  | nil => exact same
  | cons nodes rest ih =>
      rw [List.flatten_cons, List.foldl_append]
      exact ih (seatEach_occupants hash same nodes)

theorem ofCalls_congr (hash : Hash) {calls others : List (List NodeId)}
    (same : calls.flatten = others.flatten) : ofCalls hash calls = ofCalls hash others := by
  have table : (ofCalls hash calls).occupants = (ofCalls hash others).occupants := by
    rw [ofCalls, ofCalls, seatCalls_occupants hash rfl, seatCalls_occupants hash rfl, same]
  have list : (ofCalls hash calls).positions = (ofCalls hash others).positions := by
    refine eq_of_ascending (ofCalls_ascending hash calls) (ofCalls_ascending hash others) fun p => ?_
    rw [(ofCalls_seats hash calls).positions, (ofCalls_seats hash others).positions, same]
  cases left : ofCalls hash calls
  cases right : ofCalls hash others
  rw [left, right] at table list
  cases table
  cases list
  rfl

theorem owner?_ofCalls (hash : Hash) (calls : List (List NodeId)) (key : Bytes) :
    (ofCalls hash calls).owner? hash key =
      (calls.foldl Ring.addAll (∅ : Ring hash)).owner? key := by
  have whole : calls.foldl Ring.addAll (∅ : Ring hash) = (∅ : Ring hash).addAll calls.flatten :=
    List.foldl_flatten.symm
  rw [whole]
  exact (ofCalls_seats hash calls).owner?_ring (ofCalls_ascending hash calls) key

/-- The node at the nearest position is the owner, and no other position is as near. -/
theorem owner?_ofCalls_eq_some_iff (hash : Hash) (calls : List (List NodeId)) (key : Bytes)
    (node : NodeId) :
    (ofCalls hash calls).owner? hash key = some node ↔
      ∃ position ∈ (ofCalls hash calls).positions,
        (ofCalls hash calls).occupants.lookup position = some node ∧
        ∀ other ∈ (ofCalls hash calls).positions, other ≠ position →
          position - hash key < other - hash key := by
  have seats := ofCalls_seats hash calls
  have ascending := ofCalls_ascending hash calls
  have told := seats.positions_ring ascending
  rw [seats.owner?_ring ascending, Ring.owner?_eq_some_iff]
  constructor
  · rintro ⟨mem, nearest⟩
    refine ⟨hash.position node, told ▸ List.mem_map_of_mem mem, seats.lookup_ring mem, ?_⟩
    intro other held apart
    rw [← told, Ring.positions, List.mem_map] at held
    obtain ⟨holder, memToo, rfl⟩ := held
    refine UInt32.lt_of_le_of_ne (nearest holder memToo) fun level => apart ?_
    exact (Hash.position_eq_of_distance level).symm
  · rintro ⟨position, held, found, nearest⟩
    rw [seats.occupants] at found
    obtain rfl := Hash.position_of_firstAt? found
    refine ⟨(Ring.mem_addAll_empty _ node).mpr found, fun other mem => ?_⟩
    by_cases level : hash.position other = hash.position node
    · rw [Hash.distance, Hash.distance, level]
      exact UInt32.le_refl _
    · exact UInt32.le_of_lt (nearest _ (told ▸ List.mem_map_of_mem mem) level)

/-- Whatever the hash, and however nodes are shared out among calls: the positions ascend and are those of
the nodes that have a name, each belongs to the first node that was added there, and the calls do not
show. A key has no owner only if there are no positions; otherwise its owner sits at the one position that
is nearest, going round the ring from the key's own. The ring of sorted nodes has the same positions and
the same owners. -/
theorem ofCalls_clockwise (hash : Hash) (calls : List (List NodeId)) :
    let seating := ofCalls hash calls
    let listed := calls.flatten
    let ring := calls.foldl Ring.addAll (∅ : Ring hash)
    seating.positions.Pairwise (· < ·) ∧
      (∀ position, position ∈ seating.positions ↔
        ∃ node ∈ listed, node ≠ "" ∧ hash.position node = position) ∧
      (∀ position, seating.occupants.lookup position = hash.firstAt? listed position) ∧
      (∀ others, others.flatten = listed → ofCalls hash others = seating) ∧
      (∀ key,
        (seating.owner? hash key = none ↔ seating.positions = []) ∧
        (∀ node, seating.owner? hash key = some node ↔ ∃ position ∈ seating.positions,
          seating.occupants.lookup position = some node ∧
          ∀ other ∈ seating.positions, other ≠ position →
            position - hash key < other - hash key) ∧
        ring.owner? key = seating.owner? hash key) ∧
      ring.positions = seating.positions := by
  intro seating listed ring
  have seats : Seats hash seating listed := ofCalls_seats hash calls
  have ascending : seating.positions.Pairwise (· < ·) := ofCalls_ascending hash calls
  have whole : ring = (∅ : Ring hash).addAll listed := List.foldl_flatten.symm
  have same : ring.positions = seating.positions := whole ▸ seats.positions_ring ascending
  refine ⟨ascending, fun position => ?_, seats.occupants,
    fun others regrouped => ofCalls_congr hash regrouped, fun key => ⟨?_, ?_, ?_⟩, same⟩
  · rw [seats.positions, Hash.firstAt?_isSome_iff]
  · have owned : seating.owner? hash key = ring.owner? key := owner?_ofCalls hash calls key
    rw [owned, ← same, Ring.positions, List.map_eq_nil_iff]
    constructor
    · intro nobody
      by_contra some
      have nonempty : ring.isEmpty = false := List.isEmpty_eq_false_iff.mpr some
      rw [← Option.not_isSome_iff_eq_none] at nobody
      exact nobody (Ring.owner?_isSome nonempty key)
    · intro free
      simp [Ring.owner?, free]
  · exact owner?_ofCalls_eq_some_iff hash calls key
  · exact (owner?_ofCalls hash calls key).symm

end Seating

end ShardStore
