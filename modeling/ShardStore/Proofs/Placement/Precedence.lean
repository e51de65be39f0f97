import Mathlib.Data.List.Induction
import ShardStore.Placement.Membership
import ShardStore.Proofs.Placement.Nearest

/-!
Who sits where. A ring has no room for two nodes at one position, so among identifiers that share
one, the first that a node is told of takes it, and the node itself comes before all others. Nodes
that know the same identifiers route alike exactly if their lists let the same identifier take each
position (`Membership.owners_agree_iff`).
-/

namespace ShardStore

/-- Whether no two of some nodes have the same position. -/
def Hash.Separates (hash : Hash) (nodes : List NodeId) : Prop :=
  ∀ a ∈ nodes, ∀ b ∈ nodes, hash.position a = hash.position b → a = b

/-- The first of some listed nodes that has the position of a node. -/
def Hash.first? (hash : Hash) (listed : List NodeId) (node : NodeId) : Option NodeId :=
  listed.find? fun other => !other.isEmpty && hash.position other == hash.position node

namespace Hash

variable {hash : Hash} {listed : List NodeId} {node other : NodeId}

theorem first?_spec (found : hash.first? listed node = some other) :
    other ∈ listed ∧ other ≠ "" ∧ hash.position other = hash.position node := by
  have fits := List.find?_some found
  simp only [Bool.and_eq_true, Bool.not_eq_true', beq_iff_eq] at fits
  exact ⟨List.mem_of_find?_eq_some found, by simpa using fits.1, fits.2⟩

theorem first?_congr (level : hash.position node = hash.position other) :
    hash.first? listed node = hash.first? listed other := by
  rw [first?, first?, level]

theorem first?_isSome (hash : Hash) (mem : node ∈ listed) (named : node ≠ "") :
    ∃ other, hash.first? listed node = some other := by
  rw [← Option.isSome_iff_exists, first?, List.find?_isSome]
  exact ⟨node, mem, by simpa using named⟩

theorem first?_cons_self (named : node ≠ "") : hash.first? (node :: listed) node = some node :=
  List.find?_cons_of_pos (by simpa using named)

theorem first?_append (listed more : List NodeId) (node : NodeId) :
    hash.first? (listed ++ more) node = (hash.first? listed node).or (hash.first? more node) :=
  List.find?_append

theorem first?_self_iff (separates : hash.Separates listed) (named : ∀ id ∈ listed, id ≠ "") :
    hash.first? listed node = some node ↔ node ∈ listed := by
  constructor
  · exact fun found => (first?_spec found).1
  · intro mem
    obtain ⟨other, found⟩ := first?_isSome hash mem (named node mem)
    obtain ⟨held, -, level⟩ := first?_spec found
    rw [found, separates other held node mem level]

end Hash

namespace Ring

variable {hash : Hash}

theorem mem_place_iff {node other : NodeId} {nodes : List NodeId}
    (sorted : nodes.Pairwise (fun a b => hash.position a < hash.position b)) :
    other ∈ place hash node nodes ↔
      other ∈ nodes ∨ other = node ∧ ∀ taken ∈ nodes, hash.position taken ≠ hash.position node := by
  induction nodes with
  | nil => simp [place]
  | cons head rest ih =>
      obtain ⟨above, sortedRest⟩ := List.pairwise_cons.mp sorted
      simp only [place]
      split
      case isTrue before =>
        have apart : ∀ taken ∈ head :: rest, hash.position taken ≠ hash.position node := by
          intro taken mem level
          rcases List.mem_cons.mp mem with rfl | mem
          · exact UInt32.lt_irrefl _ (level ▸ before)
          · exact UInt32.lt_irrefl _ (UInt32.lt_trans before (level ▸ above taken mem))
        rw [List.mem_cons]
        exact ⟨fun either => either.elim (fun same => .inr ⟨same, apart⟩) .inl,
          fun either => either.elim .inr fun fresh => .inl fresh.1⟩
      case isFalse notBefore =>
        split
        case isTrue behind =>
          rw [List.mem_cons, ih sortedRest, List.mem_cons, List.forall_mem_cons, or_assoc]
          have apart : hash.position head ≠ hash.position node := fun level =>
            UInt32.lt_irrefl _ (level ▸ behind)
          simp only [apart, ne_eq, not_false_eq_true, true_and]
        case isFalse notBehind =>
          have level := UInt32.le_antisymm (UInt32.not_lt.mp notBefore) (UInt32.not_lt.mp notBehind)
          simp [level]

/-- On a ring made of listed nodes, a node has its position if it is the first of them there. -/
theorem mem_addAll_empty (nodes : List NodeId) (node : NodeId) :
    node ∈ ((∅ : Ring hash).addAll nodes).nodes ↔ hash.first? nodes node = some node := by
  induction nodes using List.reverseRecOn generalizing node with
  | nil => exact ⟨(nomatch ·), (nomatch ·)⟩
  | append_singleton nodes last ih =>
      have unfolded : (∅ : Ring hash).addAll (nodes ++ [last]) =
          ((∅ : Ring hash).addAll nodes).add last := by
        simp only [addAll, List.foldl_append, List.foldl_cons, List.foldl_nil]
      rw [unfolded, add, Hash.first?_append]
      by_cases unnamed : last.isEmpty
      · have passed : hash.first? [last] node = none := by
          simp [Hash.first?, unnamed]
        rw [if_pos unnamed, passed, Option.or_none, ih]
      · have named : last ≠ "" := by simpa using unnamed
        rw [if_neg unnamed, mem_place_iff (Ring.sorted _), ih, Option.or_eq_some_iff]
        constructor
        · rintro (held | ⟨rfl, free⟩)
          · exact .inl held
          · refine .inr ⟨?_, Hash.first?_cons_self named⟩
            cases found : hash.first? nodes node with
            | none => rfl
            | some taken =>
                obtain ⟨-, -, level⟩ := Hash.first?_spec found
                have held := (ih taken).mpr ((Hash.first?_congr level).trans found)
                exact absurd level (free taken held)
        · rintro (held | ⟨fresh, found⟩)
          · exact .inl held
          · obtain rfl := List.mem_singleton.mp (Hash.first?_spec found).1
            refine .inr ⟨rfl, fun taken mem level => ?_⟩
            have held := (ih taken).mp mem
            rw [Hash.first?_congr level, fresh] at held
            cases held

theorem eq_of_mem_iff {left right : Ring hash}
    (same : ∀ node, node ∈ left.nodes ↔ node ∈ right.nodes) : left = right := by
  have distinct : ∀ ring : Ring hash, ring.nodes.Nodup := by
    intro ring
    refine List.Pairwise.imp ?_ ring.sorted
    rintro a b before rfl
    exact UInt32.lt_irrefl _ before
  have shuffled := (List.perm_ext_iff_of_nodup (distinct left) (distinct right)).mpr same
  have nodes : left.nodes = right.nodes := by
    refine shuffled.eq_of_pairwise (fun a b _ _ before behind => ?_) left.sorted right.sorted
    exact absurd (UInt32.lt_trans before behind) (UInt32.lt_irrefl _)
  cases left
  cases right
  cases nodes
  rfl

end Ring

namespace Membership

/-- Whether a node that belongs to a cluster is told of all other members. It may be told of itself
too, and of a member again, and an empty identifier names nobody. -/
structure Lists (members : List NodeId) (node : NodeId) (listed : List NodeId) : Prop where
  member : node ∈ members
  known : ∀ id ∈ listed, id = "" ∨ id ∈ members
  all : ∀ id ∈ members, id = node ∨ id ∈ listed

variable {hash : Hash} {members listed : List NodeId} {self node : NodeId}

theorem first?_meet (membership : Membership) (peer node : NodeId) :
    hash.first? (membership.meet peer).nodes node = hash.first? (membership.nodes ++ [peer]) node := by
  unfold meet
  split
  · next known =>
    rw [Hash.first?_append]
    cases passed : hash.first? [peer] node with
    | none => rw [Option.or_none]
    | some other =>
        obtain ⟨mem, named, level⟩ := Hash.first?_spec passed
        obtain rfl := List.mem_singleton.mp mem
        have member : other ∈ membership.nodes := by simpa [nodes, named] using known
        obtain ⟨held, found⟩ := Hash.first?_isSome hash member named
        rw [← Hash.first?_congr level, found, Option.some_or]
  · rfl

/-- A node comes before its peers, and they come in the order in which it was told of them. -/
theorem first?_of (self : NodeId) (listed : List NodeId) (node : NodeId) :
    hash.first? (of self listed).nodes node = hash.first? (self :: listed) node := by
  have gather : ∀ membership : Membership,
      hash.first? (listed.foldl meet membership).nodes node =
        hash.first? (membership.nodes ++ listed) node := by
    induction listed with
    | nil => intro membership; rw [List.foldl_nil, List.append_nil]
    | cons peer rest ih =>
        intro membership
        rw [List.foldl_cons, ih, Hash.first?_append, first?_meet, ← Hash.first?_append,
          List.append_assoc, List.singleton_append]
  exact gather ⟨self, []⟩

theorem mem_ring : node ∈ (of self listed).ring.nodes ↔
    Hash.first? Crc32.checksum (self :: listed) node = some node := by
  rw [ring, Ring.mem_addAll_empty, first?_of]

theorem self_mem_ring (named : self ≠ "") : self ∈ (of self listed).ring.nodes :=
  mem_ring.mpr (Hash.first?_cons_self named)

section

variable (lists : Lists members self listed)

include lists

theorem Lists.mem_of_first? {other : NodeId}
    (found : Hash.first? Crc32.checksum (self :: listed) node = some other) : other ∈ members := by
  obtain ⟨mem, visible, -⟩ := Hash.first?_spec found
  rcases List.mem_cons.mp mem with rfl | mem
  · exact lists.member
  · exact (lists.known other mem).resolve_left visible

variable (named : ∀ id ∈ members, id ≠ "")

include named

/-- Every member's position is taken, by the member or by one that came before it. -/
theorem Lists.taken (mem : node ∈ members) : ∃ holder ∈ (of self listed).ring.nodes,
    Hash.first? Crc32.checksum (self :: listed) node = some holder ∧
      Hash.position Crc32.checksum holder = Hash.position Crc32.checksum node := by
  have told : node ∈ self :: listed := by
    rcases lists.all node mem with rfl | mem
    · exact List.mem_cons_self
    · exact List.mem_cons_of_mem self mem
  obtain ⟨holder, found⟩ := Hash.first?_isSome Crc32.checksum told (named node mem)
  obtain ⟨-, -, level⟩ := Hash.first?_spec found
  exact ⟨holder, mem_ring.mpr ((Hash.first?_congr level).trans found), found, level⟩

theorem Lists.owner_spec (key : Bytes) :
    (of self listed).ring.owner? key = some ((of self listed).owner key) ∧
      (of self listed).owner key ∈ members := by
  have nonempty : (of self listed).ring.isEmpty = false := by
    rw [Ring.isEmpty, List.isEmpty_eq_false_iff]
    exact List.ne_nil_of_mem (self_mem_ring (named self lists.member))
  obtain ⟨owner, owned⟩ := Option.isSome_iff_exists.mp (Ring.owner?_isSome nonempty key)
  have routed : (of self listed).owner key = owner := by
    rw [Membership.owner, owned, Option.getD_some]
  rw [routed]
  exact ⟨owned, lists.mem_of_first? (mem_ring.mp (Ring.mem_of_owner?_eq_some owned))⟩

end

/-- A node on the ring owns the key that is its own identifier. -/
theorem owner_self_key (mem : node ∈ (of self listed).ring.nodes) :
    (of self listed).owner (Text.encode node) = node := by
  have near : Hash.distance Crc32.checksum (Text.encode node) node = 0 := UInt32.sub_self _
  have owned := Ring.owner?_eq_some_iff.mpr ⟨mem, fun other _ => near ▸ UInt32.zero_le⟩
  rw [owner, owned, Option.getD_some]

section

variable {a b : NodeId} {listedA listedB : List NodeId} (named : ∀ id ∈ members, id ≠ "")
  (listsA : Lists members a listedA) (listsB : Lists members b listedB)

include named listsA listsB

theorem owner_eq_of_first?
    (same : ∀ id ∈ members, Hash.first? Crc32.checksum (a :: listedA) id =
      Hash.first? Crc32.checksum (b :: listedB) id) (key : Bytes) :
    (of a listedA).owner key = (of b listedB).owner key := by
  have rings : (of a listedA).ring = (of b listedB).ring := by
    apply Ring.eq_of_mem_iff
    intro node
    rw [mem_ring, mem_ring]
    constructor
    · intro found
      rw [← same node (listsA.mem_of_first? found), found]
    · intro found
      rw [same node (listsB.mem_of_first? found), found]
  have owned := (listsA.owner_spec named key).1
  rw [rings, (listsB.owner_spec named key).1] at owned
  exact (Option.some.inj owned).symm

/-- The holder of a position owns the key that is its identifier, so another member that agrees on
this key has it on its ring too. -/
theorem first?_eq_of_owner_eq
    (agree : ∀ key, (of a listedA).owner key = (of b listedB).owner key) (mem : node ∈ members) :
    Hash.first? Crc32.checksum (a :: listedA) node =
      Hash.first? Crc32.checksum (b :: listedB) node := by
  obtain ⟨holder, held, found, level⟩ := listsA.taken named mem
  have owned := (listsB.owner_spec named (Text.encode holder)).1
  rw [← agree, owner_self_key held] at owned
  have heldToo := mem_ring.mp (Ring.mem_of_owner?_eq_some owned)
  rw [found, ← heldToo, Hash.first?_congr level]

/-- A member keeps every key that another member takes to be its. -/
theorem owner_keeps {key : Bytes} (routed : (of a listedA).owner key = b) :
    (of b listedB).owner key = b := by
  have owned := (listsA.owner_spec named key).1
  rw [routed] at owned
  obtain ⟨-, nearest⟩ := Ring.owner?_eq_some_iff.mp owned
  -- Both rings have the same positions, and at its own position a member stands before all others.
  have kept : (of b listedB).ring.owner? key = some b := by
    refine Ring.owner?_eq_some_iff.mpr ⟨self_mem_ring (named b listsB.member), fun other mem => ?_⟩
    obtain ⟨holder, held, -, level⟩ := listsA.taken named (listsB.mem_of_first? (mem_ring.mp mem))
    have near := nearest holder held
    rwa [Hash.distance, Hash.distance, level] at near
  rw [owner, kept, Option.getD_some]

end

theorem Lists.first?_of_separates (lists : Lists members self listed)
    (named : ∀ id ∈ members, id ≠ "") (separates : Hash.Separates Crc32.checksum members)
    (mem : node ∈ members) : Hash.first? Crc32.checksum (self :: listed) node = some node := by
  obtain ⟨holder, -, found, level⟩ := lists.taken named mem
  rw [found, separates holder (lists.mem_of_first? found) node mem level]

/-- Two members route every key alike exactly if at each position the same identifier comes first in
what they were told. All members do, whatever they were told, exactly if no two share a position. -/
theorem owners_agree_iff (named : ∀ id ∈ members, id ≠ "") :
    (∀ a b listedA listedB, Lists members a listedA → Lists members b listedB →
      ((∀ key, (of a listedA).owner key = (of b listedB).owner key) ↔
        ∀ id ∈ members, Hash.first? Crc32.checksum (a :: listedA) id =
          Hash.first? Crc32.checksum (b :: listedB) id)) ∧
    ((∀ a b listedA listedB, Lists members a listedA → Lists members b listedB →
        ∀ key, (of a listedA).owner key = (of b listedB).owner key) ↔
      Hash.Separates Crc32.checksum members) := by
  refine ⟨fun a b listedA listedB listsA listsB => ?_, ?_, ?_⟩
  · constructor
    · intro agree id mem
      exact first?_eq_of_owner_eq named listsA listsB agree mem
    · exact owner_eq_of_first? named listsA listsB
  · intro agree a memA b memB level
    have everybody : ∀ id ∈ members, Lists members id members := fun id mem =>
      ⟨mem, fun _ known => .inr known, fun _ known => .inr known⟩
    have same := first?_eq_of_owner_eq named (everybody a memA) (everybody b memB)
      (agree a b members members (everybody a memA) (everybody b memB)) memA
    have front : Hash.first? Crc32.checksum (b :: members) a = some b :=
      (Hash.first?_congr level).trans (Hash.first?_cons_self (named b memB))
    rw [Hash.first?_cons_self (named a memA), front] at same
    exact Option.some.inj same
  · intro separates a b listedA listedB listsA listsB
    apply owner_eq_of_first? named listsA listsB
    intro id mem
    rw [listsA.first?_of_separates named separates mem,
      listsB.first?_of_separates named separates mem]

/-- Two addresses of one position: each of the two nodes takes every key for itself. -/
theorem owners_disagree :
    let first : NodeId := "10.0.131.28:7000"
    let second : NodeId := "10.3.132.139:16379"
    Lists [first, second] first [second] ∧ Lists [first, second] second [first] ∧
      ¬ ∀ key, (of first [second]).owner key = (of second [first]).owner key := by
  intro first second
  refine ⟨⟨by decide, by decide, by decide⟩, ⟨by decide, by decide, by decide⟩, fun agree => ?_⟩
  exact absurd (agree []) (by decide +kernel)

theorem owners_agree_iff_of_three :
    let members : List NodeId := ["10.0.131.28:7000", "10.3.132.139:16379", "10.0.0.1:7000"]
    (∀ id ∈ members, id ≠ "") ∧
    (∀ a b listedA listedB, Lists members a listedA → Lists members b listedB →
      ((∀ key, (of a listedA).owner key = (of b listedB).owner key) ↔
        ∀ id ∈ members, Hash.first? Crc32.checksum (a :: listedA) id =
          Hash.first? Crc32.checksum (b :: listedB) id)) ∧
    ((∀ a b listedA listedB, Lists members a listedA → Lists members b listedB →
        ∀ key, (of a listedA).owner key = (of b listedB).owner key) ↔
      Hash.Separates Crc32.checksum members) := by
  intro members
  have named : ∀ id ∈ members, id ≠ "" := by decide
  exact ⟨named, owners_agree_iff named⟩

end Membership

end ShardStore
