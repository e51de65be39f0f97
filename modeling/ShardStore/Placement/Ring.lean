import ShardStore.Placement.Crc32
import ShardStore.Text.Utf8

namespace ShardStore

abbrev Hash := Bytes → UInt32

/-- An identifier of a node: the address at which it is reached. -/
abbrev NodeId := String

def Hash.position (hash : Hash) (node : NodeId) : UInt32 :=
  hash (Text.encode node)

structure Ring (hash : Hash) where
  nodes : List NodeId := []
  sorted : nodes.Pairwise (fun a b => hash.position a < hash.position b) := by
    exact List.Pairwise.nil

namespace Ring

variable {hash : Hash}

instance : Inhabited (Ring hash) := ⟨{}⟩

instance : EmptyCollection (Ring hash) := ⟨{}⟩

def size (ring : Ring hash) : Nat :=
  ring.nodes.length

def isEmpty (ring : Ring hash) : Bool :=
  ring.nodes.isEmpty

def positions (ring : Ring hash) : List UInt32 :=
  ring.nodes.map hash.position

/-- Puts a node at its place among sorted nodes, unless its position is taken. -/
def place (hash : Hash) (node : NodeId) : List NodeId → List NodeId
  | [] => [node]
  | head :: rest =>
    if hash.position node < hash.position head then node :: head :: rest
    else if hash.position head < hash.position node then head :: place hash node rest
    else head :: rest

theorem mem_place {node other : NodeId} {nodes : List NodeId}
    (mem : other ∈ place hash node nodes) : other = node ∨ other ∈ nodes := by
  induction nodes with
  | nil => simpa [place] using mem
  | cons head rest ih =>
      simp only [place] at mem
      split at mem
      · simpa using mem
      · split at mem
        · rcases List.mem_cons.mp mem with same | mem
          · exact .inr (by simp [same])
          · exact (ih mem).imp id (by simp +contextual)
        · exact .inr mem

theorem place_sorted {node : NodeId} {nodes : List NodeId}
    (sorted : nodes.Pairwise (fun a b => hash.position a < hash.position b)) :
    (place hash node nodes).Pairwise (fun a b => hash.position a < hash.position b) := by
  induction nodes with
  | nil => simp [place]
  | cons head rest ih =>
      obtain ⟨above, sortedRest⟩ := List.pairwise_cons.mp sorted
      simp only [place]
      split
      case isTrue before =>
        refine List.pairwise_cons.mpr ⟨fun other mem => ?_, sorted⟩
        rcases List.mem_cons.mp mem with same | mem
        · rwa [same]
        · exact UInt32.lt_trans before (above other mem)
      case isFalse =>
        split
        case isTrue behind =>
          refine List.pairwise_cons.mpr ⟨fun other mem => ?_, ih sortedRest⟩
          rcases mem_place mem with same | mem
          · rwa [same]
          · exact above other mem
        case isFalse => exact sorted

/-- Adds a node. An empty identifier, and one whose position is taken, is passed over. -/
def add (ring : Ring hash) (node : NodeId) : Ring hash :=
  if node.isEmpty then ring else ⟨place hash node ring.nodes, place_sorted ring.sorted⟩

def addAll (ring : Ring hash) (nodes : List NodeId) : Ring hash :=
  nodes.foldl add ring

def owner? (ring : Ring hash) (key : Bytes) : Option NodeId :=
  (ring.nodes.find? fun node => hash key ≤ hash.position node).or ring.nodes.head?

theorem owner?_isSome {ring : Ring hash} (nonempty : ring.isEmpty = false) (key : Bytes) :
    (ring.owner? key).isSome := by
  unfold isEmpty at nonempty
  cases nodes : ring.nodes with
  | nil => simp [nodes] at nonempty
  | cons head rest => simp [owner?, nodes]

theorem mem_of_owner?_eq_some {ring : Ring hash} {key : Bytes} {node : NodeId}
    (owned : ring.owner? key = some node) : node ∈ ring.nodes := by
  rcases Option.or_eq_some_iff.mp owned with found | ⟨_, first⟩
  · exact List.mem_of_find?_eq_some found
  · exact List.mem_of_head? first

end Ring

end ShardStore
