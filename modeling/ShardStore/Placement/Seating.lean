import Mathlib.Data.List.AList
import ShardStore.Placement.Ring

/-!
The ring in two parts: the positions that are taken, as a sorted list, and a table of who sits at each of
them. Nodes that are added together are put behind the others one by one, and the positions are sorted
when the last of them is there. The owner of a key is looked for by halving the list.
-/

namespace ShardStore

structure Seating where
  positions : List UInt32 := []
  occupants : AList (fun _ : UInt32 => NodeId) := ∅

namespace Seating

instance : EmptyCollection Seating := ⟨{}⟩

/-- Puts a node behind the others. An empty identifier, and one whose position is taken, is passed over. -/
def seat (hash : Hash) (seating : Seating) (node : NodeId) : Seating :=
  let position := hash.position node
  if node.isEmpty then seating
  else if position ∈ seating.occupants then seating
  else
    { positions := seating.positions ++ [position]
      occupants := seating.occupants.insert position node }

def sort (seating : Seating) : Seating :=
  { seating with positions := seating.positions.mergeSort fun a b => decide (a ≤ b) }

def seatAll (hash : Hash) (seating : Seating) (nodes : List NodeId) : Seating :=
  (nodes.foldl (seat hash) seating).sort

/-- The seating that several calls lead to, each with some nodes. -/
def ofCalls (hash : Hash) (calls : List (List NodeId)) : Seating :=
  calls.foldl (seatAll hash) ∅

/-- The index of the first of sorted positions that is not in front of a start, given that it lies between
two indices. -/
def searchBetween (start : UInt32) (positions : List UInt32) (low high : Nat)
    (within : high ≤ positions.length) : Nat :=
  if _wide : low < high then
    let middle := low + (high - low) / 2
    have inside : middle < positions.length := by omega
    if positions[middle] < start then searchBetween start positions (middle + 1) high within
    else searchBetween start positions low middle (by omega)
  else low
termination_by high - low

def search (start : UInt32) (positions : List UInt32) : Nat :=
  searchBetween start positions 0 positions.length (Nat.le_refl _)

/-- Where the first position at or behind a start stands, the list's first position following its last. -/
def firstIndex (start : UInt32) (positions : List UInt32) : Nat :=
  let index := search start positions
  if index = positions.length then 0 else index

theorem searchBetween_le {start : UInt32} {positions : List UInt32} {low high : Nat}
    (within : high ≤ positions.length) (ordered : low ≤ high) :
    searchBetween start positions low high within ≤ high := by
  fun_induction searchBetween start positions low high within with
  | case1 low high within wide middle inside less ih =>
      exact ih (by omega)
  | case2 low high within wide middle inside notLess ih =>
      have := ih (by omega)
      omega
  | case3 low high within closed => exact ordered

theorem firstIndex_lt {positions : List UInt32} (taken : positions ≠ []) (start : UInt32) :
    firstIndex start positions < positions.length := by
  have some := List.length_pos_iff.mpr taken
  have most : search start positions ≤ positions.length :=
    searchBetween_le (Nat.le_refl _) (Nat.zero_le _)
  unfold firstIndex
  dsimp only
  split <;> omega

def owner? (hash : Hash) (seating : Seating) (key : Bytes) : Option NodeId :=
  if taken : seating.positions ≠ [] then
    have := firstIndex_lt taken (hash key)
    seating.occupants.lookup seating.positions[firstIndex (hash key) seating.positions]
  else none

end Seating

end ShardStore
