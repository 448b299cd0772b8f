/-!
# Sorting the continuations of a text

The positions of a text in the order of what follows them.  The order by the first symbols is
refined by doubling: positions of equal rank are told apart by the ranks of the positions that lie
as far ahead as the ranks reach.
-/

namespace TileAtlas.Compress

def assignRanks (sorted : List (Nat × Nat)) (size : Nat) : Array Nat × Nat :=
  let step (state : Array Nat × Nat × Option Nat) (entry : Nat × Nat) :
      Array Nat × Nat × Option Nat :=
    let rank := if state.2.2 = some entry.1 then state.2.1 else state.2.1 + 1
    (state.1.setIfInBounds entry.2 rank, rank, some entry.1)
  let (ranks, top, _) := sorted.foldl step (Array.replicate size 0, 0, none)
  (ranks, top)

def sortKeys (keys : List (Nat × Nat)) : List (Nat × Nat) :=
  keys.mergeSort fun a b => a.1 ≤ b.1

/-- Refines ranks that see `reach` symbols until all positions differ or `fuel` runs out.  The
rank of a position that does not exist is zero. -/
def refineRanks (size : Nat) (ahead : Nat → Nat → Nat) :
    Nat → Nat → Array Nat → List Nat → List Nat
  | 0, _, _, order => order
  | fuel + 1, reach, ranks, _ =>
    let key (i : Nat) : Nat := ranks.getD i 0 * (size + 1) + ranks.getD (ahead i reach) 0
    let sorted := sortKeys ((List.range size).map fun i => (key i, i))
    let (finer, top) := assignRanks sorted size
    let order := sorted.map (·.2)
    if top = size then order else refineRanks size ahead fuel (2 * reach) finer order

/-- The positions below `size` in the order of their continuations, where `symbol` gives the
symbol at a position and `ahead` the position some steps on. -/
def sortContinuations (size : Nat) (symbol : Nat → Nat) (ahead : Nat → Nat → Nat) : List Nat :=
  let sorted := sortKeys ((List.range size).map fun i => (symbol i, i))
  let (ranks, _) := assignRanks sorted size
  refineRanks size ahead (size.log2 + 2) 1 ranks (sorted.map (·.2))

end TileAtlas.Compress
