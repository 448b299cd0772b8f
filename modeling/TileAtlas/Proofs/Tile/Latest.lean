import TileAtlas.Proofs.Tile.Order
import TileAtlas.Tile.Hash

/-!
# The last tile at each key

Where tiles are written one after the other, a tile takes the place of an earlier one at its key,
and the last tile at each key is left.  The aggregate hash sees of a tile its key and the hash of
its payload; these are its mark.
-/

namespace TileAtlas

/-- The tiles with no later one at their key. -/
def latest : List Tile → List Tile
  | [] => []
  | tile :: rest =>
    if rest.any fun other => other.key = tile.key then latest rest else tile :: latest rest

section Latest

variable {tiles : List Tile}

theorem latest_sublist (tiles : List Tile) : (latest tiles).Sublist tiles := by
  induction tiles with
  | nil => exact .refl _
  | cons tile rest ih =>
      unfold latest
      split
      · exact ih.cons tile
      · exact ih.cons_cons tile

theorem pairwise_latest (tiles : List Tile) :
    (latest tiles).Pairwise fun a b => a.key ≠ b.key := by
  induction tiles with
  | nil => exact .nil
  | cons tile rest ih =>
      unfold latest
      split
      · exact ih
      next hnone =>
        refine List.pairwise_cons.2 ⟨fun other hother hkey => hnone ?_, ih⟩
        exact List.any_eq_true.2
          ⟨other, (latest_sublist rest).subset hother, decide_eq_true hkey.symm⟩

/-- Of tiles in order the last at each key ascend. -/
theorem ascending_latest (h : tiles.Pairwise fun a b => a.key ≤ b.key) :
    Ascending (latest tiles) :=
  ((h.sublist (latest_sublist tiles)).and (pairwise_latest tiles)).imp
    fun ⟨hle, hne⟩ => lt_of_le_of_ne hle hne

theorem latest_of_pairwise (h : tiles.Pairwise fun a b => a.key ≠ b.key) :
    latest tiles = tiles := by
  induction tiles with
  | nil => rfl
  | cons tile rest ih =>
      obtain ⟨hfirst, hrest⟩ := List.pairwise_cons.1 h
      have hnone : (rest.any fun other => other.key = tile.key) = false := by
        simpa using fun other hother => (hfirst other hother).symm
      simp only [latest, hnone, Bool.false_eq_true, if_false, ih hrest]

/-- No tile is lost exactly if the keys do not repeat. -/
theorem length_latest_eq_iff :
    (latest tiles).length = tiles.length ↔ tiles.Pairwise fun a b => a.key ≠ b.key := by
  constructor
  · intro hlength
    have heq := (latest_sublist tiles).eq_of_length hlength
    exact heq ▸ pairwise_latest tiles
  · intro h
    rw [latest_of_pairwise h]

end Latest

/-! ### Marks -/

/-- What the aggregate hash sees of a tile. -/
def Tile.mark (tile : Tile) : TileKey × Option String := (tile.key, tileHash tile.data)

section Mark

variable {tiles tiles' : List Tile}

theorem aggregateHash_congr (h : tiles.map Tile.mark = tiles'.map Tile.mark) :
    aggregateHash tiles = aggregateHash tiles' := by
  have hline (tiles : List Tile) : tiles.map Tile.line = (tiles.map Tile.mark).map
      fun mark => mark.1.text ++ "=" ++ mark.2.getD "-" ++ ";" := by
    rw [List.map_map]
    rfl
  unfold aggregateHash foldedText
  rw [hline tiles, hline tiles', h]

theorem pairwise_key_congr {r : TileKey → TileKey → Prop}
    (h : tiles.map Tile.mark = tiles'.map Tile.mark) :
    (tiles.Pairwise fun a b => r a.key b.key) ↔ tiles'.Pairwise fun a b => r a.key b.key := by
  have hmarks (tiles : List Tile) : (tiles.Pairwise fun a b => r a.key b.key) ↔
      (tiles.map Tile.mark).Pairwise fun a b => r a.1 b.1 := by
    rw [List.pairwise_map]
    rfl
  rw [hmarks, hmarks, h]

theorem filter_key_congr (h : tiles.map Tile.mark = tiles'.map Tile.mark) (p : TileKey → Bool) :
    (tiles.filter fun tile => p tile.key).map Tile.mark =
      (tiles'.filter fun tile => p tile.key).map Tile.mark := by
  have hmarks (tiles : List Tile) : (tiles.filter fun tile => p tile.key).map Tile.mark =
      (tiles.map Tile.mark).filter fun mark => p mark.1 := by
    rw [List.filter_map]
    rfl
  rw [hmarks, hmarks, h]

theorem inOrder_of_ascending (h : Ascending tiles) : inOrder tiles = tiles :=
  sortBy_of_pairwise (h.imp fun hlt => decide_eq_true (le_of_lt hlt))

end Mark

end TileAtlas
