import TileAtlas.Proofs.Order.Sort
import TileAtlas.Tile.Key
import Mathlib.Order.Defs.LinearOrder
import Mathlib.Data.List.Sort
import Mathlib.Tactic.Common

/-!
# The order of tile keys

Keys form a linear order: by zoom level, then by column, then by row.  A list of tiles ascends if
every key is strictly below all later ones; tiles with different keys can be brought into
ascending order in one way only.
-/

namespace TileAtlas

namespace TileKey

theorem compare_eq_lt_iff {a b : TileKey} : compare a b = .lt ↔
    a.zoom < b.zoom ∨ a.zoom = b.zoom ∧
      (a.column < b.column ∨ a.column = b.column ∧ a.row < b.row) := by
  simp only [compare, Ordering.then_eq_lt, Nat.compare_eq_lt, Nat.compare_eq_eq]

theorem compare_eq_eq_iff {a b : TileKey} : compare a b = .eq ↔ a = b := by
  cases a
  cases b
  simp only [compare, Ordering.then_eq_eq, Nat.compare_eq_eq, TileKey.mk.injEq]

theorem lt_iff {a b : TileKey} : a < b ↔
    a.zoom < b.zoom ∨ a.zoom = b.zoom ∧
      (a.column < b.column ∨ a.column = b.column ∧ a.row < b.row) := by
  rw [← compare_eq_lt_iff]
  exact beq_iff_eq

theorem eq_iff {a b : TileKey} :
    a = b ↔ a.zoom = b.zoom ∧ a.column = b.column ∧ a.row = b.row := by
  cases a
  cases b
  simp

instance : LinearOrder TileKey where
  le a b := ¬ b < a
  lt a b := a < b
  le_refl a := by rw [lt_iff]; omega
  le_trans a b c := by simp only [lt_iff]; omega
  lt_iff_le_not_ge a b := by simp only [lt_iff]; omega
  le_antisymm a b := by simp only [lt_iff, eq_iff]; omega
  le_total a b := by simp only [lt_iff]; omega
  toDecidableLE _ _ := inferInstanceAs (Decidable (¬ _))
  toDecidableLT a b := inferInstanceAs (Decidable (before a b = true))
  toDecidableEq := inferInstance
  compare := compare
  compare_eq_compareOfLessAndEq a b := by
    unfold compareOfLessAndEq
    cases h : compare a b with
    | lt => rw [if_pos (show a < b from beq_iff_eq.2 h)]
    | eq =>
      obtain rfl := compare_eq_eq_iff.1 h
      rw [if_neg (fun hlt => by simpa [h] using beq_iff_eq.1 (show before a a = true from hlt)),
        if_pos rfl]
    | gt =>
      have hlt : ¬ a < b := fun hlt => by
        have := beq_iff_eq.1 (show before a b = true from hlt)
        rw [h] at this
        cases this
      have hne : a ≠ b := fun hab => by
        rw [compare_eq_eq_iff.2 hab] at h
        cases h
      rw [if_neg hlt, if_neg hne]

end TileKey

/-- Whether the keys of some tiles ascend. -/
def Ascending (tiles : List Tile) : Prop := tiles.Pairwise fun a b => a.key < b.key

instance (tiles : List Tile) : Decidable (Ascending tiles) :=
  inferInstanceAs (Decidable (tiles.Pairwise _))

theorem key_inj_of_pairwise {tiles : List Tile} (h : tiles.Pairwise fun a b => a.key ≠ b.key)
    {a b : Tile} (ha : a ∈ tiles) (hb : b ∈ tiles) (hab : a.key = b.key) : a = b := by
  induction tiles with
  | nil => simp at ha
  | cons tile rest ih =>
      obtain ⟨hfirst, hrest⟩ := List.pairwise_cons.1 h
      rcases List.mem_cons.1 ha with rfl | ha' <;> rcases List.mem_cons.1 hb with rfl | hb'
      · rfl
      · exact absurd hab (hfirst b hb')
      · exact absurd hab.symm (hfirst a ha')
      · exact ih hrest ha' hb'

theorem Ascending.key_inj {tiles : List Tile} (h : Ascending tiles) {a b : Tile}
    (ha : a ∈ tiles) (hb : b ∈ tiles) (hab : a.key = b.key) : a = b :=
  key_inj_of_pairwise (h.imp fun hlt => hlt.ne) ha hb hab

/-- Tiles in ascending order are determined by which tiles they are. -/
theorem Ascending.ext {tiles tiles' : List Tile} (h : Ascending tiles) (h' : Ascending tiles')
    (hmem : ∀ tile, tile ∈ tiles ↔ tile ∈ tiles') : tiles = tiles' := by
  have hnodup {tiles : List Tile} (h : Ascending tiles) : tiles.Nodup :=
    h.imp fun hlt heq => absurd (congrArg Tile.key heq) hlt.ne
  exact eq_of_perm_of_pairwise_lt Tile.key
    ((List.perm_ext_iff_of_nodup (hnodup h) (hnodup h')).2 hmem) h h'

/-- Tiles in ascending order of keys. -/
def inOrder (tiles : List Tile) : List Tile :=
  sortBy (fun a b => decide (a.key ≤ b.key)) tiles

@[simp] theorem mem_inOrder {tiles : List Tile} {tile : Tile} :
    tile ∈ inOrder tiles ↔ tile ∈ tiles :=
  mem_sortBy _

theorem ascending_inOrder {tiles : List Tile} (h : tiles.Pairwise fun a b => a.key ≠ b.key) :
    Ascending (inOrder tiles) :=
  pairwise_lt_sortBy Tile.key h

theorem inOrder_eq_of_perm {tiles tiles' : List Tile} (hperm : tiles.Perm tiles')
    (h : tiles.Pairwise fun a b => a.key ≠ b.key) : inOrder tiles = inOrder tiles' :=
  sortBy_eq_of_perm Tile.key hperm h

theorem inOrder_filter (tiles : List Tile) (p : Tile → Bool) :
    (inOrder tiles).filter p = inOrder (tiles.filter p) :=
  filter_sortBy (decide_le_trans Tile.key) (decide_le_total Tile.key) p tiles

/-- The payload of the tile at a key. -/
def payloadAt (tiles : List Tile) (key : TileKey) : Option Bytes :=
  (tiles.find? fun tile => tile.key = key).bind (·.data)

theorem payloadAt_eq_some {tiles : List Tile} (h : tiles.Pairwise fun a b => a.key ≠ b.key)
    {key : TileKey} {data : Bytes} :
    payloadAt tiles key = some data ↔ ∃ tile ∈ tiles, tile.key = key ∧ tile.data = some data := by
  constructor
  · intro hdata
    obtain ⟨tile, htile, hdata⟩ := Option.bind_eq_some_iff.1 hdata
    exact ⟨tile, List.mem_of_find?_eq_some htile, by simpa using List.find?_some htile, hdata⟩
  · rintro ⟨tile, htile, hkey, hdata⟩
    have hfind : tiles.find? (fun tile => tile.key = key) = some tile := by
      cases hother : tiles.find? fun tile => tile.key = key with
      | none => exact absurd hkey (by simpa using List.find?_eq_none.1 hother tile htile)
      | some other =>
          have hotherKey : other.key = key := by simpa using List.find?_some hother
          rw [key_inj_of_pairwise h (List.mem_of_find?_eq_some hother) htile
            (hotherKey.trans hkey.symm)]
    simp only [payloadAt, hfind, Option.bind_some, hdata]

theorem payloadAt_inOrder {tiles : List Tile} (h : tiles.Pairwise fun a b => a.key ≠ b.key)
    (key : TileKey) : payloadAt (inOrder tiles) key = payloadAt tiles key := by
  have hsorted : (inOrder tiles).Pairwise fun a b => a.key ≠ b.key :=
    (ascending_inOrder h).imp fun hab => hab.ne
  ext data
  simp only [payloadAt_eq_some h, payloadAt_eq_some hsorted, mem_inOrder]

end TileAtlas
