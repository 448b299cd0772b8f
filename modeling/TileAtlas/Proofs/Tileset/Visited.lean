import TileAtlas.Proofs.Container.Visit
import TileAtlas.Tileset.Rows
import Mathlib.Data.List.Perm.Basic

/-!
# Rows in any order

A query for tiles visits the rows of a layout in an order of its own, but it is the same rows that
every query visits.  Where no two of them stand at the same place, the order does not show: a scan
puts them into the order of keys, and of a key there is one row at most.
-/

namespace TileAtlas

section Joined

variable {joined : Affinity} {map map' images images' : List Row}

theorem imagesOf_perm (h : images.Perm images') (id : Cell) :
    (imagesOf joined images id).Perm (imagesOf joined images' id) :=
  h.filter _

theorem joinedRows_perm (hmap : map.Perm map') (himages : images.Perm images') :
    (joinedRows joined map images).Perm (joinedRows joined map' images') := by
  refine (hmap.flatMap_right _).trans (List.Perm.flatMap_left map' fun entry _ => ?_)
  have hfound : (imagesOf joined images (entry.getD 3 .null)).Perm
      (imagesOf joined images' (entry.getD 3 .null)) := imagesOf_perm himages _
  dsimp only
  generalize imagesOf joined images (entry.getD 3 .null) = found at hfound
  generalize imagesOf joined images' (entry.getD 3 .null) = found' at hfound
  cases found with
  | nil =>
      rw [hfound.symm.eq_nil]
  | cons image rest =>
      cases found' with
      | nil => exact absurd hfound.eq_nil (List.cons_ne_nil image rest)
      | cons image' rest' => exact hfound.map _

end Joined

namespace TileQuery

theorem keyOrder_perm (layout : Layout) (q : TileQuery) (t : Table) :
    (q.keyOrder layout t).Perm t.rows := by
  unfold keyOrder
  split
  · exact t.inKeyOrder_perm
  · exact t.visited_perm _

theorem imageOrder_perm (q : TileQuery) (map : Option Table) (images : Table) :
    (q.imageOrder map images).Perm images.rows := by
  unfold imageOrder
  split
  · exact images.inKeyOrder_perm
  split
  · exact images.visited_perm _
  · exact sortBy_perm ..

end TileQuery

namespace Layout

variable {c : Container}

theorem rowsIn_shuffled (layout : Layout) (c : Container)
    {keyOrder keyOrder' imageOrder imageOrder' : Table → List Row}
    (hkeys : ∀ t, (keyOrder t).Perm (keyOrder' t))
    (himages : ∀ t, (imageOrder t).Perm (imageOrder' t)) :
    Shuffled (layout.rowsIn keyOrder imageOrder c) (layout.rowsIn keyOrder' imageOrder' c) := by
  cases layout with
  | flat => exact (Container.list_shuffled hkeys).bind fun _ _ h => .listed (h.map _)
  | flatWithHash => exact (Container.list_shuffled hkeys).bind fun _ _ h => .listed (h.map _)
  | normalized =>
      exact (Container.list_shuffled hkeys).bind fun _ _ hmap =>
        (Container.list_shuffled himages).bind fun _ _ himages =>
          .listed (joinedRows_perm hmap himages)

theorem visited_shuffled (layout : Layout) (q : TileQuery) (c : Container) :
    Shuffled (layout.visited q c) (layout.rows c) :=
  layout.rowsIn_shuffled c (q.keyOrder_perm layout) (q.imageOrder_perm _)

variable {layout : Layout} {rows visited : List TileRow} {q : TileQuery}

theorem exists_visited_of_rows (h : layout.rows c = .ok rows) (q : TileQuery) :
    ∃ visited, layout.visited q c = .ok visited ∧ visited.Perm rows :=
  (h ▸ layout.visited_shuffled q c).of_ok

theorem exists_rows_of_visited (h : layout.visited q c = .ok visited) :
    ∃ rows, layout.rows c = .ok rows ∧ visited.Perm rows :=
  (layout.visited_shuffled q c).ok_perm h

end Layout

/-! ### The order of keys -/

namespace TileRow

instance : Std.TransCmp keyOrder := by
  have hcell (f : TileRow → Cell) : Std.TransCmp fun a b => (f a).compare (f b) :=
    { eq_swap := Std.OrientedCmp.eq_swap, isLE_trans := Std.TransCmp.isLE_trans }
  have hz := hcell TileRow.z
  have hx := hcell TileRow.x
  have hy := hcell TileRow.y
  exact inferInstanceAs (Std.TransCmp (compareLex (fun a b : TileRow => a.z.compare b.z)
    (compareLex (fun a b => a.x.compare b.x) fun a b => a.y.compare b.y)))

theorem keyLe_total (a b : TileRow) : keyLe a b || keyLe b a := by
  cases h : keyLe a b with
  | true => rfl
  | false =>
      have hlt : keyOrder b a = .lt := Std.OrientedCmp.lt_of_not_isLE (by simpa [keyLe] using h)
      simp [keyLe, hlt]

theorem pairwise_keyLe (rows : List TileRow) : (sortBy keyLe rows).Pairwise (keyLe · ·) :=
  pairwise_sortBy (fun _ _ _ => Std.TransCmp.isLE_trans) keyLe_total rows

end TileRow

/-- Whether no two of some rows stand at the same place. -/
def Untied (rows : List TileRow) : Prop :=
  ∀ a ∈ rows, ∀ b ∈ rows, a.keyLe b → b.keyLe a → a = b

namespace Tileset

variable {t : Tileset} {c : Container} {rows : List TileRow}

/-- What a query for tiles reads of the rows that it visits. -/
theorem rows_of_visited {visited : List TileRow} {filter : TileFilter} {hashed : Bool}
    (h : t.shape.layout.visited
      (.scan (!(filter.minZoom.toList ++ filter.maxZoom.toList).isEmpty) hashed) c = .ok visited)
    (file : String) : t.rows filter hashed file c =
      if (filter.minZoom.toList ++ filter.maxZoom.toList).all fun n => (Cell.int n).fits then
        (checkBatch t.batch).map fun _ => sortBy TileRow.keyLe (visited.filter
          (TileRow.withinZoom (t.shape.layout.keyAffinity c "zoom_level") filter))
      else .error .outOfRange := by
  simp only [Tileset.rows, h, onFile, bind, Except.bind]
  split
  · cases checkBatch t.batch <;> rfl
  · rfl

/-- Where no two rows stand at the same place, a query reads them as if they came in the order in
which they were inserted. -/
theorem rows_of_untied (hrows : t.shape.layout.rows c = .ok rows) (huntied : Untied rows)
    (filter : TileFilter) (hashed : Bool) (file : String) :
    t.rows filter hashed file c =
      if (filter.minZoom.toList ++ filter.maxZoom.toList).all fun n => (Cell.int n).fits then
        (checkBatch t.batch).map fun _ => sortBy TileRow.keyLe (rows.filter
          (TileRow.withinZoom (t.shape.layout.keyAffinity c "zoom_level") filter))
      else .error .outOfRange := by
  obtain ⟨visited, hvisited, hperm⟩ := Layout.exists_visited_of_rows hrows
    (.scan (!(filter.minZoom.toList ++ filter.maxZoom.toList).isEmpty) hashed)
  rw [rows_of_visited hvisited, sortBy_eq_of_perm_of_antisymm (fun _ _ _ => Std.TransCmp.isLE_trans)
    TileRow.keyLe_total (hperm.filter _)]
  intro a ha b hb
  exact huntied a (hperm.mem_iff.1 (List.mem_of_mem_filter ha)) b
    (hperm.mem_iff.1 (List.mem_of_mem_filter hb))

end Tileset

end TileAtlas
