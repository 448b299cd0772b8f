import TileAtlas.Proofs.Container.Catalogue
import TileAtlas.Proofs.Container.Cell
import TileAtlas.Proofs.Container.Ignore
import TileAtlas.Proofs.Tileset.Detected
import TileAtlas.Tileset.Store

/-!
# Dropping images

The tables of a normalized container of any origin, and what of its images is left when those that
nothing leads to are dropped: the images with the identifiers that some key leads to, as they are
compared, and if some key leads anywhere the images without an identifier.  To drop images again
drops none.
-/

namespace TileAtlas

@[simp] theorem Affinity.isNull_keep (a : Affinity) (c : Cell) : (a.keep c).isNull = c.isNull := by
  have hreal (x : Binary64) : (keepReal x).isNull = false := by
    unfold keepReal
    split
    · split <;> rfl
    · rfl
  have hint (n : Int) (x : Binary64) :
      (if (Cell.int n).fits then Cell.int n else keepReal x).isNull = false := by
    split
    · rfl
    · exact hreal x
  cases a with
  | any => rw [keep_any]
  | text => cases c <;> rfl
  | integer =>
      cases c with
      | real x => exact hreal x
      | text s =>
          show (keepText s).isNull = false
          unfold keepText
          dsimp only
          split
          · exact hint _ _
          · split
            · exact hreal _
            · rfl
      | _ => rfl

namespace Container

/-- The images of a normalized container, each with the cells of its identifier and its payload. -/
def images (c : Container) : List (Cell × Cell) :=
  match c.table? "images" with
  | none => []
  | some u => u.rows.map fun row => (u.cell row "tile_id", u.cell row "tile_data")

/-- The identifiers that the keys of a normalized container lead to; null for a null tile. -/
def references (c : Container) : List Cell :=
  match c.table? "map" with
  | none => []
  | some m => m.rows.map (m.cell · "tile_id")

variable {c : Container} {m u : Table} {id : Cell}

/-- Whether an identifier of an image is the one that some key leads to, as they are compared. -/
def sameId (c : Container) (id reference : Cell) : Bool :=
  ((Layout.joinedIds c).keep id).eqv ((Layout.joinedIds c).keep reference)

/-- Whether an image is kept: some key leads to its identifier or, if it has none, anywhere. -/
def keepsImage (c : Container) (id : Cell) : Bool :=
  c.references.any fun reference => if id.isNull then !reference.isNull else c.sameId id reference

theorem sameId_null (c : Container) (reference : Cell) : c.sameId .null reference = false := by
  have hnull : (Layout.joinedIds c).keep .null = .null := by
    cases Layout.joinedIds c <;> rfl
  rw [sameId, hnull, Cell.null_eqv]

theorem keepsImage_iff (hid : id ≠ .null) :
    c.keepsImage id = true ↔ ∃ reference ∈ c.references, c.sameId id reference = true := by
  have hnull : id.isNull = false := by
    cases id with
    | null => exact absurd rfl hid
    | _ => rfl
  simp only [keepsImage, hnull, Bool.false_eq_true, if_false, List.any_eq_true]

theorem keepsImage_of_sameId {reference : Cell} (hreference : reference ∈ c.references)
    (h : c.sameId id reference = true) : c.keepsImage id = true := by
  have hid : id ≠ .null := by
    rintro rfl
    rw [sameId_null] at h
    cases h
  exact (keepsImage_iff hid).2 ⟨reference, hreference, h⟩

/-- The images that are dropped are those that are not kept. -/
theorem unlisted_references (c : Container) (id : Cell) :
    Statement.unlisted ((c.references.map (Layout.joinedIds c).keep).filter (!·.isNull))
      ((Layout.joinedIds c).keep id) = !c.keepsImage id := by
  have hempty : ((c.references.map (Layout.joinedIds c).keep).filter (!·.isNull)).isEmpty =
      !c.references.any (!·.isNull) := by
    rw [Bool.eq_iff_iff]
    simp
  have hany : ((c.references.map (Layout.joinedIds c).keep).filter (!·.isNull)).any
      (((Layout.joinedIds c).keep id).eqv ·) = c.references.any (c.sameId id) := by
    rw [List.any_filter, List.any_map]
    refine congrArg c.references.any (funext fun reference => ?_)
    rw [Function.comp_apply, sameId]
    cases (Layout.joinedIds c).keep reference <;> simp [Cell.isNull]
  cases hnull : id.isNull with
  | true => simp [Statement.unlisted, keepsImage, hnull, hempty]
  | false =>
      simp only [Statement.unlisted, keepsImage, hnull, hempty, hany, Affinity.isNull_keep,
        Bool.not_false, Bool.true_and, Bool.false_eq_true, if_false]
      cases hled : c.references.any (c.sameId id) with
      | false => simp
      | true =>
          obtain ⟨reference, hreference, hsame⟩ := List.any_eq_true.1 hled
          have hsome : c.references.any (!·.isNull) = true := by
            refine List.any_eq_true.2 ⟨reference, hreference, ?_⟩
            have hkept : ((Layout.joinedIds c).keep reference).isNull = false := by
              rw [sameId] at hsame
              cases hcell : (Layout.joinedIds c).keep reference with
              | null => simp [hcell] at hsame
              | _ => rfl
            simpa using hkept
          rw [hsome]
          rfl

/-- The two tables of a normalized container, whose columns may be of any kind. -/
structure Joined (c : Container) (m u : Table) : Prop where
  map : c.table? "map" = some m
  images : c.table? "images" = some u
  mapColumns : m.Offers (keyColumns ++ ["tile_id"])
  imageColumns : u.Offers ["tile_data", "tile_id"]

/-- The rows of images without those that are dropped. -/
def keptRows (c : Container) (u : Table) : List Row :=
  u.rows.filter fun row => c.keepsImage (u.cell row "tile_id")

namespace Joined

theorem of_detect {file : String} {shape : Shape} (hnamed : c.Named)
    (hdetected : detect file c = .ok shape) (hlayout : shape.layout = .normalized) :
    ∃ m u, c.Joined m u := by
  have hoffered := offered_of_detect hdetected
  rw [hlayout] at hoffered
  obtain ⟨m, hm, hmapColumns⟩ := offers_table hnamed hoffered.1
  obtain ⟨u, hu, himageColumns⟩ := offers_table hnamed hoffered.2
  exact ⟨m, u, hm, hu, hmapColumns, himageColumns⟩

theorem references_eq (hc : c.Joined m u) : c.references = m.rows.map (m.cell · "tile_id") := by
  rw [references, hc.map]

theorem images_eq (hc : c.Joined m u) :
    c.images = u.rows.map fun row => (u.cell row "tile_id", u.cell row "tile_data") := by
  rw [Container.images, hc.images]

theorem setImages (hc : c.Joined m u) (rows : List Row) :
    (c.setTable { u with rows }).Joined m { u with rows } := by
  refine ⟨?_, table?_setTable hc.images rows, hc.mapColumns, hc.imageColumns⟩
  rw [table?_setTable_of_ne (by simp [name_of_table? hc.images]), hc.map]

theorem joinedIds_eq (hc : c.Joined m u) :
    Layout.joinedIds c = (u.affinity "tile_id").joined (m.affinity "tile_id") := by
  rw [Layout.joinedIds, Container.affinity, Container.affinity, hc.images, hc.map]
  rfl

theorem joinedIds_setImages (hc : c.Joined m u) (rows : List Row) :
    Layout.joinedIds (c.setTable { u with rows }) = Layout.joinedIds c := by
  rw [(hc.setImages rows).joinedIds_eq, hc.joinedIds_eq]
  rfl

theorem keepsImage_setImages (hc : c.Joined m u) (rows : List Row) (id : Cell) :
    (c.setTable { u with rows }).keepsImage id = c.keepsImage id := by
  simp only [keepsImage, sameId, hc.joinedIds_setImages rows, (hc.setImages rows).references_eq,
    ← hc.references_eq]

/-- The images of which the rows are kept. -/
theorem images_keptRows (hc : c.Joined m u) :
    (c.setTable { u with rows := c.keptRows u }).images =
      c.images.filter fun image => c.keepsImage image.1 := by
  rw [(hc.setImages _).images_eq, hc.images_eq, List.filter_map]
  rfl

/-- Every image is dropped or left. -/
theorem dropped_add_images (hc : c.Joined m u) :
    u.rows.length - (c.keptRows u).length +
      (c.setTable { u with rows := c.keptRows u }).images.length = c.images.length := by
  have hlength : (c.keptRows u).length ≤ u.rows.length := List.length_filter_le _ _
  rw [(hc.setImages _).images_eq, hc.images_eq, List.length_map, List.length_map]
  exact Nat.sub_add_cancel hlength

theorem check_drop (hc : c.Joined m u) :
    Statement.check c (.deleteUnlisted "images" "tile_id" "map" "tile_id") = .ok () := by
  have hm : m.Offers ["tile_id"] := fun column hcolumn =>
    hc.mapColumns column (List.mem_append_right _ hcolumn)
  have hu : u.Offers ["tile_id"] := fun column hcolumn =>
    hc.imageColumns column (List.mem_cons_of_mem _ hcolumn)
  simp only [Statement.check, target_eq_ok_iff.2 hc.map, target_eq_ok_iff.2 hc.images,
    requireColumns_of_offers hm, requireColumns_of_offers hu, bind, Except.bind]

theorem run_drop (hc : c.Joined m u) :
    Statement.run c (.deleteUnlisted "images" "tile_id" "map" "tile_id") =
      .ok (u.rows.length - (c.keptRows u).length, c.setTable { u with rows := c.keptRows u }) := by
  have hlisted : m.rows.map (fun row => (Layout.joinedIds c).keep (m.cell row "tile_id")) =
      c.references.map (Layout.joinedIds c).keep := by
    rw [hc.references_eq, List.map_map]
    rfl
  have hdelete : u.delete (fun row => Statement.unlisted
      ((c.references.map (Layout.joinedIds c).keep).filter (!·.isNull))
      ((Layout.joinedIds c).keep (u.cell row "tile_id"))) = { u with rows := c.keptRows u } := by
    simp only [Table.delete, unlisted_references, Bool.not_not, keptRows]
  simp only [Statement.run, target_eq_ok_iff.2 hc.map, target_eq_ok_iff.2 hc.images, bind,
    Except.bind, ← hc.joinedIds_eq, hlisted, hdelete]

end Joined

end Container

namespace Tileset

open Container

variable {t : Tileset} {s s' : Session} {m u : Table}

/-- Dropping images that nothing leads to, in a container that can be written. -/
theorem finalize_eq (hlayout : t.shape.layout = .normalized) (hc : s.contents.Joined m u)
    (hwritable : s.writable = true) :
    t.finalize s = .ok (u.rows.length - (s.contents.keptRows u).length)
      { s with
        contents := s.contents.setTable { u with rows := s.contents.keptRows u }
        images := if 0 < u.rows.length - (s.contents.keptRows u).length then none
          else s.images } := by
  simp only [finalize, hlayout, if_true, bind_apply,
    Action.execute_of_run hc.check_drop rfl hwritable hc.run_drop]
  split <;> rfl

theorem finalize_readOnly (hlayout : t.shape.layout = .normalized) (hc : s.contents.Joined m u)
    (hwritable : s.writable = false) :
    t.finalize s = .error (.io (.statement s.file .readOnly)) s := by
  have hrefused : Action.execute (.deleteUnlisted "images" "tile_id" "map" "tile_id") s =
      .error (.io (.statement s.file .readOnly)) s := by
    simp only [Action.execute, Action.outcome, hc.check_drop, hwritable]
    rfl
  simp only [finalize, hlayout, if_true, bind_apply, hrefused]

/-- Images that have been kept are kept again. -/
theorem finalize_kept (hlayout : t.shape.layout = .normalized) (hc : s.contents.Joined m u)
    (hwritable : s.writable = true) {images : Option ImageIndex} :
    let s' := { s with
      contents := s.contents.setTable { u with rows := s.contents.keptRows u }
      images }
    t.finalize s' = .ok 0 s' := by
  intro s'
  have hc' : s'.contents.Joined m { u with rows := s.contents.keptRows u } := hc.setImages _
  have hkept : s'.contents.keptRows { u with rows := s.contents.keptRows u } =
      s.contents.keptRows u := by
    refine List.filter_eq_self.2 fun row hrow => ?_
    show s'.contents.keepsImage (u.cell row "tile_id") = true
    rw [hc.keepsImage_setImages]
    exact (List.mem_filter.1 hrow).2
  rw [finalize_eq hlayout hc' hwritable, hkept, Nat.sub_self]
  refine congrArg (EStateM.Result.ok 0) ?_
  simp only [s', Nat.lt_irrefl, if_false, setTable_setTable]

end Tileset

end TileAtlas
