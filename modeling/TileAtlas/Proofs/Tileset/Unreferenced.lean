import TileAtlas.Proofs.Container.Visit
import TileAtlas.Proofs.Tileset.Dropped
import TileAtlas.Proofs.Tileset.Holding
import TileAtlas.Proofs.Tileset.Visited
import TileAtlas.Tileset.Summary

/-!
# Images that nothing leads to

Dropping images from a normalized container of any origin cannot be seen by reading its tiles.  An
image that some key leads to is kept, whatever kinds of cells the identifiers are and whatever is
done to them where they are compared, and the others are joined with no key.  The images that are
kept are visited in the order in which they were before.  What is left is left alone when images are
dropped again.
-/

namespace TileAtlas

/-- Images that no entry of the map is joined with make no difference. -/
theorem joinedRows_filter {joined : Affinity} {map images : List Row} {keep : Row → Bool}
    (h : ∀ entry ∈ map, ∀ image ∈ images, (joined.keep (image.getD 0 .null)).eqv
      (joined.keep (entry.getD 3 .null)) = true → keep image = true) :
    joinedRows joined map (images.filter keep) = joinedRows joined map images := by
  refine List.flatMap_congr fun entry hentry => ?_
  have hfound : imagesOf joined (images.filter keep) (entry.getD 3 .null) =
      imagesOf joined images (entry.getD 3 .null) := by
    rw [imagesOf, List.filter_filter, imagesOf]
    refine List.filter_congr fun image himage => ?_
    cases hjoined : (joined.keep (image.getD 0 .null)).eqv (joined.keep (entry.getD 3 .null)) with
    | false => rfl
    | true => rw [h entry hentry image himage hjoined]; rfl
  simp only [hfound]

/-- Images may be left out before they are visited as well as after. -/
theorem TileQuery.filter_imageOrder (q : TileQuery) (map : Option Table) (images : Table)
    (p : Row → Bool) : (q.imageOrder map images).filter p =
      q.imageOrder map { images with rows := images.rows.filter p } := by
  unfold imageOrder
  dsimp only
  split
  · exact images.filter_sorted images.key p
  split
  · exact images.filter_visited _ p
  · exact images.filter_sorted ["tile_data"] p

namespace Container

namespace Joined

variable {c : Container} {m u : Table}

/-- The layout shows the same rows without the images that are dropped, as long as the order of the
images is told of those that are kept by themselves. -/
theorem rowsIn_keptRows (hc : c.Joined m u) (keyOrder : Table → List Row)
    {imageOrder : Table → List Row}
    (hcomm : ∀ p, (imageOrder u).filter p = imageOrder { u with rows := u.rows.filter p })
    (hkeys : ∀ row ∈ keyOrder m, row ∈ m.rows) :
    Layout.normalized.rowsIn keyOrder imageOrder (c.setTable { u with rows := c.keptRows u }) =
      Layout.normalized.rowsIn keyOrder imageOrder c := by
  have hkept := hc.setImages (c.keptRows u)
  rw [Layout.rowsIn_joined hkept.map hkept.images hkept.mapColumns hkept.imageColumns,
    Layout.rowsIn_joined hc.map hc.images hc.mapColumns hc.imageColumns, hc.joinedIds_setImages]
  refine congrArg Except.ok ?_
  have hrows : (imageOrder { u with rows := c.keptRows u }).map
      (fun row => [u.cell row "tile_id", u.cell row "tile_data"]) =
        ((imageOrder u).map fun row => [u.cell row "tile_id", u.cell row "tile_data"]).filter
          fun image => c.keepsImage (image.getD 0 .null) := by
    rw [keptRows, ← hcomm, List.filter_map]
    rfl
  refine (congrArg (joinedRows _ _) hrows).trans (joinedRows_filter ?_)
  intro entry hentry image _ hjoined
  obtain ⟨row, hrow, rfl⟩ := List.mem_map.1 hentry
  refine keepsImage_of_sameId ?_ hjoined
  rw [hc.references_eq]
  exact List.mem_map.2 ⟨row, hkeys row hrow, rfl⟩

theorem rows_keptRows (hc : c.Joined m u) :
    Layout.normalized.rows (c.setTable { u with rows := c.keptRows u }) =
      Layout.normalized.rows c :=
  hc.rowsIn_keptRows Table.rows (fun _ => rfl) fun _ => id

theorem visited_keptRows (hc : c.Joined m u) (q : TileQuery) :
    Layout.normalized.visited q (c.setTable { u with rows := c.keptRows u }) =
      Layout.normalized.visited q c := by
  have hmap : (c.setTable { u with rows := c.keptRows u }).table? "map" = c.table? "map" := by
    rw [(hc.setImages _).map, hc.map]
  rw [Layout.visited, hmap]
  exact hc.rowsIn_keptRows _ (q.filter_imageOrder _ u) fun row hrow =>
    (q.keyOrder_perm .normalized m).mem_iff.1 hrow

end Joined

end Container

namespace Tileset

open Container

variable {t : Tileset} {s s' : Session} {m u : Table}

/-- Whether two sessions read the same tiles. -/
structure ReadsAlike (t : Tileset) (s s' : Session) : Prop where
  scan : ∀ filter memory,
    t.scan filter s'.file s'.contents memory = t.scan filter s.file s.contents memory
  scanHashed : ∀ memory,
    t.scanHashed s'.file s'.contents memory = t.scanHashed s.file s.contents memory
  entry : ∀ key memory,
    t.entry? key s'.file s'.contents memory = t.entry? key s.file s.contents memory
  count : t.count s'.file s'.contents = t.count s.file s.contents
  summary : t.summary s'.file s'.contents = t.summary s.file s.contents
  aggregate : t.aggregate s'.file s'.contents = t.aggregate s.file s.contents

/-- All that is read of tiles is read of the rows that queries visit and of two tables besides. -/
theorem readsAlike_of_rows (hfile : s'.file = s.file)
    (hrows : t.shape.layout.rows s'.contents = t.shape.layout.rows s.contents)
    (hvisited : ∀ q, t.shape.layout.visited q s'.contents = t.shape.layout.visited q s.contents)
    (hkeys : s'.contents.table? t.shape.layout.keyTable =
      s.contents.table? t.shape.layout.keyTable)
    (hmetadata : s'.contents.table? "metadata" = s.contents.table? "metadata") :
    t.ReadsAlike s s' := by
  have haffinity : t.shape.layout.keyAffinity s'.contents =
      t.shape.layout.keyAffinity s.contents := by
    funext column
    rw [Layout.keyAffinity, Container.affinity, hkeys]
    rfl
  have hquery (filter : TileFilter) (hashed : Bool) :
      t.rows filter hashed s'.file s'.contents = t.rows filter hashed s.file s.contents := by
    simp only [Tileset.rows, hfile, hvisited, haffinity]
  have hscan (filter : TileFilter) (memory : Nat) :
      t.scan filter s'.file s'.contents memory = t.scan filter s.file s.contents memory := by
    rw [Tileset.scan, hquery, hfile, Tileset.scan]
  refine ⟨hscan, fun memory => ?_, fun key memory => ?_, ?_, ?_, ?_⟩
  · rw [Tileset.scanHashed, hquery, hfile, Tileset.scanHashed]
  · simp only [Tileset.entry?, hfile, hvisited, haffinity]
  · simp only [Tileset.count, hfile, hrows]
  · simp only [Tileset.summary, metadataValue?, metadataRows, Container.visit, Container.list,
      Container.affinity, hfile, hrows, hmetadata]
  · simp only [Tileset.aggregate, hscan]

/-- Dropping images from a normalized container of any origin leaves everything that is read of its
tiles as it was, and everything but images.  The images that are kept are told by their identifiers:
of those that have one, the images that some key leads to.  The number of the others is given, and
to drop images once more changes nothing.  A container that cannot be written is left alone. -/
theorem finalize_unseen (hnamed : s.contents.Named)
    (hdetected : detect s.file s.contents = .ok t.shape)
    (hlayout : t.shape.layout = .normalized) :
    (s.writable = true → ∃ n s', t.finalize s = .ok n s' ∧ t.ReadsAlike s s' ∧
      n + s'.contents.images.length = s.contents.images.length ∧
      s'.contents.images = s.contents.images.filter (fun image => s.contents.keepsImage image.1) ∧
      (∀ image ∈ s'.contents.images, image.1 ≠ .null →
        ∃ reference ∈ s.contents.references, s.contents.sameId image.1 reference = true) ∧
      (∀ name, name ≠ "images" → s'.contents.table? name = s.contents.table? name) ∧
      t.finalize s' = .ok 0 s') ∧
    (s.writable = false → t.finalize s = .error (.io (.statement s.file .readOnly)) s) := by
  obtain ⟨m, u, hc⟩ := Joined.of_detect hnamed hdetected hlayout
  refine ⟨fun hwritable => ?_, finalize_readOnly hlayout hc⟩
  have hother (name : String) (hname : name ≠ "images") :
      (s.contents.setTable { u with rows := s.contents.keptRows u }).table? name =
        s.contents.table? name :=
    table?_setTable_of_ne (by simpa [name_of_table? hc.images] using hname)
  have himages := hc.images_keptRows
  have hkeyTable : t.shape.layout.keyTable ≠ "images" := by
    cases t.shape.layout <;> decide
  refine ⟨_, _, finalize_eq hlayout hc hwritable, readsAlike_of_rows rfl ?_ (fun q => ?_)
    (hother _ hkeyTable) (hother "metadata" (by decide)), hc.dropped_add_images, himages, ?_, hother,
    finalize_kept hlayout hc hwritable⟩
  · rw [hlayout]
    exact hc.rows_keptRows
  · rw [hlayout]
    exact hc.visited_keptRows q
  · intro image himage hid
    rw [himages] at himage
    exact (keepsImage_iff hid).1 (List.mem_filter.1 himage).2

/-- A repeated key, identifiers that differ in case, a missing image, integers that are joined with a
double and, as the column of the map makes numbers of texts, with a text, and images of no identifier
and of one that nothing leads to. -/
theorem finalize_unseen_foreign :
    let key (z x y : Int) (id : Cell) : Row := [.int z, .int x, .int y, id]
    let s : Session := .start "a" true ⟨[⟨"metadata", ["name", "value"].map .free, [], []⟩,
      ⟨"map", keyColumns.map .free ++ [⟨"tile_id", .integer, false, .null⟩], [],
        [key 0 0 0 (.text "ab"), key 0 0 0 (.int 1), key 1 0 0 .null, key 1 1 0 (.text "gone"),
          key 1 1 1 (.int 5)]⟩,
      ⟨"images", ["tile_id", "tile_data"].map .free, [], [[.text "AB", .blob ⟨#[1]⟩],
        [.text "ab", .blob ⟨#[2]⟩], [.null, .blob ⟨#[3]⟩], [.real (.ofInt 1), .text "x"],
        [.int 7, .int 2], [.text "5", .blob ⟨#[4]⟩]]⟩], []⟩
    let kept : List (Cell × Cell) := [(.text "ab", .blob ⟨#[2]⟩), (.null, .blob ⟨#[3]⟩),
      (.real (.ofInt 1), .text "x"), (.text "5", .blob ⟨#[4]⟩)]
    let t : Tileset := ⟨⟨.normalized, false⟩, 1⟩
    s.contents.Named ∧ detect s.file s.contents = .ok t.shape ∧ t.shape.layout = .normalized ∧
      s.writable = true ∧ ∃ s', t.finalize s = .ok 2 s' ∧ t.ReadsAlike s s' ∧
        s'.contents.images = kept ∧ t.finalize s' = .ok 0 s' := by
  intro key s kept t
  have hnamed : s.contents.Named := by
    unfold Container.Named
    decide +kernel
  have hdetected : detect s.file s.contents = .ok t.shape := by decide +kernel
  obtain ⟨n, s', hrun, hreads, hcount, himages, -, -, hagain⟩ :=
    (finalize_unseen hnamed hdetected rfl).1 rfl
  have hkept : s.contents.images.filter (fun image => s.contents.keepsImage image.1) = kept := by
    decide +kernel
  have hn : n = 2 := by
    rw [himages, hkept] at hcount
    exact Nat.add_right_cancel hcount
  subst hn
  exact ⟨hnamed, hdetected, rfl, rfl, s', hrun, hreads, himages.trans hkept, hagain⟩

/-- Images are not dropped from a container that cannot be written. -/
theorem not_finalize_of_readOnly :
    let s : Session := .start "a" false (Layout.normalized.container .empty)
    let t : Tileset := ⟨⟨.normalized, true⟩, 1⟩
    s.contents.Named ∧ detect s.file s.contents = .ok t.shape ∧ t.shape.layout = .normalized ∧
      FailsWith t.finalize s (.io (.statement "a" .readOnly)) := by
  unfold Container.Named
  decide +kernel

end Tileset

end TileAtlas
