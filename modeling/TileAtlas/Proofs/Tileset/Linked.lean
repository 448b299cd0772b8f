import TileAtlas.Proofs.Container.Attempt
import TileAtlas.Proofs.Container.Catalogue
import TileAtlas.Proofs.Metadata.Lookup
import TileAtlas.Proofs.Tileset.Dropped
import TileAtlas.Proofs.Tileset.Reached
import TileAtlas.Proofs.Tileset.Scanned

/-!
# Images under their hashes

In a normalized container that other tools may have written, every image is stored under the hash of
its payload in letters of either case, and every key leads to one of these images or to none.  Store
operations keep this so, whether they succeed or fail, and the index of images, once there is one, is
that of the images that are stored.  This asks of the columns for identifiers that they keep texts
as they are: one that makes numbers of texts makes them of some hashes.
-/

namespace TileAtlas

/-- A column that keeps texts makes no numbers. -/
theorem Table.KeepsTexts.affinity_ne_integer {t : Table} {column : String}
    (h : t.KeepsTexts column) : t.affinity column ≠ .integer := by
  rw [Table.affinity]
  cases hfind : t.columns.find? (·.name = column) with
  | none => exact nofun
  | some own =>
      exact h own (List.mem_of_find?_eq_some hfind) (by simpa using List.find?_some hfind)

namespace Container

/-- The images with an identifier.  Nothing leads to the others. -/
def namedImages (c : Container) : List (Cell × Cell) := c.images.filter (!·.1.isNull)

/-- What an index of the images says: every digest, with the identifier as it is stored. -/
def imageEntries (c : Container) : ImageIndex :=
  c.namedImages.map fun image => (Text.upper image.1.display, image.1)

/-- Whether images are stored under different hashes, each under that of its own payload, and keys
lead to nothing else.  What is stored without a payload has no hash. -/
structure Linked (c : Container) : Prop where
  hashed : ∀ image ∈ c.images, image = (.null, .null) ∨
    ∃ id data, image = (.text id, .blob data) ∧ Text.upper id = payloadHash data
  distinct : c.namedImages.Pairwise fun a b => Text.upper a.1.display ≠ Text.upper b.1.display
  found : ∀ id ∈ c.references, id = .null ∨ ∃ image ∈ c.namedImages, image.1 = id

/-- The two tables of a normalized container.  Identifiers are texts, and the columns for them keep
them as they are. -/
structure Normalized (c : Container) (m u : Table) : Prop where
  map : c.table? "map" = some m
  images : c.table? "images" = some u
  mapColumns : m.Offers (keyColumns ++ ["tile_id"])
  imageColumns : u.Offers ["tile_data", "tile_id"]
  mapKeeps : m.KeepsTexts "tile_id"
  imagesKeep : u.KeepsTexts "tile_id"

variable {c : Container} {m u : Table} {rows : List Row}

theorem mem_namedImages {image : Cell × Cell} :
    image ∈ c.namedImages ↔ image ∈ c.images ∧ image.1.isNull = false := by
  rw [namedImages, List.mem_filter, Bool.not_eq_true']

theorem namedImages_congr {c' : Container} (h : c'.images = c.images) :
    c'.namedImages = c.namedImages := by
  rw [namedImages, namedImages, h]

namespace Normalized

theorem joined (hc : c.Normalized m u) : c.Joined m u :=
  ⟨hc.map, hc.images, hc.mapColumns, hc.imageColumns⟩

theorem images_eq (hc : c.Normalized m u) :
    c.images = u.rows.map fun row => (u.cell row "tile_id", u.cell row "tile_data") :=
  hc.joined.images_eq

theorem references_eq (hc : c.Normalized m u) :
    c.references = m.rows.map (m.cell · "tile_id") :=
  hc.joined.references_eq

theorem setMap (hc : c.Normalized m u) (rows : List Row) :
    (c.setTable { m with rows }).Normalized { m with rows } u := by
  refine ⟨table?_setTable hc.map rows, ?_, hc.mapColumns, hc.imageColumns, hc.mapKeeps,
    hc.imagesKeep⟩
  rw [table?_setTable_of_ne (by simp [name_of_table? hc.map]), hc.images]

theorem setImages (hc : c.Normalized m u) (rows : List Row) :
    (c.setTable { u with rows }).Normalized m { u with rows } :=
  ⟨(hc.joined.setImages rows).map, (hc.joined.setImages rows).images, hc.mapColumns,
    hc.imageColumns, hc.mapKeeps, hc.imagesKeep⟩

/-- Identifiers are compared as they are. -/
theorem joinedIds_eq (hc : c.Normalized m u) : Layout.joinedIds c = .any := by
  rw [hc.joined.joinedIds_eq]
  simp [Affinity.joined, hc.imagesKeep.affinity_ne_integer, hc.mapKeeps.affinity_ne_integer]

theorem keepsImage_text (hc : c.Normalized m u) (id : String) :
    c.keepsImage (.text id) = true ↔ .text id ∈ c.references := by
  have hsame (reference : Cell) : c.sameId (.text id) reference = decide (reference = .text id) := by
    rw [sameId, hc.joinedIds_eq, Affinity.keep_any, Affinity.keep_any, Cell.eqv_text_left]
  simp [Container.keepsImage_iff, hsame]

end Normalized

namespace Linked

/-- An image with an identifier is stored under the hash of its payload. -/
theorem of_named (hlinked : c.Linked) {image : Cell × Cell} (himage : image ∈ c.namedImages) :
    ∃ id data, image = (.text id, .blob data) ∧ Text.upper id = payloadHash data := by
  obtain ⟨himage, hnamed⟩ := mem_namedImages.1 himage
  rcases hlinked.hashed image himage with rfl | hhash
  · cases hnamed
  · exact hhash

/-- Rows of the map may be dropped, and rows for images that are stored may be added. -/
theorem setMap (hc : c.Normalized m u) (hlinked : c.Linked)
    (hrows : ∀ row ∈ rows, m.cell row "tile_id" = .null ∨
      ∃ image ∈ c.namedImages, image.1 = m.cell row "tile_id") :
    (c.setTable { m with rows }).Linked := by
  have himages : (c.setTable { m with rows }).images = c.images := by
    rw [(hc.setMap rows).images_eq, hc.images_eq]
  have hnamed := namedImages_congr himages
  refine ⟨himages ▸ hlinked.hashed, hnamed ▸ hlinked.distinct, fun id hid => ?_⟩
  rw [(hc.setMap rows).references_eq] at hid
  obtain ⟨row, hrow, rfl⟩ := List.mem_map.1 hid
  rw [hnamed]
  exact hrows row hrow

/-- An image whose hash is new may be added. -/
theorem addImage (hc : c.Normalized m u) (hlinked : c.Linked) {row : Row} {data : Bytes}
    (hrow : u.cell row "tile_id" = .text (payloadHash data))
    (hdata : u.cell row "tile_data" = .blob data)
    (hnew : ∀ image ∈ c.namedImages, Text.upper image.1.display ≠ payloadHash data) :
    (c.setTable { u with rows := u.rows ++ [row] }).namedImages =
        c.namedImages ++ [(.text (payloadHash data), .blob data)] ∧
      (c.setTable { u with rows := u.rows ++ [row] }).Linked := by
  have himages : (c.setTable { u with rows := u.rows ++ [row] }).images =
      c.images ++ [(.text (payloadHash data), .blob data)] := by
    rw [(hc.setImages _).images_eq, hc.images_eq, List.map_append, ← hrow, ← hdata]
    rfl
  have hnamed : (c.setTable { u with rows := u.rows ++ [row] }).namedImages =
      c.namedImages ++ [(.text (payloadHash data), .blob data)] := by
    rw [namedImages, himages, List.filter_append]
    rfl
  have hreferences : (c.setTable { u with rows := u.rows ++ [row] }).references =
      c.references := by
    rw [(hc.setImages _).references_eq, hc.references_eq]
  refine ⟨hnamed, ?_, ?_, ?_⟩
  · rw [himages]
    intro image himage
    rcases List.mem_append.1 himage with himage | himage
    · exact hlinked.hashed image himage
    · obtain rfl := List.mem_singleton.1 himage
      exact .inr ⟨_, data, rfl, upper_payloadHash data⟩
  · rw [hnamed]
    refine List.pairwise_append.2 ⟨hlinked.distinct, List.pairwise_singleton _ _, ?_⟩
    intro image himage added hadded
    obtain rfl := List.mem_singleton.1 hadded
    rw [Cell.display, upper_payloadHash]
    exact hnew image himage
  · rw [hnamed, hreferences]
    intro id hid
    refine (hlinked.found id hid).imp_right ?_
    rintro ⟨image, himage, heq⟩
    exact ⟨image, List.mem_append_left _ himage, heq⟩

/-- An image is kept if some key leads to it. -/
theorem keepsImage_iff (hc : c.Normalized m u) (hlinked : c.Linked) {image : Cell × Cell}
    (himage : image ∈ c.namedImages) : c.keepsImage image.1 = true ↔ image.1 ∈ c.references := by
  obtain ⟨id, data, rfl, -⟩ := hlinked.of_named himage
  exact hc.keepsImage_text id

/-- Images may be dropped to which no key leads. -/
theorem dropImages (hc : c.Normalized m u) (hlinked : c.Linked) :
    (c.setTable { u with rows := c.keptRows u }).images.Sublist c.images ∧
      (c.setTable { u with rows := c.keptRows u }).Linked ∧
      ∀ image ∈ (c.setTable { u with rows := c.keptRows u }).namedImages,
        image.1 ∈ (c.setTable { u with rows := c.keptRows u }).references := by
  have himages := hc.joined.images_keptRows
  have hreferences : (c.setTable { u with rows := c.keptRows u }).references =
      c.references := by
    rw [(hc.setImages _).references_eq, hc.references_eq]
  have hsublist : (c.setTable { u with rows := c.keptRows u }).images.Sublist c.images :=
    himages ▸ List.filter_sublist
  have hnamed (image : Cell × Cell) :
      image ∈ (c.setTable { u with rows := c.keptRows u }).namedImages ↔
        image ∈ c.namedImages ∧ image.1 ∈ c.references := by
    rw [mem_namedImages, himages, List.mem_filter, and_right_comm, ← mem_namedImages]
    exact and_congr_right fun himage => keepsImage_iff hc hlinked himage
  refine ⟨hsublist, ⟨fun image himage => hlinked.hashed image (hsublist.subset himage),
    hlinked.distinct.sublist (hsublist.filter _), fun id hid => ?_⟩, fun image himage => ?_⟩
  · rw [hreferences] at hid
    refine (hlinked.found id hid).imp_right ?_
    rintro ⟨image, himage, rfl⟩
    exact ⟨image, (hnamed image).2 ⟨himage, hid⟩, rfl⟩
  · rw [hreferences]
    exact ((hnamed image).1 himage).2

/-- Tables besides the two do not matter. -/
theorem setOther (hc : c.Normalized m u) (hlinked : c.Linked) {other : Table}
    (hother : other.name ≠ "map" ∧ other.name ≠ "images") :
    (c.setTable other).Normalized m u ∧ (c.setTable other).Linked ∧
      (c.setTable other).images = c.images := by
  have hsame : (c.setTable other).Normalized m u :=
    ⟨by rw [table?_setTable_of_ne hother.1.symm, hc.map],
      by rw [table?_setTable_of_ne hother.2.symm, hc.images],
      hc.mapColumns, hc.imageColumns, hc.mapKeeps, hc.imagesKeep⟩
  have himages : (c.setTable other).images = c.images := by rw [hsame.images_eq, hc.images_eq]
  have hreferences : (c.setTable other).references = c.references := by
    rw [hsame.references_eq, hc.references_eq]
  have hnamed := namedImages_congr himages
  exact ⟨hsame, ⟨himages ▸ hlinked.hashed, hnamed ▸ hlinked.distinct,
    hnamed ▸ hreferences ▸ hlinked.found⟩, himages⟩

end Linked

end Container

/-! ### The index -/

namespace ImageIndex

theorem set_new {index : ImageIndex} {digest : String} (id : Cell)
    (hnew : ∀ entry ∈ index, entry.1 ≠ digest) : index.set digest id = index ++ [(digest, id)] := by
  induction index with
  | nil => rfl
  | cons entry rest ih =>
      rw [set, if_neg (hnew entry (List.mem_cons_self ..)),
        ih fun other hother => hnew other (List.mem_cons_of_mem _ hother), List.cons_append]

/-- Identifiers that differ not only in case are all in their index. -/
theorem ofIds_of_pairwise {ids : List Cell}
    (hids : ids.Pairwise fun a b => Text.upper a.display ≠ Text.upper b.display) :
    ofIds ids = ids.map fun id => (Text.upper id.display, id) := by
  have hfold (done : List Cell)
      (hdone : ∀ a ∈ done, ∀ b ∈ ids, Text.upper a.display ≠ Text.upper b.display) :
      ids.foldl (fun index id => set (Text.upper id.display) id index)
        (done.map fun id => (Text.upper id.display, id)) =
          (done ++ ids).map fun id => (Text.upper id.display, id) := by
    induction ids generalizing done with
    | nil => simp
    | cons id rest ih =>
        obtain ⟨hfirst, hrest⟩ := List.pairwise_cons.1 hids
        have hset : set (Text.upper id.display) id
            (done.map fun id => (Text.upper id.display, id)) =
              (done ++ [id]).map fun id => (Text.upper id.display, id) := by
          rw [set_new, List.map_append, List.map_singleton]
          intro entry hentry
          obtain ⟨other, hother, rfl⟩ := List.mem_map.1 hentry
          exact hdone other hother id (List.mem_cons_self ..)
        rw [List.foldl_cons, hset, ih hrest, List.append_assoc, List.singleton_append]
        intro a ha b hb
        rcases List.mem_append.1 ha with ha | ha
        · exact hdone a ha b (List.mem_cons_of_mem _ hb)
        · obtain rfl := List.mem_singleton.1 ha
          exact hfirst b hb
  exact hfold [] (by simp)

variable {c : Container} {index : ImageIndex} {data : Bytes}

theorem mem_of_find? (hindex : index.Perm c.imageEntries) {id : Cell}
    (hlinked : c.Linked) (hfind : index.find? (payloadHash data) = some id) :
    ∃ image ∈ c.namedImages, image.1 = id := by
  have hkeys : c.imageEntries.Pairwise fun a b => a.1 ≠ b.1 := List.pairwise_map.2 hlinked.distinct
  have hmem := (lookup_eq_some_iff ((hindex.pairwise_iff fun hab => hab.symm).2 hkeys)).1 hfind
  obtain ⟨image, himage, heq⟩ := List.mem_map.1 (hindex.mem_iff.1 hmem)
  exact ⟨image, himage, congrArg Prod.snd heq⟩

theorem new_of_find? (hindex : index.Perm c.imageEntries) (hlinked : c.Linked)
    (hfind : index.find? (payloadHash data) = none) :
    ∀ image ∈ c.namedImages, Text.upper image.1.display ≠ payloadHash data := by
  intro image himage heq
  have hkeys : c.imageEntries.Pairwise fun a b => a.1 ≠ b.1 := List.pairwise_map.2 hlinked.distinct
  have hmem : (payloadHash data, image.1) ∈ index :=
    hindex.mem_iff.2 (List.mem_map.2 ⟨image, himage, by rw [heq]⟩)
  have hlookup := (lookup_eq_some_iff ((hindex.pairwise_iff fun hab => hab.symm).2 hkeys)).2 hmem
  rw [find?, upper_payloadHash, hlookup] at hfind
  cases hfind

end ImageIndex

/-! ### Reading -/

theorem Scan.mem_reading {α β : Type} {read : α → Except Failure (Option β)} {rows : List α} {b : β}
    (h : b ∈ (reading read rows).items) : ∃ a ∈ rows, read a = .ok (some b) := by
  induction rows with
  | nil => cases h
  | cons a rest ih =>
      rw [reading] at h
      cases hread : read a with
      | error failure => simp [hread, fail] at h
      | ok found =>
          cases found with
          | none =>
              obtain ⟨a', ha', hb⟩ := ih (by simpa [hread] using h)
              exact ⟨a', List.mem_cons_of_mem _ ha', hb⟩
          | some b' =>
              rcases List.mem_cons.1 (by simpa [hread] using h : b ∈ b' :: _) with rfl | h
              · exact ⟨a, List.mem_cons_self .., hread⟩
              · obtain ⟨a', ha', hb⟩ := ih h
                exact ⟨a', List.mem_cons_of_mem _ ha', hb⟩

namespace Container

variable {c : Container} {m u : Table}

theorem rows_normalized (hc : c.Normalized m u) :
    Layout.normalized.rows c = .ok (joinedRows .any
      (m.rows.map fun row => (keyColumns ++ ["tile_id"]).map (m.cell row))
      (c.images.map fun image => [image.1, image.2])) := by
  rw [Layout.rows, Layout.rowsIn_joined hc.map hc.images hc.mapColumns hc.imageColumns,
    hc.joinedIds_eq, hc.images_eq, List.map_map]
  rfl

/-- The images that a key is joined with all have the identifier that the key leads to. -/
theorem Linked.mem_imagesOf (hlinked : c.Linked) {id : String} {cells : Row} :
    cells ∈ imagesOf .any (c.images.map fun image => [image.1, image.2]) (.text id) ↔
      ∃ image ∈ c.images, image.1 = .text id ∧ cells = [image.1, image.2] := by
  simp only [imagesOf, List.mem_filter, List.mem_map, Affinity.keep_any]
  constructor
  · rintro ⟨⟨image, himage, rfl⟩, heqv⟩
    refine ⟨image, himage, ?_, rfl⟩
    rcases hlinked.hashed image himage with rfl | ⟨other, data, rfl, -⟩
    · cases heqv
    · have heqv : (Cell.text other).eqv (.text id) = true := heqv
      rw [Cell.eqv_text, decide_eq_true_iff] at heqv
      rw [heqv]
  · rintro ⟨image, himage, hid, rfl⟩
    refine ⟨⟨image, himage, rfl⟩, ?_⟩
    show image.1.eqv (.text id) = true
    rw [hid, Cell.eqv_text, decide_eq_true_iff]

/-- Every row that a linked container shows carries the hash of its payload. -/
theorem Linked.hashAgrees (hc : c.Normalized m u) (hlinked : c.Linked) {rows : List TileRow}
    (hrows : Layout.normalized.rows c = .ok rows) {row : TileRow} (hrow : row ∈ rows)
    {memory : Nat} {data : Option Bytes} (hdata : payload memory row.data = .ok data)
    (key : TileKey) : Tileset.hashAgrees ⟨key, data⟩ row.stored = true := by
  obtain rfl := Except.ok.inj ((rows_normalized hc).symm.trans hrows)
  obtain ⟨entry, hentry, hrow⟩ := List.mem_flatMap.1 hrow
  obtain ⟨source, hsource, rfl⟩ := List.mem_map.1 hentry
  have hid : ((keyColumns ++ ["tile_id"]).map (m.cell source)).getD 3 .null =
      m.cell source "tile_id" := rfl
  have hfound := hlinked.found (m.cell source "tile_id") (by
    rw [hc.references_eq]
    exact List.mem_map_of_mem hsource)
  simp only [hid] at hrow
  generalize m.cell source "tile_id" = id at hrow hfound
  rcases hfound with rfl | ⟨image, himage, rfl⟩
  · have hnone : imagesOf .any (c.images.map fun image => [image.1, image.2]) .null = [] := by
      simp [imagesOf]
    rw [hnone] at hrow
    obtain rfl := List.mem_singleton.1 hrow
    obtain rfl := Except.ok.inj hdata
    rfl
  · obtain ⟨id, bytes, rfl, -⟩ := hlinked.of_named himage
    have hmem : [Cell.text id, .blob bytes] ∈
        imagesOf .any (c.images.map fun image => [image.1, image.2]) (.text id) :=
      hlinked.mem_imagesOf.2 ⟨_, (mem_namedImages.1 himage).1, rfl, rfl⟩
    cases himages : imagesOf .any (c.images.map fun image => [image.1, image.2]) (.text id) with
    | nil => simp [himages] at hmem
    | cons first rest =>
        dsimp only at hrow
        rw [himages] at hrow
        obtain ⟨cells, hcells, rfl⟩ := List.mem_map.1 hrow
        obtain ⟨other, hother, hotherId, rfl⟩ := hlinked.mem_imagesOf.1 (himages ▸ hcells)
        rcases hlinked.hashed other hother with rfl | ⟨id', bytes', rfl, hhash'⟩
        · cases hotherId
        · obtain rfl := Cell.text.inj hotherId
          obtain rfl := Except.ok.inj hdata
          simp [Tileset.hashAgrees, Cell.isNull, Cell.display, tileHash, hhash']

end Container

/-! ### Store operations -/

/-- What store operations keep of a normalized container: images are linked, and the index, once it
is there, is that of the images. -/
structure Tileset.Linked (t : Tileset) (writable : Bool) (s : Session) : Prop where
  layout : t.shape.layout = .normalized
  normalized : ∃ m u, s.contents.Normalized m u
  linked : s.contents.Linked
  index : ∀ index ∈ s.images, index.Perm s.contents.imageEntries
  writable_eq : s.writable = writable

namespace Tileset

open Container

variable {t : Tileset} {w : Bool} {s : Session} {m u : Table}

/-- A change of the contents that leaves the images alone leaves the index alone. -/
theorem Linked.change (hs : t.Linked w s) {contents : Container}
    (hc : ∃ m u, contents.Normalized m u) (hlinked : contents.Linked)
    (himages : contents.images = s.contents.images) : t.Linked w { s with contents } := by
  refine ⟨hs.layout, hc, hlinked, fun index hindex => ?_, hs.writable_eq⟩
  rw [imageEntries, namedImages_congr himages]
  exact hs.index index hindex

theorem Linked.setMap (hs : t.Linked w s) (hc : s.contents.Normalized m u) {rows : List Row}
    (hrows : ∀ row ∈ rows, m.cell row "tile_id" = .null ∨
      ∃ image ∈ s.contents.namedImages, image.1 = m.cell row "tile_id") :
    t.Linked w { s with contents := s.contents.setTable { m with rows } } :=
  hs.change ⟨_, _, hc.setMap rows⟩ (hs.linked.setMap hc hrows)
    (by rw [(hc.setMap rows).images_eq, hc.images_eq])

/-- The identifiers are read in some order. -/
theorem imageIds_linked {c : Container} (hc : c.Normalized m u) (file : String) :
    ∃ ids, imageIds file c = .ok ids ∧ ids.Perm (c.namedImages.map (·.1)) := by
  have hcolumn : u.Offers ["tile_id"] := fun column hcolumn =>
    hc.imageColumns column (List.mem_cons_of_mem _ hcolumn)
  refine ⟨((u.visited ⟨[], ["tile_id"], none, ["tile_id"]⟩).map (u.cell · "tile_id")).filter
    (!·.isNull), ?_, ?_⟩
  · simp only [imageIds, Container.visit, list_eq hc.images hcolumn, onFile, bind, Except.bind,
      pure, Except.pure, List.map_map]
    rfl
  · have hnamed : c.namedImages.map (·.1) =
        (u.rows.map fun row => u.cell row "tile_id").filter (!·.isNull) := by
      rw [namedImages, hc.images_eq, List.filter_map, List.map_map, List.filter_map]
      rfl
    rw [hnamed]
    exact ((u.visited_perm _).map _).filter _

theorem imageIndex_ends (hs : t.Linked w s) :
    Ends t.imageIndex s (fun index s' => t.Linked w s' ∧ s'.images = some index)
      (t.Linked w) := by
  cases himages : s.images with
  | some index => exact (Yields.intro (imageIndex_of_some himages) ⟨hs, himages⟩).ends
  | none =>
      obtain ⟨m, u, hc⟩ := hs.normalized
      obtain ⟨ids, hids, hperm⟩ := imageIds_linked hc s.file
      have hdistinct : ids.Pairwise fun a b => Text.upper a.display ≠ Text.upper b.display :=
        (hperm.pairwise_iff fun hab => hab.symm).2 (List.pairwise_map.2 hs.linked.distinct)
      have hindex : (ImageIndex.ofIds ids).Perm s.contents.imageEntries := by
        have hentries := hperm.map fun id => (Text.upper id.display, id)
        rwa [List.map_map, ← ImageIndex.ofIds_of_pairwise hdistinct] at hentries
      have hquery : Action.query imageIds s = .ok ids s := Action.query_ok hids
      cases hcheck : checkBatch t.batch with
      | error failure =>
          have herror : t.imageIndex s = .error failure s := by
            simp only [imageIndex, bind_apply, get_apply, himages, hquery,
              Action.ofExcept_error hcheck]
          exact .of_error herror hs
      | ok _ =>
          refine Yields.ends ⟨ImageIndex.ofIds ids, { s with images := some (.ofIds ids) }, ?_,
            ⟨hs.layout, hs.normalized, hs.linked, ?_, hs.writable_eq⟩, rfl⟩
          · simp only [imageIndex, bind_apply, get_apply, himages, hquery,
              Action.ofExcept_ok hcheck, modify_apply, pure_apply]
          · intro index hsome
            obtain rfl := Option.some.inj hsome
            exact hindex

/-- An image whose hash is new is stored under its hash, or else nothing happens. -/
theorem insertImage_ends (hs : t.Linked w s) {data : Bytes}
    (hnew : ∀ image ∈ s.contents.namedImages, Text.upper image.1.display ≠ payloadHash data) :
    Ends (Action.execute (.insert "images"
        [("tile_id", .text (payloadHash data)), ("tile_data", .blob data)])) s
      (fun _ s' => ∃ contents, s' = { s with contents } ∧ (∃ m u, contents.Normalized m u) ∧
        contents.Linked ∧ contents.namedImages =
          s.contents.namedImages ++ [(.text (payloadHash data), .blob data)])
      (t.Linked w) := by
  obtain ⟨m, u, hc⟩ := hs.normalized
  let given : List (String × Cell) :=
    [("tile_id", .text (payloadHash data)), ("tile_data", .blob data)]
  have hid : u.cell (u.rowOf given) "tile_id" = .text (payloadHash data) :=
    hc.imagesKeep.cell_rowOf (hc.imageColumns "tile_id" (by simp)) rfl (.inr ⟨_, rfl⟩)
  have hdata : u.cell (u.rowOf given) "tile_data" = .blob data := by
    obtain ⟨column, -, -, -, hcell⟩ :=
      Table.cell_rowOf (hc.imageColumns "tile_data" (by simp)) given
    rw [hcell]
    cases column.affinity <;> rfl
  obtain ⟨hadded, hlinked⟩ := hs.linked.addImage hc hid hdata hnew
  refine (Action.execute_ends _ s).mono (fun touched s' hs' => ?_) fun s' heq => heq ▸ hs
  obtain ⟨contents, hrun, rfl⟩ := hs'
  obtain ⟨u', hu', rfl⟩ := run_insert hrun
  obtain rfl := Option.some.inj (hc.images.symm.trans hu')
  exact ⟨_, rfl, ⟨_, _, hc.setImages _⟩, hlinked, hadded⟩

/-- The identifier for a payload is that of a stored image. -/
theorem imageFor_ends (hs : t.Linked w s) (data : Bytes) :
    Ends (t.imageFor data) s
      (fun id s' => t.Linked w s' ∧ ∃ image ∈ s'.contents.namedImages, image.1 = id)
      (t.Linked w) := by
  have hlookup : Ends (t.lookupImage (payloadHash data)) s (fun found s' => t.Linked w s' ∧
      ∃ index, s'.images = some index ∧ found = index.find? (payloadHash data)) (t.Linked w) :=
    (imageIndex_ends hs).bind fun index s' ⟨hs', himages⟩ => .pure ⟨hs', index, himages, rfl⟩
  refine hlookup.bind fun found s₁ ⟨hs₁, index, himages, hfound⟩ => ?_
  have hperm := hs₁.index index himages
  cases hfind : index.find? (payloadHash data) with
  | some id =>
      rw [hfound, hfind]
      exact .pure ⟨hs₁, ImageIndex.mem_of_find? hperm hs₁.linked hfind⟩
  | none =>
      rw [hfound, hfind]
      have hnew := ImageIndex.new_of_find? hperm hs₁.linked hfind
      refine (insertImage_ends hs₁ hnew).bind ?_
      rintro _ _ ⟨contents, rfl, hc, hlinked, hadded⟩
      have hindex : Yields t.imageIndex { s₁ with contents }
          fun index' s' => index' = index ∧ s' = { s₁ with contents } :=
        .intro (imageIndex_of_some himages) ⟨rfl, rfl⟩
      refine hindex.ends.bind fun index' s₂ hs₂ => ?_
      obtain ⟨rfl, rfl⟩ := hs₂
      have hentries : (index'.set (payloadHash data) (.text (payloadHash data))).Perm
          contents.imageEntries := by
        rw [ImageIndex.set_new, imageEntries, hadded, List.map_append]
        · refine hperm.append (.of_eq ?_)
          simp [Cell.display]
        · intro entry hentry
          obtain ⟨image, himage, rfl⟩ := List.mem_map.1 (hperm.mem_iff.1 hentry)
          exact hnew image himage
      refine Yields.ends (.intro (a := Cell.text (payloadHash data)) rfl
        ⟨⟨hs₁.layout, hc, hlinked, fun index' hsome => ?_, hs₁.writable_eq⟩,
          (.text (payloadHash data), .blob data), ?_, rfl⟩)
      · obtain rfl := Option.some.inj hsome
        exact hentries
      · exact hadded ▸ List.mem_append_right _ (List.mem_singleton_self _)

theorem delete_linked (hs : t.Linked w s) (key : TileKey) :
    Ends (t.delete key) s (fun _ => t.Linked w) (t.Linked w) := by
  obtain ⟨m, u, hc⟩ := hs.normalized
  have hdelete : Ends (Action.execute (.delete "map" (keyConditions key))) s (fun _ => t.Linked w)
      (t.Linked w) := by
    refine (Action.execute_ends _ s).mono (fun touched s' hs' => ?_) fun s' heq => heq ▸ hs
    obtain ⟨contents, hrun, rfl⟩ := hs'
    obtain ⟨m', hm', rfl⟩ := run_delete hrun
    obtain rfl := Option.some.inj (hc.map.symm.trans hm')
    refine hs.setMap hc fun row hrow => hs.linked.found _ ?_
    rw [hc.references_eq]
    exact List.mem_map_of_mem (List.mem_filter.1 hrow).1
  simp only [delete, hs.layout]
  exact hdelete.bind fun _ _ hs' => .pure hs'

/-- A row is added to the map if it leads to no image or to one that is stored. -/
theorem insertKey_linked (hs : t.Linked w s) (key : TileKey) {id : Cell}
    (hid : id = .null ∨ ∃ image ∈ s.contents.namedImages, image.1 = id) :
    Ends (Action.execute (.insert "map" (keyConditions key ++ [("tile_id", id)]))) s
      (fun _ => t.Linked w) (t.Linked w) := by
  obtain ⟨m, u, hc⟩ := hs.normalized
  have htext : id = .null ∨ ∃ text, id = .text text := by
    refine hid.imp_right ?_
    rintro ⟨image, himage, rfl⟩
    obtain ⟨text, -, rfl, -⟩ := hs.linked.of_named himage
    exact ⟨text, rfl⟩
  have hcell : m.cell (m.rowOf (keyConditions key ++ [("tile_id", id)])) "tile_id" = id :=
    hc.mapKeeps.cell_rowOf (hc.mapColumns "tile_id" (by simp)) rfl htext
  refine (Action.execute_ends _ s).mono (fun touched s' hs' => ?_) fun s' heq => heq ▸ hs
  obtain ⟨contents, hrun, rfl⟩ := hs'
  obtain ⟨m', hm', rfl⟩ := run_insert hrun
  obtain rfl := Option.some.inj (hc.map.symm.trans hm')
  refine hs.setMap hc fun row hrow => ?_
  rcases List.mem_append.1 hrow with hrow | hrow
  · refine hs.linked.found _ ?_
    rw [hc.references_eq]
    exact List.mem_map_of_mem hrow
  · obtain rfl := List.mem_singleton.1 hrow
    rwa [hcell]

theorem put_linked (hs : t.Linked w s) (key : TileKey) (data : Option Bytes) :
    Ends (t.put key data) s (fun _ => t.Linked w) (t.Linked w) := by
  refine (delete_linked hs key).bind fun _ s₁ hs₁ => ?_
  have hcolumns : Ends (t.tileColumns data) s₁ (fun columns s' => t.Linked w s' ∧
      ∃ id, columns = [("tile_id", id)] ∧
        (id = .null ∨ ∃ image ∈ s'.contents.namedImages, image.1 = id)) (t.Linked w) := by
    simp only [tileColumns, hs₁.layout]
    cases data with
    | none => exact .pure ⟨hs₁, .null, rfl, .inl rfl⟩
    | some bytes =>
        refine (imageFor_ends hs₁ bytes).bind ?_
        rintro id s' ⟨hs', himage⟩
        exact .pure ⟨hs', id, rfl, .inr himage⟩
  refine hcolumns.bind ?_
  rintro _ s₂ ⟨hs₂, id, rfl, hid⟩
  have hlayout : t.shape.layout.keyTable = "map" := by rw [hs.layout]; rfl
  rw [hlayout]
  exact (insertKey_linked hs₂ key hid).bind fun _ _ hs' => .pure hs'

theorem putMetadata_linked (hs : t.Linked w s) (name value : Cell) :
    Ends (putMetadata name value) s (fun _ => t.Linked w) (t.Linked w) := by
  have hother {s : Session} (hs : t.Linked w s) {other : Table} (rows : List Row)
      (hname : s.contents.table? "metadata" = some other) :
      t.Linked w { s with contents := s.contents.setTable { other with rows } } := by
    obtain ⟨m, u, hc⟩ := hs.normalized
    have hnames : ({ other with rows } : Table).name ≠ "map" ∧
        ({ other with rows } : Table).name ≠ "images" := by
      simp [name_of_table? hname]
    obtain ⟨hc', hlinked, himages⟩ := hs.linked.setOther hc hnames
    exact hs.change ⟨m, u, hc'⟩ hlinked himages
  have hdelete : Ends (Action.execute (.delete "metadata" [("name", name)])) s
      (fun _ => t.Linked w) (t.Linked w) := by
    refine (Action.execute_ends _ s).mono (fun touched s' hs' => ?_) fun s' heq => heq ▸ hs
    obtain ⟨contents, hrun, rfl⟩ := hs'
    obtain ⟨other, hname, rfl⟩ := run_delete hrun
    exact hother hs _ hname
  refine hdelete.bind fun _ s₁ hs₁ => ?_
  cases value.isNull with
  | true => exact .pure hs₁
  | false =>
      have hinsert : Ends (Action.execute (.insert "metadata" [("name", name), ("value", value)]))
          s₁ (fun _ => t.Linked w) (t.Linked w) := by
        refine (Action.execute_ends _ s₁).mono (fun touched s' hs' => ?_) fun s' heq => heq ▸ hs₁
        obtain ⟨contents, hrun, rfl⟩ := hs'
        obtain ⟨other, hname, rfl⟩ := run_insert hrun
        exact hother hs₁ _ hname
      exact hinsert.bind fun _ _ hs' => .pure hs'

/-! ### Dropping images -/

/-- Dropping images leaves those that keys lead to, and tells how many it drops. -/
theorem finalize_ends (hs : t.Linked w s) :
    Ends t.finalize s (fun n s' => t.Linked w s' ∧
        s'.contents.images.Sublist s.contents.images ∧
        n + s'.contents.images.length = s.contents.images.length ∧
        ∀ image ∈ s'.contents.namedImages, image.1 ∈ s'.contents.references)
      (fun s' => s' = s ∧ w = false) := by
  obtain ⟨m, u, hc⟩ := hs.normalized
  obtain ⟨hsublist, hlinked, hreferenced⟩ := hs.linked.dropImages hc
  have hcount := hc.joined.dropped_add_images
  cases hw : s.writable with
  | false =>
      exact .of_error (finalize_readOnly hs.layout hc.joined hw) ⟨rfl, hs.writable_eq.symm.trans hw⟩
  | true =>
      refine Yields.ends (.intro (finalize_eq hs.layout hc.joined hw)
        ⟨?_, hsublist, hcount, hreferenced⟩)
      by_cases hdropped : 0 < u.rows.length - (s.contents.keptRows u).length
      · simp only [hdropped, if_true]
        exact ⟨hs.layout, ⟨_, _, hc.setImages _⟩, hlinked, nofun, hs.writable_eq⟩
      · simp only [hdropped, if_false]
        -- nothing has been dropped, so the index is still that of the images
        have hlength := hsublist.eq_of_length_le (by omega)
        exact hs.change ⟨_, _, hc.setImages _⟩ hlinked hlength

theorem run_linked (hs : t.Linked w s) (operation : StoreOperation) :
    Leaves (operation.run t) s (t.Linked w) := by
  cases operation with
  | put key data => exact put_linked hs key data
  | delete key => exact (delete_linked hs key).bind fun _ _ hs' => .pure hs'
  | finalize =>
      have hends := (finalize_ends hs).mono (fun _ _ hs' => hs'.1) fun s' hs' => hs'.1 ▸ hs
      exact hends.bind fun _ _ hs' => .pure hs'
  | putMetadata name value => exact putMetadata_linked hs (.text name) (.ofText? value)

end Tileset

/-! ### Opening -/

variable {c : Container} {file : String}

/-- What catalogue, columns and images of a normalized container have to be like; an open tileset
of it knows nothing of its images yet. -/
structure Tileset.OpensLinked (t : Tileset) (s : Session) : Prop where
  detected : detect s.file s.contents = .ok t.shape
  layout : t.shape.layout = .normalized
  named : s.contents.Named
  keeps : ∀ name ∈ ["map", "images"], ∀ table ∈ s.contents.table? name, table.KeepsTexts "tile_id"
  linked : s.contents.Linked
  fresh : s.images = none

namespace Tileset

variable {t : Tileset} {s : Session}

open Container

theorem OpensLinked.start (hs : t.OpensLinked s) : t.Linked s.writable s := by
  have hoffered := offered_of_detect hs.detected
  rw [hs.layout] at hoffered
  obtain ⟨m, hm, hmapColumns⟩ := offers_table hs.named hoffered.1
  obtain ⟨u, hu, himageColumns⟩ := offers_table hs.named hoffered.2
  refine ⟨hs.layout, ⟨m, u, hm, hu, hmapColumns, himageColumns,
    hs.keeps "map" (by simp) m hm, hs.keeps "images" (by simp) u hu⟩, hs.linked, ?_, rfl⟩
  simp [hs.fresh]

/-- A normalized container that has just been created has no images that are not linked. -/
theorem createIn_opensLinked (batch : Int) (hempty : s.contents = .empty)
    (hwritable : s.writable = true) :
    Yields (createIn .normalized batch) s fun t s' => t.OpensLinked s' := by
  refine .intro (createIn_run .normalized batch hempty hwritable)
    ⟨detect_container _ .normalized .empty, rfl, ?_, ?_, ⟨nofun, .nil, nofun⟩, rfl⟩
  · show (["metadata", "map", "images"].map Text.lowerAscii).Nodup
    decide
  · intro name hname table htable
    rcases List.mem_cons.1 hname with rfl | hname
    · obtain rfl : Layout.normalized.tilesTable [] = table := Option.some.inj htable
      show ∀ column ∈ (Layout.normalized.tilesTable []).columns, _
      decide
    · obtain rfl := List.mem_singleton.1 hname
      obtain rfl : Layout.imagesTableOf [] = table := Option.some.inj htable
      show ∀ column ∈ (Layout.imagesTableOf []).columns, _
      decide

theorem readHashedTile_eq_ok {memory : Nat} {row : TileRow} {entry : Tile × Cell}
    (h : readHashedTile memory file row = .ok (some entry)) :
    payload memory row.data = .ok entry.1.data ∧ entry.2 = row.stored := by
  simp only [readHashedTile, bind, Except.bind] at h
  cases hkey : rowKey file row with
  | error failure => simp [hkey] at h
  | ok key =>
      cases hdata : payload memory row.data with
      | error failure => simp [hkey, hdata] at h
      | ok data =>
          simp only [hkey, hdata, pure, Except.pure, Except.ok.injEq, Option.some.injEq] at h
          subst h
          exact ⟨rfl, rfl⟩

/-- The hash that is shown with a tile is that of its payload. -/
theorem Linked.scanHashed {w : Bool} (hs : t.Linked w s) {memory : Nat} {entry : Tile × Cell}
    (hentry : entry ∈ (t.scanHashed s.file s.contents memory).items) :
    hashAgrees entry.1 entry.2 = true := by
  obtain ⟨m, u, hc⟩ := hs.normalized
  cases hrows : t.rows .all true s.file s.contents with
  | error failure =>
      simp only [Tileset.scanHashed, Scan.ofQuery, hrows] at hentry
      cases hentry
  | ok rows =>
      simp only [Tileset.scanHashed, Scan.ofQuery, hrows] at hentry
      obtain ⟨row, hrow, hread⟩ := Scan.mem_reading hentry
      obtain ⟨hdata, hstored⟩ := readHashedTile_eq_ok hread
      obtain ⟨visited, hvisited, -, rfl⟩ := rows_all_eq_ok_iff.1 hrows
      obtain ⟨shown, hshown, hperm⟩ := Layout.exists_rows_of_visited hvisited
      rw [hs.layout] at hshown
      rw [hstored]
      exact hs.linked.hashAgrees hc hshown (hperm.mem_iff.1 ((mem_sortBy _).1 hrow)) hdata
        entry.1.key

/-- Of a normalized container whose images are linked, store operations keep what is said of it: the
images stay linked, the index, once there is one, leads from every digest to the identifier as it is
stored, and every hash that is shown with a tile is that of its payload.  Dropping images leaves
those that keys lead to, besides what is stored without an identifier, and tells how many it
drops. -/
theorem linked_attemptAll :
    (∀ (batch : Int) (s : Session), s.contents = .empty → s.writable = true →
      ∃ t s₀, createIn .normalized batch s = .ok t s₀ ∧ t.OpensLinked s₀) ∧
    ∀ (t : Tileset) (s : Session), t.OpensLinked s → ∀ operations : List StoreOperation,
      let s' := (Action.attemptAll (operations.map (·.run t)) s).2
      s'.contents.Linked ∧ (∀ index ∈ s'.images, index.Perm s'.contents.imageEntries) ∧
        (∀ memory, ∀ entry ∈ (t.scanHashed s'.file s'.contents memory).items,
          hashAgrees entry.1 entry.2 = true) ∧
        (s.writable = true → ∃ n s'', t.finalize s' = .ok n s'' ∧
          s''.contents.images.Sublist s'.contents.images ∧
          n + s''.contents.images.length = s'.contents.images.length ∧
          ∀ image ∈ s''.contents.namedImages, image.1 ∈ s''.contents.references) := by
  refine ⟨fun batch s hempty hwritable => createIn_opensLinked batch hempty hwritable,
    fun t s hs operations => ?_⟩
  intro s'
  have hs' : t.Linked s.writable s' := by
    refine Action.attemptAll_keeps (fun x hx s hs => ?_) hs.start
    obtain ⟨operation, -, rfl⟩ := List.mem_map.1 hx
    exact run_linked hs operation
  refine ⟨hs'.linked, hs'.index, fun memory entry hentry => ?_, fun hwritable => ?_⟩
  · exact hs'.scanHashed hentry
  · have hyields : Yields t.finalize s' fun n s'' => t.Linked s.writable s'' ∧
        s''.contents.images.Sublist s'.contents.images ∧
        n + s''.contents.images.length = s'.contents.images.length ∧
        ∀ image ∈ s''.contents.namedImages, image.1 ∈ s''.contents.references := by
      refine Ends.yields ((finalize_ends hs').mono (fun _ _ => id) fun s'' hs'' => ?_)
      rw [hwritable] at hs''
      cases hs''.2
    obtain ⟨n, s'', hok, -, hleft⟩ := hyields
    exact ⟨n, s'', hok, hleft⟩

/-- An image that another tool has stored under a hash in small letters is used again. -/
theorem linked_attemptAll_smallLetters :
    let id := "89e74e640b8c46257a29de0616794d5d"
    let image : Bytes := ⟨#[7]⟩
    let s : Session := { Session.start "a" true .empty with contents := ⟨[
      ⟨"metadata", [.free "name", .free "value"], [], []⟩,
      ⟨"map", (keyColumns ++ ["tile_id"]).map .free, [], [[.int 0, .int 0, .int 0, .text id]]⟩,
      ⟨"images", [.free "tile_data", .free "tile_id"], [],
        [[.null, .null], [.blob image, .text id]]⟩], []⟩ }
    let t : Tileset := ⟨⟨.normalized, false⟩, 1⟩
    let operations : List StoreOperation :=
      [.put ⟨0, 0, 1⟩ (some image), .delete ⟨0, 0, 0⟩, .finalize]
    let s' := (Action.attemptAll (operations.map (·.run t)) s).2
    t.OpensLinked s ∧ s'.contents.Linked ∧
      s'.contents.images = [(.null, .null), (.text id, .blob image)] ∧
      s'.contents.references = [.text id] ∧
      ∃ n s'', t.finalize s' = .ok n s'' ∧
        s''.contents.images.Sublist s'.contents.images ∧
        n + s''.contents.images.length = s'.contents.images.length ∧
        ∀ image ∈ s''.contents.namedImages, image.1 ∈ s''.contents.references := by
  intro id image s t operations s'
  have hhash : Text.upper id = payloadHash image := by decide +kernel
  have himages : s.contents.images = [(.null, .null), (.text id, .blob image)] := rfl
  have hnamed : s.contents.namedImages = [(.text id, .blob image)] := rfl
  have hlinked : s.contents.Linked := by
    refine ⟨?_, hnamed ▸ List.pairwise_singleton _ _, fun id hid => .inr ?_⟩
    · rw [himages]
      intro stored hstored
      rcases List.mem_cons.1 hstored with rfl | hstored
      · exact .inl rfl
      · obtain rfl := List.mem_singleton.1 hstored
        exact .inr ⟨id, image, rfl, hhash⟩
    · obtain rfl := List.mem_singleton.1 hid
      exact ⟨_, hnamed ▸ List.mem_singleton_self _, rfl⟩
  have hkeeps : ∀ name ∈ ["map", "images"], ∀ table ∈ s.contents.table? name,
      table.KeepsTexts "tile_id" := by
    intro name hname table htable
    have hmem : table ∈ s.contents.tables := List.mem_of_find?_eq_some htable
    have hfree : ∀ table ∈ s.contents.tables, ∀ c ∈ table.columns, c.affinity = .any := by decide
    intro c hc _
    simp [hfree table hmem c hc]
  have hdistinct : (s.contents.tables.map fun table => Text.lowerAscii table.name).Nodup := by
    decide
  have hdetected : detect s.file s.contents = .ok t.shape := by decide +kernel
  have hs : t.OpensLinked s := ⟨hdetected, rfl, hdistinct, hkeeps, hlinked, rfl⟩
  have hleft : s'.contents.images = [(.null, .null), (.text id, .blob image)] ∧
      s'.contents.references = [.text id] := by decide +kernel
  obtain ⟨hlinked', -, -, hfinalize⟩ := linked_attemptAll.2 t s hs operations
  exact ⟨hs, hlinked', hleft.1, hleft.2, hfinalize rfl⟩

/-- What is stored without an identifier stays when images are dropped, though no key leads to it;
and in a column that makes numbers of texts, a hash of decimal digits is no text any more. -/
theorem not_linked_attemptAll :
    let id := "89E74E640B8C46257A29DE0616794D5D"
    let image : Bytes := ⟨#[7]⟩
    let session (idColumn : Column) (references images : List Row) : Session :=
      { Session.start "a" true .empty with contents := ⟨[
        ⟨"metadata", [.free "name", .free "value"], [], []⟩,
        ⟨"map", (keyColumns ++ ["tile_id"]).map .free, [], references⟩,
        ⟨"images", [.free "tile_data", idColumn], [], images⟩], []⟩ }
    let s := session (.free "tile_id") [[.int 0, .int 0, .int 0, .text id]]
      [[.blob image, .text id], [.null, .null]]
    let number : Column := ⟨"tile_id", .integer, false, .null⟩
    let s₁ := session number [] []
    let decimal : Bytes := ⟨#[0x74, 0x69, 0x6c, 0x65, 0x31, 0x31, 0x31, 0x31, 0x39, 0x37, 0x38]⟩
    let t : Tileset := ⟨⟨.normalized, false⟩, 1⟩
    let s₁' := (Action.attemptAll ([.put ⟨0, 0, 0⟩ (some decimal)].map (StoreOperation.run t)) s₁).2
    (s.contents.Linked ∧ Yields t.finalize s fun n s' => n = 0 ∧
      (.null, .null) ∈ s'.contents.images ∧ .null ∉ s'.contents.references) ∧
    (s₁.contents.Linked ∧ detect s₁.file s₁.contents = .ok t.shape ∧ ¬ s₁'.contents.Linked) := by
  intro id image session s number s₁ decimal t s₁'
  have hhash : Text.upper id = payloadHash image := by decide +kernel
  have himages : s.contents.images = [(.text id, .blob image), (.null, .null)] := rfl
  have hnamed : s.contents.namedImages = [(.text id, .blob image)] := rfl
  refine ⟨⟨⟨?_, hnamed ▸ List.pairwise_singleton _ _, fun reference hreference => .inr ?_⟩, ?_⟩,
    ⟨nofun, .nil, nofun⟩, by decide +kernel, fun hlinked => ?_⟩
  · rw [himages]
    intro stored hstored
    rcases List.mem_cons.1 hstored with rfl | hstored
    · exact .inr ⟨id, image, rfl, hhash⟩
    · exact .inl (List.mem_singleton.1 hstored)
  · obtain rfl := List.mem_singleton.1 hreference
    exact ⟨_, hnamed ▸ List.mem_singleton_self _, rfl⟩
  · decide +kernel
  · have hstored : s₁'.contents.images = [(.real ⟨0x4687744d52bd54e3⟩, .blob decimal)] := by
      decide +kernel
    rcases hlinked.hashed _ (hstored ▸ List.mem_singleton_self _) with himage | ⟨_, _, himage, -⟩
    · cases himage
    · cases himage

end Tileset

end TileAtlas
