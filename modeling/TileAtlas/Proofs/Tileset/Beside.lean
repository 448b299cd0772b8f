import TileAtlas.Operation.Copy
import TileAtlas.Patch.Apply
import TileAtlas.Proofs.Container.Ignore
import TileAtlas.Proofs.Tileset.Reached
import TileAtlas.Proofs.Tileset.Shown

/-!
# Tiles beside the metadata

The tiles and the images of a container have nothing to do with the rows of its metadata table.
Whatever these rows are, tiles are read, put and deleted as if the metadata were that of the
library, and the rows stay as they are.
-/

namespace TileAtlas

open TileAtlas.Action

namespace Layout

/-- The metadata table with the given rows. -/
def metadataWith (rows : List Row) : Table := { metadataTable with rows }

/-- The container that keeps the tiles and the images of a holding beside some rows of metadata. -/
def containerWith (layout : Layout) (rows : List Row) (h : Holding) : Container :=
  (layout.container h).setTable (metadataWith rows)

variable {layout : Layout} {rows rows' : List Row} {h : Holding} {c : Container}

theorem keyTable_ne_metadata (layout : Layout) : layout.keyTable ≠ "metadata" := by
  cases layout <;> decide

section SetMetadata

variable {m : Table} (hm : m.name = "metadata")

include hm

/-- Whatever the metadata are, the tiles are the same. -/
theorem rowsIn_setMetadata (layout : Layout) (keyOrder imageOrder : Table → List Row)
    (c : Container) : layout.rowsIn keyOrder imageOrder (c.setTable m) =
      layout.rowsIn keyOrder imageOrder c := by
  have hlist {name : String} (h : name ≠ "metadata") (columns : List String)
      (order : Table → List Row) :
      (c.setTable m).list name columns order = c.list name columns order :=
    Container.list_setTable (hm ▸ h) columns order
  have htable {name : String} (h : name ≠ "metadata") :
      (c.setTable m).table? name = c.table? name := Container.table?_setTable_of_ne (hm ▸ h)
  have hjoined : joinedIds (c.setTable m) = joinedIds c := by
    simp only [joinedIds, Container.affinity, htable (show "images" ≠ "metadata" by decide),
      htable (show "map" ≠ "metadata" by decide)]
  cases layout <;>
    simp only [rowsIn, hjoined, hlist (show "tiles" ≠ "metadata" by decide),
      hlist (show "tiles_with_hash" ≠ "metadata" by decide),
      hlist (show "map" ≠ "metadata" by decide), hlist (show "images" ≠ "metadata" by decide)]

theorem visited_setMetadata (layout : Layout) (q : TileQuery) (c : Container) :
    layout.visited q (c.setTable m) = layout.visited q c := by
  have hmap : (c.setTable m).table? "map" = c.table? "map" :=
    Container.table?_setTable_of_ne (hm ▸ by decide)
  rw [visited, hmap]
  exact rowsIn_setMetadata hm layout _ _ c

theorem keyAffinity_setMetadata (layout : Layout) (c : Container) :
    layout.keyAffinity (c.setTable m) = layout.keyAffinity c := by
  funext column
  rw [keyAffinity, Container.affinity,
    Container.table?_setTable_of_ne (hm ▸ keyTable_ne_metadata layout)]
  rfl

end SetMetadata

/-- The metadata of a holding are rows like others. -/
theorem containerWith_metadata (layout : Layout) (h : Holding) :
    layout.containerWith (h.metadata.map metadataRow) h = layout.container h := by
  cases layout <;> rfl

theorem setTable_containerWith :
    (layout.containerWith rows h).setTable (metadataWith rows') = layout.containerWith rows' h :=
  Container.setTable_setTable rfl

theorem table?_containerWith :
    (layout.containerWith rows h).table? "metadata" = some (metadataWith rows) := by
  cases layout <;> rfl

theorem detect_containerWith (file : String) (layout : Layout) (rows : List Row) (h : Holding) :
    detect file (layout.containerWith rows h) = .ok layout.shape := by
  have hname {a b : String} (ha : a ∈ catalogueNames) (hb : b ∈ catalogueNames) :
      Container.sameName a b = decide (a = b) := sameName_of_mem ha hb
  simp only [catalogueNames] at hname
  cases layout <;>
    simp [detect, offers, Container.objectKind?, Container.table?, Container.view?,
      Container.columnNames, shape?, offersNormalized, containerWith, Container.setTable,
      metadataWith, container, metadataTableOf, metadataTable, tilesTable, keyedTable, keyTable,
      views, tilesView, hashedTilesView, imagesTableOf, imagesTable, keyColumns, onFile, bind,
      Except.bind, pure, Except.pure, shape, tileColumns, Column.word, Column.number,
      Column.payload, hname]

end Layout

namespace Session

/-- The session with other rows of metadata. -/
abbrev withMetadata (rows : List Row) : Session → Session := withTable (Layout.metadataWith rows)

end Session

namespace Tileset

variable {t : Tileset} {rows : List Row}

/-! ### Work on tiles -/

theorem ignores_delete (t : Tileset) (key : TileKey) :
    Ignores (Session.withMetadata rows) (t.delete key) :=
  Ignores.bind (ignores_execute (Layout.keyTable_ne_metadata t.shape.layout)) fun _ =>
    ignores_pure _

theorem ignores_remember (images : Option ImageIndex) :
    Ignores (Session.withMetadata rows)
      (modify fun session : Session => { session with images } : Action PUnit) :=
  ignores_modify fun _ => rfl

theorem imageIds_withMetadata (file : String) (c : Container) :
    imageIds file (c.setTable (Layout.metadataWith rows)) = imageIds file c := by
  have himages : "images" ≠ (Layout.metadataWith rows).name := by
    show "images" ≠ "metadata"
    decide
  simp only [imageIds, Container.visit, Container.list_setTable himages]

theorem ignores_imageIndex (t : Tileset) : Ignores (Session.withMetadata rows) t.imageIndex := by
  intro s
  have hload : Ignores (Session.withMetadata rows) (do
      let ids ← query imageIds
      Action.ofExcept (checkBatch t.batch)
      modify fun session => { session with images := some (ImageIndex.ofIds ids) }
      return ImageIndex.ofIds ids) :=
    (ignores_query fun s => imageIds_withMetadata s.file s.contents).bind fun ids =>
      (ignores_ofExcept _).bind fun _ => (ignores_remember _).bind fun _ => ignores_pure _
  have himages : (Session.withMetadata rows s).images = s.images := rfl
  simp only [imageIndex, bind_apply (get : Action Session), get_apply, himages]
  cases s.images with
  | some index => rfl
  | none => exact hload s

theorem ignores_imageFor (t : Tileset) (data : Bytes) :
    Ignores (Session.withMetadata rows) (t.imageFor data) := by
  refine ((ignores_imageIndex t).bind fun _ => ignores_pure _ :
    Ignores _ (t.lookupImage (payloadHash data))).bind fun found => ?_
  cases found with
  | some id => exact ignores_pure id
  | none =>
      have himages : "images" ≠ "metadata" := by decide
      refine Ignores.bind (ignores_execute himages) fun _ => ?_
      exact (ignores_imageIndex t).bind fun index =>
        (ignores_remember _).bind fun _ => ignores_pure _

theorem ignores_tileColumns (t : Tileset) (data : Option Bytes) :
    Ignores (Session.withMetadata rows) (t.tileColumns data) := by
  unfold tileColumns
  cases t.shape.layout with
  | flat => exact ignores_pure _
  | flatWithHash => exact ignores_pure _
  | normalized =>
      cases data with
      | none => exact ignores_pure _
      | some bytes => exact (ignores_imageFor t bytes).bind fun _ => ignores_pure _

theorem ignores_put (t : Tileset) (key : TileKey) (data : Option Bytes) :
    Ignores (Session.withMetadata rows) (t.put key data) :=
  (ignores_delete t key).bind fun _ => (ignores_tileColumns t data).bind fun _ =>
    Ignores.bind (ignores_execute (Layout.keyTable_ne_metadata t.shape.layout)) fun _ =>
      ignores_pure _

theorem ignores_finalize (t : Tileset) : Ignores (Session.withMetadata rows) t.finalize := by
  unfold finalize
  split
  · have havoids : (Statement.deleteUnlisted "images" "tile_id" "map" "tile_id").Avoids
        (Layout.metadataWith rows).name := by
      show "images" ≠ "metadata" ∧ "map" ≠ "metadata"
      decide
    refine (ignores_execute havoids).bind fun dropped => ?_
    by_cases hdropped : 0 < dropped
    · simp only [hdropped, if_true]
      exact (ignores_remember _).bind fun _ => ignores_pure _
    · simp only [hdropped, if_false]
      exact ignores_pure _
  · exact ignores_pure _

/-! ### Reading -/

section SetMetadata

variable {m : Table} (hm : m.name = "metadata") (t : Tileset) (file : String) (c : Container)

include hm

theorem rows_setMetadata (filter : TileFilter) (hashed : Bool) :
    t.rows filter hashed file (c.setTable m) = t.rows filter hashed file c := by
  simp only [Tileset.rows, Layout.visited_setMetadata hm, Layout.keyAffinity_setMetadata hm]

theorem scan_setMetadata (filter : TileFilter) :
    t.scan filter file (c.setTable m) = t.scan filter file c := by
  simp only [scan, rows_setMetadata hm]

theorem scanHashed_setMetadata :
    t.scanHashed file (c.setTable m) = t.scanHashed file c := by
  simp only [scanHashed, rows_setMetadata hm]

theorem entry_setMetadata (key : TileKey) :
    t.entry? key file (c.setTable m) = t.entry? key file c := by
  simp only [ entry?, Layout.visited_setMetadata hm, Layout.keyAffinity_setMetadata hm]

end SetMetadata

section Reading

variable {h : Holding}

theorem scan_containerWith (file : String) (hvalid : h.Valid t.shape.layout)
    (hbatch : checkBatch t.batch = .ok ()) :
    t.scan .all file (t.shape.layout.containerWith rows h) = .ofList h.sorted :=
  (scan_setMetadata rfl t file _ .all).trans (scan_container file hvalid hbatch)

theorem aggregate_containerWith (file : String) (hvalid : h.Valid t.shape.layout)
    (hbatch : checkBatch t.batch = .ok ()) :
    t.aggregate file (t.shape.layout.containerWith rows h) = .ok (aggregateHash h.sorted) := by
  rw [aggregate, scan_containerWith file hvalid hbatch]
  rfl

theorem isEmpty_containerWith (file : String) (h : Holding) :
    t.isEmpty file (t.shape.layout.containerWith rows h) = .ok h.tiles.isEmpty := by
  rw [← isEmpty_container (t := t) file h]
  unfold isEmpty Layout.containerWith
  rw [Container.select_setTable (Layout.keyTable_ne_metadata t.shape.layout)]

end Reading

/-! ### Open tilesets -/

/-- What an open tileset holds beside some rows of metadata. -/
structure HoldsBeside (t : Tileset) (rows : List Row) (h : Holding) (s : Session) : Prop where
  writable : s.writable = true
  contents : s.contents = t.shape.layout.containerWith rows h
  valid : h.Valid t.shape.layout
  knows : ∀ index ∈ s.images, ImageIndex.Knows index h.images

section HoldsBeside

variable {h : Holding} {s : Session}

theorem Holds.beside {file : String} (hs : t.Holds file h s) (rows : List Row) :
    t.HoldsBeside rows h (s.withMetadata rows) :=
  ⟨hs.writable, congrArg (Container.setTable · (Layout.metadataWith rows)) hs.contents, hs.valid,
    hs.knows⟩

/-- The metadata of a holding stand beside its tiles like other rows. -/
theorem Holds.besideMetadata {file : String} (hs : t.Holds file h s) :
    t.HoldsBeside (h.metadata.map Layout.metadataRow) h s :=
  ⟨hs.writable, hs.contents.trans (Layout.containerWith_metadata _ h).symm, hs.valid, hs.knows⟩

/-- The session that holds the same beside the metadata of the library. -/
theorem HoldsBeside.exists_holds (hs : t.HoldsBeside rows h s) :
    ∃ s₀, t.Holds s.file h s₀ ∧ s = s₀.withMetadata rows ∧ s₀.images = s.images ∧
      s₀.account = s.account := by
  refine ⟨{ s with contents := t.shape.layout.container h },
    ⟨rfl, hs.writable, rfl, hs.valid, hs.knows⟩, ?_, rfl, rfl⟩
  obtain ⟨file, writable, contents, inTransaction, images, account, notices⟩ := s
  exact congrArg (Session.mk file writable · inTransaction images account notices) hs.contents

theorem HoldsBeside.of_eq {s' : Session} (hs : t.HoldsBeside rows h s)
    (hwritable : s'.writable = s.writable) (hcontents : s'.contents = s.contents)
    (himages : s'.images = s.images) : t.HoldsBeside rows h s' :=
  ⟨hwritable.trans hs.writable, hcontents.trans hs.contents, hs.valid, himages ▸ hs.knows⟩

theorem HoldsBeside.isEmpty_spec (hs : t.HoldsBeside rows h s) :
    Yields (query t.isEmpty) s fun empty s' => empty = h.tiles.isEmpty ∧ s' = s := by
  refine query_spec ?_
  rw [hs.contents]
  exact isEmpty_containerWith s.file h

theorem HoldsBeside.aggregate_spec (hs : t.HoldsBeside rows h s)
    (hbatch : checkBatch t.batch = .ok ()) :
    Yields (query t.aggregate) s fun hash s' => hash = aggregateHash h.sorted ∧ s' = s := by
  refine query_spec ?_
  rw [hs.contents]
  exact aggregate_containerWith s.file hs.valid hbatch

/-- Work on tiles does beside any metadata what it does beside those of the library. -/
theorem HoldsBeside.ends {x : Action α} (hs : t.HoldsBeside rows h s)
    (hx : Ignores (Session.withMetadata rows) x) {Q : α → Holding → Prop} {E : Holding → Prop}
    (hends : ∀ s₀, t.Holds s.file h s₀ → s₀.images = s.images →
      Ends x s₀ (fun a s' => ∃ h', Q a h' ∧ t.Holds s.file h' s')
        fun s' => ∃ h', E h' ∧ t.Holds s.file h' s') :
    Ends x s (fun a s' => ∃ h', Q a h' ∧ t.HoldsBeside rows h' s')
      fun s' => ∃ h', E h' ∧ t.HoldsBeside rows h' s' := by
  obtain ⟨s₀, hs₀, heq, himages, -⟩ := hs.exists_holds
  rw [heq]
  refine (hx.ends (hends s₀ hs₀ himages)).mono ?_ ?_
  · rintro a _ ⟨s', ⟨h', hQ, hs'⟩, rfl⟩
    exact ⟨h', hQ, hs'.beside rows⟩
  · rintro _ ⟨s', ⟨h', hE, hs'⟩, rfl⟩
    exact ⟨h', hE, hs'.beside rows⟩

theorem HoldsBeside.yields {x : Action α} (hs : t.HoldsBeside rows h s)
    (hx : Ignores (Session.withMetadata rows) x) {Q : α → Holding → Prop}
    (hyields : ∀ s₀, t.Holds s.file h s₀ →
      Yields x s₀ fun a s' => ∃ h', Q a h' ∧ t.Holds s.file h' s') :
    Yields x s fun a s' => ∃ h', Q a h' ∧ t.HoldsBeside rows h' s' :=
  (hs.ends (E := fun _ => False) hx fun s₀ hs₀ _ => (hyields s₀ hs₀).ends).mono
    (fun _ _ hQ => hQ) (fun _ ⟨_, hE, _⟩ => hE) |>.yields

theorem put_beside (hs : t.HoldsBeside rows h s) (key : TileKey) (data : Option Bytes) :
    Ends (t.put key data) s (fun _ s' => t.HoldsBeside rows (h.put t.shape.layout key data) s')
      fun s' => ∃ h', t.HoldsBeside rows h' s' := by
  refine (hs.ends (Q := fun _ h' => h' = h.put t.shape.layout key data) (E := fun _ => True)
    (ignores_put t key data) fun s₀ hs₀ _ => ?_).mono ?_ ?_
  · exact (put_ends hs₀ key data).mono (fun _ _ hs' => ⟨_, rfl, hs'⟩)
      fun _ ⟨h', hs'⟩ => ⟨h', trivial, hs'⟩
  · rintro _ _ ⟨_, rfl, hs'⟩
    exact hs'
  · rintro _ ⟨h', -, hs'⟩
    exact ⟨h', hs'⟩

theorem finalize_beside (hs : t.HoldsBeside rows h s) :
    Yields t.finalize s fun _ s' => t.HoldsBeside rows h.finalize s' := by
  refine (hs.yields (Q := fun _ h' => h' = h.finalize) (ignores_finalize t) fun s₀ hs₀ =>
    (finalize_spec hs₀).mono fun _ _ hs' => ⟨_, rfl, hs'⟩).mono ?_
  rintro _ _ ⟨_, rfl, hs'⟩
  exact hs'

end HoldsBeside

end Tileset

end TileAtlas
