import TileAtlas.Proofs.Tileset.Store

/-!
# The tilesets that the library makes

A container in which a layout has been created holds nothing, and opening a container that holds
something finds its layout.  From there on every store operation, whether it succeeds or fails,
leaves a container that holds something.
-/

namespace TileAtlas

open Layout

/-- The names in the catalogues of the library. -/
def catalogueNames : List String :=
  ["metadata", "tiles", "tiles_with_hash", "map", "images", "patches"]

theorem sameName_of_mem {a b : String} (ha : a ∈ catalogueNames) (hb : b ∈ catalogueNames) :
    Container.sameName a b = decide (a = b) := by
  have hall : ∀ a ∈ catalogueNames, ∀ b ∈ catalogueNames,
      Container.sameName a b = decide (a = b) := by decide
  exact hall a ha b hb

theorem detect_container (file : String) (layout : Layout) (h : Holding) :
    detect file (layout.container h) = .ok layout.shape := by
  have hname {a b : String} (ha : a ∈ catalogueNames) (hb : b ∈ catalogueNames) :
      Container.sameName a b = decide (a = b) := sameName_of_mem ha hb
  simp only [catalogueNames] at hname
  cases layout <;>
    simp [detect, offers, Container.objectKind?, Container.table?, Container.view?,
      Container.columnNames, shape?, offersNormalized, container, metadataTableOf, metadataTable,
      tilesTable, keyedTable, keyTable, views, tilesView, hashedTilesView, imagesTableOf,
      imagesTable, keyColumns, onFile, bind, Except.bind, pure, Except.pure, shape, tileColumns,
      Column.word, Column.number, Column.payload, hname]

theorem executeAll_statements {s : Session} (layout : Layout) (hempty : s.contents = .empty)
    (hwritable : s.writable = true) :
    Action.executeAll layout.statements s =
      .ok () { s with contents := layout.container .empty } := by
  cases layout <;>
    simp [Action.executeAll, statements, bind_apply, Action.execute, Action.outcome,
      Statement.check, Statement.values, Statement.run, hempty, hwritable] <;> rfl

namespace Tileset

theorem createIn_run {s : Session} (layout : Layout) (batch : Int) (hempty : s.contents = .empty)
    (hwritable : s.writable = true) :
    createIn layout batch s =
      .ok ⟨layout.shape, batch⟩ { s with contents := layout.container .empty, images := none } := by
  have hisEmpty : s.contents.isEmpty = true := by rw [hempty]; rfl
  simp only [createIn, create, attach, bind_apply, get_apply, hisEmpty, if_true,
    executeAll_statements layout hempty hwritable, pure_apply, modify_apply]

theorem createIn_spec {s : Session} (layout : Layout) (batch : Int) (hempty : s.contents = .empty)
    (hwritable : s.writable = true) :
    Yields (createIn layout batch) s fun t s' =>
      t = ⟨layout.shape, batch⟩ ∧ t.Holds s.file .empty s' :=
  .intro (createIn_run layout batch hempty hwritable)
    ⟨rfl, rfl, hwritable, rfl, Holding.valid_empty layout, by simp⟩

theorem openIn_run {s : Session} {layout : Layout} {h : Holding} (batch : Int)
    (hcontents : s.contents = layout.container h) :
    openIn batch s = .ok ⟨layout.shape, batch⟩ { s with images := none } := by
  have hdetect : Action.query detect s = .ok layout.shape s :=
    Action.query_ok (by rw [hcontents]; exact detect_container s.file layout h)
  simp only [openIn, attach, bind_apply, hdetect, modify_apply, pure_apply]

theorem openIn_spec {s : Session} {layout : Layout} {h : Holding} (batch : Int)
    (hcontents : s.contents = layout.container h) (hvalid : h.Valid layout)
    (hwritable : s.writable = true) :
    Yields (openIn batch) s fun t s' => t = ⟨layout.shape, batch⟩ ∧ t.Holds s.file h s' :=
  .intro (openIn_run batch hcontents) ⟨rfl, rfl, hwritable, hcontents, hvalid, by simp⟩

end Tileset

/-- An operation on the tiles or the metadata of an open tileset. -/
inductive StoreOperation
  | put (key : TileKey) (data : Option Bytes)
  | delete (key : TileKey)
  | finalize
  /-- Puts a value under a name of the metadata, or removes the name. -/
  | putMetadata (name : String) (value : Option String)

def StoreOperation.run (t : Tileset) : StoreOperation → Action Unit
  | put key data => t.put key data
  | delete key => do
    let _ ← t.delete key
  | finalize => do
    let _ ← t.finalize
  | putMetadata name value => Tileset.putMetadata (.text name) (.ofText? value)

/-- What some operations leave of an open tileset, whether they succeed or fail. -/
def StoreOperation.runAll (t : Tileset) (s : Session) (operations : List StoreOperation) : Session :=
  operations.foldl (fun s operation => match operation.run t s with
    | .ok _ s' => s'
    | .error _ s' => s') s

/-- The open tilesets that the library makes: a layout is created, store operations are carried out
whether they succeed or fail, and what is in the container may be opened again. -/
inductive Tileset.Reached : Tileset → Session → Prop
  | created {layout : Layout} {batch : Int} {s s' : Session} {t : Tileset} :
      s.contents = .empty → s.writable = true → createIn layout batch s = .ok t s' → Reached t s'
  | succeeded {t : Tileset} {s s' : Session} (operation : StoreOperation) :
      Reached t s → operation.run t s = .ok () s' → Reached t s'
  | failed {t : Tileset} {s s' : Session} {failure : Failure} (operation : StoreOperation) :
      Reached t s → operation.run t s = .error failure s' → Reached t s'
  | opened {t t' : Tileset} {s s' : Session} {file : String} {batch : Int} :
      Reached t s → openIn batch (.start file true s.contents) = .ok t' s' → Reached t' s'

namespace Tileset

variable {t : Tileset} {file : String} {h : Holding} {s : Session}

theorem run_leaves (hs : t.Holds file h s) (operation : StoreOperation) :
    Leaves (operation.run t) s fun s' => ∃ h', t.Holds file h' s' := by
  cases operation with
  | put key data => exact put_leaves hs key data
  | delete key => exact (delete_leaves hs key).bind fun _ _ hs' => .pure hs'
  | finalize =>
      exact (finalize_spec hs).ends.bind fun _ _ hs' => .pure ⟨_, hs'⟩
  | putMetadata name value =>
      exact ((putMetadata_spec hs name value).mono fun _ _ hs' => ⟨_, hs'⟩).ends

/-- A layout can be made in a new container. -/
theorem Reached.start (layout : Layout) (batch : Int) (file : String) :
    Reached ⟨layout.shape, batch⟩
      { Session.start file true .empty with contents := layout.container .empty } :=
  .created rfl rfl (createIn_run layout batch rfl rfl)

theorem Reached.runAll (ht : t.Reached s) (operations : List StoreOperation) :
    t.Reached (StoreOperation.runAll t s operations) := by
  induction operations generalizing s with
  | nil => exact ht
  | cons operation rest ih =>
      rw [StoreOperation.runAll, List.foldl_cons]
      cases hrun : operation.run t s with
      | ok _ s' => exact ih (ht.succeeded operation hrun)
      | error failure s' => exact ih (ht.failed operation hrun)

/-- A tileset that the library makes holds something, and its shape is that of a layout. -/
theorem Reached.holds (ht : t.Reached s) :
    ∃ h, t.Holds s.file h s ∧ t.shape = t.shape.layout.shape := by
  induction ht with
  | created hempty hwritable hcreate =>
      obtain ⟨_, _, hok, rfl, hs⟩ := createIn_spec _ _ hempty hwritable
      obtain ⟨rfl, rfl⟩ := EStateM.Result.ok.inj (hcreate.symm.trans hok)
      exact ⟨.empty, hs.file_eq ▸ hs, rfl⟩
  | succeeded operation _ hok ih =>
      obtain ⟨h, hs, hshape⟩ := ih
      obtain ⟨h', hs'⟩ := by simpa only [Ends, hok] using run_leaves hs operation
      exact ⟨h', hs'.file_eq ▸ hs', hshape⟩
  | failed operation _ herror ih =>
      obtain ⟨h, hs, hshape⟩ := ih
      obtain ⟨h', hs'⟩ := by simpa only [Ends, herror] using run_leaves hs operation
      exact ⟨h', hs'.file_eq ▸ hs', hshape⟩
  | @opened t t' s s' file batch _ hopen ih =>
      obtain ⟨h, hs, hshape⟩ := ih
      obtain ⟨_, _, hok, rfl, hs'⟩ := openIn_spec (s := .start file true s.contents) batch
        hs.contents hs.valid rfl
      obtain ⟨rfl, rfl⟩ := EStateM.Result.ok.inj (hopen.symm.trans hok)
      exact ⟨h, hs'.file_eq ▸ hs', rfl⟩

end Tileset

end TileAtlas
