import TileAtlas.Proofs.Tileset.Linked
import TileAtlas.Proofs.Tileset.Logical

/-!
# An open tileset after a rollback

A transaction that fails leaves the tables as they were before, but what is remembered of the images
stays as its body has left it.  The open tileset answers as one that has just been opened if and only
if nothing is remembered, or the images at the end of the body were those that are there again.
-/

namespace TileAtlas

/-! ### Requests -/

/-- What an open tileset is asked to do or to tell. -/
inductive StoreRequest
  | write (operation : StoreOperation)
  | payload (key : TileKey)
  | list (filter : TileFilter)

inductive RequestAnswer
  | written (answer : StoreAnswer)
  | payload (data : Option Bytes)
  | list (tiles : Scan Tile)
  deriving DecidableEq

def StoreRequest.answer (t : Tileset) : StoreRequest → Action RequestAnswer
  | write operation => do
    let answer ← operation.answer t
    return .written answer
  | payload key => do
    let found ← Action.query (t.entry? key)
    return .payload (found.bind Tile.data)
  | list filter => do
    let session ← get
    return .list (t.scan filter session.file session.contents)

namespace Tileset

variable {t : Tileset} {file : String} {h : Holding} {s s' : Session}

/-- Whether two sessions answer every sequence of requests alike. -/
def Alike (t : Tileset) (s s' : Session) : Prop :=
  ∀ requests : List StoreRequest,
    (Action.attemptAll (requests.map (·.answer t)) s).1 =
      (Action.attemptAll (requests.map (·.answer t)) s').1

section Settles

variable {α β : Type} {x : Action α}

/-- What some work comes to, and what is held then, depends on what is held, and on nothing that is
remembered. -/
def Settles (t : Tileset) (file : String) (h : Holding) (x : Action α) : Prop :=
  ∃ answer h', ∀ s, t.Holds file h s →
    (Action.attempt x s).1 = answer ∧ t.Holds file h' (Action.attempt x s).2

theorem settles_of_yields (a : α) (h' : Holding)
    (hx : ∀ s, t.Holds file h s → Yields x s fun b s' => b = a ∧ t.Holds file h' s') :
    t.Settles file h x := by
  refine ⟨.ok a, h', fun s hs => ?_⟩
  obtain ⟨_, s', hok, rfl, hs'⟩ := hx s hs
  rw [Action.attempt_ok hok]
  exact ⟨rfl, hs'⟩

theorem settles_of_error (failure : Failure)
    (hx : ∀ s, t.Holds file h s → x s = .error failure s) : t.Settles file h x := by
  refine ⟨.error failure, h, fun s hs => ?_⟩
  rw [Action.attempt_error (hx s hs)]
  exact ⟨rfl, hs⟩

theorem Settles.map (hx : t.Settles file h x) (f : α → β) :
    t.Settles file h (x >>= fun a => pure (f a)) := by
  obtain ⟨answer, h', hx⟩ := hx
  refine ⟨answer.map f, h', fun s hs => ?_⟩
  obtain ⟨hanswer, hs'⟩ := hx s hs
  have hmap : Action.attempt (x >>= fun a => pure (f a)) s =
      ((Action.attempt x s).1.map f, (Action.attempt x s).2) := by
    simp only [Action.attempt, bind_apply]
    cases x s <;> rfl
  rw [hmap, hanswer]
  exact ⟨rfl, hs'⟩

theorem settles_query (q : String → Container → Except Failure α) :
    t.Settles file h (Action.query q) := by
  cases hq : q file (t.shape.layout.container h) with
  | ok a =>
      refine settles_of_yields a h fun s hs => ?_
      refine (Action.query_spec (by rw [hs.file_eq, hs.contents, hq])).mono ?_
      rintro _ _ ⟨rfl, rfl⟩
      exact ⟨rfl, hs⟩
  | error failure =>
      refine settles_of_error failure fun s hs => Action.query_error ?_
      rw [hs.file_eq, hs.contents, hq]

end Settles

theorem settles_operation (hbatch : checkBatch t.batch = .ok ()) (operation : StoreOperation) :
    t.Settles file h (operation.answer t) := by
  cases operation with
  | put key data =>
      refine Settles.map ?_ fun _ => StoreAnswer.done
      cases hkey : key.cells.all Cell.fits with
      | true =>
          exact settles_of_yields () (h.put t.shape.layout key data) fun s hs =>
            (put_spec hs hkey data hbatch).mono fun _ _ hs' => ⟨rfl, hs'⟩
      | false =>
          refine settles_of_error .outOfRange fun s hs => ?_
          simp only [put, bind_apply, delete_unfit hs hkey]
  | delete key =>
      refine Settles.map ?_ StoreAnswer.deleted
      cases hkey : key.cells.all Cell.fits with
      | true => exact settles_of_yields _ _ fun s hs => delete_answer hs hkey
      | false => exact settles_of_error .outOfRange fun s hs => delete_unfit hs hkey
  | finalize =>
      exact (settles_of_yields _ _ fun s hs => finalize_answer hs).map StoreAnswer.dropped
  | putMetadata name value =>
      refine Settles.map ?_ fun _ => StoreAnswer.done
      exact settles_of_yields () (h.putMetadata name value) fun s hs =>
        (putMetadata_spec hs name value).mono fun _ _ hs' => ⟨rfl, hs'⟩

theorem settles_request (hbatch : checkBatch t.batch = .ok ()) (request : StoreRequest) :
    t.Settles file h (request.answer t) := by
  cases request with
  | write operation => exact (settles_operation hbatch operation).map RequestAnswer.written
  | payload key =>
      exact (settles_query (t.entry? key)).map fun found =>
        RequestAnswer.payload (found.bind Tile.data)
  | list filter =>
      refine ⟨.ok (.list (t.scan filter file (t.shape.layout.container h))), h, fun s hs => ?_⟩
      refine ⟨?_, hs⟩
      rw [← hs.contents, ← hs.file_eq]
      rfl

/-- Requests keep an open tileset one that holds something. -/
theorem attemptAll_holds (hbatch : checkBatch t.batch = .ok ()) (requests : List StoreRequest)
    (hs : ∃ h, t.Holds file h s) :
    ∃ h, t.Holds file h (Action.attemptAll (requests.map (·.answer t)) s).2 := by
  refine Action.attemptAll_keeps (I := fun s => ∃ h, t.Holds file h s) (fun x hx s hs => ?_) hs
  obtain ⟨request, -, rfl⟩ := List.mem_map.1 hx
  obtain ⟨h, hs⟩ := hs
  obtain ⟨answer, h', hrequest⟩ := settles_request hbatch request
  exact Action.leaves_iff.2 ⟨h', (hrequest s hs).2⟩

/-- Two sessions that hold the same answer alike, whatever they remember. -/
theorem Holds.alike (hs : t.Holds file h s) (hs' : t.Holds file h s')
    (hbatch : checkBatch t.batch = .ok ()) : t.Alike s s' := by
  intro requests
  induction requests generalizing h s s' with
  | nil => rfl
  | cons request rest ih =>
      obtain ⟨answer, h', hrequest⟩ := settles_request hbatch request
      obtain ⟨hanswer, hs₁⟩ := hrequest s hs
      obtain ⟨hanswer', hs₁'⟩ := hrequest s' hs'
      simp only [List.map_cons, Action.attemptAll, hanswer, hanswer', ih hs₁ hs₁']

/-! ### What is remembered and what is there -/

theorem images_container (h : Holding) : (Layout.normalized.container h).images =
    h.images.map fun data => (.text (payloadHash data), .blob data) := by
  have htable : (Layout.normalized.container h).table? "images" =
      some (Layout.imagesTableOf h.images) := rfl
  simp only [Container.images, htable, Layout.imagesTableOf, List.map_map]
  rfl

/-- Whether the images of one container are stored under the same identifiers as those of another. -/
def SameImages (c c' : Container) : Prop :=
  ∀ id, id ∈ c.images.map Prod.fst ↔ id ∈ c'.images.map Prod.fst

theorem sameImages_container {h h' : Holding} :
    SameImages (Layout.normalized.container h) (Layout.normalized.container h') ↔
      ∀ hash, hash ∈ h.images.map payloadHash ↔ hash ∈ h'.images.map payloadHash := by
  have hids (h : Holding) : (Layout.normalized.container h).images.map Prod.fst =
      (h.images.map payloadHash).map Cell.text := by
    rw [images_container, List.map_map, List.map_map]
    rfl
  have hmem (hash : String) (h : Holding) :
      .text hash ∈ (h.images.map payloadHash).map Cell.text ↔ hash ∈ h.images.map payloadHash :=
    List.mem_map_of_injective fun _ _ => Cell.text.inj
  unfold SameImages
  rw [hids, hids]
  constructor
  · intro hsame hash
    rw [← hmem, ← hmem, hsame]
  · intro hsame id
    simp only [List.mem_map (f := Cell.text), hsame]

theorem knows_of_sameHashes {index : ImageIndex} {images images' : List Bytes}
    (hindex : index.Knows images)
    (hsame : ∀ hash, hash ∈ images.map payloadHash ↔ hash ∈ images'.map payloadHash) :
    index.Knows images' := by
  intro data
  simp only [hindex data, hsame]

theorem attempt_put (t : Tileset) (key : TileKey) (data : Option Bytes) (s : Session) :
    (Action.attempt ((StoreRequest.write (.put key data)).answer t) s).1 =
      (Action.attempt (t.put key data) s).1.map fun _ => .written .done := by
  simp only [StoreRequest.answer, StoreOperation.answer, Action.attempt, bind_apply]
  cases t.put key data s <;> rfl

theorem attemptAll_put_payload {key : TileKey} {data : Bytes} {found : Option Tile}
    (hput : t.put key (some data) s = .ok () s')
    (hentry : t.entry? key s'.file s'.contents = .ok found) :
    (Action.attemptAll ([.write (.put key (some data)), .payload key].map
      (StoreRequest.answer t)) s).1 =
        [.ok (.written .done), .ok (.payload (found.bind Tile.data))] := by
  have hwrite : (StoreRequest.write (.put key (some data))).answer t s =
      .ok (.written .done) s' := by
    simp only [StoreRequest.answer, StoreOperation.answer, bind_apply, hput, pure_apply]
  have hquery : Action.query (fun file c => t.entry? key file c) s' = .ok found s' :=
    Action.query_ok hentry
  have hread : (StoreRequest.payload key).answer t s' =
      .ok (.payload (found.bind Tile.data)) s' := by
    simp only [StoreRequest.answer, bind_apply, hquery, pure_apply]
  simp only [List.map_cons, List.map_nil, Action.attemptAll, Action.attempt_ok hwrite,
    Action.attempt_ok hread]

/-- A payload that has been put is read again, unless another one with its hash is stored. -/
theorem put_payload {P : Set Bytes} (hs : t.Holds file h s)
    (hbatch : checkBatch t.batch = .ok ()) (hP : Set.InjOn payloadHash P)
    (himages : ∀ image ∈ h.images, image ∈ P) {key : TileKey}
    (hkey : key.cells.all Cell.fits = true) {data : Bytes} (hdata : data ∈ P) :
    (Action.attemptAll ([.write (.put key (some data)), .payload key].map
      (StoreRequest.answer t)) s).1 = [.ok (.written .done), .ok (.payload (some data))] := by
  obtain ⟨_, s', hok, hs'⟩ := put_spec hs hkey (some data) hbatch
  have hadvance : Advances P h (h.put t.shape.layout key (some data))
      ((h.delete key).tiles ++ [⟨key, some data⟩]) :=
    put_advances hP himages t.shape.layout key fun bytes hbytes => Option.some.inj hbytes ▸ hdata
  have hfind : (h.put t.shape.layout key (some data)).tiles.find? (fun tile => tile.key = key) =
      some ⟨key, some data⟩ := by
    have hnone : (h.delete key).tiles.find? (fun tile => tile.key = key) = none :=
      List.find?_eq_none.2 fun tile htile => by simpa using (Holding.mem_delete.1 htile).2
    rw [hadvance.tiles_eq, List.find?_append, hnone]
    simp
  have hentry : t.entry? key s'.file s'.contents = .ok (some ⟨key, some data⟩) := by
    rw [hs'.contents, tileAt_container s'.file hs'.valid hkey, hfind]
  exact attemptAll_put_payload hok hentry

/-! ### What is remembered wrongly -/

/-- With a tile at a key in place of the one that was there, and no image stored for it. -/
def refer (h : Holding) (key : TileKey) (data : Bytes) : Holding :=
  { h with tiles := (h.delete key).tiles ++ [⟨key, some data⟩] }

section Stale

variable {key : TileKey} {data : Bytes} {index : ImageIndex}

theorem delete_run (hcontents : s.contents = t.shape.layout.container h)
    (hwritable : s.writable = true) (hkey : key.cells.all Cell.fits = true) :
    t.delete key s = .ok (0 < h.tiles.countP (·.key = key))
      { s with contents := t.shape.layout.container (h.delete key) } := by
  have hrun := @Layout.run_deleteTile t.shape.layout h key
  have hcheck := @Layout.check_deleteTile t.shape.layout h key
  rw [← hcontents] at hrun hcheck
  simp only [delete, bind_apply, Action.execute_of_run hcheck hkey hwritable hrun, pure_apply]
  rfl

theorem tileColumns_run (hlayout : t.shape.layout = .normalized) (himages : s.images = some index)
    (hfind : index.find? (payloadHash data) = some (.text (payloadHash data))) :
    t.tileColumns (some data) s = .ok (Layout.normalized.tileCells (some data)) s := by
  simp only [tileColumns, hlayout, imageFor, lookupImage, bind_apply, imageIndex_of_some himages,
    pure_apply, hfind]
  rfl

theorem insert_run (hlayout : t.shape.layout = .normalized)
    (hcontents : s.contents = Layout.normalized.container (h.delete key))
    (hwritable : s.writable = true) (hkey : key.cells.all Cell.fits = true) :
    Action.execute (.insert t.shape.layout.keyTable
      (keyConditions key ++ Layout.normalized.tileCells (some data))) s =
      .ok 1 { s with contents := Layout.normalized.container (refer h key data) } := by
  have hnew : ∀ old ∈ (h.delete key).tiles, old.key ≠ key := fun old hold =>
    (Holding.mem_delete.1 hold).2
  have hrun := @Layout.run_insertTile .normalized (h.delete key) key (some data) hnew
  have hcheck := @Layout.check_insertTile .normalized (h.delete key) key (some data)
  rw [← hcontents] at hrun hcheck
  rw [hlayout]
  refine Action.execute_of_run hcheck ?_ hwritable hrun
  rw [Statement.values, List.map_append, List.all_append]
  exact (Bool.and_true _).trans hkey

/-- A payload whose image is remembered is put without its image. -/
theorem put_remembered (hlayout : t.shape.layout = .normalized)
    (hcontents : s.contents = t.shape.layout.container h) (hwritable : s.writable = true)
    (himages : s.images = some index)
    (hfind : index.find? (payloadHash data) = some (.text (payloadHash data)))
    (hkey : key.cells.all Cell.fits = true) :
    t.put key (some data) s =
      .ok () { s with contents := Layout.normalized.container (refer h key data) } := by
  let deleted : Session := { s with contents := t.shape.layout.container (h.delete key) }
  have hdelete : t.delete key s = .ok _ deleted := delete_run hcontents hwritable hkey
  have hcolumns : t.tileColumns (some data) deleted =
      .ok (Layout.normalized.tileCells (some data)) deleted := tileColumns_run hlayout himages hfind
  have hinsert := @insert_run t h deleted key data hlayout (by rw [← hlayout]) hwritable hkey
  simp only [put, bind_apply, hdelete, hcolumns, hinsert, pure_apply]
  rfl

theorem run_insertImage_stored (hstored : payloadHash data ∈ h.images.map payloadHash) :
    Statement.run (Layout.normalized.container h) (.insert "images"
      [("tile_id", .text (payloadHash data)), ("tile_data", .blob data)]) =
      .error (.duplicate "images" ["tile_id"]) := by
  obtain ⟨image, himage, hhash⟩ := List.mem_map.1 hstored
  have hany : (Layout.imagesTableOf h.images).rows.any
      ((Layout.imagesTableOf h.images).sameKey (Layout.imageRow data)) = true := by
    refine List.any_eq_true.2 ⟨Layout.imageRow image, List.mem_map.2 ⟨image, himage, rfl⟩, ?_⟩
    rw [Layout.sameKey_imageRow]
    exact decide_eq_true hhash.symm
  have hinsert : (Layout.imagesTableOf h.images).insert (Layout.imageRow data) =
      .error (.duplicate "images" ["tile_id"]) := by
    simp only [Table.insert, Layout.missingColumn?_imageRow, hany, if_true]
    rfl
  simp only [Statement.run, Layout.target_images, Layout.rowOf_imagesTable, hinsert, bind,
    Except.bind]

/-- A payload whose image is there but not remembered is refused. -/
theorem put_forgotten (hlayout : t.shape.layout = .normalized)
    (hcontents : s.contents = t.shape.layout.container h) (hwritable : s.writable = true)
    (himages : s.images = some index) (hfind : index.find? (payloadHash data) = none)
    (hstored : payloadHash data ∈ h.images.map payloadHash)
    (hkey : key.cells.all Cell.fits = true) : Fails (t.put key (some data)) s := by
  let deleted : Session := { s with contents := t.shape.layout.container (h.delete key) }
  have hdelete : t.delete key s = .ok _ deleted := delete_run hcontents hwritable hkey
  have hindex : t.imageIndex deleted = .ok index deleted := imageIndex_of_some himages
  have hinsert : Action.execute (.insert "images"
      [("tile_id", .text (payloadHash data)), ("tile_data", .blob data)]) deleted =
      .error (.io (.statement s.file (.duplicate "images" ["tile_id"]))) deleted := by
    have hrun := @run_insertImage_stored (h.delete key) data hstored
    simp only [Action.execute, Action.outcome, deleted, hlayout, Layout.check_insertImage, hrun,
      hwritable]
    rfl
  refine ⟨.io (.statement s.file (.duplicate "images" ["tile_id"])), deleted, ?_⟩
  simp only [put, bind_apply, hdelete, tileColumns, hlayout, imageFor, lookupImage, hindex,
    pure_apply, hfind, hinsert]

/-- The row that is shown for a tile without its image. -/
def nullRow (key : TileKey) (data : Bytes) : TileRow :=
  ⟨.int key.zoom, .int key.column, .int key.row, .null, .text (payloadHash data)⟩

theorem joinedRows_refer (hvalid : h.Valid .normalized)
    (hmissing : payloadHash data ∉ h.images.map payloadHash) :
    joinedRows .any ((refer h key data).tiles.map Layout.normalized.tileRow)
        (h.images.map Layout.imagePair) =
      (h.delete key).tiles.map Layout.normalized.shownRow ++ [nullRow key data] := by
  have hothers : joinedRows .any ((h.delete key).tiles.map Layout.normalized.tileRow)
      (h.images.map Layout.imagePair) = (h.delete key).tiles.map Layout.normalized.shownRow :=
    Layout.joinedRows_container (hvalid.delete key)
  have hnone : imagesOf .any (h.images.map Layout.imagePair) (.text (payloadHash data)) = [] := by
    refine List.filter_eq_nil_iff.2 fun row hrow hmatch => hmissing ?_
    obtain ⟨image, himage, rfl⟩ := List.mem_map.1 hrow
    have hhash : payloadHash image = payloadHash data := by
      simpa [Layout.imagePair] using hmatch
    exact List.mem_map.2 ⟨image, himage, hhash⟩
  have hlast : joinedRows .any [Layout.normalized.tileRow ⟨key, some data⟩]
      (h.images.map Layout.imagePair) = [nullRow key data] := by
    have hid : (Layout.normalized.tileRow ⟨key, some data⟩).getD 3 .null =
        .text (payloadHash data) := rfl
    simp only [joinedRows, List.flatMap_cons, List.flatMap_nil, hid, hnone, List.append_nil]
    rfl
  rw [refer, List.map_append, List.map_singleton, ← hothers, ← hlast]
  exact List.flatMap_append

theorem rows_refer (hvalid : h.Valid .normalized)
    (hmissing : payloadHash data ∉ h.images.map payloadHash) :
    Layout.normalized.rows (Layout.normalized.container (refer h key data)) =
      .ok ((h.delete key).tiles.map Layout.normalized.shownRow ++ [nullRow key data]) := by
  have hmap : (Layout.normalized.container (refer h key data)).list "map"
      (keyColumns ++ ["tile_id"]) Table.rows =
      .ok ((refer h key data).tiles.map Layout.normalized.tileRow) :=
    congrArg Except.ok List.map_map
  have himages : (Layout.normalized.container (refer h key data)).list "images"
      ["tile_id", "tile_data"] Table.rows = .ok (h.images.map Layout.imagePair) :=
    congrArg Except.ok List.map_map
  simp only [Layout.rows, Layout.rowsIn, hmap, himages, bind, Except.bind, pure, Except.pure]
  exact congrArg Except.ok (joinedRows_refer hvalid hmissing)

/-- A tile without its image reads as a null tile. -/
theorem tileAt_refer (hlayout : t.shape.layout = .normalized) (file : String)
    (hvalid : h.Valid .normalized) (hmissing : payloadHash data ∉ h.images.map payloadHash)
    (hkey : key.cells.all Cell.fits = true) :
    t.entry? key file (Layout.normalized.container (refer h key data)) =
      .ok (some ⟨key, none⟩) := by
  have hrows : Layout.normalized.rows (Layout.normalized.container (refer h key data)) = .ok _ :=
    rows_refer hvalid hmissing
  obtain ⟨visited, hvisited, hperm⟩ := Layout.exists_visited_of_rows hrows .entry
  have haffinity := Layout.keyAffinity_container .normalized (refer h key data)
  generalize hfound : TileRow.hasKey (Layout.normalized.keyAffinity
    (Layout.normalized.container (refer h key data))) key = found at *
  have hothers : ∀ row ∈ (h.delete key).tiles.map Layout.normalized.shownRow,
      found row = false := by
    intro row hrow
    obtain ⟨tile, htile, rfl⟩ := List.mem_map.1 hrow
    rw [← hfound, TileRow.hasKey_shownRow haffinity, decide_eq_false_iff_not]
    exact (Holding.mem_delete.1 htile).2
  have hlast : found (nullRow key data) = true := by
    rw [← hfound]
    simp [TileRow.hasKey, nullRow]
  have honly : ∀ row ∈ visited, found row = true → row = nullRow key data := by
    intro row hrow hmatch
    rcases List.mem_append.1 (hperm.mem_iff.1 hrow) with hrow | hrow
    · rw [hothers row hrow] at hmatch
      cases hmatch
    · exact List.mem_singleton.1 hrow
  have hfind : visited.find? found = some (nullRow key data) := by
    rw [find?_eq_of_perm hperm fun a ha b hb hamatch hbmatch =>
        (honly a ha hamatch).trans (honly b hb hbmatch).symm,
      List.find?_append, List.find?_eq_none.2 fun row hrow => by simp [hothers row hrow],
      List.find?_singleton, if_pos hlast, Option.none_or]
  simp only [hlayout, entry?, hvisited, onFile, bind, Except.bind, hkey, if_true, hfound, hfind]
  rfl

theorem injOn_insert (hvalid : h.Valid .normalized)
    (hmissing : payloadHash data ∉ h.images.map payloadHash) :
    Set.InjOn payloadHash (insert data {image | image ∈ h.images}) := by
  have hne (image : Bytes) (himage : image ∈ h.images) : payloadHash image ≠ payloadHash data :=
    fun heq => hmissing (List.mem_map.2 ⟨image, himage, heq⟩)
  rintro a (rfl | ha) b (rfl | hb) hab
  · rfl
  · exact absurd hab.symm (hne b hb)
  · exact absurd hab (hne a ha)
  · exact List.inj_on_of_nodup_map (List.pairwise_map.2 hvalid.hashes) ha hb hab

/-- What is remembered wrongly shows: a payload whose image is remembered is not read again after it
has been put, and one whose image is not remembered cannot be put. -/
theorem not_alike_of_stale {images : List Bytes} (hlayout : t.shape.layout = .normalized)
    (hbatch : checkBatch t.batch = .ok ()) (hcontents : s.contents = t.shape.layout.container h)
    (hwritable : s.writable = true) (himages : s.images = some index) (hindex : index.Knows images)
    (hfresh : t.Holds file h s')
    (hdiffer : ¬ ∀ hash, hash ∈ images.map payloadHash ↔ hash ∈ h.images.map payloadHash) :
    ¬ t.Alike s s' := by
  have hvalid : h.Valid .normalized := hlayout ▸ hfresh.valid
  have hkey : (⟨0, 0, 0⟩ : TileKey).cells.all Cell.fits = true := by decide
  intro halike
  obtain ⟨hash, hhash⟩ := not_forall.1 hdiffer
  by_cases hknown : hash ∈ images.map payloadHash
  · obtain ⟨data, hdata, rfl⟩ := List.mem_map.1 hknown
    have hmissing : payloadHash data ∉ h.images.map payloadHash := fun hmem =>
      hhash ⟨fun _ => hmem, fun _ => hknown⟩
    have hfind : index.find? (payloadHash data) = some (.text (payloadHash data)) := by
      rw [hindex data, if_pos hknown]
    have hstale := attemptAll_put_payload
      (put_remembered hlayout hcontents hwritable himages hfind hkey)
      (tileAt_refer hlayout s.file hvalid hmissing hkey)
    have hright := put_payload hfresh hbatch (injOn_insert hvalid hmissing)
      (fun image himage => .inr himage) hkey (.inl rfl)
    have hanswers := halike [.write (.put ⟨0, 0, 0⟩ (some data)), .payload ⟨0, 0, 0⟩]
    rw [hstale, hright] at hanswers
    simp at hanswers
  · have hstored : hash ∈ h.images.map payloadHash := by
      by_contra hmissing
      exact hhash ⟨fun hmem => absurd hmem hknown, fun hmem => absurd hmem hmissing⟩
    obtain ⟨data, hdata, rfl⟩ := List.mem_map.1 hstored
    have hfind : index.find? (payloadHash data) = none := by
      rw [hindex data, if_neg hknown]
    obtain ⟨failure, s₁, herror⟩ :=
      put_forgotten hlayout hcontents hwritable himages hfind hstored hkey
    obtain ⟨_, s₁', hok, -⟩ := put_spec hfresh hkey (some data) hbatch
    have hanswers := halike [.write (.put ⟨0, 0, 0⟩ (some data))]
    simp only [List.map_cons, List.map_nil, Action.attemptAll, attempt_put,
      Action.attempt_error herror, Action.attempt_ok hok, List.cons.injEq, and_true] at hanswers
    cases hanswers

end Stale

end Tileset

/-! ### Transactions -/

/-- A transaction through an open tileset: some requests, whether they fail or not, and perhaps a
failure that is raised in the end. -/
structure Transaction where
  requests : List StoreRequest
  raises : Option Failure

namespace Transaction

open Tileset

variable {t : Tileset} {file : String} {h : Holding} {s : Session} {x : Transaction}

def body (t : Tileset) (x : Transaction) : Action (List (Except Failure RequestAnswer)) := fun s =>
  let attempted := Action.attemptAll (x.requests.map (·.answer t)) s
  match x.raises with
  | none => .ok attempted.1 attempted.2
  | some failure => .error failure attempted.2

/-- The session at the end of the body. -/
def ended (t : Tileset) (x : Transaction) (s : Session) : Session :=
  (Action.attemptAll (x.requests.map (·.answer t)) { s with inTransaction := true }).2

/-- The session after the transaction. -/
def after (t : Tileset) (x : Transaction) (s : Session) : Session :=
  (Action.attempt (Action.transaction (x.body t)) s).2

/-- Whether a rollback leaves nothing that is remembered wrongly. -/
def Harmless (t : Tileset) (x : Transaction) (s : Session) : Prop :=
  (x.ended t s).images = none ∨ SameImages (x.ended t s).contents s.contents

/-- Whether every rollback in a sequence of transactions is harmless. -/
def AllHarmless (t : Tileset) : List Transaction → Session → Prop
  | [], _ => True
  | x :: rest, s => (x.raises.isSome → x.Harmless t s) ∧ AllHarmless t rest (x.after t s)

theorem after_of_none (hclosed : s.inTransaction = false) (hraises : x.raises = none) :
    x.after t s = { x.ended t s with inTransaction := false } := by
  simp only [after, Action.attempt, Action.transaction, hclosed, body, hraises, Bool.false_eq_true,
    if_false]
  rfl

theorem after_of_some {failure : Failure} (hclosed : s.inTransaction = false)
    (hraises : x.raises = some failure) :
    x.after t s = { x.ended t s with inTransaction := false, contents := s.contents } := by
  simp only [after, Action.attempt, Action.transaction, hclosed, body, hraises, Bool.false_eq_true,
    if_false]
  rfl

theorem ended_holds (hs : t.Holds file h s) (hbatch : checkBatch t.batch = .ok ()) :
    ∃ h', t.Holds file h' (x.ended t s) :=
  attemptAll_holds hbatch x.requests
    ⟨h, hs.file_eq, hs.writable, hs.contents, hs.valid, hs.knows⟩

/-- What is remembered after a harmless rollback is right for what is there again. -/
theorem Harmless.holds (hx : x.Harmless t s) (hs : t.Holds file h s)
    (hlayout : t.shape.layout = .normalized) (hbatch : checkBatch t.batch = .ok ()) :
    t.Holds file h { x.ended t s with inTransaction := false, contents := s.contents } := by
  obtain ⟨h', hs'⟩ := ended_holds (x := x) hs hbatch
  refine ⟨hs'.file_eq, hs'.writable, hs.contents, hs.valid, fun index hindex => ?_⟩
  rcases hx with hnone | hsame
  · rw [hnone] at hindex
    cases hindex
  · rw [hs'.contents, hs.contents, hlayout, sameImages_container] at hsame
    exact knows_of_sameHashes (hs'.knows index hindex) hsame

/-- After a transaction that commits, or a harmless rollback, what is remembered is right. -/
theorem after_holds (hs : t.Holds file h s) (hclosed : s.inTransaction = false)
    (hlayout : t.shape.layout = .normalized) (hbatch : checkBatch t.batch = .ok ())
    (hx : x.raises.isSome → x.Harmless t s) :
    (∃ h', t.Holds file h' (x.after t s)) ∧ (x.after t s).inTransaction = false := by
  cases hraises : x.raises with
  | none =>
      rw [after_of_none hclosed hraises]
      obtain ⟨h', hs'⟩ := ended_holds (x := x) hs hbatch
      exact ⟨⟨h', hs'.file_eq, hs'.writable, hs'.contents, hs'.valid, hs'.knows⟩, rfl⟩
  | some failure =>
      rw [after_of_some hclosed hraises]
      exact ⟨⟨h, (hx (by rw [hraises]; rfl)).holds hs hlayout hbatch⟩, rfl⟩

theorem afterAll_holds {before : List Transaction} (hs : t.Holds file h s)
    (hclosed : s.inTransaction = false) (hlayout : t.shape.layout = .normalized)
    (hbatch : checkBatch t.batch = .ok ()) (hbefore : AllHarmless t before s) :
    (∃ h', t.Holds file h' (before.foldl (fun s x => x.after t s) s)) ∧
      (before.foldl (fun s x => x.after t s) s).inTransaction = false := by
  induction before generalizing h s with
  | nil => exact ⟨⟨h, hs⟩, hclosed⟩
  | cons x rest ih =>
      obtain ⟨⟨h', hs'⟩, hclosed'⟩ := after_holds hs hclosed hlayout hbatch hbefore.1
      exact ih hs' hclosed' hbefore.2

/-- A rollback that is not harmless shows in what the tileset answers. -/
theorem harmless_of_alike {fresh : Session} {failure : Failure} (hs : t.Holds file h s)
    (hclosed : s.inTransaction = false) (hlayout : t.shape.layout = .normalized)
    (hbatch : checkBatch t.batch = .ok ()) (hraises : x.raises = some failure)
    (hfresh : t.Holds file h fresh) (halike : t.Alike (x.after t s) fresh) : x.Harmless t s := by
  obtain ⟨h', hs'⟩ := ended_holds (x := x) hs hbatch
  rw [after_of_some hclosed hraises] at halike
  cases himages : (x.ended t s).images with
  | none => exact .inl himages
  | some index =>
      refine .inr ?_
      rw [hs'.contents, hs.contents, hlayout, sameImages_container]
      by_contra hdiffer
      let rolledBack : Session :=
        { x.ended t s with inTransaction := false, contents := s.contents }
      exact not_alike_of_stale (s := rolledBack) hlayout hbatch hs.contents hs'.writable himages
        (hs'.knows index himages) hfresh hdiffer halike

end Transaction

namespace Tileset

variable {t : Tileset} {s : Session}

/-- After a rollback, with harmless ones only before it, an open tileset answers as one that has just
been opened if and only if this rollback is harmless as well; and then a payload that is put is read
again, unless another one with its hash is stored. -/
theorem alike_after_rollback (ht : t.Reached s) (hlayout : t.shape.layout = .normalized)
    (hbatch : -0x80000000 ≤ t.batch ∧ t.batch < 0x80000000) (hclosed : s.inTransaction = false)
    {before : List Transaction} (hbefore : Transaction.AllHarmless t before s)
    {last : Transaction} {failure : Failure} (hraises : last.raises = some failure) :
    let started := before.foldl (fun s x => x.after t s) s
    let after := last.after t started
    after.contents = started.contents ∧
    ∃ fresh, openIn t.batch (.start after.file true after.contents) = .ok t fresh ∧
      (t.Alike after fresh ↔ last.Harmless t started) ∧
      (last.Harmless t started → ∀ key data, key.cells.all Cell.fits = true →
        Set.InjOn payloadHash (insert data {image | image ∈ after.contents.payloads}) →
        (Action.attemptAll ([.write (.put key (some data)), .payload key].map
          (StoreRequest.answer t)) after).1 =
            [.ok (.written .done), .ok (.payload (some data))]) := by
  intro started after
  have hcheck : checkBatch t.batch = .ok () := if_pos hbatch
  obtain ⟨h₀, hs₀, hshape⟩ := ht.holds
  obtain ⟨⟨h, hs⟩, hclosed'⟩ :=
    Transaction.afterAll_holds hs₀ hclosed hlayout hcheck hbefore
  have hafter : after = { last.ended t started with
      inTransaction := false, contents := started.contents } :=
    Transaction.after_of_some hclosed' hraises
  have hcontents : after.contents = t.shape.layout.container h := by
    rw [hafter]
    exact hs.contents
  obtain ⟨h', hended⟩ := Transaction.ended_holds (x := last) hs hcheck
  have hfile : after.file = s.file := by
    rw [hafter]
    exact hended.file_eq
  have hharmless (hlast : last.Harmless t started) : t.Holds s.file h after :=
    hafter ▸ hlast.holds hs hlayout hcheck
  obtain ⟨opened, fresh, hopen, hopened, hfresh⟩ :=
    openIn_spec (s := .start after.file true after.contents) t.batch hcontents hs.valid rfl
  have hsame : opened = t := by
    rw [hopened, ← hshape]
  rw [hsame] at hopen hfresh
  have hfresh : t.Holds s.file h fresh := hfile ▸ hfresh
  refine ⟨by rw [hafter], fresh, hopen, ⟨fun halike => ?_, fun hlast => ?_⟩,
    fun hlast key data hkey hP => ?_⟩
  · exact Transaction.harmless_of_alike hs hclosed' hlayout hcheck hraises hfresh halike
  · exact (hharmless hlast).alike hfresh hcheck
  · refine put_payload (hharmless hlast) hcheck hP (fun image himage => .inr ?_) hkey (.inl rfl)
    show image ∈ after.contents.payloads
    rw [hcontents]
    exact hs.valid.mem_payloads himage

/-- A payload that is stored already is put at another key, and the rollback of that is harmless. -/
theorem alike_after_rollback_stored :
    let image : Bytes := ⟨#[7]⟩
    let t : Tileset := ⟨Layout.normalized.shape, 1⟩
    let s : Session :=
      { Session.start "a" true .empty with contents := Layout.normalized.container .empty }
    let first : Transaction := ⟨[.write (.put ⟨0, 0, 0⟩ (some image))], none⟩
    let last : Transaction :=
      ⟨[.write (.put ⟨1, 0, 0⟩ (some image)), .write (.delete ⟨0, 0, 0⟩)], some .noMemory⟩
    let after := last.after t (first.after t s)
    last.Harmless t (first.after t s) ∧ after.contents = (first.after t s).contents ∧
      ∃ fresh, openIn t.batch (.start after.file true after.contents) = .ok t fresh ∧
        t.Alike after fresh := by
  intro image t s first last after
  have hreached : t.Reached s :=
    Reached.start .normalized 1 "a"
  have hharmless : last.Harmless t (first.after t s) := by
    have himages : (last.ended t (first.after t s)).contents.images =
        (first.after t s).contents.images := by decide +kernel
    refine .inr fun id => ?_
    rw [himages]
  have hbatch : -0x80000000 ≤ t.batch ∧ t.batch < 0x80000000 := by decide
  have hbefore : Transaction.AllHarmless t [first] s := ⟨nofun, trivial⟩
  have hmain := @alike_after_rollback t s hreached rfl hbatch rfl [first] hbefore last .noMemory rfl
  simp only [List.foldl_cons, List.foldl_nil] at hmain
  obtain ⟨hcontents, fresh, hopen, halike, -⟩ := hmain
  exact ⟨hharmless, hcontents, fresh, hopen, halike.2 hharmless⟩

/-- A payload whose image has been rolled back is put again without its image, and it cannot be
read; a payload whose image is there again after a rollback cannot be put. -/
theorem not_alike_after_rollback :
    let image : Bytes := ⟨#[7]⟩
    let t : Tileset := ⟨Layout.normalized.shape, 1⟩
    let s : Session :=
      { Session.start "a" true .empty with contents := Layout.normalized.container .empty }
    let put (image : Bytes) : StoreRequest := .write (.put ⟨0, 0, 0⟩ (some image))
    let answers (requests : List StoreRequest) (s : Session) :=
      (Action.attemptAll (requests.map (·.answer t)) s).1
    let added := (⟨[put image], some .noMemory⟩ : Transaction).after t s
    let stored := (⟨[put image], none⟩ : Transaction).after t s
    let dropped := (⟨[.write (.delete ⟨0, 0, 0⟩), .write .finalize, put ⟨#[8]⟩],
      some .noMemory⟩ : Transaction).after t stored
    t.Reached s ∧ added.contents = s.contents ∧ dropped.contents = stored.contents ∧
      answers [put image, .payload ⟨0, 0, 0⟩] s =
        [.ok (.written .done), .ok (.payload (some image))] ∧
      answers [put image, .payload ⟨0, 0, 0⟩] added =
        [.ok (.written .done), .ok (.payload none)] ∧
      answers [put image] dropped =
        [.error (.io (.statement "a" (.duplicate "images" ["tile_id"])))] := by
  intro image t s put answers added stored dropped
  have hreached : t.Reached s :=
    Reached.start .normalized 1 "a"
  refine ⟨hreached, ?_, ?_, ?_, ?_, ?_⟩ <;> decide +kernel

end Tileset

end TileAtlas
