import TileAtlas.Proofs.Container.Session
import TileAtlas.Proofs.Tileset.Index
import TileAtlas.Proofs.Tileset.Valid
import TileAtlas.Tileset.Store

/-!
# Store operations on a holding

An open container of the library `Holds` a holding.  Every store operation ends in a container that
holds what the operation of the same name makes of the holding; an operation that fails ends in a
container that holds something as well.
-/

namespace TileAtlas

namespace Tileset

open Layout

/-- What an open tileset holds, where the index of images, once it is there, knows the images. -/
structure Holds (t : Tileset) (file : String) (h : Holding) (s : Session) : Prop where
  file_eq : s.file = file
  writable : s.writable = true
  contents : s.contents = t.shape.layout.container h
  valid : h.Valid t.shape.layout
  knows : ∀ index ∈ s.images, ImageIndex.Knows index h.images

variable {t : Tileset} {file : String} {h : Holding} {s : Session} {key : TileKey}
  {data : Option Bytes}

theorem Holds.execute (hs : t.Holds file h s) {statement : Statement} {touched : Nat} {h' : Holding}
    (hcheck : statement.check (t.shape.layout.container h) = .ok ())
    (hfits : statement.values.all Cell.fits = true)
    (hrun : statement.run (t.shape.layout.container h) = .ok (touched, t.shape.layout.container h'))
    (hvalid : h'.Valid t.shape.layout) (himages : h'.images = h.images) :
    Yields (Action.execute statement) s fun n s' => n = touched ∧ t.Holds file h' s' := by
  refine .intro (Action.execute_of_run (by rwa [hs.contents]) hfits hs.writable
    (by rw [hs.contents]; exact hrun)) ⟨rfl, ?_⟩
  exact ⟨hs.file_eq, hs.writable, rfl, hvalid, by rw [himages]; exact hs.knows⟩

/-- Deleting tells whether there was a tile at the key. -/
theorem delete_answer (hs : t.Holds file h s) (hkey : key.cells.all Cell.fits = true) :
    Yields (t.delete key) s fun found s' =>
      found = h.tiles.any (fun tile => tile.key = key) ∧ t.Holds file (h.delete key) s' := by
  have hdelete := hs.execute (check_deleteTile key) hkey (run_deleteTile key)
    (hs.valid.delete key) rfl
  refine hdelete.bind fun n s' hn => .pure ⟨?_, hn.2⟩
  rw [hn.1, Bool.eq_iff_iff, decide_eq_true_iff, List.countP_pos_iff, List.any_eq_true]

theorem delete_spec (hs : t.Holds file h s) (hkey : key.cells.all Cell.fits = true) :
    Yields (t.delete key) s fun _ s' => t.Holds file (h.delete key) s' :=
  (delete_answer hs hkey).mono fun _ _ hs' => hs'.2

theorem delete_unfit (hs : t.Holds file h s) (hkey : key.cells.all Cell.fits = false) :
    t.delete key s = .error .outOfRange s := by
  have hexecute : Action.execute (.delete t.shape.layout.keyTable (keyConditions key)) s =
      .error .outOfRange s :=
    Action.execute_of_unfit (by rw [hs.contents]; exact check_deleteTile key) hkey
  simp only [delete, bind_apply, hexecute]

/-! ### Images -/

theorem imageIndex_spec (hs : t.Holds file h s) (hlayout : t.shape.layout = .normalized)
    (hbatch : s.images = none → checkBatch t.batch = .ok ()) :
    Yields t.imageIndex s fun index s' =>
      index.Knows h.images ∧ s'.images = some index ∧ t.Holds file h s' := by
  cases himages : s.images with
  | some index =>
      refine ⟨index, s, ?_, hs.knows index himages, himages, hs⟩
      simp only [imageIndex, bind_apply, get_apply, himages, pure_apply]
  | none =>
      obtain ⟨images, hperm, hids⟩ := imageIds_container s.file h
      let index : ImageIndex := .ofIds (images.map fun image => .text (payloadHash image))
      have hknows : index.Knows h.images :=
        (ImageIndex.knows_ofIds images).of_mem_iff fun image => hperm.mem_iff.symm
      have hquery : Action.query imageIds s =
          .ok (images.map fun image => .text (payloadHash image)) s :=
        Action.query_ok (by rw [hs.contents, hlayout]; exact hids)
      have hcheck := Action.ofExcept_ok (hbatch himages) s
      refine ⟨index, { s with images := some index }, ?_,
        hknows, rfl, hs.file_eq, hs.writable, hs.contents, hs.valid, ?_⟩
      · simp only [imageIndex, bind_apply, get_apply, himages, hquery, hcheck, modify_apply,
          pure_apply, index]
      · intro index' hindex'
        obtain rfl := Option.some.inj hindex'
        exact hknows

theorem imageIndex_of_some {index : ImageIndex} (himages : s.images = some index) :
    t.imageIndex s = .ok index s := by
  simp only [imageIndex, bind_apply, get_apply, himages, pure_apply]

theorem imageFor_spec (hs : t.Holds file h s) (hlayout : t.shape.layout = .normalized)
    (hbatch : s.images = none → checkBatch t.batch = .ok ()) (data : Bytes) :
    Yields (t.imageFor data) s fun id s' =>
      id = .text (payloadHash data) ∧ t.Holds file (h.store t.shape.layout data) s' := by
  have hlookup : Yields (t.lookupImage (payloadHash data)) s fun id s' =>
      t.Holds file h s' ∧ ∃ index, s'.images = some index ∧ index.Knows h.images ∧
        id = index.find? (payloadHash data) :=
    (imageIndex_spec hs hlayout hbatch).bind fun index s' ⟨hknows, himages, hs'⟩ =>
      .pure ⟨hs', index, himages, hknows, rfl⟩
  refine hlookup.bind fun id s' ⟨hs', index, himages, hknows, hid⟩ => ?_
  rw [hid, hknows data]
  by_cases hnew : payloadHash data ∈ h.images.map payloadHash
  · rw [if_pos hnew]
    refine .pure ⟨rfl, ?_⟩
    rwa [Holding.store, if_neg fun hstore => hstore.2 hnew]
  · rw [if_neg hnew]
    have hstore : h.store t.shape.layout data = { h with images := h.images ++ [data] } :=
      if_pos ⟨hlayout, hnew⟩
    let stored : Session :=
      { s' with contents := t.shape.layout.container (h.store t.shape.layout data) }
    have hexecute : Yields (Action.execute (.insert "images"
        [("tile_id", .text (payloadHash data)), ("tile_data", .blob data)])) s' fun _ s'' =>
        s'' = stored := by
      have hcheck := check_insertImage (h := h) data
      have hrun := run_insertImage hnew
      rw [← hstore, ← hlayout] at hrun
      rw [← hlayout] at hcheck
      rw [← hs'.contents] at hcheck hrun
      exact .intro (Action.execute_of_run hcheck rfl hs'.writable hrun) rfl
    have hindex : Yields t.imageIndex stored fun index' s'' => index' = index ∧ s'' = stored :=
      .intro (imageIndex_of_some himages) ⟨rfl, rfl⟩
    refine hexecute.bind fun _ _ hstored => hstored ▸ hindex.bind fun index' _ hindex' => ?_
    obtain ⟨rfl, rfl⟩ := hindex'
    refine .intro (a := .text (payloadHash data)) rfl
      ⟨rfl, hs'.file_eq, hs'.writable, rfl, hs'.valid.store data, fun index'' hindex'' => ?_⟩
    obtain rfl := Option.some.inj hindex''
    rw [hstore]
    exact hknows.set data

/-! ### Tiles -/

/-- Whether a payload can be put: only the images of a normalized container are fetched in
batches, unless they are known already. -/
def CanPut (t : Tileset) (s : Session) (data : Option Bytes) : Prop :=
  t.shape.layout = .normalized → data.isSome → s.images = none → checkBatch t.batch = .ok ()

theorem tileColumns_spec (hs : t.Holds file h s) (hput : t.CanPut s data) :
    Yields (t.tileColumns data) s fun columns s' =>
      columns = t.shape.layout.tileCells data ∧
        t.Holds file (data.elim h (h.store t.shape.layout)) s' := by
  have hplain (hlayout : t.shape.layout ≠ .normalized) :
      t.Holds file (data.elim h (h.store t.shape.layout)) s := by
    cases data with
    | none => exact hs
    | some bytes => rwa [Option.elim_some, Holding.store, if_neg fun hstore => hlayout hstore.1]
  cases hlayout : t.shape.layout with
  | flat =>
      simp only [tileColumns, hlayout]
      exact .pure ⟨rfl, hlayout ▸ hplain (by simp [hlayout])⟩
  | flatWithHash =>
      simp only [tileColumns, hlayout]
      exact .pure ⟨rfl, hlayout ▸ hplain (by simp [hlayout])⟩
  | normalized =>
      simp only [tileColumns, hlayout]
      cases data with
      | none => exact .pure ⟨rfl, hs⟩
      | some bytes =>
          refine (imageFor_spec hs hlayout (hput hlayout rfl) bytes).bind ?_
          rintro id s' ⟨hid, hs'⟩
          refine .pure ⟨?_, ?_⟩
          · rw [hid]
            rfl
          · rwa [hlayout] at hs'

theorem tileColumns_error (hs : t.Holds file h s) (hput : ¬ t.CanPut s data) :
    ∃ failure, t.tileColumns data s = .error failure s := by
  simp only [CanPut, Classical.not_imp] at hput
  obtain ⟨hlayout, hdata, himages, hbatch⟩ := hput
  obtain ⟨bytes, rfl⟩ := Option.isSome_iff_exists.1 hdata
  obtain ⟨images, -, hids⟩ := imageIds_container s.file h
  have hquery : Action.query imageIds s =
      .ok (images.map fun image => .text (payloadHash image)) s :=
    Action.query_ok (by rw [hs.contents, hlayout]; exact hids)
  cases hcheck : checkBatch t.batch with
  | ok _ => exact absurd hcheck hbatch
  | error failure =>
      refine ⟨failure, ?_⟩
      simp only [tileColumns, hlayout, imageFor, lookupImage, imageIndex, bind_apply, get_apply,
        himages, hquery, Action.ofExcept_error hcheck]

theorem insert_spec (hs : t.Holds file h s) (hkey : key.cells.all Cell.fits = true)
    (data : Option Bytes) (hnew : ∀ tile ∈ h.tiles, tile.key ≠ key) {h' : Holding}
    (hh' : h' = { h with tiles := h.tiles ++ [⟨key, data⟩] }) (hvalid : h'.Valid t.shape.layout) :
    Yields (Action.execute (.insert t.shape.layout.keyTable
      (keyConditions key ++ t.shape.layout.tileCells data))) s fun _ s' => t.Holds file h' s' := by
  have hfits : (Statement.insert t.shape.layout.keyTable
      (keyConditions key ++ t.shape.layout.tileCells data)).values.all Cell.fits = true := by
    have hcells : ((t.shape.layout.tileCells data).map (·.2)).all Cell.fits = true := by
      cases t.shape.layout <;> cases data <;> rfl
    rw [Statement.values, List.map_append, List.all_append, hcells, Bool.and_true]
    exact hkey
  refine (hs.execute (check_insertTile key data) hfits (hh' ▸ run_insertTile hnew) hvalid
    (hh' ▸ rfl)).mono fun n s' hn => hn.2

/-- What putting a tile comes to once the tile that was at its key is deleted. -/
theorem put_rest (hs : t.Holds file (h.delete key) s)
    (hvalid : h.Valid t.shape.layout) (hkey : key.cells.all Cell.fits = true)
    (hput : t.CanPut s data) :
    Yields (do
      let columns ← t.tileColumns data
      let _ ← Action.execute (.insert t.shape.layout.keyTable (keyConditions key ++ columns))) s
      fun _ s' => t.Holds file (h.put t.shape.layout key data) s' := by
  refine (tileColumns_spec hs hput).bind fun columns s' ⟨hcolumns, hs'⟩ => ?_
  have hnew : ∀ tile ∈ (data.elim (h.delete key) ((h.delete key).store t.shape.layout)).tiles,
      tile.key ≠ key := by
    intro tile htile
    cases data <;> exact (Holding.mem_delete.1 (by simpa using htile)).2
  have hinsert := insert_spec hs' hkey (data.map (h.kept t.shape.layout)) hnew rfl
    (hvalid.put hkey data)
  rw [tileCells_kept, ← hcolumns] at hinsert
  exact hinsert.bind fun _ _ hs'' => .pure hs''

theorem put_spec (hs : t.Holds file h s) (hkey : key.cells.all Cell.fits = true)
    (data : Option Bytes) (hbatch : checkBatch t.batch = .ok ()) :
    Yields (t.put key data) s fun _ s' => t.Holds file (h.put t.shape.layout key data) s' :=
  (delete_spec hs hkey).bind fun _ _ hs' => put_rest hs' hs.valid hkey fun _ _ _ => hbatch

theorem delete_leaves (hs : t.Holds file h s) (key : TileKey) :
    Leaves (t.delete key) s fun s' => ∃ h', t.Holds file h' s' := by
  cases hkey : key.cells.all Cell.fits with
  | false => exact .of_error (delete_unfit hs hkey) ⟨h, hs⟩
  | true => exact ((delete_spec hs hkey).mono fun _ _ hs' => ⟨_, hs'⟩).ends

/-- A tile is put, or putting it fails, and then the container holds something as well. -/
theorem put_ends (hs : t.Holds file h s) (key : TileKey) (data : Option Bytes) :
    Ends (t.put key data) s (fun _ s' => t.Holds file (h.put t.shape.layout key data) s')
      fun s' => ∃ h', t.Holds file h' s' := by
  cases hkey : key.cells.all Cell.fits with
  | false => exact (Ends.of_error (delete_unfit hs hkey) ⟨h, hs⟩).bind (Q := fun _ _ => False) nofun
  | true =>
      refine (delete_spec hs hkey).ends.bind fun _ s' hs' => ?_
      by_cases hput : t.CanPut s' data
      · exact (put_rest hs' hs.valid hkey hput).ends
      · obtain ⟨failure, herror⟩ := tileColumns_error hs' hput
        exact (Ends.of_error herror ⟨_, hs'⟩).bind (Q := fun _ _ => False) nofun

/-- However putting a tile ends, the container holds something. -/
theorem put_leaves (hs : t.Holds file h s) (key : TileKey) (data : Option Bytes) :
    Leaves (t.put key data) s fun s' => ∃ h', t.Holds file h' s' :=
  (put_ends hs key data).mono (fun _ _ hs' => ⟨_, hs'⟩) fun _ hs' => hs'

/-! ### Images and metadata -/

/-- Finalizing tells how many images it drops. -/
theorem finalize_answer (hs : t.Holds file h s) :
    Yields t.finalize s fun n s' =>
      n = h.images.length - h.finalize.images.length ∧ t.Holds file h.finalize s' := by
  by_cases hlayout : t.shape.layout = .normalized
  · simp only [finalize, hlayout, if_true]
    have hcheck := check_dropImages (h := h)
    have hrun := run_dropImages (h := h)
    rw [← hlayout, ← hs.contents] at hcheck hrun
    refine (Yields.intro (Action.execute_of_run hcheck rfl hs.writable hrun)
      (Q := fun n s' => n = _ ∧ s' = _) ⟨rfl, rfl⟩).bind fun n s' hn => ?_
    obtain ⟨rfl, rfl⟩ := hn
    by_cases hdropped : 0 < h.images.length - (h.images.filter h.uses).length
    · simp only [hdropped, if_true]
      refine .intro rfl ⟨rfl, hs.file_eq, hs.writable, rfl, hs.valid.finalize, ?_⟩
      simp
    · simp only [hdropped, if_false]
      have hall : h.images.filter h.uses = h.images := by
        refine (List.filter_sublist (p := h.uses) (l := h.images)).eq_of_length_le ?_
        omega
      refine .intro rfl ⟨rfl, hs.file_eq, hs.writable, rfl, hs.valid.finalize, ?_⟩
      rw [Holding.finalize, hall]
      exact hs.knows
  · have hfinalize : h.finalize = h := by
      rw [Holding.finalize, hs.valid.unused hlayout, List.filter_nil, ← hs.valid.unused hlayout]
    simp only [finalize, hlayout, if_false]
    rw [hfinalize]
    exact .pure ⟨(Nat.sub_self _).symm, hs⟩

theorem finalize_spec (hs : t.Holds file h s) :
    Yields t.finalize s fun _ s' => t.Holds file h.finalize s' :=
  (finalize_answer hs).mono fun _ _ hs' => hs'.2

theorem putMetadata_spec (hs : t.Holds file h s) (name : String) (value : Option String) :
    Yields (putMetadata (.text name) (.ofText? value)) s fun _ s' =>
      t.Holds file (h.putMetadata name value) s' := by
  have herase : Yields (Action.execute (.delete "metadata" [("name", .text name)])) s fun _ s' =>
      t.Holds file (h.erase name) s' := by
    obtain ⟨touched, hrun⟩ := run_deleteMetadata t.shape.layout h name
    have hvalid := hs.valid.putMetadata name none
    rw [Holding.putMetadata_none] at hvalid
    exact (hs.execute (check_deleteMetadata name) rfl hrun hvalid rfl).mono fun _ _ hn => hn.2
  refine herase.bind fun _ s' hs' => ?_
  cases value with
  | none =>
      rw [Holding.putMetadata_none]
      exact .pure hs'
  | some value =>
      have hnew : ∀ old ∈ (h.erase name).metadata, old.1 ≠ name := by simp [Holding.erase]
      exact (hs'.execute (check_insertMetadata name value) rfl (run_insertMetadata value hnew)
        (hs.valid.putMetadata name (some value)) rfl).bind fun _ _ hn => .pure hn.2

end Tileset

end TileAtlas
