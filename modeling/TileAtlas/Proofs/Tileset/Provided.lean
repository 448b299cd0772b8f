import TileAtlas.Proofs.Container.Provided
import TileAtlas.Proofs.Tileset.ForeignMerge
import TileAtlas.Proofs.Tileset.Payloads
import TileAtlas.Proofs.Tileset.Reached
import TileAtlas.Tileset.Summary

/-!
# What is found can be read

The layout of a container is found by asking for tables and columns, and its tiles are read by
queries that name tables and columns.  Where a layout is found the tables and columns that reading
names are there, and writing leaves them there.  Where none is found the table of metadata is
missing or every layout wants for something.

Asking compares names letter by letter.  A query takes small letters and capitals for the same, and
so it could read some of what is refused.
-/

namespace TileAtlas

variable {c : Container} {file : String} {layout : Layout}

/-- The table of metadata, with the columns that are read. -/
def metadataNeed : String × List String := ("metadata", ["name", "value"])

namespace Layout

/-- The tables of a layout that hold tiles, with the columns that are read. -/
def needs : Layout → List (String × List String)
  | flat => [("tiles", keyColumns ++ ["tile_data"])]
  | flatWithHash => [("tiles_with_hash", keyColumns ++ ["tile_data", "tile_hash"])]
  | normalized => [("map", keyColumns ++ ["tile_id"]), ("images", ["tile_data", "tile_id"])]

/-- The rows of a layout can be read exactly if its tables and columns are there. -/
theorem exists_rows_iff : (∃ rows, layout.rows c = .ok rows) ↔ c.HasAll layout.needs := by
  have hsingle (name : String) (columns : List String) :
      (∃ rows, (c.select name columns >>= fun rows => pure (rows.map TileRow.ofCells)) = .ok rows) ↔
        c.HasAll [(name, columns)] := by
    rw [Container.HasAll, List.forall_mem_singleton, Container.has_iff_exists_select]
    simp [except_bind_eq_ok, pure, Except.pure]
  cases layout with
  | flat => exact hsingle "tiles" (keyColumns ++ ["tile_data"])
  | flatWithHash => exact hsingle "tiles_with_hash" (keyColumns ++ ["tile_data", "tile_hash"])
  | normalized =>
      have himages : c.Has "images" ["tile_id", "tile_data"] ↔
          c.Has "images" ["tile_data", "tile_id"] :=
        ⟨fun h => h.mono (by decide), fun h => h.mono (by decide)⟩
      rw [Container.HasAll, needs, List.forall_mem_cons, List.forall_mem_singleton, ← himages,
        Container.has_iff_exists_list Table.rows, Container.has_iff_exists_list Table.rows]
      simp only [rows, rowsIn, except_bind_eq_ok, pure, Except.pure, Except.ok.injEq]
      constructor
      · rintro ⟨_, map, hmap, images, himages, -⟩
        exact ⟨⟨map, hmap⟩, images, himages⟩
      · rintro ⟨⟨map, hmap⟩, images, himages⟩
        exact ⟨_, map, hmap, images, himages, rfl⟩

theorem has_keyTable (h : c.HasAll layout.needs) : c.Has layout.keyTable [] := by
  cases layout <;> exact (h _ (List.mem_cons_self ..)).mono (List.nil_subset _)

end Layout

/-! ### Detection -/

/-- Whether a table with some columns is offered can be told if names differ in more than case. -/
theorem offers_table_eq (hnamed : c.Named) (name : String) (columns : List String) :
    ∃ answer, offers c name .table columns = .ok answer ∧
      (answer = true ↔ c.Has name columns) := by
  cases ht : c.table? name with
  | none =>
      refine ⟨false, ?_, nofun, fun ⟨t, ht', _⟩ => ?_⟩
      · unfold offers Container.objectKind?
        rw [ht, if_neg]
        cases c.view? name <;> simp
      · rw [ht] at ht'
        cases ht'
  | some t =>
      refine ⟨columns.all (t.columns.map (·.name)).contains, ?_, ?_⟩
      · simp [offers, Container.objectKind?, ht, Container.columnNames,
          Container.find?_sameName hnamed ht, bind, Except.bind, pure, Except.pure]
      · simp only [List.all_eq_true, List.contains_iff_mem, Container.Has, ht, Option.some.injEq,
          exists_eq_left', Table.Offers, Table.position?_isSome_iff]

/-- Where a layout is found its tables and columns are there, and so is the table of metadata. -/
theorem hasAll_of_detect {shape : Shape} (hnamed : c.Named) (h : detect file c = .ok shape) :
    c.HasAll (metadataNeed :: shape.layout.needs) := by
  refine List.forall_mem_cons.2 ⟨offers_table hnamed (detect_eq_ok h).1, ?_⟩
  exact Layout.exists_rows_iff.1 (Layout.exists_rows hnamed (offered_of_detect h))

/-- No layout is found exactly if every layout wants for something. -/
theorem shape?_eq_none_iff (hnamed : c.Named) :
    shape? c = .ok none ↔ ∀ layout : Layout, ¬ c.HasAll layout.needs := by
  obtain ⟨map, hmap, hasMap⟩ := offers_table_eq hnamed "map" (keyColumns ++ ["tile_id"])
  obtain ⟨images, himages, hasImages⟩ := offers_table_eq hnamed "images" ["tile_data", "tile_id"]
  obtain ⟨hashed, hhashed, hasHashed⟩ :=
    offers_table_eq hnamed "tiles_with_hash" (keyColumns ++ ["tile_data", "tile_hash"])
  obtain ⟨tiles, htiles, hasTiles⟩ := offers_table_eq hnamed "tiles" (keyColumns ++ ["tile_data"])
  have hnormalized : offersNormalized c = .ok (map && images) := by
    unfold offersNormalized
    rw [hmap, himages]
    cases map <;> rfl
  have hlayouts : (∀ layout : Layout, ¬ c.HasAll layout.needs) ↔
      (map && images) = false ∧ hashed = false ∧ tiles = false := by
    have hall (layout : Layout) : c.HasAll layout.needs ↔ (match layout with
        | .flat => tiles
        | .flatWithHash => hashed
        | .normalized => map && images) = true := by
      cases layout <;> simp [Container.HasAll, Layout.needs, *]
    simp only [hall, Bool.not_eq_true]
    exact ⟨fun h => ⟨h .normalized, h .flatWithHash, h .flat⟩, fun ⟨hn, hh, hf⟩ layout => by
      cases layout <;> assumption⟩
  rw [hlayouts]
  unfold shape?
  rw [hnormalized, hhashed, htiles]
  cases map && images with
  | true =>
      cases offers c "tiles_with_hash" .view (keyColumns ++ ["tile_data", "tile_hash"]) <;>
        simp [bind, Except.bind, pure, Except.pure]
  | false => cases hashed <;> cases tiles <;> simp [bind, Except.bind, pure, Except.pure]

/-- A layout is refused exactly if the table of metadata is missing or every layout wants for
something. -/
theorem detect_schema_iff (hnamed : c.Named) :
    (∃ cause, detect file c = .error (.schema cause)) ↔
      ¬ c.HasAll [metadataNeed] ∨ ∀ layout : Layout, ¬ c.HasAll layout.needs := by
  obtain ⟨metadata, hmetadata, hasMetadata⟩ := offers_table_eq hnamed "metadata" ["name", "value"]
  rw [← shape?_eq_none_iff hnamed, Container.HasAll, List.forall_mem_singleton,
    show c.Has metadataNeed.1 metadataNeed.2 ↔ metadata = true from hasMetadata.symm]
  unfold detect
  rw [hmetadata]
  cases metadata with
  | false => exact iff_of_true ⟨_, rfl⟩ (.inl nofun)
  | true =>
      cases hshape : shape? c with
      | error why => exact iff_of_false (fun ⟨_, h⟩ => nomatch h) (by simp)
      | ok found =>
          cases found with
          | none => exact iff_of_true ⟨_, rfl⟩ (.inr rfl)
          | some shape => exact iff_of_false (fun ⟨_, h⟩ => nomatch h) (by simp)

/-! ### Reading -/

section Supplied

variable {filter : TileFilter} {key : TileKey} {row : TileRow} {α : Type}

theorem supplied_checkZoom (zoom : Nat) : Supplied (checkZoom zoom) := by
  unfold checkZoom
  split
  · exact supplied_ok _
  · split <;> exact supplied_error id

theorem supplied_doubleOf (n : Int) : Supplied (doubleOf n) := by
  unfold doubleOf
  dsimp only
  split
  · exact supplied_ok _
  · exact supplied_error id

theorem supplied_longitude (column : Int) (side : Float) : Supplied (longitude column side) :=
  (supplied_doubleOf column).bind fun _ => supplied_ok _

theorem supplied_latitude (row : Int) (side : Float) : Supplied (latitude row side) := by
  refine (supplied_doubleOf _).bind fun y => ?_
  refine Supplied.bind ?_ fun _ => supplied_ok _
  unfold hyperbolicSine
  dsimp only
  split
  · exact supplied_error id
  · exact supplied_ok _

theorem supplied_bounds (key : TileKey) : Supplied key.bounds := by
  refine (supplied_checkZoom _).bind fun _ => ?_
  split
  · exact supplied_error id
  · refine (supplied_doubleOf _).bind fun side => ?_
    exact (supplied_longitude _ side).bind fun west => (supplied_latitude _ side).bind fun north =>
      (supplied_longitude _ side).bind fun east => (supplied_latitude _ side).bind fun south =>
        supplied_ok _

theorem supplied_acceptsArea (filter : TileFilter) (key : TileKey) :
    Supplied (Tileset.acceptsArea filter key) := by
  unfold Tileset.acceptsArea TileFilter.accepts
  split
  · split
    · exact supplied_ok _
    · split
      · exact supplied_ok _
      · refine (supplied_checkZoom _).bind fun _ => ?_
        split
        · exact supplied_ok _
        · exact (supplied_bounds key).bind fun _ => supplied_ok _
  · exact supplied_ok _

theorem supplied_payload (memory : Nat) (cell : Cell) : Supplied (payload memory cell) := by
  intro failure h
  have hunreported := (failure_of_payload h).2
  rintro habsence
  unfold Failure.OfAbsence at habsence
  split at habsence
  · cases hunreported
  · exact habsence

theorem supplied_rowKey (file : String) (row : TileRow) : Supplied (Tileset.rowKey file row) := by
  unfold Tileset.rowKey
  split
  · exact supplied_ok _
  · exact supplied_error id

theorem supplied_readTile (memory : Nat) (filter : TileFilter) (file : String) (row : TileRow) :
    Supplied (Tileset.readTile memory filter file row) := by
  refine (supplied_rowKey file row).bind fun key => (supplied_acceptsArea filter key).bind ?_
  rintro (_ | _)
  · exact supplied_ok none
  · exact (supplied_payload memory row.data).bind fun data => supplied_ok _

theorem supplied_readHashedTile (memory : Nat) (file : String) (row : TileRow) :
    Supplied (Tileset.readHashedTile memory file row) :=
  (supplied_rowKey file row).bind fun _ => (supplied_payload memory row.data).bind fun _ =>
    supplied_ok _

theorem supplied_ofGroup (group : List TileRow) : Supplied (ZoomSummary.ofGroup group) := by
  unfold ZoomSummary.ofGroup
  dsimp only
  split
  · exact supplied_ok _
  · exact supplied_error id

theorem supplied_ofQuery {β : Type} {rows : Except Failure (List α)}
    {read : α → Except Failure (Option β)} (hrows : Supplied rows)
    (hread : ∀ a, Supplied (read a)) : Supplied (Scan.ofQuery rows read).all := by
  cases rows with
  | ok rows => exact supplied_reading hread rows
  | error failure => exact supplied_error (hrows failure rfl)

end Supplied

namespace Tileset

variable {t : Tileset} {s : Session}

/-- Whether no way of reading a tileset fails because a table or a column is not there. -/
structure SuppliesReads (t : Tileset) (file : String) (c : Container) : Prop where
  tiles : ∀ filter memory, Supplied (t.scan filter file c memory).all
  hashedTiles : ∀ memory, Supplied (t.scanHashed file c memory).all
  tile : ∀ key memory, Supplied (t.entry? key file c memory)
  count : Supplied (t.count file c)
  isEmpty : Supplied (t.isEmpty file c)
  metadata : Supplied (metadata file c)
  metadataValue : ∀ name, Supplied (metadataValue? name file c)
  summary : Supplied (t.summary file c)

theorem supplied_rows {rows : List TileRow} (h : t.shape.layout.rows c = .ok rows)
    (filter : TileFilter) (hashed : Bool) : Supplied (t.rows filter hashed file c) := by
  obtain ⟨visited, hvisited, -⟩ := Layout.exists_visited_of_rows h
    (.scan (!(filter.minZoom.toList ++ filter.maxZoom.toList).isEmpty) hashed)
  rw [rows_of_visited hvisited]
  split
  · refine Supplied.map ?_ _
    unfold checkBatch
    split
    · exact supplied_ok _
    · exact supplied_error id
  · exact supplied_error id

/-- The table of metadata answers for every name. -/
theorem exists_metadataValue {m : Table} (hm : c.table? "metadata" = some m)
    (hcolumns : m.Offers ["name", "value"]) (name : Cell) (file : String) :
    ∃ value, metadataValue? name file c = .ok value := by
  simp only [metadataValue?, metadataRows, Container.visit, Container.list_eq hm hcolumns, onFile,
    bind, Except.bind, pure, Except.pure]
  exact ⟨_, rfl⟩

/-- What can be read if all tables and columns are there. -/
theorem suppliesReads_of_hasAll (h : c.HasAll (metadataNeed :: t.shape.layout.needs))
    (file : String) : t.SuppliesReads file c := by
  obtain ⟨⟨m, hm, hcolumns⟩, hneeds⟩ := List.forall_mem_cons.1 h
  obtain ⟨rows, hrows⟩ := Layout.exists_rows_iff.2 hneeds
  have hvalue (name : Cell) : Supplied (metadataValue? name file c) := by
    obtain ⟨value, hvalue⟩ := exists_metadataValue hm hcolumns name file
    rw [hvalue]
    exact supplied_ok value
  refine ⟨fun filter memory => ?_, fun memory => ?_, fun key memory => ?_, ?_, ?_, ?_, hvalue, ?_⟩
  · exact supplied_ofQuery (supplied_rows hrows filter false) (supplied_readTile memory filter file)
  · exact supplied_ofQuery (supplied_rows hrows .all true) (supplied_readHashedTile memory file)
  · obtain ⟨visited, hvisited, -⟩ := Layout.exists_visited_of_rows hrows .entry
    unfold entry?
    dsimp only
    rw [hvisited]
    refine (supplied_ok visited).bind fun rows => ?_
    split
    · split
      · exact supplied_ok none
      · exact (supplied_payload memory _).bind fun _ => supplied_ok _
    · exact supplied_error id
  · rw [Tileset.count, hrows]
    exact supplied_ok _
  · obtain ⟨keys, hkeys⟩ := Container.has_iff_exists_select.1 (Layout.has_keyTable hneeds)
    rw [Tileset.isEmpty, hkeys]
    exact supplied_ok _
  · rw [metadata_of_table hm hcolumns]
    exact supplied_ok _
  · unfold Tileset.summary
    rw [hrows]
    exact (supplied_mapM supplied_ofGroup _).bind fun zooms =>
      (hvalue _).bind fun _ => supplied_ok _

/-! ### Reading after writing -/

open TileAtlas.Action

section Leaves

variable {I : Session → Prop} (hexecute : ∀ statement s, I s → Leaves (execute statement) s I)
  (himages : ∀ s images, I s → I { s with images })

include himages in
theorem imageIndex_leaves (t : Tileset) (hs : I s) : Leaves t.imageIndex s I := by
  refine .get_bind ?_
  split
  · exact hs
  · refine (leaves_query _ hs).bind fun ids s' hs' => (leaves_ofExcept _ hs').bind ?_
    intro _ s'' hs''
    exact himages _ _ hs''

include hexecute himages in
theorem imageFor_leaves (t : Tileset) (data : Bytes) (hs : I s) :
    Leaves (t.imageFor data) s I := by
  have hlookup : Leaves (t.lookupImage (payloadHash data)) s I :=
    (imageIndex_leaves himages t hs).bind fun _ _ h => h
  refine hlookup.bind fun found s' hs' => ?_
  cases found with
  | some id => exact hs'
  | none =>
      refine (hexecute _ s' hs').bind fun _ s₁ hs₁ => ?_
      exact (imageIndex_leaves himages t hs₁).bind fun _ s₂ hs₂ => himages _ _ hs₂

include hexecute in
theorem delete_leaves_of_execute (t : Tileset) (key : TileKey) (hs : I s) :
    Leaves (t.delete key) s I :=
  (hexecute _ s hs).bind fun _ _ h => .pure h

include hexecute himages in
theorem put_leaves_of_execute (t : Tileset) (key : TileKey) (data : Option Bytes) (hs : I s) :
    Leaves (t.put key data) s I := by
  have hcolumns (s₁ : Session) (hs₁ : I s₁) : Leaves (t.tileColumns data) s₁ I := by
    unfold tileColumns
    cases t.shape.layout with
    | flat => exact hs₁
    | flatWithHash => exact hs₁
    | normalized =>
        cases data with
        | none => exact hs₁
        | some bytes =>
            exact (imageFor_leaves hexecute himages t bytes hs₁).bind fun _ _ h => .pure h
  refine (delete_leaves_of_execute hexecute t key hs).bind fun _ s₁ hs₁ => ?_
  refine (hcolumns s₁ hs₁).bind fun columns s₂ hs₂ => ?_
  exact (hexecute _ s₂ hs₂).bind fun _ _ h => .pure h

include hexecute himages in
/-- What every statement leaves as it is, whatever is known of the images, every store operation
does. -/
theorem run_leaves_of_execute (t : Tileset) (operation : StoreOperation) (hs : I s) :
    Leaves (operation.run t) s I := by
  cases operation with
  | put key data => exact put_leaves_of_execute hexecute himages t key data hs
  | delete key =>
      exact (delete_leaves_of_execute hexecute t key hs).bind fun _ _ h => .pure h
  | finalize =>
      have hfinalize : Leaves t.finalize s I := by
        unfold finalize
        split
        · refine (hexecute _ s hs).bind fun dropped s' hs' => ?_
          split
          · exact himages _ _ hs'
          · exact hs'
        · exact hs
      exact hfinalize.bind fun _ _ h => .pure h
  | putMetadata name value =>
      refine (hexecute _ s hs).bind fun _ s' hs' => ?_
      split
      · exact (hexecute _ s' hs').bind fun _ _ h => h
      · exact hs'

end Leaves

theorem attemptAll_hasAll {needs : List (String × List String)} {t : Tileset}
    (h : s.contents.HasAll needs) (operations : List StoreOperation) :
    (attemptAll (operations.map (·.run t)) s).2.contents.HasAll needs := by
  refine attemptAll_keeps (I := fun s => s.contents.HasAll needs) (fun step hstep s hs => ?_) h
  obtain ⟨operation, -, rfl⟩ := List.mem_map.1 hstep
  exact run_leaves_of_execute (fun statement s hs => execute_hasAll statement hs)
    (fun _ _ h => h) t operation hs

/-- Where a layout is found, its tables and columns are there and so is the table of metadata, and
after any store operations, whether they succeed or fail, nothing that is read fails because one of
them is not there.  A layout is refused exactly if the table of metadata is missing or every layout
wants for some table or column. -/
theorem detected_is_readable (hnamed : s.contents.Named) :
    (∀ t : Tileset, detect s.file s.contents = .ok t.shape →
      s.contents.HasAll (metadataNeed :: t.shape.layout.needs) ∧
      ∀ operations : List StoreOperation,
        let s' := (attemptAll (operations.map (·.run t)) s).2
        s'.contents.HasAll (metadataNeed :: t.shape.layout.needs) ∧
        t.SuppliesReads s'.file s'.contents) ∧
    ((∃ cause, detect s.file s.contents = .error (.schema cause)) ↔
      ¬ s.contents.HasAll [metadataNeed] ∨
        ∀ layout : Layout, ¬ s.contents.HasAll layout.needs) := by
  refine ⟨fun t hdetected => ?_, detect_schema_iff hnamed⟩
  have hall := hasAll_of_detect hnamed hdetected
  refine ⟨hall, fun operations => ?_⟩
  intro s'
  have hkept := attemptAll_hasAll (t := t) hall operations
  exact ⟨hkept, suppliesReads_of_hasAll hkept s'.file⟩

/-- A container that offers two layouts, with its columns in other orders and among others, is read
after a tile has been put; one whose tiles are in a view only is refused, and wants for a table in
every layout. -/
theorem detected_is_readable_several :
    let metadata : Table := ⟨"metadata", ["value", "note", "name"].map .free, [], []⟩
    let map : Table := ⟨"map", "tile_id" :: keyColumns.reverse |>.map .free, [], []⟩
    let images : Table := ⟨"images", ["tile_id", "tile_data", "size"].map .free, ["tile_id"], []⟩
    let tiles : Table := ⟨"tiles", (keyColumns ++ ["tile_data"]).map .free, [], []⟩
    let several : Container := ⟨[tiles, images, map, metadata], []⟩
    let shown : Container := ⟨[metadata, map], [Layout.tilesView "map"]⟩
    let t : Tileset := ⟨⟨.normalized, false⟩, 1⟩
    let put : StoreOperation := .put ⟨1, 0, 1⟩ (some ⟨#[1]⟩)
    let s' := (attemptAll [put.run t] (.start "a" true several)).2
    several.Named ∧ detect "a" several = .ok t.shape ∧ t.SuppliesReads "a" s'.contents ∧
      shown.Named ∧ detect "a" shown = .error (.schema (.layoutUnknown "a")) ∧
      ∀ layout : Layout, ¬ shown.HasAll layout.needs := by
  intro metadata map images tiles several shown t put s'
  have hseveral : several.Named := by
    unfold Container.Named
    decide +kernel
  have hshown : shown.Named := by
    unfold Container.Named
    decide +kernel
  have hdetected : detect "a" several = .ok t.shape := by decide +kernel
  have hrefused : detect "a" shown = .error (.schema (.layoutUnknown "a")) := by decide +kernel
  obtain ⟨-, hreads⟩ :=
    (detected_is_readable (s := .start "a" true several) hseveral).1 t hdetected
  have hmetadata : shown.HasAll [metadataNeed] :=
    List.forall_mem_singleton.2 ⟨metadata, rfl, by unfold Table.Offers; decide⟩
  have hneeds := (detected_is_readable (s := .start "a" true shown) hshown).2.1 ⟨_, hrefused⟩
  have hfile : s'.file = "a" := by decide +kernel
  exact ⟨hseveral, hdetected, hfile ▸ (hreads [put]).2, hshown, hrefused,
    hneeds.resolve_left fun h => h hmetadata⟩

/-- Tables whose columns are named in capitals are refused, though a query finds in them all that the
flat layout wants. -/
theorem not_detected_is_readable :
    let table (name : String) (columns : List String) : Table :=
      ⟨name, (columns.map fun column => Text.upper column).map .free, [], []⟩
    let c : Container := ⟨[⟨"metadata", ["name", "value"].map .free, [], []⟩,
      table "tiles" (keyColumns ++ ["tile_data"])], []⟩
    c.Named ∧ detect "a" c = .error (.schema (.layoutUnknown "a")) ∧ c.HasAll [metadataNeed] ∧
      ∀ need ∈ Layout.flat.needs, ∃ t ∈ c.tables, Container.sameName t.name need.1 ∧
        ∀ column ∈ need.2, ∃ own ∈ t.columns, Container.sameName own.name column := by
  intro table c
  refine ⟨?_, by decide +kernel, ?_, by decide +kernel⟩
  · unfold Container.Named
    decide +kernel
  · exact List.forall_mem_singleton.2 ⟨_, rfl, by unfold Table.Offers; decide⟩

end Tileset

end TileAtlas
