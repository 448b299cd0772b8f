import TileAtlas.Proofs.Metadata.Lookup
import TileAtlas.Proofs.Order.Sort
import TileAtlas.Proofs.Tileset.Valid
import TileAtlas.Proofs.Tileset.Visited

/-!
# Reading a holding

In every layout a container shows the tiles that it holds.  They are read in ascending order of
keys, the tile at a key is found, and the metadata is read as it was put.
-/

namespace TileAtlas

/-- The tiles in ascending order of keys. -/
def Holding.sorted (h : Holding) : List Tile := inOrder h.tiles

variable {h : Holding} {layout : Layout}

/-- The payloads that a container stores. -/
def Container.payloads (c : Container) : List Bytes :=
  c.tables.flatMap fun table => table.rows.flatten.filterMap fun
    | .blob data => some data
    | _ => none

theorem Holding.Valid.mem_payloads (hvalid : h.Valid layout) {image : Bytes}
    (himage : image ∈ h.images) : image ∈ (layout.container h).payloads := by
  by_cases hlayout : layout = .normalized
  · subst hlayout
    refine List.mem_flatMap.2 ⟨Layout.imagesTableOf h.images, by simp [Layout.container], ?_⟩
    refine List.mem_filterMap.2
      ⟨.blob image, List.mem_flatten.2 ⟨Layout.imageRow image, ?_, ?_⟩, rfl⟩
    · exact List.mem_map.2 ⟨image, himage, rfl⟩
    · exact List.mem_cons_self ..
  · simp [hvalid.unused hlayout] at himage

/-! ### Rows -/

/-- The row that a layout shows for a tile. -/
def Layout.shownRow (layout : Layout) (tile : Tile) : TileRow :=
  ⟨.int tile.key.zoom, .int tile.key.column, .int tile.key.row, .ofPayload tile.data,
    if layout = flat then .null else .ofText? (tileHash tile.data)⟩

theorem filter_eq_singleton {α β : Type} [DecidableEq β] {f : α → β} {l : List α}
    (hl : l.Pairwise fun a b => f a ≠ f b) {a : α} (ha : a ∈ l) :
    l.filter (fun b => f b = f a) = [a] := by
  induction l with
  | nil => simp at ha
  | cons b rest ih =>
      obtain ⟨hfirst, hrest⟩ := List.pairwise_cons.1 hl
      rcases List.mem_cons.1 ha with rfl | ha
      · rw [List.filter_cons_of_pos (by simp)]
        have hnone : rest.filter (fun b => f b = f a) = [] :=
          List.filter_eq_nil_iff.2 fun b hb => by simpa using (hfirst b hb).symm
        rw [hnone]
      · rw [List.filter_cons_of_neg (by simpa using hfirst a ha), ih hrest ha]

namespace Layout

/-- An image as the rows of a normalized container are joined with it. -/
def imagePair (data : Bytes) : Row := [.text (payloadHash data), .blob data]

theorem imagesOf_tile (hvalid : h.Valid normalized) {tile : Tile} (htile : tile ∈ h.tiles) :
    imagesOf .any (h.images.map imagePair) (.ofText? (tileHash tile.data)) =
      tile.data.toList.map imagePair := by
  simp only [imagesOf, Affinity.keep_any]
  rw [List.filter_map]
  cases hdata : tile.data with
  | none =>
      rw [List.filter_eq_nil_iff.2]
      · rfl
      · intro image _
        simp [Cell.ofText?, tileHash]
  | some data =>
      have hmem : data ∈ h.images := hvalid.stored rfl tile htile data hdata
      have hcondition : ((fun image => (image.getD 0 .null).eqv
          (.ofText? (tileHash (some data)))) ∘ imagePair) =
          fun image => decide (payloadHash image = payloadHash data) :=
        funext fun image => Cell.eqv_text _ _
      rw [hcondition, filter_eq_singleton hvalid.hashes hmem]
      rfl

theorem joinedRows_container (hvalid : h.Valid normalized) :
    joinedRows .any (h.tiles.map normalized.tileRow) (h.images.map imagePair) =
      h.tiles.map normalized.shownRow := by
  rw [joinedRows, List.flatMap_map, List.map_eq_flatMap (l := h.tiles)]
  refine List.flatMap_congr fun tile htile => ?_
  have hid : (normalized.tileRow tile).getD 3 .null = .ofText? (tileHash tile.data) := rfl
  simp only [hid, imagesOf_tile hvalid htile]
  obtain ⟨key, data⟩ := tile
  cases data <;> rfl

/-- A container shows its tiles in the order in which they are stored. -/
theorem rows_container (hvalid : h.Valid layout) :
    layout.rows (layout.container h) = .ok (h.tiles.map layout.shownRow) := by
  cases layout with
  | flat =>
      have hlist : (flat.container h).list "tiles" (keyColumns ++ ["tile_data"]) Table.rows =
          .ok (h.tiles.map flat.tileRow) :=
        congrArg Except.ok List.map_map
      simp only [rows, rowsIn, hlist, bind, Except.bind, pure, Except.pure, List.map_map]
      rfl
  | flatWithHash =>
      have hlist : (flatWithHash.container h).list "tiles_with_hash"
          (keyColumns ++ ["tile_data", "tile_hash"]) Table.rows =
            .ok (h.tiles.map flatWithHash.tileRow) :=
        congrArg Except.ok List.map_map
      simp only [rows, rowsIn, hlist, bind, Except.bind, pure, Except.pure, List.map_map]
      rfl
  | normalized =>
      have hmap : (normalized.container h).list "map" (keyColumns ++ ["tile_id"]) Table.rows =
          .ok (h.tiles.map normalized.tileRow) :=
        congrArg Except.ok List.map_map
      have himages : (normalized.container h).list "images" ["tile_id", "tile_data"] Table.rows =
          .ok (h.images.map imagePair) :=
        congrArg Except.ok List.map_map
      have hjoined : joinedIds (normalized.container h) = .any := rfl
      simp only [rows, rowsIn, hmap, himages, hjoined, bind, Except.bind, pure, Except.pure,
        joinedRows_container hvalid]

/-- The numbers of a key are compared with the columns as they are. -/
theorem keyAffinity_container (layout : Layout) (h : Holding) :
    ∀ column ∈ keyColumns, layout.keyAffinity (layout.container h) column = .integer := by
  intro column hcolumn
  rw [keyAffinity, Container.affinity, table?_tiles, Option.elim_some]
  simp only [keyColumns, List.mem_cons, List.not_mem_nil, or_false] at hcolumn
  rcases hcolumn with rfl | rfl | rfl <;> cases layout <;> rfl

end Layout

theorem TileRow.keyLe_shownRow (layout : Layout) (a b : Tile) :
    keyLe (layout.shownRow a) (layout.shownRow b) = decide (a.key ≤ b.key) := by
  have horder : keyOrder (layout.shownRow a) (layout.shownRow b) = compare a.key b.key := by
    show (Cell.compare _ _).then ((Cell.compare _ _).then (Cell.compare _ _)) = _
    simp only [Layout.shownRow, Cell.compare_int]
    rfl
  rw [keyLe, horder, Bool.eq_iff_iff, decide_eq_true_iff, ← compare_le_iff_le,
    Ordering.isLE_iff_ne_gt]

theorem TileRow.withinZoom_shownRow (layout : Layout) (filter : TileFilter) (tile : Tile) :
    withinZoom .integer filter (layout.shownRow tile) = filter.acceptsZoom tile.key.zoom := by
  have hle (m n : Int) : Cell.le (.int m) (.int n) = decide (m ≤ n) := by
    rw [Bool.eq_iff_iff, decide_eq_true_iff]
    exact Int.isLE_compare
  simp [withinZoom, TileFilter.acceptsZoom, Layout.shownRow, Cell.isNull, hle]

theorem TileRow.hasKey_shownRow {affinity : String → Affinity}
    (haffinity : ∀ column ∈ keyColumns, affinity column = .integer) (layout : Layout)
    (key : TileKey) (tile : Tile) :
    hasKey affinity key (layout.shownRow tile) = decide (tile.key = key) := by
  simp only [keyColumns, List.forall_mem_cons] at haffinity
  obtain ⟨hz, hx, hy, -⟩ := haffinity
  rw [Bool.eq_iff_iff, decide_eq_true_iff, TileKey.eq_iff]
  simp [hasKey, hz, hx, hy, Layout.shownRow, Int.natCast_inj, and_assoc]

/-- In order of keys no two tiles stand at the same place. -/
theorem Holding.Valid.untied (hvalid : h.Valid layout) :
    Untied (h.tiles.map layout.shownRow) := by
  intro a ha b hb hab hba
  obtain ⟨tile, htile, rfl⟩ := List.mem_map.1 ha
  obtain ⟨tile', htile', rfl⟩ := List.mem_map.1 hb
  rw [TileRow.keyLe_shownRow, decide_eq_true_iff] at hab hba
  rw [key_inj_of_pairwise hvalid.keys htile htile' (le_antisymm hab hba)]

theorem payload_ofPayload (memory : Nat) (data : Option Bytes) :
    payload memory (.ofPayload data) = .ok data := by
  cases data <;> rfl

/-- What is read of rows that are all either items or nothing. -/
theorem Scan.reading_map {α β : Type} {read : α → Except Failure (Option β)} {row : β → α}
    {p : β → Bool} {items : List β}
    (hread : ∀ b ∈ items, read (row b) = .ok (if p b then some b else none)) :
    reading read (items.map row) = .ofList (items.filter p) := by
  induction items with
  | nil => rfl
  | cons b rest ih =>
      have hrest := ih fun c hc => hread c (List.mem_cons_of_mem _ hc)
      rw [List.map_cons, reading, hread b (List.mem_cons_self ..), hrest]
      cases hb : p b with
      | true =>
          rw [List.filter_cons_of_pos hb]
          rfl
      | false =>
          rw [List.filter_cons_of_neg (by simp [hb])]
          rfl

namespace Tileset

variable {t : Tileset}

/-- The rows of the tiles within the zoom levels of a filter, in ascending order. -/
theorem rows_container (hashed : Bool) (file : String) (hvalid : h.Valid t.shape.layout)
    (hbatch : checkBatch t.batch = .ok ()) {filter : TileFilter}
    (hzoom : ∀ n ∈ filter.minZoom.toList ++ filter.maxZoom.toList, (Cell.int n).fits = true) :
    t.rows filter hashed file (t.shape.layout.container h) =
      .ok ((h.sorted.filter fun tile => filter.acceptsZoom tile.key.zoom).map
        t.shape.layout.shownRow) := by
  have hwithin : (h.tiles.map t.shape.layout.shownRow).filter
      (TileRow.withinZoom .integer filter) =
        (h.tiles.filter fun tile => filter.acceptsZoom tile.key.zoom).map
          t.shape.layout.shownRow := by
    rw [List.filter_map]
    simp only [Function.comp_def, TileRow.withinZoom_shownRow]
  have hsort (tiles : List Tile) : sortBy TileRow.keyLe (tiles.map t.shape.layout.shownRow) =
      (inOrder tiles).map t.shape.layout.shownRow := by
    simp only [sortBy_map, TileRow.keyLe_shownRow]
    rfl
  have hfits : ((filter.minZoom.toList ++ filter.maxZoom.toList).all
      fun n => (Cell.int n).fits) = true := List.all_eq_true.2 hzoom
  have haffinity : t.shape.layout.keyAffinity (t.shape.layout.container h) "zoom_level" =
      .integer := Layout.keyAffinity_container _ h "zoom_level" (by simp [keyColumns])
  rw [rows_of_untied (Layout.rows_container hvalid) hvalid.untied, if_pos hfits, hbatch, haffinity,
    hwithin, hsort, ← inOrder_filter]
  rfl

theorem readTile_shownRow (memory : Nat) (file : String) (layout : Layout) {filter : TileFilter}
    {tile : Tile} {accepted : Bool} (haccepts : acceptsArea filter tile.key = .ok accepted) :
    readTile memory filter file (layout.shownRow tile) =
      .ok (if accepted then some tile else none) := by
  have hkey : rowKey file (layout.shownRow tile) = .ok tile.key := by
    simp only [rowKey, Layout.shownRow, TileKey.ofCells?_cells]
  have hdata : payload memory (layout.shownRow tile).data = .ok tile.data :=
    payload_ofPayload memory tile.data
  simp only [readTile, hkey, haccepts, hdata, bind, Except.bind]
  cases accepted <;> rfl

/-- A scan gives the tiles that the filter accepts, provided it can tell of every tile. -/
theorem scan_filtered (file : String) (hvalid : h.Valid t.shape.layout)
    (hbatch : checkBatch t.batch = .ok ()) {filter : TileFilter}
    (hzoom : ∀ n ∈ filter.minZoom.toList ++ filter.maxZoom.toList, (Cell.int n).fits = true)
    (haccepts : ∀ tile ∈ h.tiles, ∃ accepted, filter.accepts tile.key = .ok accepted) :
    t.scan filter file (t.shape.layout.container h) =
      .ofList (h.sorted.filter fun tile => decide (filter.accepts tile.key = .ok true)) := by
  have hread : ∀ tile ∈ h.sorted.filter (fun tile => filter.acceptsZoom tile.key.zoom),
      readTile usualMemory filter file (t.shape.layout.shownRow tile) =
        .ok (if decide (filter.accepts tile.key = .ok true) then some tile else none) := by
    intro tile htile
    obtain ⟨htile, hwithin⟩ := List.mem_filter.1 htile
    obtain ⟨accepted, haccepted⟩ := haccepts tile (mem_inOrder.1 htile)
    refine readTile_shownRow usualMemory file _ ?_
    unfold acceptsArea
    cases hspatial : filter.isSpatial with
    | true => cases accepted <;> simp [haccepted]
    | false => simp [TileFilter.accepts, hwithin, hspatial]
  have hboth : (h.sorted.filter fun tile => filter.acceptsZoom tile.key.zoom).filter
      (fun tile => decide (filter.accepts tile.key = .ok true)) =
        h.sorted.filter fun tile => decide (filter.accepts tile.key = .ok true) := by
    rw [List.filter_filter]
    refine List.filter_congr fun tile _ => ?_
    cases hwithin : filter.acceptsZoom tile.key.zoom with
    | true => simp
    | false => simp [TileFilter.accepts, hwithin]
  simp only [scan, rows_container false file hvalid hbatch hzoom, Scan.ofQuery,
    Scan.reading_map hread, hboth]

theorem scan_container (file : String) (hvalid : h.Valid t.shape.layout)
    (hbatch : checkBatch t.batch = .ok ()) :
    t.scan .all file (t.shape.layout.container h) = .ofList h.sorted := by
  have haccepts (key : TileKey) : TileFilter.all.accepts key = .ok true := rfl
  rw [scan_filtered file hvalid hbatch (by simp [TileFilter.all])
    fun tile _ => ⟨true, haccepts tile.key⟩]
  simp only [haccepts, decide_true, List.filter_true]

theorem aggregate_container (file : String) (hvalid : h.Valid t.shape.layout)
    (hbatch : checkBatch t.batch = .ok ()) :
    t.aggregate file (t.shape.layout.container h) = .ok (aggregateHash h.sorted) := by
  simp only [aggregate, scan_container file hvalid hbatch]
  rfl

theorem scan_error (file : String) (hvalid : h.Valid t.shape.layout) {failure : Failure}
    (hbatch : checkBatch t.batch = .error failure) :
    t.scan .all file (t.shape.layout.container h) = .fail failure := by
  rw [scan, rows_of_untied (Layout.rows_container hvalid) hvalid.untied, hbatch]
  rfl

theorem aggregate_error (file : String) (hvalid : h.Valid t.shape.layout) {failure : Failure}
    (hbatch : checkBatch t.batch = .error failure) :
    t.aggregate file (t.shape.layout.container h) = .error failure := by
  rw [aggregate, scan_error file hvalid hbatch]
  rfl

/-- The rows that a look-up visits are the rows of the tiles in some order. -/
theorem exists_visited_container (hvalid : h.Valid layout) (q : TileQuery) :
    ∃ rows, layout.visited q (layout.container h) = .ok rows ∧
      rows.Perm (h.tiles.map layout.shownRow) :=
  Layout.exists_visited_of_rows (Layout.rows_container hvalid) q

theorem tileAt_container (file : String) (hvalid : h.Valid t.shape.layout) {key : TileKey}
    (hkey : key.cells.all Cell.fits = true) :
    t.entry? key file (t.shape.layout.container h) =
      .ok (h.tiles.find? fun tile => tile.key = key) := by
  obtain ⟨rows, hrows, hperm⟩ := exists_visited_container hvalid .entry
  have haffinity := Layout.keyAffinity_container t.shape.layout h
  have hfind : rows.find? (TileRow.hasKey (t.shape.layout.keyAffinity
      (t.shape.layout.container h)) key) =
        (h.tiles.find? fun tile => tile.key = key).map t.shape.layout.shownRow := by
    rw [find?_eq_of_perm hperm, List.find?_map]
    · simp only [Function.comp_def, TileRow.hasKey_shownRow haffinity]
    · intro a ha b hb hakey hbkey
      obtain ⟨tile, htile, rfl⟩ := List.mem_map.1 (hperm.mem_iff.1 ha)
      obtain ⟨tile', htile', rfl⟩ := List.mem_map.1 (hperm.mem_iff.1 hb)
      rw [TileRow.hasKey_shownRow haffinity, decide_eq_true_iff] at hakey hbkey
      rw [key_inj_of_pairwise hvalid.keys htile htile' (hakey.trans hbkey.symm)]
  simp only [ entry?, hrows, onFile, bind, Except.bind, hkey, if_true, hfind]
  cases htile : h.tiles.find? fun tile => tile.key = key with
  | none => rfl
  | some tile =>
      have hdata : payload usualMemory (t.shape.layout.shownRow tile).data = .ok tile.data :=
        payload_ofPayload usualMemory tile.data
      obtain rfl : tile.key = key := by simpa using List.find?_some htile
      simp only [Option.map_some, hdata]
      rfl

theorem tileAt_error (file : String) (hvalid : h.Valid t.shape.layout) {key : TileKey}
    (hkey : key.cells.all Cell.fits = false) :
    t.entry? key file (t.shape.layout.container h) = .error .outOfRange := by
  obtain ⟨rows, hrows, -⟩ := exists_visited_container hvalid .entry
  simp only [ entry?, hrows, onFile, bind, Except.bind, hkey, Bool.false_eq_true, if_false]
  rfl

theorem count_container (file : String) (hvalid : h.Valid t.shape.layout) :
    t.count file (t.shape.layout.container h) = .ok h.tiles.length := by
  simp only [count, Layout.rows_container hvalid, onFile, bind, Except.bind, pure, Except.pure,
    List.length_map]

theorem isEmpty_container (file : String) (h : Holding) :
    t.isEmpty file (t.shape.layout.container h) = .ok h.tiles.isEmpty := by
  have hselect : (t.shape.layout.container h).select t.shape.layout.keyTable [] =
      .ok ((t.shape.layout.tilesTable h.tiles).rows.map (Table.project [])) := by
    simp only [Container.select, Container.list, Layout.table?_tiles]
    rfl
  simp only [isEmpty, hselect, onFile, bind, Except.bind, pure, Except.pure, List.isEmpty_map,
    Layout.tilesTable]

/-! ### Metadata -/

theorem metadataRows_shuffled (file : String) (layout : Layout) (h : Holding) (named : Bool) :
    ∃ rows, metadataRows file (layout.container h) named = .ok rows ∧
      rows.Perm (Metadata.ofTexts h.metadata).entries ∧
      (named = false → rows = (Metadata.ofTexts h.metadata).entries) := by
  let m : Table := Layout.metadataTableOf h.metadata
  have hvisit : (layout.container h).visit "metadata" ["name", "value"] (metadataAccess named) =
      .ok ((m.visited (metadataAccess named)).map (Table.project [0, 1])) := by
    simp only [Container.visit, Container.list, Layout.table?_metadata]
    rfl
  have hrows (order : List Row) (hperm : order.Perm m.rows) :
      ((order.map (Table.project [0, 1])).map fun row =>
        (row.getD 0 Cell.null, row.getD 1 Cell.null)).Perm (Metadata.ofTexts h.metadata).entries := by
    refine ((hperm.map _).map _).trans (.of_eq ?_)
    simp only [m, Layout.metadataTableOf, List.map_map]
    rfl
  refine ⟨_, ?_, hrows _ (m.visited_perm (metadataAccess named)), ?_⟩
  · simp only [metadataRows, hvisit, onFile, bind, Except.bind, pure, Except.pure]
  · rintro rfl
    have hkey : Layout.metadataTable.visitsByKey (metadataAccess false) = false := by
      decide +kernel
    rw [Table.visited_of_no_key (t := m) hkey]
    simp only [m, Layout.metadataTableOf, List.map_map]
    rfl

theorem metadata_container (file : String) (hvalid : h.Valid layout) :
    Tileset.metadata file (layout.container h) = .ok (.ofTexts h.metadata) := by
  have hfilter : (Metadata.ofTexts h.metadata).entries.filter (!·.2.isNull) =
      (Metadata.ofTexts h.metadata).entries := by
    refine List.filter_eq_self.2 fun entry hentry => ?_
    obtain ⟨entry, -, rfl⟩ := List.mem_map.1 hentry
    rfl
  have hdisplay : (Metadata.ofTexts h.metadata).entries.map
      (fun entry => (entry.1, Cell.text entry.2.display)) =
        (Metadata.ofTexts h.metadata).entries := by
    simp only [Metadata.ofTexts, List.map_map]
    rfl
  obtain ⟨rows, hrows, -, heq⟩ := metadataRows_shuffled file layout h false
  simp only [metadata, hrows, heq rfl, bind, Except.bind, pure, Except.pure, hfilter, hdisplay,
    Metadata.ofEntries_texts hvalid.names]

theorem metadataValue_container (file : String) (hvalid : h.Valid layout) (name : String) :
    metadataValue? (.text name) file (layout.container h) = .ok (h.metadata.lookup name) := by
  let named (entry : Cell × Cell) : Bool := entry.1.eqv (.text name) && !entry.2.isNull
  have hlookup (entries : List (String × String)) :
      ((Metadata.ofTexts entries).entries.find? named).map (·.2.display) =
        entries.lookup name := by
    induction entries with
    | nil => rfl
    | cons entry rest ih =>
        obtain ⟨key, value⟩ := entry
        simp only [Metadata.ofTexts, List.map_cons, List.find?_cons] at ih ⊢
        by_cases hname : key = name
        · simp [named, hname, Cell.isNull, Cell.display]
        · simpa [named, hname, List.lookup_cons, beq_false_of_ne (Ne.symm hname)] using ih
  have hkept : ((layout.container h).affinity "metadata" "name").keep (.text name) =
      .text name := by
    rw [Container.affinity, Layout.table?_metadata]
    rfl
  obtain ⟨rows, hrows, hperm, -⟩ := metadataRows_shuffled file layout h true
  have hfind : rows.find? named = (Metadata.ofTexts h.metadata).entries.find? named := by
    refine find?_eq_of_perm hperm fun a ha b hb hanamed hbnamed => ?_
    obtain ⟨entry, hentry, rfl⟩ := List.mem_map.1 (hperm.mem_iff.1 ha)
    obtain ⟨entry', hentry', rfl⟩ := List.mem_map.1 (hperm.mem_iff.1 hb)
    have hsame : entry.1 = entry'.1 := by
      simp only [named, Cell.eqv_text, Bool.and_eq_true, decide_eq_true_eq] at hanamed hbnamed
      exact hanamed.1.trans hbnamed.1.symm
    rw [List.inj_on_of_nodup_map (List.pairwise_map.2 hvalid.names) hentry hentry' hsame]
  simp only [metadataValue?, hrows, hkept, bind, Except.bind, pure, Except.pure]
  exact congrArg Except.ok ((congrArg (Option.map _) hfind).trans (hlookup h.metadata))

end Tileset

end TileAtlas
