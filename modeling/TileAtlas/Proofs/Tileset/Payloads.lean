import TileAtlas.Proofs.Tileset.Ordered

/-!
# Where payloads come from

A column of a foreign container holds cells of any kind, also the column of the payloads.  A byte
string is given as it is and null as no payload; an integer is given as so many zero bytes, which
nothing in the container stores; any other cell ends the reading with a failure that is no fault.
-/

namespace TileAtlas

/-! ### One cell -/

/-- What the cell of a payload is read as, where there is memory for so many zero bytes. -/
inductive Cell.ReadAs (memory : Nat) : Cell → Except Failure (Option Bytes) → Prop
  | stored (data : Option Bytes) : ReadAs memory (.ofPayload data) (.ok data)
  | zeros {n : Nat} (hn : n < memory) : ReadAs memory (.int n) (.ok (some (Bytes.zeros n)))
  | negative {n : Int} (hn : n < 0) : ReadAs memory (.int n) (.error (.invalid .negativeCount))
  | tooMany {n : Int} {failure : Failure} (hn : memory ≤ n ∨ 0x7fffffffffffffdf ≤ n)
      (hfailure : failure = .noMemory ∨ failure = .outOfRange) :
      ReadAs memory (.int n) (.error failure)
  | real (x : Binary64) : ReadAs memory (.real x) (.error .wrongKind)
  | text (s : String) : ReadAs memory (.text s) (.error .wrongKind)

theorem readAs_payload (memory : Nat) (cell : Cell) : cell.ReadAs memory (payload memory cell) := by
  cases cell with
  | null => exact .stored none
  | blob b => exact .stored (some b)
  | real x => exact .real x
  | text s => exact .text s
  | int n =>
      by_cases hneg : n < 0
      · rw [payload, if_pos hneg]
        exact .negative hneg
      · obtain ⟨k, rfl⟩ := Int.eq_ofNat_of_zero_le (not_lt.1 hneg)
        rw [payload, if_neg hneg]
        split
        next hlarge => exact .tooMany (.inr hlarge) (.inr rfl)
        next =>
          split
          next hless => exact .zeros (Int.ofNat_lt.1 hless)
          next hlarge => exact .tooMany (.inl (not_lt.1 hlarge)) (.inl rfl)

/-- How the cell of a payload is given: as it is stored, or an integer as so many zero bytes. -/
def Cell.GivenAs (cell : Cell) (data : Option Bytes) : Prop :=
  cell = .ofPayload data ∨ ∃ n : Nat, cell = .int n ∧ data = some (Bytes.zeros n)

theorem givenAs_of_payload {memory : Nat} {cell : Cell} {data : Option Bytes}
    (h : payload memory cell = .ok data) : cell.GivenAs data := by
  have hread := readAs_payload memory cell
  rw [h] at hread
  cases hread with
  | stored => exact .inl rfl
  | zeros _ => exact .inr ⟨_, rfl, rfl⟩

/-- A cell that is no payload fails in a way that no operation reports. -/
theorem failure_of_payload {memory : Nat} {cell : Cell} {failure : Failure}
    (h : payload memory cell = .error failure) :
    (∀ data, cell ≠ .ofPayload data) ∧ failure.reported? = none := by
  have hread := readAs_payload memory cell
  rw [h] at hread
  refine ⟨?_, ?_⟩
  · rintro data rfl
    rw [payload_ofPayload] at h
    cases h
  · cases hread with
    | tooMany _ hfailure => rcases hfailure with rfl | rfl <;> rfl
    | _ => rfl

/-! ### Rows and what is stored -/

/-- The row that a table of keys shows for one of its rows, given the other two cells. -/
def Table.keyed (t : Table) (row : Row) (data stored : Cell) : TileRow :=
  ⟨t.cell row "zoom_level", t.cell row "tile_column", t.cell row "tile_row", data, stored⟩

/-- Whether a container stores a row of a tile.  In the normalized layout the payload is that of an
image under the identifier, and null if there is none. -/
def Layout.Stores (layout : Layout) (c : Container) (row : TileRow) : Prop :=
  match layout with
  | .flat => ∃ t ∈ c.table? "tiles", ∃ r ∈ t.rows, row = t.keyed r (t.cell r "tile_data") .null
  | .flatWithHash => ∃ t ∈ c.table? "tiles_with_hash", ∃ r ∈ t.rows,
      row = t.keyed r (t.cell r "tile_data") (t.cell r "tile_hash")
  | .normalized =>
      let same (id id' : Cell) : Bool :=
        ((joinedIds c).keep id).eqv ((joinedIds c).keep id')
      ∃ m ∈ c.table? "map", ∃ u ∈ c.table? "images", ∃ r ∈ m.rows,
        (∃ image ∈ u.rows, same (u.cell image "tile_id") (m.cell r "tile_id") = true ∧
          row = m.keyed r (u.cell image "tile_data") (m.cell r "tile_id")) ∨
        (∀ image ∈ u.rows, same (u.cell image "tile_id") (m.cell r "tile_id") = false) ∧
          row = m.keyed r .null (m.cell r "tile_id")

/-- What the join of a map with some images shows. -/
theorem mem_joinedRows {joined : Affinity} {map images : List Row} {row : TileRow} :
    row ∈ joinedRows joined map images ↔ ∃ entry ∈ map,
      let id := entry.getD 3 .null
      let shown (data : Cell) : TileRow :=
        ⟨entry.getD 0 .null, entry.getD 1 .null, entry.getD 2 .null, data, id⟩
      let same (image : Row) : Bool := (joined.keep (image.getD 0 .null)).eqv (joined.keep id)
      (∃ image ∈ images, same image = true ∧ row = shown (image.getD 1 .null)) ∨
      (∀ image ∈ images, same image = false) ∧ row = shown .null := by
  rw [joinedRows, List.mem_flatMap]
  refine exists_congr fun entry => and_congr_right fun _ => ?_
  dsimp only
  have hmem (image : Row) : image ∈ imagesOf joined images (entry.getD 3 .null) ↔
      image ∈ images ∧ ((joined.keep (image.getD 0 .null)).eqv
        (joined.keep (entry.getD 3 .null))) = true := List.mem_filter
  cases hfound : imagesOf joined images (entry.getD 3 .null) with
  | nil =>
      have hnone : ∀ image ∈ images, ((joined.keep (image.getD 0 .null)).eqv
          (joined.keep (entry.getD 3 .null))) = false :=
        fun image himage => Bool.eq_false_iff.2 fun hid =>
          List.not_mem_nil (hfound ▸ (hmem image).2 ⟨himage, hid⟩)
      rw [List.mem_singleton]
      refine ⟨fun hrow => .inr ⟨hnone, hrow⟩, ?_⟩
      rintro (⟨image, himage, hid, -⟩ | ⟨-, hrow⟩)
      · rw [hnone image himage] at hid
        cases hid
      · exact hrow
  | cons first rest =>
      have hfirst := (hmem first).1 (hfound ▸ List.mem_cons_self ..)
      simp only [← hfound, List.mem_map, hmem, and_assoc, eq_comm (a := row)]
      refine ⟨.inl, ?_⟩
      rintro (himage | ⟨hnone, -⟩)
      · exact himage
      · rw [hnone first hfirst.1] at hfirst
        cases hfirst.2

/-- The rows that a layout shows are those that the container stores. -/
theorem Layout.mem_rows_iff {layout : Layout} {c : Container} (hnamed : c.Named)
    (hoffered : layout.Offered c) {rows : List TileRow} (hrows : layout.rows c = .ok rows)
    {row : TileRow} : row ∈ rows ↔ layout.Stores c row := by
  cases layout with
  | flat =>
      obtain ⟨t, ht, hcolumns⟩ := offers_table hnamed hoffered
      simp only [Layout.rows, rowsIn, Container.list_eq ht hcolumns, bind, Except.bind] at hrows
      obtain rfl := Except.ok.inj hrows
      simp only [Stores, ht, Option.mem_def, Option.some.injEq, exists_eq_left', List.map_map,
        List.mem_map, eq_comm (b := row)]
      rfl
  | flatWithHash =>
      obtain ⟨t, ht, hcolumns⟩ := offers_table hnamed hoffered
      simp only [Layout.rows, rowsIn, Container.list_eq ht hcolumns, bind, Except.bind] at hrows
      obtain rfl := Except.ok.inj hrows
      simp only [Stores, ht, Option.mem_def, Option.some.injEq, exists_eq_left', List.map_map,
        List.mem_map, eq_comm (b := row)]
      rfl
  | normalized =>
      obtain ⟨m, hm, hmap⟩ := offers_table hnamed hoffered.1
      obtain ⟨u, hu, himages⟩ := offers_table hnamed hoffered.2
      rw [Layout.rows, Layout.rowsIn_joined hm hu hmap himages] at hrows
      obtain rfl := Except.ok.inj hrows
      rw [mem_joinedRows]
      simp only [Stores, hm, hu, Option.mem_def, Option.some.injEq, exists_eq_left',
        List.mem_map, exists_exists_and_eq_and, forall_exists_index, and_imp,
        forall_apply_eq_imp_iff₂]
      rfl

open TileRow

namespace Tileset

variable {t : Tileset} {file : String} {c : Container} {filter : TileFilter} {row : TileRow}
  {memory : Nat}

/-! ### Rows that end a scan -/

/-- The ways in which a row ends a scan: it holds no key, its area cannot be told, or its cell for
the payload is no payload. -/
inductive Blocks (filter : TileFilter) (file : String) (row : TileRow) : Failure → Prop
  | noKey (hkey : ∀ key, ¬ row.At key) :
      Blocks filter file row (.io (.tileIndex file row.z row.x row.y))
  | noArea {key : TileKey} {failure : Failure} (hkey : row.At key)
      (harea : acceptsArea filter key = .error failure) : Blocks filter file row failure
  | noPayload {key : TileKey} {failure : Failure} (hkey : row.At key)
      (hdata : ∀ data, row.data ≠ .ofPayload data) (hunreported : failure.reported? = none) :
      Blocks filter file row failure

/-- Whether a row holds a key that the area of a filter accepts. -/
def takesArea (filter : TileFilter) (row : TileRow) : Bool :=
  row.key?.any fun key => decide (acceptsArea filter key = .ok true)

theorem takesArea_of_at {key : TileKey} (hkey : row.At key) :
    takesArea filter row = decide (acceptsArea filter key = .ok true) := by
  rw [takesArea, key?_eq_some_iff.2 hkey, Option.any_some]

theorem blocks_of_readTile {failure : Failure} (h : readTile memory filter file row = .error failure) :
    Blocks filter file row failure := by
  have hreading := reading_row memory filter file row
  rw [h] at hreading
  cases hreading with
  | noKey hkey => exact .noKey hkey
  | noArea hkey harea => exact .noArea hkey harea
  | noPayload hkey _ hdata =>
      obtain ⟨hnone, hunreported⟩ := failure_of_payload hdata
      exact .noPayload hkey hnone hunreported

/-- A row that can be read gives a tile exactly if the area of the filter accepts its key. -/
theorem at_and_takesArea_of_readTile {found : Option Tile}
    (h : readTile memory filter file row = .ok found) :
    (∃ key, row.At key) ∧ takesArea filter row = found.isSome := by
  have hreading := reading_row memory filter file row
  rw [h] at hreading
  cases hreading with
  | outside hkey harea => exact ⟨⟨_, hkey⟩, by simp [takesArea_of_at hkey, harea]⟩
  | tile hkey harea _ => exact ⟨⟨_, hkey⟩, by simp [takesArea_of_at hkey, harea]⟩

/-- Whether a scan gives the entries of some rows in the order of their keys, up to the first row
that ends it. -/
structure Gives {α : Type} (entry : TileRow → α → Prop) (filter : TileFilter) (file : String)
    (before after : List TileRow) (s : Scan α) : Prop where
  ordered : (before ++ after).Pairwise (keyLe · ·)
  keyed : ∀ row ∈ before, ∃ key, row.At key
  items : List.Forall₂ entry (before.filter (takesArea filter)) s.items
  ending : after = [] ∧ s.failure = none ∨ ∃ bad rest failure, after = bad :: rest ∧
    s.failure = some failure ∧ Blocks filter file bad failure

/-- What is made of the tile of each row is given as the tiles are. -/
theorem gives_of_reaches {α : Type} {read : TileRow → Except Failure (Option α)}
    {view : TileRow → Tile → α} {before after : List TileRow} {s : Scan α}
    (hread : ∀ row, read row = (readTile memory filter file row).map (Option.map (view row)))
    (hreaches : Scan.Reaches read before after s)
    (hordered : (before ++ after).Pairwise (keyLe · ·)) :
    Gives (fun row a => ∃ tile, a = view row tile ∧ row.At tile.key ∧ row.data.GivenAs tile.data)
      filter file before after s := by
  have htile : ∀ row found, read row = .ok found → ∃ tile?, readTile memory filter file row = .ok tile? ∧
      found = tile?.map (view row) := by
    intro row found hfound
    rw [hread row] at hfound
    cases hrow : readTile memory filter file row with
    | error failure => simp [hrow, Except.map] at hfound
    | ok tile? => exact ⟨tile?, rfl, by simpa [hrow, Except.map, eq_comm] using hfound⟩
  have htakes : ∀ row ∈ before, Scan.gives read row = takesArea filter row := by
    intro row hrow
    obtain ⟨found, hfound⟩ := hreaches.reads row hrow
    obtain ⟨tile?, htile?, rfl⟩ := htile row found hfound
    rw [(at_and_takesArea_of_readTile htile?).2, Scan.gives, hfound]
    cases tile? <;> rfl
  refine ⟨hordered, fun row hrow => ?_, ?_, hreaches.ending.imp_right ?_⟩
  · obtain ⟨found, hfound⟩ := hreaches.reads row hrow
    obtain ⟨tile?, htile?, -⟩ := htile row found hfound
    exact (at_and_takesArea_of_readTile htile?).1
  · rw [← List.filter_congr htakes]
    refine hreaches.items.imp fun row a hfound => ?_
    obtain ⟨tile?, htile?, hview⟩ := htile row _ hfound
    obtain ⟨tile, rfl, hmade⟩ := Option.map_eq_some_iff.1 hview.symm
    obtain ⟨hkey, hdata⟩ := at_of_readTile htile?
    exact ⟨tile, hmade.symm, hkey, givenAs_of_payload hdata⟩
  · rintro ⟨bad, rest, failure, hafter, hbad, hfailure⟩
    have hblocks : readTile memory filter file bad = .error failure := by
      rw [hread bad] at hbad
      cases hrow : readTile memory filter file bad with
      | error failure' => simpa [hrow, Except.map] using hbad
      | ok tile? => simp [hrow, Except.map] at hbad
    exact ⟨bad, rest, failure, hafter, hfailure, blocks_of_readTile hblocks⟩

theorem readHashedTile_eq (memory : Nat) (file : String) (row : TileRow) :
    readHashedTile memory file row =
    (readTile memory .all file row).map (Option.map fun tile => (tile, row.stored)) := by
  have hall (key : TileKey) : acceptsArea .all key = .ok true := rfl
  simp only [readHashedTile, readTile, hall, bind, Except.bind]
  cases rowKey file row with
  | error failure => rfl
  | ok key =>
      dsimp only
      cases payload memory row.data <;> rfl

theorem Gives.imp {α : Type} {entry entry' : TileRow → α → Prop} {before after : List TileRow}
    {s : Scan α} (h : Gives entry filter file before after s)
    (himp : ∀ row a, entry row a → entry' row a) : Gives entry' filter file before after s :=
  ⟨h.ordered, h.keyed, h.items.imp himp, h.ending⟩

/-- The entry at a key is that of a row at the key. -/
theorem entry_gives {rows : List TileRow} (hrows : t.shape.layout.rows c = .ok rows) {key : TileKey}
    (hfits : key.cells.all Cell.fits = true) :
    let found := hasKey (t.shape.layout.keyAffinity c) key
    t.entry? key file c memory = .ok none ∧ (∀ row ∈ rows, found row = false) ∨
    ∃ row ∈ rows, found row = true ∧
      ((∃ data, t.entry? key file c memory = .ok (some ⟨key, data⟩) ∧ row.data.GivenAs data) ∨
        ∃ failure, t.entry? key file c memory = .error failure ∧
          (∀ data, row.data ≠ .ofPayload data) ∧ failure.reported? = none) := by
  intro found
  obtain ⟨visited, hvisited, hperm⟩ := Layout.exists_visited_of_rows hrows .entry
  simp only [hvisited, entry?, onFile, hfits, if_true, bind, Except.bind]
  cases hfind : visited.find? found with
  | none =>
      refine .inl ⟨rfl, fun row hrow => ?_⟩
      simpa using List.find?_eq_none.1 hfind row (hperm.mem_iff.2 hrow)
  | some row =>
      refine .inr ⟨row, hperm.mem_iff.1 (List.mem_of_find?_eq_some hfind),
        List.find?_some hfind, ?_⟩
      dsimp only
      cases hdata : payload memory row.data with
      | ok data => exact .inl ⟨data, rfl, givenAs_of_payload hdata⟩
      | error failure => exact .inr ⟨failure, rfl, failure_of_payload hdata⟩

/-- Of a container of any origin, and with cells of any kinds, every payload that is read comes from
a row that is stored: it is the byte string in its cell, or none where the cell is null or an image
is missing, unless the cell is an integer, which is given as so many zero bytes.  A cell that is no
payload and not given ends the reading with a failure that no operation reports. -/
theorem reads_give_cells (hnamed : c.Named) (hdetect : detect file c = .ok t.shape)
    (hbatch : -0x80000000 ≤ t.batch ∧ t.batch < 0x80000000) :
    ∃ rows, t.shape.layout.rows c = .ok rows ∧
      (∀ row, row ∈ rows ↔ t.shape.layout.Stores c row) ∧ ∀ memory : Nat,
      (∀ filter : TileFilter,
        (∀ n ∈ filter.minZoom.toList ++ filter.maxZoom.toList, (Cell.int n).fits = true) →
        ∃ before after, (before ++ after).Perm
            (rows.filter (withinZoom (t.shape.layout.keyAffinity c "zoom_level") filter)) ∧
          Gives (fun row tile => row.At tile.key ∧ row.data.GivenAs tile.data) filter file before
            after (t.scan filter file c memory)) ∧
      (∃ before after, (before ++ after).Perm rows ∧
        Gives (fun row entry => row.At entry.1.key ∧ row.data.GivenAs entry.1.data ∧
          entry.2 = row.stored) .all file before after (t.scanHashed file c memory)) ∧
      ∀ key : TileKey, key.cells.all Cell.fits = true →
        let found := hasKey (t.shape.layout.keyAffinity c) key
        t.entry? key file c memory = .ok none ∧ (∀ row ∈ rows, found row = false) ∨
        ∃ row ∈ rows, found row = true ∧
          ((∃ data, t.entry? key file c memory = .ok (some ⟨key, data⟩) ∧ row.data.GivenAs data) ∨
            ∃ failure, t.entry? key file c memory = .error failure ∧
              (∀ data, row.data ≠ .ofPayload data) ∧ failure.reported? = none) := by
  obtain ⟨rows, hrows, hqueries⟩ := exists_rows_of_detect hnamed hdetect hbatch
  have hstores : ∀ row, row ∈ rows ↔ t.shape.layout.Stores c row := fun _ =>
    Layout.mem_rows_iff hnamed (offered_of_detect hdetect) hrows
  refine ⟨rows, hrows, hstores, fun memory => ⟨fun filter hzoom => ?_, ?_, fun key hfits =>
    entry_gives hrows hfits⟩⟩
  · obtain ⟨scanned, hscanned, hquery⟩ := hqueries filter false hzoom
    obtain ⟨before, after, hsplit, hreaches⟩ := exists_reaches_scan hquery
    have hordered : (before ++ after).Pairwise (keyLe · ·) := hsplit ▸ pairwise_keyLe _
    let view (_ : TileRow) (tile : Tile) : Tile := tile
    have hread (row : TileRow) : readTile memory filter file row =
        (readTile memory filter file row).map (Option.map (view row)) := by
      cases readTile memory filter file row <;> simp [view, Except.map]
    refine ⟨before, after, hsplit ▸ (sortBy_perm keyLe _).trans hscanned, ?_⟩
    refine (gives_of_reaches hread hreaches hordered).imp ?_
    rintro row _ ⟨tile, rfl, h⟩
    exact h
  · obtain ⟨scanned, hscanned, hquery⟩ := hqueries .all true (by decide)
    rw [filter_withinZoom_all] at hscanned
    obtain ⟨before, after, hsplit, hreaches⟩ :=
      Scan.exists_reaches (readHashedTile memory file) (sortBy keyLe scanned)
    have hordered : (before ++ after).Pairwise (keyLe · ·) := hsplit ▸ pairwise_keyLe _
    refine ⟨before, after, hsplit ▸ (sortBy_perm keyLe scanned).trans hscanned, ?_⟩
    rw [scanHashed, hquery]
    refine (gives_of_reaches (readHashedTile_eq memory file) hreaches hordered).imp ?_
    rintro row _ ⟨tile, rfl, hkey, hdata⟩
    exact ⟨hkey, hdata, rfl⟩

/-- An integer among the payloads of a foreign container is given as five zero bytes, which are
stored nowhere, by every way of reading; a text ends a scan with a failure that is no fault. -/
theorem reads_give_cells_zeros :
    let tiles : List Row :=
      [[.int 1, .int 0, .int 0, .text "five"], [.int 0, .int 0, .int 0, .int 5]]
    let c : Container := ⟨[⟨"metadata", [.free "name", .free "value"], [], []⟩,
      ⟨"tiles", (keyColumns ++ ["tile_data"]).map .free, [], tiles⟩], []⟩
    let t : Tileset := ⟨⟨.flat, false⟩, 1⟩
    let zeros : Tile := ⟨⟨0, 0, 0⟩, some (Bytes.zeros 5)⟩
    c.Named ∧ detect "a" c = .ok t.shape ∧
    (∃ row, t.shape.layout.Stores c row ∧ row.At zeros.key ∧ row.data.GivenAs zeros.data ∧
      row.data ≠ .ofPayload zeros.data) ∧
    t.entry? zeros.key "a" c = .ok (some zeros) ∧
    t.scan .all "a" c = ⟨[zeros], some .wrongKind⟩ ∧
    t.scanHashed "a" c = ⟨[(zeros, .null)], some .wrongKind⟩ := by
  intro tiles c t zeros
  have hnamed : c.Named := by
    unfold Container.Named
    decide +kernel
  have hdetect : detect "a" c = .ok t.shape := by decide +kernel
  have hscan : t.scan .all "a" c = ⟨[zeros], some .wrongKind⟩ := by decide +kernel
  have hshown : t.shape.layout.rows c = .ok (tiles.map TileRow.ofCells) := by decide +kernel
  have hnowhere : ∀ row ∈ tiles.map TileRow.ofCells, row.data ≠ .ofPayload zeros.data := by
    decide +kernel
  obtain ⟨rows, hrows, hstores, hreads⟩ := reads_give_cells hnamed hdetect (by decide)
  obtain ⟨hscans, -, -⟩ := hreads usualMemory
  obtain rfl : tiles.map TileRow.ofCells = rows := Except.ok.inj (hshown.symm.trans hrows)
  obtain ⟨before, after, hperm, hgives⟩ := hscans .all (by decide)
  rw [filter_withinZoom_all] at hperm
  obtain ⟨row, hrow, hkey, hdata⟩ := exists_of_forall₂ hgives.items zeros (by simp [hscan])
  have hstored := hperm.mem_iff.1 (List.mem_append_left after (List.mem_of_mem_filter hrow))
  exact ⟨hnamed, hdetect, ⟨row, (hstores row).1 hstored, hkey, hdata, hnowhere row hstored⟩,
    by decide +kernel, hscan, by decide +kernel⟩

end Tileset

end TileAtlas
