import TileAtlas.Proofs.Container.Order
import TileAtlas.Proofs.Container.Scan
import TileAtlas.Proofs.Patch.Walk
import TileAtlas.Proofs.Tileset.Detected
import TileAtlas.Proofs.Tileset.Filtered

/-!
# Scans of any container are in order

The rows of a query are put in the order of their cells, and cells of all kinds take part in it.
Rows that hold a key stand among them in the order of their keys, and a row that holds none ends the
scan instead of being passed over.  So no scan gives keys out of order.
-/

namespace TileAtlas

namespace TileRow

variable {a b row : TileRow} {key : TileKey}

/-- Whether the cells of a row hold a key. -/
def At (row : TileRow) (key : TileKey) : Prop :=
  row.z = .int key.zoom ∧ row.x = .int key.column ∧ row.y = .int key.row

theorem key?_eq_some_iff : row.key? = some key ↔ row.At key := by
  refine ⟨cells_of_key, fun ⟨hz, hx, hy⟩ => ?_⟩
  rw [key?, hz, hx, hy, TileKey.ofCells?_cells]

theorem key?_eq_none_iff : row.key? = none ↔ ∀ key, ¬ row.At key := by
  simp only [← key?_eq_some_iff, Option.eq_none_iff_forall_ne_some, ne_eq]

/-- In an order of rows a row that is strictly below another stands before it. -/
theorem mem_of_keyOrder_lt {before rest : List TileRow}
    (hordered : (before ++ b :: rest).Pairwise (keyLe · ·)) (ha : a ∈ before ++ b :: rest)
    (hlt : keyOrder a b = .lt) : a ∈ before := by
  refine (List.mem_append.1 ha).resolve_right fun hafter => ?_
  have hle : keyLe b a = true := by
    rcases List.mem_cons.1 hafter with rfl | hrest
    · simp [keyLe, Std.ReflCmp.compare_self]
    · exact (List.pairwise_cons.1 (List.pairwise_append.1 hordered).2.1).1 a hrest
  exact Std.OrientedCmp.not_isLE_of_lt hlt hle

theorem key_le_of_keyLe {k l : TileKey} (ha : a.At k) (hb : b.At l) (h : keyLe a b = true) :
    k ≤ l := by
  rw [keyLe_of_key (key?_eq_some_iff.2 ha) (key?_eq_some_iff.2 hb)] at h
  exact of_decide_eq_true h

/-- Whether no two of some rows hold the same key. -/
def Apart (rows : List TileRow) : Prop := rows.Pairwise fun a b => ∀ key, a.At key → ¬ b.At key

end TileRow

open TileRow

namespace Tileset

variable {t : Tileset} {file : String} {c : Container} {filter : TileFilter} {row : TileRow}
  {rows before after : List TileRow} {s : Scan Tile} {memory : Nat}

/-- The ways in which the reading of a row ends. -/
inductive Reading (memory : Nat) (filter : TileFilter) (file : String) (row : TileRow) :
    Except Failure (Option Tile) → Prop
  | noKey (hkey : ∀ key, ¬ row.At key) :
      Reading memory filter file row (.error (.io (.tileIndex file row.z row.x row.y)))
  | noArea {key : TileKey} {failure : Failure} (hkey : row.At key)
      (harea : acceptsArea filter key = .error failure) :
      Reading memory filter file row (.error failure)
  | outside {key : TileKey} (hkey : row.At key) (harea : acceptsArea filter key = .ok false) :
      Reading memory filter file row (.ok none)
  | noPayload {key : TileKey} {failure : Failure} (hkey : row.At key)
      (harea : acceptsArea filter key = .ok true)
      (hdata : payload memory row.data = .error failure) :
      Reading memory filter file row (.error failure)
  | tile {key : TileKey} {data : Option Bytes} (hkey : row.At key)
      (harea : acceptsArea filter key = .ok true) (hdata : payload memory row.data = .ok data) :
      Reading memory filter file row (.ok (some ⟨key, data⟩))

theorem reading_row (memory : Nat) (filter : TileFilter) (file : String) (row : TileRow) :
    Reading memory filter file row (readTile memory filter file row) := by
  cases hrow : row.key? with
  | none =>
      have hkey : rowKey file row = .error (.io (.tileIndex file row.z row.x row.y)) := by
        rw [key?] at hrow
        rw [rowKey, hrow]
      simp only [readTile, hkey, bind, Except.bind]
      exact .noKey (key?_eq_none_iff.1 hrow)
  | some key =>
      have hat : row.At key := key?_eq_some_iff.1 hrow
      have hkey : rowKey file row = .ok key := by
        rw [key?] at hrow
        rw [rowKey, hrow]
      simp only [readTile, hkey, bind, Except.bind]
      cases harea : acceptsArea filter key with
      | error failure => exact .noArea hat harea
      | ok accepted =>
          cases accepted with
          | false => exact .outside hat harea
          | true =>
              cases hdata : payload memory row.data with
              | error failure => exact .noPayload hat harea hdata
              | ok data => exact .tile hat harea hdata

theorem acceptsArea_of_not_spatial (h : filter.isSpatial = false) (key : TileKey) :
    acceptsArea filter key = .ok true := by
  simp [acceptsArea, h]

/-- What has been read as a tile holds its key and its payload. -/
theorem at_of_readTile {tile : Tile} (h : readTile memory filter file row = .ok (some tile)) :
    row.At tile.key ∧ payload memory row.data = .ok tile.data := by
  have hreading := reading_row memory filter file row
  rw [h] at hreading
  cases hreading with
  | tile hkey _ hdata => exact ⟨hkey, hdata⟩

/-- The rows of any query of a container whose layout is found: those that it lets through, whatever
the order in which it visits them. -/
theorem exists_rows_of_detect (hnamed : c.Named) (hdetect : detect file c = .ok t.shape)
    (hbatch : -0x80000000 ≤ t.batch ∧ t.batch < 0x80000000) :
    ∃ rows, t.shape.layout.rows c = .ok rows ∧ ∀ (filter : TileFilter) (hashed : Bool),
      (∀ n ∈ filter.minZoom.toList ++ filter.maxZoom.toList, (Cell.int n).fits = true) →
      ∃ scanned : List TileRow, scanned.Perm (rows.filter
          (withinZoom (t.shape.layout.keyAffinity c "zoom_level") filter)) ∧
        t.rows filter hashed file c = .ok (sortBy keyLe scanned) := by
  obtain ⟨rows, hrows⟩ := Layout.exists_rows hnamed (offered_of_detect hdetect)
  refine ⟨rows, hrows, fun filter hashed hzoom => ?_⟩
  obtain ⟨visited, hvisited, hperm⟩ := Layout.exists_visited_of_rows hrows
    (.scan (!(filter.minZoom.toList ++ filter.maxZoom.toList).isEmpty) hashed)
  exact ⟨_, hperm.filter _,
    rows_eq_ok_iff.2 ⟨visited, hvisited, hzoom, checkBatch_of_range hbatch, rfl⟩⟩

theorem exists_reaches_scan (hrows : t.rows filter false file c = .ok rows) :
    ∃ before after, rows = before ++ after ∧
      Scan.Reaches (readTile memory filter file) before after (t.scan filter file c memory) := by
  rw [scan, hrows]
  exact Scan.exists_reaches _ rows

/-- Rows that are in order are read in order of their keys, whatever is passed over. -/
theorem pairwise_of_reaches
    (hreaches : Scan.Reaches (readTile memory filter file) before after s)
    (hordered : (before ++ after).Pairwise (keyLe · ·)) :
    s.items.Pairwise fun a b => a.key ≤ b.key := by
  refine hreaches.pairwise_items ?_ (List.pairwise_append.1 hordered).1
  intro row tile row' tile' hread hread' hle
  exact key_le_of_keyLe (at_of_readTile hread).1 (at_of_readTile hread').1 hle

/-- Rows of which no two hold one key are read as tiles whose keys ascend. -/
theorem ascending_of_reaches
    (hreaches : Scan.Reaches (readTile memory filter file) before after s)
    (hordered : (before ++ after).Pairwise (keyLe · ·)) (hapart : Apart (before ++ after)) :
    Ascending s.items := by
  have hne : s.items.Pairwise fun a b => a.key ≠ b.key := by
    refine hreaches.pairwise_items ?_ (List.pairwise_append.1 hapart).1
    intro row tile row' tile' hread hread' hapart heq
    exact hapart tile.key (at_of_readTile hread).1 (heq ▸ (at_of_readTile hread').1)
  exact ((pairwise_of_reaches hreaches hordered).and hne).imp fun ⟨hle, hne⟩ =>
    lt_of_le_of_ne hle hne

/-- A scan over rows in order of their cells that goes up to the first row that holds no key. -/
structure Covers (file : String) (before after : List TileRow) (s : Scan Tile) : Prop where
  ordered : (before ++ after).Pairwise (keyLe · ·)
  items : List.Forall₂ (fun row tile => row.At tile.key ∧ row.data = .ofPayload tile.data) before
    s.items
  ending : after = [] ∧ s.failure = none ∨
    ∃ bad rest, after = bad :: rest ∧ (∀ key, ¬ bad.At key) ∧
      s.failure = some (.io (.tileIndex file bad.z bad.x bad.y)) ∧
      ∀ row ∈ before ++ after, keyOrder row bad = .lt → row ∈ before

theorem covers_of_reaches
    (hreaches : Scan.Reaches (readTile memory filter file) before after s)
    (hordered : (before ++ after).Pairwise (keyLe · ·)) (hfilter : filter.isSpatial = false)
    (hdata : ∀ row ∈ before ++ after, ∃ data, row.data = .ofPayload data) :
    Covers file before after s := by
  have harea := acceptsArea_of_not_spatial hfilter
  have hgiven : ∀ row ∈ before, readTile memory filter file row ≠ .ok none := by
    intro row _ hnone
    have hreading := reading_row memory filter file row
    rw [hnone] at hreading
    cases hreading with
    | outside _ hout => simp [harea] at hout
  have hitems := hreaches.items_of_given hgiven
  refine ⟨hordered, ?_, ?_⟩
  · have hread := (List.forall₂_and_left before _).2
      ⟨fun row hrow => hdata row (List.mem_append_left after hrow), hitems⟩
    refine hread.imp ?_
    rintro row tile ⟨⟨data, hpayload⟩, hread⟩
    obtain ⟨hkey, hfound⟩ := at_of_readTile hread
    rw [hpayload, payload_ofPayload] at hfound
    exact ⟨hkey, by rw [hpayload, Except.ok.inj hfound]⟩
  · refine hreaches.ending.imp_right ?_
    rintro ⟨bad, rest, failure, rfl, hbad, hfailure⟩
    obtain ⟨data, hpayload⟩ := hdata bad (by simp)
    have hreading := reading_row memory filter file bad
    rw [hbad] at hreading
    cases hreading with
    | noKey hkey =>
        exact ⟨bad, rest, rfl, hkey, hfailure, fun row hrow => mem_of_keyOrder_lt hordered hrow⟩
    | noArea _ hout => simp [harea] at hout
    | noPayload _ _ hpayload' => simp [hpayload, payload_ofPayload] at hpayload'

/-- A scan that covers its rows fails exactly if one of them holds no key. -/
theorem Covers.io_iff (h : Covers file before after s) :
    (∃ cause, s.failure = some (.io cause)) ↔ ∃ row ∈ before ++ after, ∀ key, ¬ row.At key := by
  constructor
  · rintro ⟨cause, hcause⟩
    rcases h.ending with ⟨-, hnone⟩ | ⟨bad, rest, rfl, hbad, -⟩
    · simp [hcause] at hnone
    · exact ⟨bad, by simp, hbad⟩
  · rintro ⟨row, hrow, hkey⟩
    have hread : List.Forall₂ _ s.items before := h.items.flip
    have hafter : row ∈ after := (List.mem_append.1 hrow).resolve_left fun hbefore => by
      obtain ⟨tile, -, hat, -⟩ := exists_of_forall₂ hread row hbefore
      exact hkey tile.key hat
    rcases h.ending with ⟨rfl, -⟩ | ⟨bad, rest, -, -, hfailure, -⟩
    · simp at hafter
    · exact ⟨_, hfailure⟩

/-- Of a container of any origin, and with cells of any kinds for the keys, every scan gives its
tiles in order of keys, strictly if no two of the rows hold one key; then the check that the keys of
a stream ascend passes it on as it is.  A scan that is not restricted to an area gives one tile for
each row up to the first that holds no key, and fails there and nowhere else. -/
theorem scan_in_order (hnamed : c.Named) (hdetect : detect file c = .ok t.shape)
    (hbatch : -0x80000000 ≤ t.batch ∧ t.batch < 0x80000000) :
    ∃ rows, t.shape.layout.rows c = .ok rows ∧
      ((∀ row ∈ rows, ∃ data, row.data = .ofPayload data) → ∀ filter : TileFilter,
        (∀ n ∈ filter.minZoom.toList ++ filter.maxZoom.toList, (Cell.int n).fits = true) →
        let scanned :=
          rows.filter (withinZoom (t.shape.layout.keyAffinity c "zoom_level") filter)
        let s := t.scan filter file c
        (s.items.Pairwise fun a b => a.key ≤ b.key) ∧
        (Apart scanned → Ascending s.items ∧ ∀ label, s.ascending label = s) ∧
        (filter.isSpatial = false →
          (∃ before after, (before ++ after).Perm scanned ∧ Covers file before after s) ∧
          ((∃ cause, s.failure = some (.io cause)) ↔
            ∃ row ∈ scanned, ∀ key, ¬ row.At key))) := by
  obtain ⟨rows, hrows, hqueries⟩ := exists_rows_of_detect hnamed hdetect hbatch
  refine ⟨rows, hrows, fun hdata filter hzoom => ?_⟩
  intro scanned s
  obtain ⟨visited, hvisited, hquery⟩ := hqueries filter false hzoom
  obtain ⟨before, after, hsplit, hreaches⟩ := exists_reaches_scan hquery
  have hordered : (before ++ after).Pairwise (keyLe · ·) := hsplit ▸ pairwise_keyLe visited
  have hperm : (before ++ after).Perm scanned := hsplit ▸ (sortBy_perm keyLe visited).trans hvisited
  refine ⟨pairwise_of_reaches hreaches hordered, fun hapart => ?_, fun hfilter => ?_⟩
  · have happart' : Apart (before ++ after) :=
      (hperm.pairwise_iff fun hab key hb ha => hab key ha hb).2 hapart
    have hascending := ascending_of_reaches hreaches hordered happart'
    exact ⟨hascending, fun label => Scan.ascending_eq_self hascending⟩
  · have hpayloads : ∀ row ∈ before ++ after, ∃ data, row.data = .ofPayload data :=
      fun row hrow => hdata row (List.mem_of_mem_filter (hperm.mem_iff.1 hrow))
    have hcovers := covers_of_reaches hreaches hordered hfilter hpayloads
    refine ⟨⟨before, after, hperm, hcovers⟩, hcovers.io_iff.trans ?_⟩
    simp only [hperm.mem_iff]

/-- A double among the integers and a text after them: the tile at the integer of the same value is
still given, and the double ends the scan. -/
theorem scan_in_order_mixed :
    let tiles : List Row := [[.int 1, .int 0, .int 0, .blob ⟨#[1]⟩],
      [.text "0", .int 0, .int 0, .null], [.real (.ofInt 1), .int 0, .int 0, .null],
      [.int 0, .int 3, .int 2, .null]]
    let c : Container := ⟨[⟨"metadata", [.free "name", .free "value"], [], []⟩,
      ⟨"tiles", (keyColumns ++ ["tile_data"]).map .free, [], tiles⟩], []⟩
    let t : Tileset := ⟨⟨.flat, false⟩, 1⟩
    c.Named ∧ detect "a" c = .ok t.shape ∧ Ascending (t.scan .all "a" c).items ∧
    (∃ cause, (t.scan .all "a" c).failure = some (.io cause)) ∧
    t.scan .all "a" c = ⟨[⟨⟨0, 3, 2⟩, none⟩, ⟨⟨1, 0, 0⟩, some ⟨#[1]⟩⟩],
      some (.io (.tileIndex "a" (.real (.ofInt 1)) (.int 0) (.int 0)))⟩ := by
  intro tiles c t
  have hnamed : c.Named := by
    unfold Container.Named
    decide +kernel
  have hdetect : detect "a" c = .ok t.shape := by decide +kernel
  have hshown : t.shape.layout.rows c = .ok (tiles.map TileRow.ofCells) := by decide +kernel
  obtain ⟨rows, hrows, hscans⟩ := scan_in_order hnamed hdetect (by decide)
  obtain rfl : tiles.map TileRow.ofCells = rows := Except.ok.inj (hshown.symm.trans hrows)
  have hdata : ∀ row ∈ tiles.map TileRow.ofCells, ∃ data, row.data = .ofPayload data := by
    have hblob : ∃ data, Cell.blob ⟨#[1]⟩ = .ofPayload data := ⟨some ⟨#[1]⟩, rfl⟩
    have hnull : ∃ data, Cell.null = .ofPayload data := ⟨none, rfl⟩
    simp [tiles, TileRow.ofCells, hblob, hnull]
  obtain ⟨-, hascending, hends⟩ := hscans hdata .all (by decide)
  rw [filter_withinZoom_all] at hascending hends
  refine ⟨hnamed, hdetect, (hascending ?_).1, ((hends rfl).2.2 ?_), by decide +kernel⟩
  · simp only [Apart, At, tiles, List.map_cons, List.map_nil, TileRow.ofCells, List.pairwise_cons]
    simp
    omega
  · refine ⟨TileRow.ofCells [.text "0", .int 0, .int 0, .null], ?_, ?_⟩
    · simp [tiles]
    · simp [At, TileRow.ofCells]

/-- Rows cannot be fetched in batches that are too large: neither the tile nor the row without a key
is come to. -/
theorem not_scan_in_order :
    let tile : TileRow := ⟨.int 0, .int 0, .int 0, .blob ⟨#[1]⟩, .null⟩
    let bad : TileRow := ⟨.int 1, .int 0, .int (-1), .blob ⟨#[2]⟩, .null⟩
    let c : Container := ⟨[⟨"metadata", [.free "name", .free "value"], [], []⟩,
      ⟨"tiles", (keyColumns ++ ["tile_data"]).map .free, [],
        [tile, bad].map fun row => [row.z, row.x, row.y, row.data]⟩], []⟩
    let huge : Tileset := ⟨⟨.flat, false⟩, 0x80000000⟩
    c.Named ∧ detect "a" c = .ok huge.shape ∧ huge.shape.layout.rows c = .ok [tile, bad] ∧
    (∀ key, ¬ bad.At key) ∧ huge.scan .all "a" c = ⟨[], some .outOfRange⟩ ∧
    ¬ ∃ cause, (huge.scan .all "a" c).failure = some (.io cause) := by
  intro tile bad c huge
  have hnamed : c.Named := by
    unfold Container.Named
    decide +kernel
  have hscan : huge.scan .all "a" c = ⟨[], some .outOfRange⟩ := by decide +kernel
  refine ⟨hnamed, by decide +kernel, by decide +kernel, ?_, hscan, ?_⟩
  · rintro key ⟨-, -, hy⟩
    have hrow : (-1 : Int) = key.row := Cell.int.inj hy
    omega
  · simp [hscan, Failure.io]

end Tileset

end TileAtlas
