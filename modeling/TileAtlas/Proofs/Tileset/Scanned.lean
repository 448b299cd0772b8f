import TileAtlas.Proofs.Tile.Latest
import TileAtlas.Proofs.Tileset.Shown
import TileAtlas.Tileset.Validation

/-!
# What any scan gives

A container may come from anywhere, and its rows may be of any kind.  A scan that reads all of them
as tiles gives the tiles in order of their keys, though keys may repeat.
-/

namespace TileAtlas

namespace TileRow

/-- The key of a row, if it has one. -/
def key? (row : TileRow) : Option TileKey := TileKey.ofCells? row.z row.x row.y

theorem cells_of_key {row : TileRow} {key : TileKey} (h : row.key? = some key) :
    row.z = .int key.zoom ∧ row.x = .int key.column ∧ row.y = .int key.row := by
  obtain ⟨z, x, y, data, stored⟩ := row
  unfold key? TileKey.ofCells? at h
  dsimp only at h
  split at h
  next z x y =>
    split at h
    next hnonneg =>
      obtain rfl := Option.some.inj h
      simp [hnonneg]
    · cases h
  · cases h

/-- Rows with keys stand in the order of their keys. -/
theorem keyLe_of_key {a b : TileRow} {k l : TileKey} (ha : a.key? = some k)
    (hb : b.key? = some l) : keyLe a b = decide (k ≤ l) := by
  obtain ⟨haz, hax, hay⟩ := cells_of_key ha
  obtain ⟨hbz, hbx, hby⟩ := cells_of_key hb
  have hshown := keyLe_shownRow .flat ⟨k, none⟩ ⟨l, none⟩
  simp only [keyLe, keyOrder, Layout.shownRow] at hshown
  simp only [keyLe, keyOrder, haz, hax, hay, hbz, hbx, hby, hshown]

/-- Where all rows have keys, sorting the rows is sorting them by their keys. -/
theorem sortBy_keyLe {rows : List TileRow} (h : ∀ row ∈ rows, ∃ key, row.key? = some key) :
    sortBy keyLe rows =
      sortBy (fun a b => decide (a.key?.getD default ≤ b.key?.getD default)) rows := by
  refine sortBy_congr fun a ha b hb => ?_
  obtain ⟨k, hk⟩ := h a ha
  obtain ⟨l, hl⟩ := h b hb
  simp only [keyLe_of_key hk hl, hk, hl, Option.getD_some]

/-- Numbers are compared with numbers as they are, whatever the column does to texts. -/
theorem withinZoom_of_key {row : TileRow} {key : TileKey} (h : row.key? = some key)
    (affinity : Affinity) (filter : TileFilter) :
    withinZoom affinity filter row = filter.acceptsZoom key.zoom := by
  have hshown := withinZoom_shownRow .flat filter ⟨key, none⟩
  simp only [withinZoom, Layout.shownRow, Affinity.operand_int] at hshown
  simp only [withinZoom, (cells_of_key h).1, Affinity.operand_int, hshown]

end TileRow

namespace Scan

variable {α β : Type}

theorem all_eq_ok {s : Scan α} {items : List α} (h : s.all = .ok items) : s = .ofList items := by
  obtain ⟨found, failure⟩ := s
  cases failure with
  | none => exact congrArg ofList (Except.ok.inj h)
  | some failure => cases h

theorem cons_eq_ofList {s : Scan α} {a : α} {items : List α} (h : cons a s = .ofList items) :
    ∃ rest, items = a :: rest ∧ s = .ofList rest := by
  obtain ⟨found, failure⟩ := s
  obtain ⟨hitems, hfailure⟩ := Scan.mk.inj h
  exact ⟨found, hitems.symm, congrArg (Scan.mk found) hfailure⟩

theorem ofQuery_eq_ofList {rows : Except Failure (List α)}
    {read : α → Except Failure (Option β)} {items : List β}
    (h : ofQuery rows read = .ofList items) :
    ∃ found, rows = .ok found ∧ reading read found = .ofList items := by
  cases rows with
  | ok found => exact ⟨found, rfl, h⟩
  | error failure => cases h

end Scan

/-- Whether two lists of tiles in order of keys are the same, but for the order of the tiles of one
key. -/
structure AlikeByKey (found tiles : List Tile) : Prop where
  perm : found.Perm tiles
  keys : found.map (·.key) = tiles.map (·.key)
  unrepeated : tiles.Pairwise (fun a b => a.key ≠ b.key) → found = tiles

theorem AlikeByKey.of_perm {found tiles : List Tile} (hperm : found.Perm tiles)
    (hfound : found.Pairwise fun a b => a.key ≤ b.key)
    (htiles : tiles.Pairwise fun a b => a.key ≤ b.key) : AlikeByKey found tiles where
  perm := hperm
  keys := (hperm.map _).eq_of_pairwise (fun _ _ _ _ => le_antisymm)
    (List.pairwise_map.2 hfound) (List.pairwise_map.2 htiles)
  unrepeated hne := by
    have hne' := (hperm.pairwise_iff fun hab => hab.symm).2 hne
    exact eq_of_perm_of_pairwise_lt Tile.key hperm
      ((hfound.and hne').imp fun ⟨hle, hne⟩ => lt_of_le_of_ne hle hne)
      ((htiles.and hne).imp fun ⟨hle, hne⟩ => lt_of_le_of_ne hle hne)

theorem checkBatch_of_range {batch : Int} (h : -0x80000000 ≤ batch ∧ batch < 0x80000000) :
    Tileset.checkBatch batch = .ok () := if_pos h

namespace Tileset

variable {t : Tileset} {file : String} {c : Container} {filter : TileFilter} {hashed : Bool}
  {memory : Nat} {items : List Tile} {rows shown : List TileRow}

/-- A query gives the rows that it visits and lets through, in order, if its zoom levels can be
bound and its batches be asked for. -/
theorem rows_eq_ok_iff : t.rows filter hashed file c = .ok rows ↔
    ∃ visited, t.shape.layout.visited
        (.scan (!(filter.minZoom.toList ++ filter.maxZoom.toList).isEmpty) hashed) c =
          .ok visited ∧
      (∀ n ∈ filter.minZoom.toList ++ filter.maxZoom.toList, (Cell.int n).fits = true) ∧
      checkBatch t.batch = .ok () ∧
      rows = sortBy TileRow.keyLe (visited.filter
        (TileRow.withinZoom (t.shape.layout.keyAffinity c "zoom_level") filter)) := by
  cases hvisited : t.shape.layout.visited
      (.scan (!(filter.minZoom.toList ++ filter.maxZoom.toList).isEmpty) hashed) c with
  | error why => simp [Tileset.rows, hvisited, onFile, bind, Except.bind]
  | ok visited =>
      rw [rows_of_visited hvisited, ← List.all_eq_true]
      split
      next hfits => cases checkBatch t.batch <;> simp [hfits, Except.map, @eq_comm _ rows]
      next hfits => simp [hfits]

theorem filter_withinZoom_all (affinity : Affinity) (rows : List TileRow) :
    rows.filter (TileRow.withinZoom affinity .all) = rows :=
  List.filter_eq_self.2 fun _ _ => rfl

/-- Without a filter all rows are read. -/
theorem rows_all_eq_ok_iff : t.rows .all hashed file c = .ok rows ↔
    ∃ visited, t.shape.layout.visited (.scan false hashed) c = .ok visited ∧
      checkBatch t.batch = .ok () ∧ rows = sortBy TileRow.keyLe visited := by
  rw [rows_eq_ok_iff]
  simp [filter_withinZoom_all, show TileFilter.all.minZoom.toList = [] from rfl,
    show TileFilter.all.maxZoom.toList = [] from rfl]

theorem checkBatch_of_aggregate {hash : String} (h : t.aggregate file c = .ok hash) :
    checkBatch t.batch = .ok () := by
  unfold aggregate at h
  cases hall : (t.scan .all file c).all with
  | error failure =>
      rw [hall] at h
      cases h
  | ok items =>
      obtain ⟨rows, hrows, -⟩ := Scan.ofQuery_eq_ofList (Scan.all_eq_ok hall)
      obtain ⟨-, -, hbatch, -⟩ := rows_all_eq_ok_iff.1 hrows
      exact hbatch

theorem checkBatch_of_checkedTiles {tiles : List Tile} (h : t.checkedTiles file c = .ok tiles) :
    checkBatch t.batch = .ok () := by
  unfold checkedTiles at h
  cases hall : (t.scanHashed file c).all with
  | error failure =>
      dsimp only at h
      rw [hall] at h
      split at h
      · cases hchecked : checkHashes (t.scanHashed file c).items <;> rw [hchecked] at h <;> cases h
      · cases h
  | ok entries =>
      obtain ⟨rows, hrows, -⟩ := Scan.ofQuery_eq_ofList (Scan.all_eq_ok hall)
      obtain ⟨-, -, hbatch, -⟩ := rows_all_eq_ok_iff.1 hrows
      exact hbatch

theorem readTile_all_eq_ok {row : TileRow} {found : Option Tile}
    (h : readTile memory .all file row = .ok found) :
    ∃ tile, found = some tile ∧ row.key? = some tile.key ∧
      payload memory row.data = .ok tile.data := by
  unfold TileRow.key?
  unfold readTile rowKey at h
  cases hkey : TileKey.ofCells? row.z row.x row.y with
  | none =>
      rw [hkey] at h
      cases h
  | some key =>
      cases hdata : payload memory row.data with
      | error failure =>
          rw [hkey, hdata] at h
          cases h
      | ok data =>
          rw [hkey, hdata] at h
          exact ⟨⟨key, data⟩, (Except.ok.inj h).symm, rfl, rfl⟩

theorem keys_of_reading
    (h : Scan.reading (readTile memory .all file) rows = .ofList items) :
    rows.map TileRow.key? = items.map fun tile => some tile.key := by
  induction rows generalizing items with
  | nil =>
      obtain rfl : [] = items := congrArg Scan.items h
      rfl
  | cons row rest ih =>
      cases hread : readTile memory .all file row with
      | error failure =>
          simp only [Scan.reading, hread] at h
          cases h
      | ok found =>
          obtain ⟨tile, rfl, hkey, -⟩ := readTile_all_eq_ok hread
          simp only [Scan.reading, hread] at h
          obtain ⟨others, rfl, hrest⟩ := Scan.cons_eq_ofList h
          rw [List.map_cons, List.map_cons, hkey, ih hrest]

theorem keyed_of_reading
    (h : Scan.reading (readTile memory .all file) rows = .ofList items) :
    ∀ row ∈ rows, ∃ key, row.key? = some key := by
  intro row hrow
  have hmem : row.key? ∈ items.map fun tile => some tile.key :=
    keys_of_reading h ▸ List.mem_map_of_mem hrow
  obtain ⟨tile, -, hkey⟩ := List.mem_map.1 hmem
  exact ⟨tile.key, hkey.symm⟩

/-- Where rows in order are read without a failure, their tiles are in order of keys. -/
theorem pairwise_of_reading {visited : List TileRow}
    (h : Scan.reading (readTile memory .all file) (sortBy TileRow.keyLe visited) =
      .ofList items) : items.Pairwise fun a b => a.key ≤ b.key := by
  have hkeyed : ∀ row ∈ visited, ∃ key, row.key? = some key := fun row hrow =>
    keyed_of_reading h row ((mem_sortBy _).2 hrow)
  have hkeys := keys_of_reading h
  rw [TileRow.sortBy_keyLe hkeyed] at hkeys
  have hsorted := pairwise_le_sortBy (fun row : TileRow => row.key?.getD default) visited
  have hmap : (sortBy (fun a b => decide (a.key?.getD default ≤ b.key?.getD default)) visited).map
      (fun row => row.key?.getD default) = items.map (·.key) := by
    have hgetD := congrArg (List.map (Option.getD · default)) hkeys
    simpa only [List.map_map, Function.comp_def, Option.getD_some] using hgetD
  rw [← List.pairwise_map (f := Tile.key), ← hmap, List.pairwise_map]
  exact hsorted

/-- What is read of any container without a failure is in order of keys. -/
theorem pairwise_of_scan (h : t.scan .all file c memory = .ofList items) :
    checkBatch t.batch = .ok () ∧ items.Pairwise fun a b => a.key ≤ b.key := by
  obtain ⟨rows, hrows, hread⟩ := Scan.ofQuery_eq_ofList h
  obtain ⟨visited, -, hbatch, rfl⟩ := rows_all_eq_ok_iff.1 hrows
  exact ⟨hbatch, pairwise_of_reading hread⟩

end Tileset

end TileAtlas
