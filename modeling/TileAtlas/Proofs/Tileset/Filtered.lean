import TileAtlas.Proofs.Tileset.Scanned

/-!
# Filtered scans

A filter is applied in two places.  Its zoom levels choose among the rows of a query, before the
rows are put in order and before any of them is read as a tile; its box and its region are asked
key by key while the tiles are read.  Together they come to asking the filter of every tile of an
unfiltered scan.
-/

namespace TileAtlas

namespace Scan

variable {α β : Type} {read : α → Except Failure (Option β)}

/-- Reading goes on after the first elements if none of them fails. -/
theorem reading_append {first : List α} (h : ∀ a ∈ first, ∃ found, read a = .ok found)
    (rest : List α) : reading read (first ++ rest) =
      ⟨(reading read first).items ++ (reading read rest).items, (reading read rest).failure⟩ := by
  induction first with
  | nil => rfl
  | cons a first ih =>
      obtain ⟨⟨found, hfound⟩, hfirst⟩ := List.forall_mem_cons.1 h
      rw [List.cons_append]
      cases found with
      | none => simp only [reading, hfound, ih hfirst]
      | some b => simp only [reading, hfound, ih hfirst, cons, List.cons_append]

end Scan

namespace TileFilter

/-- Whether a filter can be asked of a tile and accepts it. -/
def takes (filter : TileFilter) (tile : Tile) : Bool := decide (filter.accepts tile.key = .ok true)

/-- What is left of a tile by a filter. -/
def keep (filter : TileFilter) (tile : Tile) : Except Failure (Option Tile) :=
  (filter.accepts tile.key).map fun accepted => if accepted then some tile else none

variable {filter : TileFilter} {tile : Tile}

/-- A filter of zoom levels alone can be asked of any key. -/
theorem accepts_of_not_spatial (h : filter.isSpatial = false) (key : TileKey) :
    filter.accepts key = .ok (filter.acceptsZoom key.zoom) := by
  unfold accepts
  cases hwithin : filter.acceptsZoom key.zoom <;> simp [h]

theorem keep_of_outside (h : filter.acceptsZoom tile.key.zoom = false) :
    filter.keep tile = .ok none := by
  simp [keep, accepts, h, Except.map]

theorem keep_eq_ok (h : ∃ accepted, filter.accepts tile.key = .ok accepted) :
    filter.keep tile = .ok (if filter.takes tile then some tile else none) := by
  obtain ⟨accepted, haccepted⟩ := h
  cases accepted <;> simp [keep, takes, haccepted, Except.map]

theorem keep_eq_error {failure : Failure} (h : filter.accepts tile.key = .error failure) :
    filter.keep tile = .error failure := by
  rw [keep, h]
  rfl

theorem reading_keep {tiles : List Tile}
    (h : ∀ tile ∈ tiles, ∃ accepted, filter.accepts tile.key = .ok accepted) :
    Scan.reading filter.keep tiles = .ofList (tiles.filter filter.takes) := by
  have hread : ∀ tile ∈ tiles, filter.keep (id tile) =
      .ok (if filter.takes tile then some tile else none) := fun tile htile =>
    keep_eq_ok (h tile htile)
  have hreading := Scan.reading_map hread
  rwa [List.map_id] at hreading

theorem reading_keep_error {before after : List Tile} {failure : Failure}
    (hbefore : ∀ other ∈ before, ∃ accepted, filter.accepts other.key = .ok accepted)
    (htile : filter.accepts tile.key = .error failure) :
    Scan.reading filter.keep (before ++ tile :: after) =
      ⟨before.filter filter.takes, some failure⟩ := by
  have hfirst : ∀ other ∈ before, ∃ found, filter.keep other = .ok found := fun other hother =>
    ⟨_, keep_eq_ok (hbefore other hother)⟩
  rw [Scan.reading_append hfirst, reading_keep hbefore]
  simp only [Scan.reading, keep_eq_error htile, Scan.ofList, Scan.fail, List.append_nil]

end TileFilter

/-- Whether a filtered scan finds some tiles as an unfiltered one gives them: in the same order of
keys, where tiles of one key may have changed places if the filter bounds the zoom level. -/
structure TileFilter.FindsAs (filter : TileFilter) (found tiles : List Tile) : Prop extends
    AlikeByKey found tiles where
  unbounded : filter.minZoom = none → filter.maxZoom = none → found = tiles

namespace TileFilter.FindsAs

variable {filter : TileFilter} {found tiles before after : List Tile} {tile : Tile}

/-- Ascending tiles are found in any order that is ascending again. -/
theorem of_perm (hperm : found.Perm tiles) (hfound : found.Pairwise fun a b => a.key ≤ b.key)
    (htiles : tiles.Pairwise fun a b => a.key ≤ b.key)
    (hunbounded : filter.minZoom = none → filter.maxZoom = none → found = tiles) :
    filter.FindsAs found tiles :=
  ⟨.of_perm hperm hfound htiles, hunbounded⟩

/-- What is found of some tiles is found of those that a test accepts. -/
theorem of_filter (h : filter.FindsAs found tiles) (p : Tile → Bool)
    (hfound : found.Pairwise fun a b => a.key ≤ b.key)
    (htiles : tiles.Pairwise fun a b => a.key ≤ b.key) :
    filter.FindsAs (found.filter p) (tiles.filter p) :=
  .of_perm (h.perm.filter p) (hfound.filter p) (htiles.filter p) fun hmin hmax =>
    congrArg (List.filter p) (h.unbounded hmin hmax)

/-- Where a tile comes after smaller keys only, a tile of its key comes in its place, after the
tiles that came before it. -/
theorem exists_split (h : filter.FindsAs found (before ++ tile :: after))
    (hfound : found.Pairwise fun a b => a.key ≤ b.key)
    (htiles : (before ++ tile :: after).Pairwise fun a b => a.key ≤ b.key)
    (hne : ∀ other ∈ before, other.key ≠ tile.key) :
    ∃ first found' rest, found = first ++ found' :: rest ∧ found'.key = tile.key ∧
      filter.FindsAs first before := by
  have hkeys := h.keys
  rw [List.map_append, List.map_cons] at hkeys
  obtain ⟨first, others, rfl, hfirst, hothers⟩ := List.map_eq_append_iff.1 hkeys
  obtain ⟨found', rest, rfl, hkey, hrest⟩ := List.map_eq_cons_iff.1 hothers
  obtain ⟨hbefore, htile, hle⟩ := List.pairwise_append.1 htiles
  have hlt : ∀ key ∈ before.map (·.key), key < tile.key := List.forall_mem_map.2 fun other hother =>
    lt_of_le_of_ne (hle other hother tile (List.mem_cons_self ..)) (hne other hother)
  have hge : ∀ key ∈ after.map (·.key), tile.key ≤ key :=
    List.forall_mem_map.2 (List.pairwise_cons.1 htile).1
  -- On both sides the tiles before are those of smaller keys.
  have hsmaller (l l' : List Tile) (a : Tile) (hl : ∀ key ∈ l.map (·.key), key < tile.key)
      (ha : a.key = tile.key) (hl' : ∀ key ∈ l'.map (·.key), tile.key ≤ key) :
      (l ++ a :: l').filter (fun b => decide (b.key < tile.key)) = l := by
    rw [List.filter_append, List.filter_cons_of_neg (by simp [ha]),
      List.filter_eq_self.2 fun b hb => by simpa using hl _ (List.mem_map_of_mem hb),
      List.filter_eq_nil_iff.2 fun b hb => by simpa using hl' _ (List.mem_map_of_mem hb),
      List.append_nil]
  have hperm := h.perm.filter fun b => decide (b.key < tile.key)
  rw [hsmaller first rest found' (hfirst ▸ hlt) hkey (hrest ▸ hge),
    hsmaller before after tile hlt rfl hge] at hperm
  refine ⟨first, found', rest, rfl, hkey,
    .of_perm hperm (List.pairwise_append.1 hfound).1 hbefore fun hmin hmax => ?_⟩
  exact List.append_inj_left (h.unbounded hmin hmax) hperm.length_eq

end TileFilter.FindsAs

namespace Tileset

variable {t : Tileset} {file : String} {c : Container} {filter : TileFilter} {tiles : List Tile}
  {memory : Nat}

/-- Within the zoom levels of a filter the rest of it is asked while the tile is read. -/
theorem acceptsArea_of_within {key : TileKey} (h : filter.acceptsZoom key.zoom = true) :
    acceptsArea filter key = filter.accepts key := by
  unfold acceptsArea
  cases hspatial : filter.isSpatial with
  | true => rfl
  | false => rw [TileFilter.accepts_of_not_spatial hspatial, h]; rfl

theorem readTile_eq_keep {row : TileRow} {tile : Tile} (hkey : row.key? = some tile.key)
    (hdata : payload memory row.data = .ok tile.data)
    (hwithin : filter.acceptsZoom tile.key.zoom = true) :
    readTile memory filter file row = filter.keep tile := by
  have hrow : rowKey file row = .ok tile.key := by
    rw [TileRow.key?] at hkey
    rw [rowKey, hkey]
  simp only [readTile, hrow, hdata, acceptsArea_of_within hwithin, TileFilter.keep, bind,
    Except.bind]
  cases filter.accepts tile.key with
  | error failure => rfl
  | ok accepted => cases accepted <;> rfl

/-- Choosing rows and reading them is reading all rows and choosing among the tiles. -/
theorem reading_filter {rows : List TileRow}
    (h : Scan.reading (readTile memory .all file) rows = .ofList tiles) (affinity : Affinity) :
    Scan.reading (readTile memory filter file)
        (rows.filter (TileRow.withinZoom affinity filter)) =
      Scan.reading filter.keep tiles := by
  induction rows generalizing tiles with
  | nil =>
      obtain rfl : [] = tiles := congrArg Scan.items h
      rfl
  | cons row rest ih =>
      cases hread : readTile memory .all file row with
      | error failure =>
          simp only [Scan.reading, hread] at h
          cases h
      | ok found =>
          obtain ⟨tile, rfl, hkey, hdata⟩ := readTile_all_eq_ok hread
          simp only [Scan.reading, hread] at h
          obtain ⟨others, rfl, hrest⟩ := Scan.cons_eq_ofList h
          have hrow := TileRow.withinZoom_of_key hkey affinity filter
          cases hwithin : filter.acceptsZoom tile.key.zoom with
          | true =>
              rw [List.filter_cons_of_pos (hrow.trans hwithin), Scan.reading, Scan.reading,
                readTile_eq_keep hkey hdata hwithin, ih hrest]
          | false =>
              rw [List.filter_cons_of_neg (by simp [hrow, hwithin]), ih hrest]
              simp only [Scan.reading, TileFilter.keep_of_outside hwithin]

/-- All rows are read if every one of them is. -/
theorem reading_all_iff {rows : List TileRow} :
    Scan.reading (readTile memory .all file) rows = .ofList tiles ↔
      List.Forall₂ (fun row tile => readTile memory .all file row = .ok (some tile)) rows tiles := by
  constructor
  · intro h
    induction rows generalizing tiles with
    | nil =>
        obtain rfl : [] = tiles := congrArg Scan.items h
        exact .nil
    | cons row rest ih =>
        cases hread : readTile memory .all file row with
        | error failure =>
            simp only [Scan.reading, hread] at h
            cases h
        | ok found =>
            obtain ⟨tile, rfl, -⟩ := readTile_all_eq_ok hread
            simp only [Scan.reading, hread] at h
            obtain ⟨others, rfl, hrest⟩ := Scan.cons_eq_ofList h
            exact .cons hread (ih hrest)
  · intro h
    induction h with
    | nil => rfl
    | cons hread _ ih => simp only [Scan.reading, hread, ih, Scan.cons, Scan.ofList]

/-- Rows in another order are the same tiles in another order. -/
theorem reading_all_perm {rows rows' : List TileRow} (hperm : rows'.Perm rows)
    (h : Scan.reading (readTile memory .all file) rows = .ofList tiles) :
    ∃ tiles', Scan.reading (readTile memory .all file) rows' = .ofList tiles' ∧
      tiles'.Perm tiles := by
  obtain ⟨tiles', htiles', hperm'⟩ := List.perm_comp_forall₂ hperm (reading_all_iff.1 h)
  exact ⟨tiles', reading_all_iff.2 htiles', hperm'⟩

/-- A filtered query goes through the tiles of the whole scan, though it may meet those of one key
in another order. -/
theorem scan_eq_reading_keep (h : t.scan .all file c memory = .ofList tiles)
    (hzoom : ∀ n ∈ filter.minZoom.toList ++ filter.maxZoom.toList, (Cell.int n).fits = true) :
    ∃ found, filter.FindsAs found tiles ∧ (found.Pairwise fun a b => a.key ≤ b.key) ∧
      t.scan filter file c memory = Scan.reading filter.keep found := by
  obtain ⟨rows, hrows, hread⟩ := Scan.ofQuery_eq_ofList h
  obtain ⟨visited, hvisited, hbatch, rfl⟩ := rows_all_eq_ok_iff.1 hrows
  obtain ⟨shown, hshown, hperm⟩ := Layout.exists_rows_of_visited hvisited
  obtain ⟨visited', hvisited', hperm'⟩ := Layout.exists_visited_of_rows hshown
    (.scan (!(filter.minZoom.toList ++ filter.maxZoom.toList).isEmpty) false)
  have hsorted : (sortBy TileRow.keyLe visited').Perm (sortBy TileRow.keyLe visited) :=
    (sortBy_perm ..).trans ((hperm'.trans hperm.symm).trans (sortBy_perm ..).symm)
  obtain ⟨found, hfound, hfoundPerm⟩ := reading_all_perm hsorted hread
  refine ⟨found, .of_perm hfoundPerm (pairwise_of_reading hfound) (pairwise_of_reading hread)
    fun hmin hmax => ?_, pairwise_of_reading hfound, ?_⟩
  · -- Without bounds the two are one query.
    rw [hmin, hmax] at hvisited'
    obtain rfl := Except.ok.inj (hvisited'.symm.trans hvisited)
    exact congrArg Scan.items (hfound.symm.trans hread)
  · rw [scan, rows_eq_ok_iff.2 ⟨visited', hvisited', hzoom, hbatch, rfl⟩,
      ← filter_sortBy (fun _ _ _ => Std.TransCmp.isLE_trans) TileRow.keyLe_total]
    exact reading_filter hfound _

/-- Of a container that can be read, of whatever kind, a filtered scan gives the tiles of the whole
scan that the filter accepts, with their payloads and in the order of their keys.  If the filter
fails at some key, the scan gives the accepted tiles before the first such key and fails there in
the same way.  Tiles of one key come as the query meets them. -/
theorem scan_filter_of_scan_all (h : t.scan .all file c memory = .ofList tiles)
    (hzoom : ∀ n ∈ filter.minZoom.toList ++ filter.maxZoom.toList, (Cell.int n).fits = true) :
    ((∀ tile ∈ tiles, ∃ accepted, filter.accepts tile.key = .ok accepted) →
      ∃ found, t.scan filter file c memory = .ofList found ∧
        filter.FindsAs found (tiles.filter filter.takes)) ∧
    ∀ before tile after failure, tiles = before ++ tile :: after →
      (∀ other ∈ before, ∃ accepted, filter.accepts other.key = .ok accepted) →
      filter.accepts tile.key = .error failure →
        ∃ found, t.scan filter file c memory = ⟨found, some failure⟩ ∧
          filter.FindsAs found (before.filter filter.takes) := by
  obtain ⟨-, htiles⟩ := pairwise_of_scan h
  obtain ⟨met, hmet, hsorted, hscan⟩ := scan_eq_reading_keep h hzoom
  refine ⟨fun haccepts => ?_, fun before tile after failure hsplit hbefore htile => ?_⟩
  · have haccepts' : ∀ tile ∈ met, ∃ accepted, filter.accepts tile.key = .ok accepted :=
      fun tile hmem => haccepts tile (hmet.perm.mem_iff.1 hmem)
    exact ⟨_, hscan.trans (TileFilter.reading_keep haccepts'),
      hmet.of_filter filter.takes hsorted htiles⟩
  · subst hsplit
    have hne : ∀ other ∈ before, other.key ≠ tile.key := by
      intro other hother hkey
      obtain ⟨accepted, haccepted⟩ := hbefore other hother
      rw [hkey, htile] at haccepted
      cases haccepted
    obtain ⟨first, found, rest, rfl, hkey, hfirst⟩ := hmet.exists_split hsorted htiles hne
    have hfirstAccepts : ∀ other ∈ first, ∃ accepted, filter.accepts other.key = .ok accepted :=
      fun other hmem => hbefore other (hfirst.perm.mem_iff.1 hmem)
    exact ⟨_, hscan.trans (TileFilter.reading_keep_error hfirstAccepts (hkey ▸ htile)),
      hfirst.of_filter filter.takes (List.pairwise_append.1 hsorted).1
        (List.pairwise_append.1 htiles).1⟩

/-- A foreign map with a key out of its zoom level, two rows of one key, and a zoom level whose
tiles cannot be counted. -/
theorem scan_filter_of_scan_all_huge :
    let row (z x y : Int) (id : Cell) : Row := [.int z, .int x, .int y, id]
    let map : Table := ⟨"map", (keyColumns ++ ["tile_id"]).map .free, [],
      [row 0x4000000000 0 0 .null, row 1 5 0 (.text "b"), row 1 5 0 (.text "a"), row 0 0 0 .null]⟩
    let images : Table := ⟨"images", ["tile_id", "tile_data"].map .free, [],
      [[.text "a", .blob ⟨#[1]⟩], [.text "b", .blob ⟨#[2]⟩]]⟩
    let c : Container := ⟨[map, images], []⟩
    let t : Tileset := ⟨⟨.normalized, false⟩, 1⟩
    let world : Box := ⟨.ofInt (-180), .ofInt (-90), .ofInt 180, .ofInt 90⟩
    let last : Tile := ⟨⟨0x4000000000, 0, 0⟩, none⟩
    let found : List Tile := [⟨⟨0, 0, 0⟩, none⟩, ⟨⟨1, 5, 0⟩, some ⟨#[2]⟩⟩, ⟨⟨1, 5, 0⟩, some ⟨#[1]⟩⟩]
    t.scan .all "f" c = .ofList (found ++ [last]) ∧
    (∃ accepted, t.scan ⟨some 1, some 7, none, none⟩ "f" c = .ofList accepted ∧
      TileFilter.FindsAs ⟨some 1, some 7, none, none⟩ accepted (found.drop 1)) ∧
    t.scan ⟨some 1, none, some world, none⟩ "f" c = ⟨[], some .noMemory⟩ := by
  intro row map images c t world last found
  have hall : t.scan .all "f" c = .ofList (found ++ [last]) := by decide +kernel
  have hzoom := (scan_filter_of_scan_all hall (show ∀ n ∈
    (⟨some 1, some 7, none, none⟩ : TileFilter).minZoom.toList ++ [7], _ by decide)).1
  have hbox := (scan_filter_of_scan_all hall (show ∀ n ∈
    (⟨some 1, none, some world, none⟩ : TileFilter).minZoom.toList ++ [], _ by decide)).2
  refine ⟨hall, ?_, ?_⟩
  · exact hzoom fun tile _ => ⟨_, TileFilter.accepts_of_not_spatial rfl tile.key⟩
  · obtain ⟨accepted, hscan, haccepted⟩ :=
      hbox found last [] .noMemory rfl (by decide +kernel) (by decide +kernel)
    rw [hscan, haccepted.perm.eq_nil]

/-- The order of two tiles of one key is not that of the unfiltered scan where the map has a key
that holds the identifiers, but not the zoom level. -/
theorem not_scan_filter_of_scan_all :
    let row (id : Cell) : Row := [.int 0, .int 0, .int 0, id]
    let map : Table := ⟨"map", (keyColumns ++ ["tile_id"]).map .free,
      ["tile_column", "tile_row", "tile_id"], [row (.text "b"), row (.text "a")]⟩
    let images : Table := ⟨"images", ["tile_id", "tile_data"].map .free, [],
      [[.text "a", .blob ⟨#[1]⟩], [.text "b", .blob ⟨#[2]⟩]]⟩
    let c : Container := ⟨[map, images], []⟩
    let t : Tileset := ⟨⟨.normalized, false⟩, 1⟩
    let filter : TileFilter := ⟨some 0, none, none, none⟩
    let a : Tile := ⟨⟨0, 0, 0⟩, some ⟨#[1]⟩⟩
    let b : Tile := ⟨⟨0, 0, 0⟩, some ⟨#[2]⟩⟩
    t.scan .all "f" c = .ofList [a, b] ∧ filter.takes a ∧ filter.takes b ∧
    t.scan filter "f" c = .ofList [b, a] := by
  decide +kernel

end Tileset

end TileAtlas
