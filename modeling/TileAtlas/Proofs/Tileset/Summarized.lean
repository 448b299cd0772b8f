import TileAtlas.Proofs.Tileset.Ordered
import TileAtlas.Proofs.Tileset.Provided
import TileAtlas.Tileset.Summary
import Mathlib.Algebra.Ring.Nat

/-!
# A summary and the scan of the same tileset

A summary divides the rows of a tileset into groups of one zoom level each and works out the figures
of every group from its cells.  A scan reads all rows one after the other.  Where every row can be
read as a tile, the figures of a zoom level are those of its tiles in the scan, also if keys repeat,
images are shared or images are missing.
-/

namespace TileAtlas

/-! ### Division into runs -/

section Runs

variable {α : Type} {key : α → Int} {same : α → α → Bool} {l : List α} {groups : List (List α)}

/-- Whether some groups divide a list, with one key for each group and ascending from one group to
the next. -/
structure Divides (key : α → Int) (l : List α) (groups : List (List α)) : Prop where
  flatten : groups.flatten = l
  nonempty : ∀ group ∈ groups, group ≠ []
  constant : ∀ group ∈ groups, ∀ a ∈ group, ∀ b ∈ group, key a = key b
  ascending : groups.Pairwise fun group later => ∀ a ∈ group, ∀ b ∈ later, key a < key b

theorem divides_runs (hsame : ∀ a ∈ l, ∀ b ∈ l, same a b = decide (key a = key b))
    (hl : l.Pairwise fun a b => key a ≤ key b) : Divides key l (runs same l) := by
  induction l with
  | nil => exact ⟨rfl, nofun, nofun, .nil⟩
  | cons a rest ih =>
      obtain ⟨hfirst, hrest⟩ := List.pairwise_cons.1 hl
      have ih := ih (fun b hb c hc => hsame b (List.mem_cons_of_mem _ hb) c
        (List.mem_cons_of_mem _ hc)) hrest
      unfold runs
      cases hruns : runs same rest with
      | nil =>
          rw [hruns] at ih
          obtain rfl : [] = rest := ih.flatten
          exact ⟨rfl, by simp, by simp, by simp⟩
      | cons group groups =>
          rw [hruns] at ih
          cases group with
          | nil => exact absurd rfl (ih.nonempty [] (List.mem_cons_self ..))
          | cons b group =>
              have hflatten : (b :: group) ++ groups.flatten = rest := ih.flatten
              have hb : b ∈ rest := hflatten ▸ List.mem_cons_self ..
              obtain ⟨hafter, hlater⟩ := List.pairwise_cons.1 ih.ascending
              have hconstant := ih.constant (b :: group) (List.mem_cons_self ..)
              dsimp only
              rw [hsame a (List.mem_cons_self ..) b (List.mem_cons_of_mem _ hb)]
              split
              next hab =>
                have hab : key a = key b := of_decide_eq_true hab
                have hgroup : ∀ c ∈ a :: b :: group, key c = key b :=
                  List.forall_mem_cons.2 ⟨hab, fun c hc =>
                    hconstant c hc b (List.mem_cons_self ..)⟩
                refine ⟨congrArg (a :: ·) hflatten, ?_, ?_, ?_⟩
                · exact List.forall_mem_cons.2 ⟨List.cons_ne_nil _ _,
                    (List.forall_mem_cons.1 ih.nonempty).2⟩
                · refine List.forall_mem_cons.2 ⟨fun c hc d hd => ?_,
                    (List.forall_mem_cons.1 ih.constant).2⟩
                  rw [hgroup c hc, hgroup d hd]
                · refine List.pairwise_cons.2 ⟨fun later hmem c hc d hd => ?_, hlater⟩
                  rw [hgroup c hc]
                  exact hafter later hmem b (List.mem_cons_self ..) d hd
              next hab =>
                have hlt : key a < key b :=
                  lt_of_le_of_ne (hfirst b hb) fun heq => hab (decide_eq_true heq)
                refine ⟨congrArg (a :: ·) hflatten, ?_, ?_, ?_⟩
                · exact List.forall_mem_cons.2 ⟨List.cons_ne_nil _ _, ih.nonempty⟩
                · exact List.forall_mem_cons.2 ⟨by simp, ih.constant⟩
                · refine List.pairwise_cons.2 ⟨fun later hmem c hc d hd => ?_, ih.ascending⟩
                  obtain rfl := List.mem_singleton.1 hc
                  rcases List.mem_cons.1 hmem with rfl | hmem
                  · rwa [hconstant d hd b (List.mem_cons_self ..)]
                  · exact hlt.trans (hafter later hmem b (List.mem_cons_self ..) d hd)

/-- A group holds all elements of its key. -/
theorem Divides.group_eq (h : Divides key l groups) {group : List α} (hgroup : group ∈ groups)
    {n : Int} (hn : ∀ a ∈ group, key a = n) : group = l.filter fun a => key a = n := by
  obtain ⟨before, after, rfl⟩ := List.append_of_mem hgroup
  obtain ⟨a, ha⟩ := List.exists_mem_of_ne_nil group (h.nonempty group hgroup)
  obtain ⟨-, hrest, hbefore⟩ := List.pairwise_append.1 h.ascending
  have hafter := (List.pairwise_cons.1 hrest).1
  have hfirst : before.flatten.filter (fun b => key b = n) = [] := by
    refine List.filter_eq_nil_iff.2 fun b hb => ?_
    obtain ⟨other, hother, hb⟩ := List.mem_flatten.1 hb
    have hlt := hbefore other hother group (List.mem_cons_self ..) b hb a ha
    simpa [← hn a ha] using hlt.ne
  have hlast : after.flatten.filter (fun b => key b = n) = [] := by
    refine List.filter_eq_nil_iff.2 fun b hb => ?_
    obtain ⟨other, hother, hb⟩ := List.mem_flatten.1 hb
    have hlt := hafter other hother a ha b hb
    simpa [← hn a ha] using hlt.ne'
  have hself : group.filter (fun b => key b = n) = group :=
    List.filter_eq_self.2 fun b hb => by simpa using hn b hb
  rw [← h.flatten, List.flatten_append, List.flatten_cons, List.filter_append, List.filter_append,
    hfirst, hself, hlast, List.nil_append, List.append_nil]

theorem Divides.map {β : Type} {key : β → Int} {f : α → β}
    (h : Divides (fun a => key (f a)) l groups) :
    Divides key (l.map f) (groups.map (List.map f)) where
  flatten := by rw [← List.map_flatten, h.flatten]
  nonempty := by
    simpa only [List.forall_mem_map, ne_eq, List.map_eq_nil_iff] using h.nonempty
  constant := by
    simpa only [List.forall_mem_map] using h.constant
  ascending := by
    simpa only [List.pairwise_map, List.forall_mem_map] using h.ascending

end Runs

theorem total_eq_sum (l : List Nat) : total l = l.sum := by
  induction l with
  | nil => rfl
  | cons n rest ih => rw [total, List.sum_cons, ih]

/-! ### Least and greatest -/

section Extremes

variable {ns ms : List Int} {m : Int}

theorem min?_congr (h : ∀ n, n ∈ ns ↔ n ∈ ms) : ns.min? = ms.min? := by
  cases hms : ms.min? with
  | none =>
      obtain rfl := List.min?_eq_none_iff.1 hms
      exact List.min?_eq_none_iff.2 (List.eq_nil_iff_forall_not_mem.2 fun n => by simp [h])
  | some m =>
      obtain ⟨hm, hle⟩ := List.min?_eq_some_iff.1 hms
      exact List.min?_eq_some_iff.2 ⟨(h m).2 hm, fun n hn => hle n ((h n).1 hn)⟩

theorem max?_congr (h : ∀ n, n ∈ ns ↔ n ∈ ms) : ns.max? = ms.max? := by
  cases hms : ms.max? with
  | none =>
      obtain rfl := List.max?_eq_none_iff.1 hms
      exact List.max?_eq_none_iff.2 (List.eq_nil_iff_forall_not_mem.2 fun n => by simp [h])
  | some m =>
      obtain ⟨hm, hle⟩ := List.max?_eq_some_iff.1 hms
      exact List.max?_eq_some_iff.2 ⟨(h m).2 hm, fun n hn => hle n ((h n).1 hn)⟩

theorem exists_min? (h : ns ≠ []) : ∃ m, ns.min? = some m :=
  Option.ne_none_iff_exists'.1 fun hnone => h (List.min?_eq_none_iff.1 hnone)

theorem exists_max? (h : ns ≠ []) : ∃ m, ns.max? = some m :=
  Option.ne_none_iff_exists'.1 fun hnone => h (List.max?_eq_none_iff.1 hnone)

theorem head?_eq_min? (h : ns.Pairwise (· < ·)) : ns.head? = ns.min? := by
  cases h with
  | nil => rfl
  | @cons n rest hfirst _ =>
      refine (List.min?_eq_some_iff.2 ⟨List.mem_cons_self .., ?_⟩).symm
      exact List.forall_mem_cons.2 ⟨le_rfl, fun m hm => (hfirst m hm).le⟩

theorem getLast?_eq_max? (h : ns.Pairwise (· < ·)) : ns.getLast? = ns.max? := by
  rcases List.eq_nil_or_concat ns with rfl | ⟨rest, n, rfl⟩
  · rfl
  · rw [List.concat_eq_append] at h ⊢
    obtain ⟨-, -, hlast⟩ := List.pairwise_append.1 h
    rw [List.getLast?_concat]
    refine (List.max?_eq_some_iff.2 ⟨by simp, fun m hm => ?_⟩).symm
    rcases List.mem_append.1 hm with hm | hm
    · exact (hlast m hm n (List.mem_singleton_self n)).le
    · exact (List.mem_singleton.1 hm).le

theorem foldl_map_int {step : Cell → Cell → Cell} {op : Int → Int → Int}
    (hstep : ∀ m n, step (.int m) (.int n) = .int (op m n)) (ns : List Int) (m : Int) :
    (ns.map Cell.int).foldl step (.int m) = .int (ns.foldl op m) := by
  induction ns generalizing m with
  | nil => rfl
  | cons n rest ih => rw [List.map_cons, List.foldl_cons, hstep, ih, List.foldl_cons]

theorem leastCell_of_min? (h : ns.min? = some m) : leastCell (ns.map .int) = .int m := by
  cases ns with
  | nil => cases h
  | cons n rest =>
      rw [List.min?_cons'] at h
      rw [← Option.some.inj h]
      refine foldl_map_int (fun a b => ?_) rest n
      rw [Cell.compare, Int.compare_eq_ite_lt]
      rcases lt_trichotomy b a with h | rfl | h
      · simp [Cell.isNull, h, h.le]
      · simp [Cell.isNull]
      · simp [Cell.isNull, h, h.le, h.not_gt]

theorem greatestCell_of_max? (h : ns.max? = some m) : greatestCell (ns.map .int) = .int m := by
  cases ns with
  | nil => cases h
  | cons n rest =>
      rw [List.max?_cons'] at h
      rw [← Option.some.inj h]
      refine foldl_map_int (fun a b => ?_) rest n
      rw [Cell.compare, Int.compare_eq_ite_lt]
      rcases lt_trichotomy b a with h | rfl | h
      · simp [h, h.le]
      · simp
      · simp [h, h.le, h.not_gt]

end Extremes

/-! ### The figures of a group -/

namespace Tile

def zoom (tile : Tile) : Int := tile.key.zoom

def column (tile : Tile) : Int := tile.key.column

def row (tile : Tile) : Int := tile.key.row

/-- The number of bytes of a payload; a null tile has none. -/
def size (tile : Tile) : Nat := tile.data.elim 0 (·.size)

end Tile

/-- Whether the figures of a zoom level are those of some tiles. -/
structure ZoomSummary.Describes (z : ZoomSummary) (own : List Tile) : Prop where
  zoom : ∀ tile ∈ own, tile.zoom = z.zoom
  tiles : z.tiles = own.length
  nullTiles : z.nullTiles = own.countP (·.data.isNone)
  bytes : z.bytes = (own.map (·.size)).sum
  minColumn : (own.map (·.column)).min? = some z.minColumn
  maxColumn : (own.map (·.column)).max? = some z.maxColumn
  minRow : (own.map (·.row)).min? = some z.minRow
  maxRow : (own.map (·.row)).max? = some z.maxRow

theorem ZoomSummary.Describes.perm {z : ZoomSummary} {own own' : List Tile} (h : z.Describes own)
    (hperm : own.Perm own') : z.Describes own' where
  zoom tile htile := h.zoom tile (hperm.mem_iff.2 htile)
  tiles := h.tiles.trans hperm.length_eq
  nullTiles := h.nullTiles.trans (hperm.countP_eq _)
  bytes := h.bytes.trans (hperm.map _).sum_nat
  minColumn := (min?_congr fun _ => (hperm.map _).mem_iff).symm.trans h.minColumn
  maxColumn := (max?_congr fun _ => (hperm.map _).mem_iff).symm.trans h.maxColumn
  minRow := (min?_congr fun _ => (hperm.map _).mem_iff).symm.trans h.minRow
  maxRow := (max?_congr fun _ => (hperm.map _).mem_iff).symm.trans h.maxRow

theorem ZoomSummary.Describes.exists_mem {z : ZoomSummary} {own : List Tile} (h : z.Describes own) :
    ∃ tile, tile ∈ own := by
  refine List.exists_mem_of_ne_nil own fun hnil => ?_
  have hmin := h.minColumn
  rw [hnil] at hmin
  cases hmin

/-- Whether a summary says of some tiles what there is to say: one entry for each zoom level of a
tile, in ascending order, with the figures of the tiles of this level, and the totals. -/
structure TilesetSummary.Describes (summary : TilesetSummary) (tiles : List Tile) : Prop where
  ascending : (summary.zooms.map (·.zoom)).Pairwise (· < ·)
  occurs : ∀ n, n ∈ summary.zooms.map (·.zoom) ↔ n ∈ tiles.map (·.zoom)
  figures : ∀ z ∈ summary.zooms, z.Describes (tiles.filter fun tile => tile.zoom = z.zoom)
  count : summary.tiles = tiles.length
  bytes : summary.bytes = (tiles.map (·.size)).sum
  minZoom : summary.minZoom? = (tiles.map (·.zoom)).min?
  maxZoom : summary.maxZoom? = (tiles.map (·.zoom)).max?

namespace TilesetSummary

variable {summary : TilesetSummary} {tiles tiles' : List Tile}

theorem Describes.perm (h : summary.Describes tiles) (hperm : tiles.Perm tiles') :
    summary.Describes tiles' where
  ascending := h.ascending
  occurs n := (h.occurs n).trans (hperm.map _).mem_iff
  figures z hz := (h.figures z hz).perm (hperm.filter _)
  count := h.count.trans hperm.length_eq
  bytes := h.bytes.trans (hperm.map _).sum_nat
  minZoom := h.minZoom.trans (min?_congr fun _ => (hperm.map _).mem_iff)
  maxZoom := h.maxZoom.trans (max?_congr fun _ => (hperm.map _).mem_iff)

/-- A summary of the groups of some tiles describes the tiles. -/
theorem describes_of_groups {groups : List (List Tile)} (h : Divides Tile.zoom tiles groups)
    (hzooms : List.Forall₂ (fun group z => ZoomSummary.Describes z group) groups summary.zooms) :
    summary.Describes tiles := by
  have hascending : (summary.zooms.map (·.zoom)).Pairwise (· < ·) := by
    rw [List.pairwise_map]
    refine pairwise_of_forall₂ hzooms (fun group z later z' hz hz' hlt => ?_) h.ascending
    obtain ⟨a, ha⟩ := hz.exists_mem
    obtain ⟨b, hb⟩ := hz'.exists_mem
    rw [← hz.zoom a ha, ← hz'.zoom b hb]
    exact hlt a ha b hb
  have hoccurs (n : Int) : n ∈ summary.zooms.map (·.zoom) ↔ n ∈ tiles.map (·.zoom) := by
    simp only [List.mem_map, ← h.flatten, List.mem_flatten]
    constructor
    · rintro ⟨z, hz, rfl⟩
      obtain ⟨group, hgroup, hdescribes⟩ := exists_of_forall₂ hzooms z hz
      obtain ⟨a, ha⟩ := hdescribes.exists_mem
      exact ⟨a, ⟨group, hgroup, ha⟩, hdescribes.zoom a ha⟩
    · rintro ⟨a, ⟨group, hgroup, ha⟩, rfl⟩
      obtain ⟨z, hz, hdescribes⟩ := exists_of_forall₂ hzooms.flip group hgroup
      exact ⟨z, hz, (hdescribes.zoom a ha).symm⟩
  refine ⟨hascending, hoccurs, fun z hz => ?_, ?_, ?_, ?_, ?_⟩
  · obtain ⟨group, hgroup, hdescribes⟩ := exists_of_forall₂ hzooms z hz
    rwa [← h.group_eq hgroup hdescribes.zoom]
  · rw [TilesetSummary.tiles, total_eq_sum, ← h.flatten, List.length_flatten,
      map_eq_of_forall₂ hzooms fun group z hz => hz.tiles.symm]
  · have hsums : groups.map (fun group => (group.map (·.size)).sum) =
        summary.zooms.map (·.bytes) := map_eq_of_forall₂ hzooms fun group z hz => hz.bytes.symm
    rw [TilesetSummary.bytes, total_eq_sum, ← h.flatten, List.map_flatten, List.sum_flatten,
      List.map_map, ← hsums]
    rfl
  · rw [minZoom?, ← List.head?_map, head?_eq_min? hascending, min?_congr hoccurs]
  · rw [maxZoom?, ← List.getLast?_map, getLast?_eq_max? hascending, max?_congr hoccurs]

end TilesetSummary

/-! ### Rows that are tiles -/

namespace TileRow

/-- The tile of a row that holds one. -/
def tile (row : TileRow) : Tile :=
  ⟨row.key?.getD default, match row.data with
    | .blob b => some b
    | _ => none⟩

/-- Whether a row holds a tile. -/
def HoldsTile (row : TileRow) : Prop := row.At row.tile.key ∧ row.data = .ofPayload row.tile.data

theorem tile_eq {row : TileRow} {tile : Tile} (hkey : row.At tile.key)
    (hdata : row.data = .ofPayload tile.data) : row.tile = tile := by
  obtain ⟨key, data⟩ := tile
  unfold TileRow.tile
  rw [key?_eq_some_iff.2 hkey, hdata]
  cases data <;> rfl

theorem holdsTile_of {row : TileRow} (hkey : ∃ key, row.At key)
    (hdata : ∃ data, row.data = .ofPayload data) : row.HoldsTile := by
  obtain ⟨key, hkey⟩ := hkey
  obtain ⟨data, hdata⟩ := hdata
  have htile : row.tile = ⟨key, data⟩ := tile_eq hkey hdata
  unfold HoldsTile
  rw [htile]
  exact ⟨hkey, hdata⟩

end TileRow

open TileRow

theorem total_lengths {rows : List TileRow} (h : ∀ row ∈ rows, row.HoldsTile) :
    total (rows.filterMap (·.data.length?)) = ((rows.map TileRow.tile).map (·.size)).sum := by
  induction rows with
  | nil => rfl
  | cons row rest ih =>
      obtain ⟨⟨-, hdata⟩, hrest⟩ := List.forall_mem_cons.1 h
      rw [List.map_cons, List.map_cons, List.sum_cons, ← ih hrest, Tile.size, List.filterMap_cons,
        hdata]
      cases row.tile.data with
      | none => exact (Nat.zero_add _).symm
      | some b => rfl

/-- The figures of a group of rows of one zoom level are those of its tiles. -/
theorem exists_ofGroup {group : List TileRow} (hnonempty : group ≠ [])
    (hrows : ∀ row ∈ group, row.HoldsTile)
    (hconstant : ∀ a ∈ group, ∀ b ∈ group, a.tile.zoom = b.tile.zoom) :
    ∃ z, ZoomSummary.ofGroup group = .ok z ∧ z.Describes (group.map TileRow.tile) := by
  have hne (f : Tile → Int) : (group.map TileRow.tile).map f ≠ [] := by simpa using hnonempty
  obtain ⟨minColumn, hminColumn⟩ := exists_min? (hne (·.column))
  obtain ⟨maxColumn, hmaxColumn⟩ := exists_max? (hne (·.column))
  obtain ⟨minRow, hminRow⟩ := exists_min? (hne (·.row))
  obtain ⟨maxRow, hmaxRow⟩ := exists_max? (hne (·.row))
  have hcolumns : group.map (·.x) = ((group.map TileRow.tile).map (·.column)).map .int := by
    simp only [List.map_map]
    exact List.map_congr_left fun row hrow => (hrows row hrow).1.2.1
  have hrowCells : group.map (·.y) = ((group.map TileRow.tile).map (·.row)).map .int := by
    simp only [List.map_map]
    exact List.map_congr_left fun row hrow => (hrows row hrow).1.2.2
  obtain ⟨first, rest, rfl⟩ := List.exists_cons_of_ne_nil hnonempty
  have hfirst : first ∈ first :: rest := List.mem_cons_self ..
  have hzoom : ((first :: rest).head?.map (·.z)).getD .null = .int first.tile.zoom :=
    (hrows first hfirst).1.1
  refine ⟨⟨first.tile.zoom, (first :: rest).length, (first :: rest).countP (·.data.isNull),
    total ((first :: rest).filterMap (·.data.length?)), minColumn, maxColumn, minRow, maxRow⟩,
    ?_, ?_⟩
  · unfold ZoomSummary.ofGroup
    dsimp only
    rw [hcolumns, hrowCells, hzoom, leastCell_of_min? hminColumn, greatestCell_of_max? hmaxColumn,
      leastCell_of_min? hminRow, greatestCell_of_max? hmaxRow]
    rfl
  · refine ⟨?_, (List.length_map _).symm, ?_, total_lengths hrows, hminColumn, hmaxColumn, hminRow,
      hmaxRow⟩
    · exact List.forall_mem_map.2 fun row hrow => hconstant row hrow first hfirst
    · rw [List.countP_map]
      refine List.countP_congr fun row hrow => ?_
      rw [(hrows row hrow).2, Function.comp_apply]
      cases row.tile.data <;> rfl

theorem exists_mapM {α β : Type} {f : α → Except Failure β} {R : α → β → Prop} {l : List α}
    (h : ∀ a ∈ l, ∃ b, f a = .ok b ∧ R a b) :
    ∃ bs, l.mapM f = .ok bs ∧ List.Forall₂ R l bs := by
  induction l with
  | nil => exact ⟨[], rfl, .nil⟩
  | cons a rest ih =>
      obtain ⟨⟨b, hb, hab⟩, hrest⟩ := List.forall_mem_cons.1 h
      obtain ⟨bs, hbs, hall⟩ := ih hrest
      refine ⟨b :: bs, ?_, .cons hab hall⟩
      rw [List.mapM_cons, hb, hbs]
      rfl

/-- Rows that hold tiles are divided into groups that are described one by one. -/
theorem divides_zoomGroups {rows : List TileRow} (hrows : ∀ row ∈ rows, row.HoldsTile) :
    ∃ sorted, sorted.Perm rows ∧
      Divides (fun row : TileRow => row.tile.zoom) sorted (zoomGroups rows) := by
  have hle : ∀ a ∈ rows, ∀ b ∈ rows, a.z.le b.z = decide (a.tile.zoom ≤ b.tile.zoom) := by
    intro a ha b hb
    rw [(hrows a ha).1.1, (hrows b hb).1.1]
    exact Cell.le_int _ _
  have hsame : ∀ a ∈ rows, ∀ b ∈ rows, a.z.same b.z = decide (a.tile.zoom = b.tile.zoom) := by
    intro a ha b hb
    rw [(hrows a ha).1.1, (hrows b hb).1.1]
    exact Cell.same_int _ _
  have hperm := sortBy_perm (fun a b : TileRow => a.z.le b.z) rows
  refine ⟨_, hperm, divides_runs ?_ ?_⟩
  · exact fun a ha b hb => hsame a (hperm.mem_iff.1 ha) b (hperm.mem_iff.1 hb)
  · rw [sortBy_congr hle]
    exact pairwise_le_sortBy _ rows

open TileAtlas.Action

namespace Tileset

variable {t : Tileset} {file : String} {c : Container}

theorem exists_summary {rows : List TileRow} {hash : Option String}
    (hshown : t.shape.layout.rows c = .ok rows) (hrows : ∀ row ∈ rows, row.HoldsTile)
    (hhash : metadataValue? (.text aggHashName) file c = .ok hash) :
    ∃ summary, t.summary file c = .ok summary ∧ summary.Describes (rows.map TileRow.tile) := by
  obtain ⟨sorted, hperm, hdivides⟩ := divides_zoomGroups hrows
  have hsorted : ∀ row ∈ sorted, row.HoldsTile := fun row hrow => hrows row (hperm.mem_iff.1 hrow)
  have hgroups : ∀ group ∈ zoomGroups rows, ∃ z, ZoomSummary.ofGroup group = .ok z ∧
      z.Describes (group.map TileRow.tile) := fun group hgroup =>
    exists_ofGroup (hdivides.nonempty group hgroup)
      (fun row hrow => hsorted row (hdivides.flatten ▸ List.mem_flatten.2 ⟨group, hgroup, hrow⟩))
      (hdivides.constant group hgroup)
  obtain ⟨zooms, hzooms, hdescribed⟩ := exists_mapM hgroups
  refine ⟨⟨file, t.shape, zooms, hash⟩, ?_, ?_⟩
  · unfold Tileset.summary
    rw [hshown, hhash]
    show (zoomGroups rows).mapM ZoomSummary.ofGroup >>= _ = _
    rw [hzooms]
    rfl
  · refine (TilesetSummary.describes_of_groups hdivides.map ?_).perm (hperm.map _)
    exact List.forall₂_map_left_iff.2 hdescribed

/-- A scan of rows that hold tiles gives their tiles. -/
theorem scan_holdsTile {rows : List TileRow} (hscanned : t.rows .all false file c = .ok rows)
    (hrows : ∀ row ∈ rows, row.HoldsTile) (memory : Nat) :
    t.scan .all file c memory = .ofList (rows.map TileRow.tile) := by
  have hread : ∀ row ∈ rows, readTile memory .all file row = .ok (some row.tile) := by
    intro row hrow
    obtain ⟨hkey, hdata⟩ := hrows row hrow
    have hpayload : payload memory row.data = .ok row.tile.data := by
      rw [hdata, payload_ofPayload]
    rw [readTile_eq_keep (key?_eq_some_iff.2 hkey) hpayload rfl]
    rfl
  rw [scan, hscanned]
  exact Scan.reading_of_forall hread

/-- Of a container of any origin, and after any store operations, whether they succeed or fail:
where every row holds a tile, the summary says of the tiles of a scan what there is to say. -/
theorem summary_describes_scan {s : Session} (hnamed : s.contents.Named)
    (hdetected : detect s.file s.contents = .ok t.shape)
    (hbatch : -0x80000000 ≤ t.batch ∧ t.batch < 0x80000000) (operations : List StoreOperation) :
    let s' := (attemptAll (operations.map (·.run t)) s).2
    ∃ rows, t.shape.layout.rows s'.contents = .ok rows ∧
      ((∀ row ∈ rows, (∃ key, row.At key) ∧ ∃ data, row.data = .ofPayload data) →
        ∃ tiles summary, (∀ memory, t.scan .all s'.file s'.contents memory = .ofList tiles) ∧
          t.count s'.file s'.contents = .ok tiles.length ∧
          t.summary s'.file s'.contents = .ok summary ∧ summary.Describes tiles) := by
  intro s'
  obtain ⟨⟨m, hm, hcolumns⟩, hneeds⟩ :=
    List.forall_mem_cons.1 (attemptAll_hasAll (hasAll_of_detect hnamed hdetected) operations)
  obtain ⟨rows, hshown⟩ := Layout.exists_rows_iff.2 hneeds
  refine ⟨rows, hshown, fun hcells => ?_⟩
  have hrows : ∀ row ∈ rows, row.HoldsTile := fun row hrow =>
    holdsTile_of (hcells row hrow).1 (hcells row hrow).2
  obtain ⟨visited, hvisited, hvisitedPerm⟩ :=
    Layout.exists_visited_of_rows hshown (.scan false false)
  have hperm : (sortBy keyLe visited).Perm rows := (sortBy_perm keyLe visited).trans hvisitedPerm
  have hscanned : t.rows .all false s'.file s'.contents = .ok (sortBy keyLe visited) :=
    rows_all_eq_ok_iff.2 ⟨visited, hvisited, checkBatch_of_range hbatch, rfl⟩
  have hscan := scan_holdsTile hscanned fun row hrow => hrows row (hperm.mem_iff.1 hrow)
  obtain ⟨hash, hhash⟩ := exists_metadataValue hm hcolumns (.text aggHashName) s'.file
  obtain ⟨summary, hsummary, hdescribes⟩ := exists_summary hshown hrows hhash
  refine ⟨_, summary, hscan, ?_, hsummary, hdescribes.perm (hperm.symm.map _)⟩
  rw [Tileset.count, hshown, List.length_map, hperm.length_eq]
  rfl

/-- Two tiles that share an image, one of a repeated key whose image is missing, and a null tile
that is put on another zoom level. -/
theorem summary_describes_scan_shared :
    let map : List Row := [[.int 2, .int 3, .int 0, .text "a"], [.int 2, .int 1, .int 2, .text "a"],
      [.int 2, .int 1, .int 2, .text "b"]]
    let c : Container := ⟨[⟨"metadata", [.free "name", .free "value"], [], []⟩,
      ⟨"map", (keyColumns ++ ["tile_id"]).map .free, [], map⟩,
      ⟨"images", ["tile_id", "tile_data"].map .free, [], [[.text "a", .blob ⟨#[1, 2]⟩]]⟩], []⟩
    let t : Tileset := ⟨⟨.normalized, false⟩, 1⟩
    let zooms : List ZoomSummary := [⟨1, 1, 1, 0, 0, 0, 1, 1⟩, ⟨2, 3, 1, 4, 1, 3, 0, 2⟩]
    let shown : List TileRow := [⟨.int 2, .int 3, .int 0, .blob ⟨#[1, 2]⟩, .text "a"⟩,
      ⟨.int 2, .int 1, .int 2, .blob ⟨#[1, 2]⟩, .text "a"⟩,
      ⟨.int 2, .int 1, .int 2, .null, .text "b"⟩, ⟨.int 1, .int 0, .int 1, .null, .null⟩]
    let put : StoreOperation := .put ⟨1, 0, 1⟩ none
    let s' := (attemptAll [put.run t] (.start "a" true c)).2
    c.Named ∧ detect "a" c = .ok t.shape ∧ t.shape.layout.rows s'.contents = .ok shown ∧
      ∃ tiles summary, t.scan .all "a" s'.contents = .ofList tiles ∧
        t.summary "a" s'.contents = .ok summary ∧ summary.Describes tiles ∧
        summary.zooms = zooms := by
  intro map c t zooms shown put s'
  have hnamed : c.Named := by
    unfold Container.Named
    decide +kernel
  have hdetected : detect "a" c = .ok t.shape := by decide +kernel
  obtain ⟨rows, hrows, hdescribes⟩ :=
    summary_describes_scan (s := .start "a" true c) hnamed hdetected (by decide) [put]
  have hshown : t.shape.layout.rows s'.contents = .ok shown := by decide +kernel
  obtain rfl : shown = rows := Except.ok.inj (hshown.symm.trans hrows)
  have hsummary : t.summary "a" s'.contents = .ok ⟨"a", t.shape, zooms, none⟩ := by decide +kernel
  have hcells : ∀ row ∈ shown, (∃ key, row.At key) ∧ ∃ data, row.data = .ofPayload data := by
    have hkeyed : ∀ row ∈ shown, row.key?.isSome = true := by decide +kernel
    have hblob : ∃ data, Cell.blob ⟨#[1, 2]⟩ = .ofPayload data := ⟨some ⟨#[1, 2]⟩, rfl⟩
    have hnull : ∃ data, Cell.null = .ofPayload data := ⟨none, rfl⟩
    refine fun row hrow => ⟨?_, ?_⟩
    · obtain ⟨key, hkey⟩ := Option.isSome_iff_exists.1 (hkeyed row hrow)
      exact ⟨key, key?_eq_some_iff.1 hkey⟩
    · have hdata : ∀ row ∈ shown, ∃ data, row.data = .ofPayload data := by
        simp [shown, hblob, hnull]
      exact hdata row hrow
  obtain ⟨tiles, summary, hscan, -, hfound, h⟩ := hdescribes hcells
  obtain rfl := Except.ok.inj (hsummary.symm.trans hfound)
  exact ⟨hnamed, hdetected, hshown, tiles, _, hscan usualMemory, hsummary, h, rfl⟩

/-- Rows cannot be fetched in batches that are too large, but they are summed up without being
fetched. -/
theorem not_summary_describes_scan :
    let c : Container := ⟨[⟨"metadata", [.free "name", .free "value"], [], []⟩,
      ⟨"tiles", (keyColumns ++ ["tile_data"]).map .free, [],
        [[.int 0, .int 0, .int 0, .blob ⟨#[1]⟩]]⟩], []⟩
    let huge : Tileset := ⟨⟨.flat, false⟩, 0x80000000⟩
    c.Named ∧ detect "a" c = .ok huge.shape ∧
    huge.shape.layout.rows c = .ok [⟨.int 0, .int 0, .int 0, .blob ⟨#[1]⟩, .null⟩] ∧
    huge.scan .all "a" c = ⟨[], some .outOfRange⟩ ∧
    huge.summary "a" c = .ok ⟨"a", huge.shape, [⟨0, 1, 0, 1, 0, 0, 0, 0⟩], none⟩ ∧
    ¬ TilesetSummary.Describes ⟨"a", huge.shape, [⟨0, 1, 0, 1, 0, 0, 0, 0⟩], none⟩
      (huge.scan .all "a" c).items := by
  intro c huge
  have hnamed : c.Named := by
    unfold Container.Named
    decide +kernel
  have hscan : huge.scan .all "a" c = ⟨[], some .outOfRange⟩ := by decide +kernel
  refine ⟨hnamed, by decide +kernel, by decide +kernel, hscan, by decide +kernel, fun h => ?_⟩
  have hcount := h.count
  rw [hscan] at hcount
  cases hcount

end Tileset

end TileAtlas
