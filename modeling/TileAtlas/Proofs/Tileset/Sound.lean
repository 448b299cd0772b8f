import TileAtlas.Proofs.Tileset.Index
import TileAtlas.Proofs.Tileset.MetadataRows

/-!
# Hashes that are right

A tileset stores a hash for each tile, in two of the layouts, and one of all its tiles among its
metadata.  The former are right in every container of the library, whatever its metadata are; the
latter is right if it is the aggregate hash of the tiles.  Then the tileset can be validated.
-/

namespace TileAtlas

open TileAtlas.Action Layout

/-- Whether the stored hash of every tile is the hash of its payload, and the stored aggregate hash,
if there is one, that of the tiles, but for the case of letters. -/
def Container.Sound (c : Container) : Prop :=
  ∀ file, ∃ shape hashed stored computed, detect file c = .ok shape ∧
    (Tileset.scanHashed ⟨shape, 1⟩ file c).all = .ok hashed ∧
    (shape.hasStoredHash = true →
      ∀ entry ∈ hashed, Tileset.hashAgrees entry.1 entry.2 = true) ∧
    Tileset.metadataValue? (.text aggHashName) file c = .ok stored ∧
    Tileset.aggregate ⟨shape, 1⟩ file c = .ok computed ∧
    ∀ hash ∈ stored, Text.upper hash = Text.upper computed

/-- Whether the stored aggregate hash is there and is that of the tiles. -/
def Container.Fresh (c : Container) : Prop :=
  ∀ file, ∃ shape computed, detect file c = .ok shape ∧
    Tileset.aggregate ⟨shape, 1⟩ file c = .ok computed ∧
    Tileset.metadataValue? (.text aggHashName) file c = .ok (some computed)

namespace Tileset

variable {t : Tileset} {rows : List Row} {h : Holding} {s : Session} {layout : Layout}

/-! ### Stored hashes -/

/-- A tile with the hash that a layout shows for it. -/
def hashedTile (layout : Layout) (tile : Tile) : Tile × Cell :=
  (tile, (layout.shownRow tile).stored)

theorem hashAgrees_shown (hlayout : layout ≠ .flat) (tile : Tile) :
    hashAgrees tile (layout.shownRow tile).stored = true := by
  obtain ⟨key, data⟩ := tile
  unfold hashAgrees Layout.shownRow
  rw [if_neg hlayout]
  cases data with
  | none => rfl
  | some bytes => simp [tileHash, Cell.ofText?, Cell.isNull, Cell.display]

theorem scanHashed_containerWith (file : String) (hvalid : h.Valid t.shape.layout)
    (hbatch : checkBatch t.batch = .ok ()) :
    t.scanHashed file (t.shape.layout.containerWith rows h) =
      .ofList (h.sorted.map (hashedTile t.shape.layout)) := by
  have hrows : t.rows .all true file (t.shape.layout.containerWith rows h) =
      .ok ((h.sorted.map (hashedTile t.shape.layout)).map fun entry =>
        t.shape.layout.shownRow entry.1) := by
    have hzoom : ∀ n ∈ TileFilter.all.minZoom.toList ++ TileFilter.all.maxZoom.toList,
        (Cell.int n).fits = true := by simp [TileFilter.all]
    have hshown := rows_container true file hvalid hbatch hzoom
    have hall : (h.sorted.filter fun tile => TileFilter.all.acceptsZoom tile.key.zoom) =
        h.sorted := List.filter_eq_self.2 fun _ _ => rfl
    rw [hall] at hshown
    rw [containerWith, rows_setMetadata rfl, hshown, List.map_map]
    rfl
  have hread : ∀ entry ∈ h.sorted.map (hashedTile t.shape.layout),
      readHashedTile usualMemory file (t.shape.layout.shownRow entry.1) =
        .ok (if (fun _ => true) entry then some entry else none) := by
    intro entry hentry
    obtain ⟨tile, -, rfl⟩ := List.mem_map.1 hentry
    have hkey : rowKey file (t.shape.layout.shownRow tile) = .ok tile.key := by
      simp only [rowKey, Layout.shownRow, TileKey.ofCells?_cells]
    have hdata : payload usualMemory (t.shape.layout.shownRow tile).data = .ok tile.data :=
      payload_ofPayload usualMemory tile.data
    simp only [hashedTile, readHashedTile, hkey, hdata, bind, Except.bind]
    rfl
  rw [scanHashed, hrows, Scan.ofQuery, Scan.reading_map hread, List.filter_true]

/-- Checking the hashes comes to looking for the first one that is wrong. -/
theorem checkHashes_eq (entries : List (Tile × Cell)) :
    checkHashes entries = match entries.find? fun entry => !hashAgrees entry.1 entry.2 with
      | none => .ok (entries.map (·.1))
      | some (tile, stored) =>
        .error (.fault (.corruptTile tile.key stored (.ofText? (tileHash tile.data)))) := by
  induction entries with
  | nil => rfl
  | cons entry rest ih =>
      obtain ⟨tile, stored⟩ := entry
      rw [checkHashes]
      cases hagrees : hashAgrees tile stored with
      | true =>
          rw [List.find?_cons_of_neg (by simp [hagrees]), if_pos rfl, ih]
          cases rest.find? _ <;> rfl
      | false =>
          rw [List.find?_cons_of_pos (by simp [hagrees])]
          rfl

theorem checkHashes_of_agrees {entries : List (Tile × Cell)}
    (h : ∀ entry ∈ entries, hashAgrees entry.1 entry.2 = true) :
    checkHashes entries = .ok (entries.map (·.1)) := by
  rw [checkHashes_eq, List.find?_eq_none.2 fun entry hentry => by simp [h entry hentry]]

/-- No stored hash is found to be wrong. -/
theorem checkedTiles_containerWith (file : String) (hvalid : h.Valid t.shape.layout)
    (hbatch : checkBatch t.batch = .ok ()) :
    t.checkedTiles file (t.shape.layout.containerWith rows h) = .ok h.sorted := by
  have hfirst : (h.sorted.map (hashedTile t.shape.layout)).map (·.1) = h.sorted := by
    rw [List.map_map]
    exact List.map_id _
  unfold checkedTiles
  rw [scanHashed_containerWith file hvalid hbatch]
  by_cases hstored : t.shape.hasStoredHash = true
  · have hagrees : ∀ entry ∈ h.sorted.map (hashedTile t.shape.layout),
        hashAgrees entry.1 entry.2 = true := by
      intro entry hentry
      obtain ⟨tile, -, rfl⟩ := List.mem_map.1 hentry
      exact hashAgrees_shown (of_decide_eq_true hstored) tile
    simp only [hstored, if_true, Scan.ofList, checkHashes_of_agrees hagrees, hfirst]
    rfl
  · simp only [hstored, Bool.false_eq_true, if_false, Scan.ofList, hfirst]
    rfl

theorem upper_aggregateHash (tiles : List Tile) :
    Text.upper (aggregateHash tiles) = aggregateHash tiles := upper_payloadHash _

theorem sound_containerWith_iff (hvalid : h.Valid layout) :
    (layout.containerWith rows h).Sound ↔
      ∀ hash ∈ valueIn rows aggHashName, Text.upper hash = aggregateHash h.sorted := by
  let t : Tileset := ⟨layout.shape, 1⟩
  have hdetect (file : String) : detect file (layout.containerWith rows h) = .ok layout.shape :=
    detect_containerWith file layout rows h
  have haggregate (file : String) : t.aggregate file (layout.containerWith rows h) =
      .ok (aggregateHash h.sorted) := aggregate_containerWith (t := t) file hvalid rfl
  have hstored (file : String) : metadataValue? (.text aggHashName) file
      (layout.containerWith rows h) = .ok (valueIn rows aggHashName) :=
    metadataValue_containerWith file layout rows h aggHashName
  constructor
  · intro hsound
    obtain ⟨shape, hashed, stored, computed, hshape, -, -, hvalue, hcomputed, hagrees⟩ := hsound ""
    obtain rfl := Except.ok.inj ((hdetect "").symm.trans hshape)
    obtain rfl := Except.ok.inj ((haggregate "").symm.trans hcomputed)
    obtain rfl := Except.ok.inj ((hstored "").symm.trans hvalue)
    rwa [upper_aggregateHash] at hagrees
  · intro hagrees file
    refine ⟨layout.shape, h.sorted.map (hashedTile layout), _, _, hdetect file, ?_, ?_,
      hstored file, haggregate file, ?_⟩
    · exact congrArg Scan.all (scanHashed_containerWith (t := t) file hvalid rfl)
    · intro hlayout entry hentry
      obtain ⟨tile, -, rfl⟩ := List.mem_map.1 hentry
      exact hashAgrees_shown (of_decide_eq_true hlayout) tile
    · rwa [upper_aggregateHash]

theorem fresh_containerWith_iff (hvalid : h.Valid layout) :
    (layout.containerWith rows h).Fresh ↔
      valueIn rows aggHashName = some (aggregateHash h.sorted) := by
  let t : Tileset := ⟨layout.shape, 1⟩
  have hdetect (file : String) : detect file (layout.containerWith rows h) = .ok layout.shape :=
    detect_containerWith file layout rows h
  have haggregate (file : String) : t.aggregate file (layout.containerWith rows h) =
      .ok (aggregateHash h.sorted) := aggregate_containerWith (t := t) file hvalid rfl
  have hstored (file : String) : metadataValue? (.text aggHashName) file
      (layout.containerWith rows h) = .ok (valueIn rows aggHashName) :=
    metadataValue_containerWith file layout rows h aggHashName
  constructor
  · intro hfresh
    obtain ⟨shape, computed, hshape, hcomputed, hvalue⟩ := hfresh ""
    obtain rfl := Except.ok.inj ((hdetect "").symm.trans hshape)
    obtain rfl := Except.ok.inj ((haggregate "").symm.trans hcomputed)
    exact Except.ok.inj ((hstored "").symm.trans hvalue)
  · intro hfresh file
    exact ⟨layout.shape, _, hdetect file, haggregate file, (hstored file).trans (by rw [hfresh])⟩

/-- A stored hash that is there and right is right. -/
theorem sound_of_fresh (hvalid : h.Valid layout) (hfresh : (layout.containerWith rows h).Fresh) :
    (layout.containerWith rows h).Sound := by
  rw [sound_containerWith_iff hvalid]
  rw [fresh_containerWith_iff hvalid] at hfresh
  intro hash hhash
  obtain rfl := Option.some.inj (hfresh.symm.trans hhash)
  exact upper_aggregateHash h.sorted

/-! ### Validating -/

section Validate

variable (hcontents : s.contents = t.shape.layout.containerWith rows h)

include hcontents

theorem value_spec (name : String) :
    Yields (query (metadataValue? (.text name))) s fun value s' =>
      value = valueIn rows name ∧ s' = s := by
  refine query_spec ?_
  rw [hcontents]
  exact metadataValue_containerWith s.file _ rows h name

theorem checkedTiles_spec (hvalid : h.Valid t.shape.layout) (hbatch : checkBatch t.batch = .ok ()) :
    Yields (query t.checkedTiles) s fun tiles s' => tiles = h.sorted ∧ s' = s := by
  refine query_spec ?_
  rw [hcontents]
  exact checkedTiles_containerWith s.file hvalid hbatch

/-- A tileset whose stored hash is that of its tiles is found valid. -/
theorem validate_verify (hvalid : h.Valid t.shape.layout) (hbatch : checkBatch t.batch = .ok ())
    (hfresh : valueIn rows aggHashName = some (aggregateHash h.sorted))
    (integrity : IntegrityCheck) :
    Yields (t.validate integrity .verify) s fun _ _ => True := by
  refine (value_spec hcontents aggHashName).bind ?_
  rintro _ s ⟨rfl, rfl⟩
  refine (checkedTiles_spec hcontents hvalid hbatch).bind ?_
  rintro _ s ⟨rfl, rfl⟩
  have hsettle : settleAggHash .verify (valueIn rows aggHashName) (aggregateHash h.sorted) =
      pure false := by
    simp only [settleAggHash, hfresh, upper_aggregateHash, if_true]
  refine (Yields.of_run (y := pure false) (congrFun hsettle s)
    (.pure (Q := fun _ _ => True) trivial)).bind fun _ s' _ => ?_
  exact .intro rfl trivial

end Validate

end Tileset

end TileAtlas
