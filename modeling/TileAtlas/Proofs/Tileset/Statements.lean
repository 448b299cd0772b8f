import TileAtlas.Proofs.Tileset.Holding

/-!
# Statements on a holding

What the statements of the store operations do to the container that keeps a holding, each
written out as what they do to the holding.
-/

namespace TileAtlas

namespace Layout

open Statement

variable {layout : Layout} {h : Holding}

theorem target_tiles :
    target (layout.container h) layout.keyTable = .ok (layout.tilesTable h.tiles) := by
  simp only [target, table?_tiles]

theorem target_metadata :
    target (layout.container h) "metadata" = .ok (metadataTableOf h.metadata) := by
  simp only [target, table?_metadata]

theorem target_images :
    target (normalized.container h) "images" = .ok (imagesTableOf h.images) := rfl

theorem check_deleteTile (key : TileKey) :
    check (layout.container h) (.delete layout.keyTable (Tileset.keyConditions key)) =
      .ok () := by
  simp only [check, target_tiles]
  cases layout <;> rfl

theorem run_deleteTile (key : TileKey) :
    run (layout.container h) (.delete layout.keyTable (Tileset.keyConditions key)) =
      .ok (h.tiles.countP (·.key = key),
        layout.container
          { h with tiles := h.tiles.filter fun tile => !decide (tile.key = key) }) := by
  have hcount : h.tiles.length - (h.tiles.filter fun tile => !decide (tile.key = key)).length =
      h.tiles.countP (·.key = key) := by
    rw [← List.countP_eq_length_filter, h.tiles.length_eq_countP_add_countP (·.key = key)]
    simp
  simp only [run, target_tiles, delete_tilesTable, setTable_tiles, bind, Except.bind, ← hcount]
  simp only [tilesTable, List.length_map]

theorem check_insertTile (key : TileKey) (data : Option Bytes) :
    check (layout.container h) (.insert layout.keyTable
      (Tileset.keyConditions key ++ layout.tileCells data)) = .ok () := by
  simp only [check, target_tiles]
  cases layout <;> rfl

theorem run_insertTile {key : TileKey} {data : Option Bytes}
    (hnew : ∀ old ∈ h.tiles, old.key ≠ key) :
    run (layout.container h) (.insert layout.keyTable
        (Tileset.keyConditions key ++ layout.tileCells data)) =
      .ok (1, layout.container { h with tiles := h.tiles ++ [⟨key, data⟩] }) := by
  have hinsert : (layout.tilesTable h.tiles).insert (layout.tileRow ⟨key, data⟩) =
      .ok (layout.tilesTable (h.tiles ++ [⟨key, data⟩])) := insert_tilesTable layout hnew
  rw [← rowOf_tilesTable layout h.tiles] at hinsert
  simp only [run, target_tiles, hinsert, setTable_tiles, bind, Except.bind]

theorem check_insertImage (data : Bytes) :
    check (normalized.container h) (.insert "images"
      [("tile_id", .text (payloadHash data)), ("tile_data", .blob data)]) = .ok () := rfl

theorem run_insertImage {data : Bytes} (hnew : payloadHash data ∉ h.images.map payloadHash) :
    run (normalized.container h) (.insert "images"
        [("tile_id", .text (payloadHash data)), ("tile_data", .blob data)]) =
      .ok (1, normalized.container { h with images := h.images ++ [data] }) := by
  simp only [run, target_images, rowOf_imagesTable, insert_imagesTable hnew, setTable_images,
    bind, Except.bind]

theorem check_deleteMetadata (name : String) :
    check (layout.container h) (.delete "metadata" [("name", .text name)]) = .ok () := by
  simp only [check, target_metadata]
  rfl

theorem run_deleteMetadata (layout : Layout) (h : Holding) (name : String) :
    ∃ touched, run (layout.container h) (.delete "metadata" [("name", .text name)]) =
      .ok (touched, layout.container
        { h with metadata := h.metadata.filter fun entry => !decide (entry.1 = name) }) := by
  simp only [run, target_metadata, delete_metadataTable, setTable_metadata, bind, Except.bind]
  exact ⟨_, rfl⟩

theorem check_insertMetadata (name value : String) :
    check (layout.container h) (.insert "metadata" [("name", .text name), ("value", .text value)]) =
      .ok () := by
  simp only [check, target_metadata]
  rfl

theorem run_insertMetadata {name : String} (value : String)
    (hnew : ∀ old ∈ h.metadata, old.1 ≠ name) :
    run (layout.container h) (.insert "metadata" [("name", .text name), ("value", .text value)]) =
      .ok (1, layout.container { h with metadata := h.metadata ++ [(name, value)] }) := by
  have hinsert : (metadataTableOf h.metadata).insert (metadataRow (name, value)) =
      .ok (metadataTableOf (h.metadata ++ [(name, value)])) := insert_metadataTable hnew
  simp only [run, target_metadata, rowOf_metadataTable, hinsert, setTable_metadata, bind,
    Except.bind]

/-! ### Dropping unused images -/

theorem target_map : target (normalized.container h) "map" = .ok (normalized.tilesTable h.tiles) :=
  rfl

theorem filter_ids (tiles : List Tile) :
    ((tiles.map fun tile => Cell.ofText? (tileHash tile.data)).filter (!·.isNull)) =
      (tiles.filterMap fun tile => tileHash tile.data).map Cell.text := by
  induction tiles with
  | nil => rfl
  | cons tile rest ih =>
      cases htile : tileHash tile.data with
      | none => simpa [htile] using ih
      | some hash => simpa [htile] using ⟨rfl, ih⟩

/-- An image is dropped if no tile has its hash. -/
theorem unlisted_image (data : Bytes) :
    unlisted (((normalized.tilesTable h.tiles).rows.map
        ((normalized.tilesTable h.tiles).cell · "tile_id")).filter (!·.isNull))
      (.text (payloadHash data)) = !h.uses data := by
  have hids : (normalized.tilesTable h.tiles).rows.map
      ((normalized.tilesTable h.tiles).cell · "tile_id") =
      h.tiles.map fun tile => Cell.ofText? (tileHash tile.data) := List.map_map
  rw [hids, filter_ids, Bool.eq_iff_iff]
  simp only [unlisted, List.isEmpty_map, List.any_map, List.any_filterMap, Function.comp_apply,
    Cell.eqv_text, Bool.or_eq_true, List.isEmpty_iff, List.filterMap_eq_nil_iff, Bool.and_eq_true,
    Bool.not_eq_eq_eq_not, Bool.not_true, List.any_eq_false, Bool.not_eq_true, Holding.uses,
    decide_eq_true_eq]
  constructor
  · rintro (hnone | ⟨-, hnone⟩) tile htile hhash
    · simp [hnone tile htile] at hhash
    · simpa [hhash] using hnone tile htile
  · intro hunused
    refine .inr ⟨rfl, fun tile htile => ?_⟩
    cases hhash : tileHash tile.data with
    | none => rfl
    | some hash => exact decide_eq_false fun heq => hunused tile htile (heq ▸ hhash)

theorem delete_imagesTable :
    (imagesTableOf h.images).delete (fun row =>
        unlisted (((normalized.tilesTable h.tiles).rows.map
          ((normalized.tilesTable h.tiles).cell · "tile_id")).filter (!·.isNull))
          ((imagesTableOf h.images).cell row "tile_id")) =
      imagesTableOf (h.images.filter h.uses) := by
  refine (Table.delete_map rfl fun data _ => unlisted_image data).trans ?_
  simp only [Bool.not_not]
  rfl

theorem check_dropImages :
    check (normalized.container h) (.deleteUnlisted "images" "tile_id" "map" "tile_id") = .ok () :=
  rfl

theorem run_dropImages :
    run (normalized.container h) (.deleteUnlisted "images" "tile_id" "map" "tile_id") =
      .ok (h.images.length - (h.images.filter h.uses).length, normalized.container h.finalize) := by
  have hlength (images : List Bytes) : (imagesTableOf images).rows.length = images.length :=
    List.length_map _
  have hjoined : ((imagesTableOf h.images).affinity "tile_id").joined
      ((normalized.tilesTable h.tiles).affinity "tile_id") = .any := rfl
  simp only [run, target_images, target_map, bind, Except.bind, hjoined, Affinity.keep_any,
    delete_imagesTable, hlength]
  rfl

end Layout

end TileAtlas
