import TileAtlas.Command.Json
import TileAtlas.Operation.Basic
import TileAtlas.Tileset.Summary

/-!
# Reports

What commands print about a result: one line for people, or a JSON text for programs.
-/

namespace TileAtlas

namespace OperationResult

def lines (r : OperationResult) : List String :=
  let tiles := r.account.tiles
  let first := r.operation ++ ": ok (read=" ++ toString tiles.read ++ ", written=" ++
    toString tiles.written ++ ", skipped=" ++ toString tiles.skipped ++ ", removed=" ++
    toString tiles.removed ++ ", delta=" ++ toString tiles.deltaEncoded ++ ", metadata=" ++
    toString r.account.metadataChanges ++ ")"
  match r.account.aggHash with
  | .null => [first]
  | hash => [first, "agg_tiles_hash: " ++ hash.display]

def faultLine (operation : String) (fault : Fault) : String :=
  operation ++ ": " ++ Keyword.word fault.status ++ " (" ++ fault.kind ++ "): " ++ fault.message

end OperationResult

def Failure.line : Failure → String
  | .fault f => f.message
  | .invalid why => why.message
  | .wrongKind => "a value is of the wrong kind"
  | .noCapitals => "a number stands where a hash is expected"
  | .outOfRange => "a number is out of range"
  | .noMemory => "a payload does not fit the memory"
  | .fields problems =>
    "invalid values: " ++ ", ".intercalate (problems.map fun p => p.1 ++ " (" ++ p.2.word ++ ")")
  | .directory why => why.message
  | .notRemovable path => "[Errno 21] Is a directory: " ++ Text.quoted path
  | .differBroken => "the delta method is out of order"

def ValidationReport.json (r : ValidationReport) : Json :=
  .record [
    ("path", .text r.file),
    ("layout", .text r.shape.text),
    ("integrity_check", .text (Keyword.word r.integrity)),
    ("tiles_checked", .number r.tilesChecked),
    ("stored_agg_tiles_hash", .ofText? r.stored),
    ("computed_agg_tiles_hash", .text r.computed),
    ("agg_hash_updated", .bool r.updated)]

def Details.json : Details → Json
  | .none => .record []
  | .patch before after patchType =>
    .record [("before", .text before), ("after", .text after),
      ("patch_type", .text (Keyword.word patchType))]
  | .validation report => report.json

def ZoomSummary.json (z : ZoomSummary) : Json :=
  .record [
    ("zoom_level", .number z.zoom),
    ("tile_count", .number z.tiles),
    ("null_tiles", .number z.nullTiles),
    ("total_bytes", .number z.bytes),
    ("min_column", .number z.minColumn),
    ("max_column", .number z.maxColumn),
    ("min_row", .number z.minRow),
    ("max_row", .number z.maxRow)]

def ZoomSummary.line (z : ZoomSummary) : String :=
  "  z" ++ toString z.zoom ++ ": " ++ toString z.tiles ++ " tiles, " ++ toString z.bytes ++
    " bytes, x " ++ toString z.minColumn ++ ".." ++ toString z.maxColumn ++ ", y " ++
    toString z.minRow ++ ".." ++ toString z.maxRow

namespace TilesetSummary

def json (s : TilesetSummary) : Json :=
  .record [
    ("path", .text s.file),
    ("layout", .text s.shape.text),
    ("tile_count", .number s.tiles),
    ("total_bytes", .number s.bytes),
    ("min_zoom", .ofInt? s.minZoom?),
    ("max_zoom", .ofInt? s.maxZoom?),
    ("zooms", .list (s.zooms.map ZoomSummary.json)),
    ("agg_tiles_hash", .ofText? s.aggHash)]

def lines (s : TilesetSummary) : List String :=
  let hash := s.aggHash.getD ""
  ["File: " ++ s.file, "Layout: " ++ s.shape.text,
    "Tiles: " ++ toString s.tiles ++ " (" ++ toString s.bytes ++ " bytes)"] ++
    (if hash = "" then [] else ["agg_tiles_hash: " ++ hash]) ++ s.zooms.map ZoomSummary.line

end TilesetSummary

end TileAtlas
