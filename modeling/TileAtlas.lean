import TileAtlas.Account
import TileAtlas.Bytes.Basic
import TileAtlas.Bytes.Hex
import TileAtlas.Command.Grammar
import TileAtlas.Command.Json
import TileAtlas.Command.Report
import TileAtlas.Command.Run
import TileAtlas.Command.Usage
import TileAtlas.Compress.Bits
import TileAtlas.Compress.Checksum
import TileAtlas.Compress.PrefixCode
import TileAtlas.Compress.Ranks
import TileAtlas.Compress.Reader
import TileAtlas.Compress.Transform
import TileAtlas.Compress.Writer
import TileAtlas.Container.Basic
import TileAtlas.Container.Cell
import TileAtlas.Container.Scan
import TileAtlas.Container.Session
import TileAtlas.Container.Table
import TileAtlas.Container.Visit
import TileAtlas.Container.Written
import TileAtlas.Delta.BlockPatch
import TileAtlas.Delta.Differ
import TileAtlas.Delta.Matching
import TileAtlas.Digest.Md5
import TileAtlas.Digest.Xxh3
import TileAtlas.Fault.Basic
import TileAtlas.Fault.Invalid
import TileAtlas.Fault.Status
import TileAtlas.Geometry.Bounds
import TileAtlas.Geometry.Box
import TileAtlas.Geometry.Filter
import TileAtlas.Geometry.Polygon
import TileAtlas.Geometry.Region
import TileAtlas.Geometry.Wkt
import TileAtlas.Keyword
import TileAtlas.Main
import TileAtlas.Metadata.Basic
import TileAtlas.Metadata.Change
import TileAtlas.Metadata.Diff
import TileAtlas.Metadata.Merge
import TileAtlas.Number.Binary64
import TileAtlas.Number.Decimal
import TileAtlas.Number.Lenient
import TileAtlas.Number.Power
import TileAtlas.Number.Reading
import TileAtlas.Number.Rounding
import TileAtlas.Operation.Apply
import TileAtlas.Operation.Basic
import TileAtlas.Operation.Copy
import TileAtlas.Operation.Diff
import TileAtlas.Operation.Validate
import TileAtlas.Order.Sort
import TileAtlas.Patch.Apply
import TileAtlas.Patch.Diff
import TileAtlas.Patch.File
import TileAtlas.Patch.Record
import TileAtlas.Proofs.Patch.Walk
import TileAtlas.Proofs.Tile.Order
import TileAtlas.Settings.Assignments
import TileAtlas.Settings.Basic
import TileAtlas.Text.Blank
import TileAtlas.Text.Case
import TileAtlas.Text.Digit
import TileAtlas.Text.Printable
import TileAtlas.Text.Quoted
import TileAtlas.Tile.Hash
import TileAtlas.Tile.Key
import TileAtlas.Tileset.Images
import TileAtlas.Tileset.Layout
import TileAtlas.Tileset.Rows
import TileAtlas.Tileset.Store
import TileAtlas.Tileset.Summary
import TileAtlas.Tileset.Validation
import TileAtlas.Workspace.Basic
import TileAtlas.Workspace.PathName
import TileAtlas.Proofs.Container.Cell
import TileAtlas.Proofs.Tileset.Holding
import TileAtlas.Proofs.Tileset.Statements
import TileAtlas.Proofs.Order.Sort
import TileAtlas.Proofs.Tileset.Index
import TileAtlas.Proofs.Container.Session
import TileAtlas.Proofs.Tileset.Store
import TileAtlas.Proofs.Tileset.Reached
import TileAtlas.Proofs.Metadata.Lookup
import TileAtlas.Proofs.Tileset.Shown
import TileAtlas.Proofs.Patch.Apply
import TileAtlas.Proofs.Workspace.Follow
import TileAtlas.Proofs.Container.Rollback
import TileAtlas.Proofs.Operation.Frame
import TileAtlas.Proofs.Metadata.Sync
import TileAtlas.Proofs.Patch.Reproduce
import TileAtlas.Proofs.Patch.Stored
import TileAtlas.Proofs.Patch.Load
import TileAtlas.Proofs.Operation.Success
import TileAtlas.Proofs.Operation.Sync
import TileAtlas.Proofs.Container.Attempt
import TileAtlas.Proofs.Container.Blocks
import TileAtlas.Proofs.Container.Inversion
import TileAtlas.Proofs.Operation.Inversion
import TileAtlas.Proofs.Operation.Streamed
import TileAtlas.Proofs.Tileset.Logical
import TileAtlas.Proofs.Container.Catalogue
import TileAtlas.Proofs.Container.Visit
import TileAtlas.Proofs.Tileset.Visited
import TileAtlas.Proofs.Tileset.Dropped
import TileAtlas.Proofs.Tileset.Linked
import TileAtlas.Proofs.Tileset.Untouched
import TileAtlas.Proofs.Operation.CopyTiles
import TileAtlas.Proofs.Operation.Copy
import TileAtlas.Proofs.Tileset.RolledBack
import TileAtlas.Proofs.Container.Ignore
import TileAtlas.Proofs.Tileset.Beside
import TileAtlas.Proofs.Tileset.MetadataRows
import TileAtlas.Proofs.Tile.Latest
import TileAtlas.Proofs.Tileset.Scanned
import TileAtlas.Proofs.Operation.Unfiltered
import TileAtlas.Proofs.Tileset.Sound
import TileAtlas.Proofs.Tileset.Made
import TileAtlas.Proofs.Operation.Made
import TileAtlas.Proofs.Operation.Sound
import TileAtlas.Proofs.Container.InStep
import TileAtlas.Proofs.Tileset.Twins
import TileAtlas.Proofs.Patch.Twins
import TileAtlas.Proofs.Operation.TwoWays
import TileAtlas.Proofs.Tile.Folded
import TileAtlas.Proofs.Tileset.Filtered
import TileAtlas.Proofs.Tileset.Detected
import TileAtlas.Proofs.Patch.RoundTrip
import TileAtlas.Proofs.Tileset.ForeignMetadata
import TileAtlas.Proofs.Tileset.Validated
import TileAtlas.Proofs.Metadata.TextMap
import TileAtlas.Proofs.Metadata.Inverse
import TileAtlas.Proofs.Metadata.Reorder
import TileAtlas.Proofs.Tileset.Unreferenced
import TileAtlas.Proofs.Tileset.ForeignMerge
import TileAtlas.Proofs.Container.Order
import TileAtlas.Proofs.Container.Provided
import TileAtlas.Proofs.Container.Scan
import TileAtlas.Proofs.Tileset.Ordered
import TileAtlas.Proofs.Tileset.Payloads
import TileAtlas.Proofs.Tileset.Provided
import TileAtlas.Proofs.Tileset.Summarized
import TileAtlas.Proofs.Patch.Malformed
import TileAtlas.Proofs.Operation.CopyMetadata
import TileAtlas.Proofs.Tileset.MetadataReads
