import TileAtlas.Digest.Md5
import TileAtlas.Digest.Xxh3
import TileAtlas.Fault.Basic
import TileAtlas.Text.Case

/-!
# Tile hashes

A payload has a tile hash, which also serves as the identifier of its image, and a check hash for
payloads that a delta produces.  The aggregate hash of a tileset is the digest of one text that
names every tile with its hash in ascending order of keys; a dash stands for the hash of a null
tile, so that no tile and a null tile differ.
-/

namespace TileAtlas

def payloadHash (data : Bytes) : String := Md5.hex data

def tileHash (data : Option Bytes) : Option String := data.map payloadHash

def checkHash (data : Bytes) : String := Xxh3.hex data

def Tile.line (tile : Tile) : String :=
  tile.key.text ++ "=" ++ (tileHash tile.data).getD "-" ++ ";"

def foldedText (tiles : List Tile) : String :=
  String.join (tiles.map Tile.line)

def aggregateHash (tiles : List Tile) : String :=
  Md5.hex (foldedText tiles).toUTF8

/-- Whether a computed hash is the expected one but for the case of letters.  A number has no
capital form to compare, and a byte string equals no text. -/
def sameHash (computed : Option String) (expected : Cell) : Except Failure Bool :=
  match computed, expected with
  | none, expected => .ok expected.isNull
  | some _, .null => .ok false
  | some c, .text e => .ok (Text.upper c == Text.upper e)
  | some _, .blob _ => .ok false
  | some _, _ => .error .noCapitals

end TileAtlas
