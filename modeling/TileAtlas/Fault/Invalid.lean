import TileAtlas.Tile.Key

/-!
# Refused values

A value that cannot be what it is meant to be: a key with a negative part, a word that names no
option, a box without area, a delta that does not decode.  The wording of each refusal is in
`Invalid.message`.
-/

namespace TileAtlas

/-- A value offered as a part of a key: a cell, or a truth value, which is never accepted. -/
inductive KeyPart
  | flag (b : Bool)
  | cell (c : Cell)
  deriving DecidableEq

namespace KeyPart

def quoted : KeyPart → String
  | flag true => "True"
  | flag false => "False"
  | cell c => c.quoted

def nat? : KeyPart → Option Nat
  | cell (.int n) => if 0 ≤ n then some n.toNat else none
  | _ => none

end KeyPart

inductive DeltaError
  | badHeader
  | baseTooShort
  | wrongMagic
  | shortNumber
  | negativeSize
  | cutShort
  | overrun
  | leftOver
  | compression
  | tooLong
  deriving DecidableEq, Repr

def DeltaError.message : DeltaError → String
  | badHeader => "corrupt delta: bad header"
  | baseTooShort => "corrupt delta: base too short"
  | wrongMagic => "corrupt delta: incorrect magic bsdiff4 header"
  | shortNumber => "corrupt delta: 8 bytes expected"
  | negativeSize => "corrupt delta: negative size in bsdiff4 patch"
  | cutShort => "corrupt delta: truncated bsdiff4 patch"
  | overrun => "corrupt delta: corrupt patch (overflow)"
  | leftOver => "corrupt delta: corrupt patch (underflow)"
  | compression => "corrupt delta: bzip2"
  | tooLong => "corrupt delta: "

inductive Invalid
  | keyPart (name : String) (value : KeyPart)
  | negativeShift
  | keyword (title : String) (value : Cell)
  | valueOnRemoval (name : Cell)
  | valueMissing (action : String) (name : Cell)
  | encodingOnRemoval (key : TileKey)
  | deltaMisplaced (key : TileKey)
  | encodingMissing (action : String) (key : TileKey)
  | negativeCount
  | boxParts (text : String)
  | number (text : String)
  | boxWithoutArea (corners : List Binary64)
  | regionText
  | regionEmpty
  | regionKind (kind : String)
  | zoomRange (least greatest : Int)
  | logLevel (name : String)
  | tooManyDigits
  | delta (why : DeltaError)
  deriving DecidableEq

def Invalid.message : Invalid → String
  | keyPart name value => name ++ " must be a non-negative integer, got " ++ value.quoted
  | negativeShift => "negative shift count"
  | keyword title value => value.quoted ++ " is not a valid " ++ title
  | valueOnRemoval name => "remove change for '" ++ name.display ++ "' must not carry a value"
  | valueMissing action name => action ++ " change for '" ++ name.display ++ "' requires a value"
  | encodingOnRemoval key => "remove record for " ++ key.text ++ " cannot carry an encoding"
  | deltaMisplaced key => "delta record for " ++ key.text ++ " must be a change with patch_data"
  | encodingMissing action key =>
    action ++ " record for " ++ key.text ++ " needs a full or delta encoding"
  | negativeCount => "negative count"
  | boxParts text => "Expected 'west,south,east,north', got " ++ Text.quoted text
  | number text => "could not convert string to float: " ++ Text.quoted text
  | boxWithoutArea corners =>
    "Degenerate bounding box: (" ++ ", ".intercalate (corners.map Binary64.text) ++ ")"
  | regionText => "Invalid WKT geometry"
  | regionEmpty => "WKT geometry is empty"
  | regionKind kind => "Expected Polygon or MultiPolygon WKT, got " ++ kind
  | zoomRange least greatest =>
    "min_zoom " ++ toString least ++ " is greater than max_zoom " ++ toString greatest
  | logLevel name => "Unknown level: " ++ Text.quoted name
  | tooManyDigits =>
    "Exceeds the limit (" ++ toString TileKey.longestNumber ++ " digits) for integer string " ++
      "conversion; use sys.set_int_max_str_digits() to increase the limit"
  | delta why => why.message

def TileKey.ofParts (z x y : KeyPart) : Except Invalid TileKey :=
  match z.nat?, x.nat?, y.nat? with
  | none, _, _ => .error (.keyPart "zoom_level" z)
  | _, none, _ => .error (.keyPart "tile_column" x)
  | _, _, none => .error (.keyPart "tile_row" y)
  | some z, some x, some y => .ok ⟨z, x, y⟩

/-- The flipped row of any zoom level; a negative zoom level has no rows. -/
def flipRowAt (zoom row : Int) : Except Invalid Int :=
  if zoom < 0 then .error .negativeShift else .ok (flipRow zoom.toNat row)

end TileAtlas
