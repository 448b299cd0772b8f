import TileAtlas.Text.Printable
import TileAtlas.Bytes.Hex

/-!
# Quoted texts and bytes

Values of doubtful shape are quoted in messages.  A text stands between single quotes, or between
double quotes if it holds a single quote and no double one; a byte string has the mark `b` in
front.  What cannot be printed is escaped.
-/

namespace TileAtlas.Text

def quoteFor (hasSingle hasDouble : Bool) : Char :=
  if hasSingle && !hasDouble then '"' else '\''

def hexDigits : Nat → Nat → List Char
  | 0, _ => []
  | width + 1, n => hexDigits width (n / 16) ++ [Bytes.hexDigitLower (n % 16)]

def escapeChar (quote c : Char) : List Char :=
  if c = quote ∨ c = '\\' then ['\\', c]
  else if c = '\n' then ['\\', 'n']
  else if c = '\r' then ['\\', 'r']
  else if c = '\t' then ['\\', 't']
  else if isPrintable c then [c]
  else if c.toNat < 0x100 then '\\' :: 'x' :: hexDigits 2 c.toNat
  else if c.toNat < 0x10000 then '\\' :: 'u' :: hexDigits 4 c.toNat
  else '\\' :: 'U' :: hexDigits 8 c.toNat

def quoted (s : String) : String :=
  let chars := s.toList
  let quote := quoteFor (chars.contains '\'') (chars.contains '"')
  String.ofList (quote :: chars.flatMap (escapeChar quote) ++ [quote])

def escapeByte (quote : Char) (b : UInt8) : List Char :=
  let c := Char.ofNat b.toNat
  if c = quote ∨ c = '\\' then ['\\', c]
  else if c = '\n' then ['\\', 'n']
  else if c = '\r' then ['\\', 'r']
  else if c = '\t' then ['\\', 't']
  else if 0x20 ≤ b ∧ b < 0x7f then [c]
  else '\\' :: 'x' :: hexDigits 2 b.toNat

def quotedBytes (bytes : List UInt8) : String :=
  let quote := quoteFor (bytes.contains 0x27) (bytes.contains 0x22)
  String.ofList ('b' :: quote :: bytes.flatMap (escapeByte quote) ++ [quote])

end TileAtlas.Text
