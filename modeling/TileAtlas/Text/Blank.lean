/-!
# Blank characters

White space in the sense of the Unicode standard: the separators, the line and paragraph breaks,
and the control characters that stand for tabs, line feeds and the information separators.
-/

namespace TileAtlas.Text

def blankRuns : List (Nat × Nat) := [
  (0x9, 0xd), (0x1c, 0x20), (0x85, 0x85), (0xa0, 0xa0), (0x1680, 0x1680), (0x2000, 0x200a),
  (0x2028, 0x2029), (0x202f, 0x202f), (0x205f, 0x205f), (0x3000, 0x3000)]

def isBlank (c : Char) : Bool :=
  blankRuns.any fun (first, last) => first ≤ c.toNat && c.toNat ≤ last

def strip (s : List Char) : List Char :=
  ((s.dropWhile isBlank).reverse.dropWhile isBlank).reverse

def stripEnd (s : List Char) : List Char :=
  (s.reverse.dropWhile isBlank).reverse

def stripString (s : String) : String :=
  String.ofList (strip s.toList)

end TileAtlas.Text
