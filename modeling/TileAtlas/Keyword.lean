import TileAtlas.Fault.Invalid

/-!
# Keywords

Options, actions and encodings are written as words.  A `Keyword` type lists its members with
their words, and `Keyword.parse` reads one back or refuses the value.
-/

namespace TileAtlas

class Keyword (α : Type) where
  title : String
  members : List α
  word : α → String

namespace Keyword

variable {α : Type} [Keyword α]

def words (α : Type) [Keyword α] : List String :=
  (members : List α).map word

def ofWord? (s : String) : Option α :=
  (members : List α).find? fun a => word a = s

def parse (value : Cell) : Except Invalid α :=
  match value with
  | .text s =>
    match ofWord? s with
    | some a => .ok a
    | none => .error (.keyword (title α) value)
  | _ => .error (.keyword (title α) value)

end Keyword

end TileAtlas
