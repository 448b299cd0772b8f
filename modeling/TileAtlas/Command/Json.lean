import TileAtlas.Bytes.Hex

/-!
# JSON texts

Reports are printed as JSON: two blanks for each level, one member on each line, and only what has
to be escaped is escaped.
-/

namespace TileAtlas

inductive Json
  | null
  | bool (b : Bool)
  | number (n : Int)
  | text (s : String)
  | list (items : List Json)
  | record (members : List (String × Json))

namespace Json

def ofText? : Option String → Json
  | some s => text s
  | none => null

def ofInt? : Option Int → Json
  | some n => number n
  | none => null

def escapeChar (c : Char) : List Char :=
  match c with
  | '"' => ['\\', '"']
  | '\\' => ['\\', '\\']
  | '\n' => ['\\', 'n']
  | '\r' => ['\\', 'r']
  | '\t' => ['\\', 't']
  | '\x08' => ['\\', 'b']
  | '\x0c' => ['\\', 'f']
  | c =>
    if c.toNat < 32 then
      ['\\', 'u', '0', '0', Bytes.hexDigitLower (c.toNat / 16), Bytes.hexDigitLower (c.toNat % 16)]
    else [c]

def quoted (s : String) : String :=
  String.ofList ('"' :: s.toList.flatMap escapeChar ++ ['"'])

def margin (depth : Nat) : String := String.ofList (List.replicate (2 * depth) ' ')

def enclosed (opening closing : String) (depth : Nat) (lines : List String) : String :=
  if lines.isEmpty then opening ++ closing
  else opening ++ "\n" ++ ",\n".intercalate (lines.map (margin (depth + 1) ++ ·)) ++ "\n" ++
    margin depth ++ closing

mutual

def render (depth : Nat) : Json → String
  | null => "null"
  | bool b => if b then "true" else "false"
  | number n => toString n
  | text s => quoted s
  | list items => enclosed "[" "]" depth (renderItems (depth + 1) items)
  | record members => enclosed "\x7b" "\x7d" depth (renderMembers (depth + 1) members)

def renderItems (depth : Nat) : List Json → List String
  | [] => []
  | item :: rest => item.render depth :: renderItems depth rest

def renderMembers (depth : Nat) : List (String × Json) → List String
  | [] => []
  | (name, value) :: rest =>
    (quoted name ++ ": " ++ value.render depth) :: renderMembers depth rest

end

end Json

end TileAtlas
