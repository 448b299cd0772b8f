import TileAtlas.Text.Blank

/-!
# Files of assignments

A file of assignments has one on each line: a name, an equals sign and a value.  A value may stand
in single or double quotes, and then it may go on over several lines; without quotes it ends at a
comment.  A name without a value is allowed, and a line that makes no sense is passed over.  A
value may refer to variables, whose values are put in.
-/

namespace TileAtlas.Assignments

open Text

def endsLine (c : Char) : Bool := c = '\n' || c = '\r'

def isGap (c : Char) : Bool := isBlank c && !endsLine c

def skipGap (text : List Char) : List Char := text.dropWhile isGap

def skipLine (text : List Char) : List Char :=
  match text.dropWhile (!endsLine ·) with
  | '\r' :: '\n' :: rest => rest
  | _ :: rest => rest
  | [] => []

/-- The contents of a quoted text and what follows it.  A quote after a backslash belongs to the
contents, unless the text would not end otherwise. -/
def quotedPart (quote : Char) : List Char → Option (List Char × List Char)
  | [] => none
  | [c] => if c = quote then some ([], []) else none
  | c :: d :: rest =>
    if c = quote then some ([], d :: rest)
    else if c = '\\' ∧ d = quote then
      match quotedPart quote rest with
      | some (contents, rest) => some (c :: d :: contents, rest)
      | none => some ([c], rest)
    else (quotedPart quote (d :: rest)).map fun (contents, rest) => (c :: contents, rest)

/-- The character that a letter after a backslash stands for within single quotes. -/
def singleEscape? (c : Char) : Option Char :=
  if c = '\\' ∨ c = '\'' then some c else none

/-- The character that a letter after a backslash stands for within double quotes. -/
def doubleEscape? (c : Char) : Option Char :=
  match c with
  | '\\' => some '\\'
  | '\'' => some '\''
  | '"' => some '"'
  | 'a' => some '\x07'
  | 'b' => some '\x08'
  | 'f' => some '\x0c'
  | 'n' => some '\n'
  | 'r' => some '\r'
  | 't' => some '\t'
  | 'v' => some '\x0b'
  | _ => none

def unescape (escape? : Char → Option Char) : List Char → List Char
  | [] => []
  | [c] => [c]
  | c :: d :: rest =>
    if c = '\\' then
      match escape? d with
      | some e => e :: unescape escape? rest
      | none => c :: unescape escape? (d :: rest)
    else c :: unescape escape? (d :: rest)

def cutComment : List Char → List Char
  | [] => []
  | c :: rest =>
    if isBlank c && (rest.dropWhile isBlank).head? = some '#' then []
    else c :: cutComment rest

def value? (text : List Char) : Option (List Char × List Char) :=
  match text with
  | '\'' :: rest =>
    (quotedPart '\'' rest).map fun (contents, rest) => (unescape singleEscape? contents, rest)
  | '"' :: rest =>
    (quotedPart '"' rest).map fun (contents, rest) => (unescape doubleEscape? contents, rest)
  | _ => some (stripEnd (cutComment (text.takeWhile (!endsLine ·))), text.dropWhile (!endsLine ·))

/-- What follows the comment and the end of a line, if nothing else is left on the line. -/
def lineEnd? (text : List Char) : Option (List Char) :=
  let afterComment := match skipGap text with
    | '#' :: rest => rest.dropWhile (!endsLine ·)
    | _ => text
  match skipGap afterComment with
  | [] => some []
  | '\r' :: '\n' :: rest => some rest
  | c :: rest => if endsLine c then some rest else none

def skipExport (text : List Char) : List Char :=
  match "export".toList.isPrefixOf text, (text.drop 6).head? with
  | true, some c => if isGap c then skipGap (text.drop 6) else text
  | _, _ => text

/-- The name at the beginning of a text, if it is not a comment, and what follows it. -/
def name? (text : List Char) : Option (Option (List Char) × List Char) :=
  match text with
  | '#' :: _ => some (none, text)
  | '\'' :: rest =>
    let name := rest.takeWhile (· ≠ '\'')
    match rest.dropWhile (· ≠ '\'') with
    | _ :: after => if name.isEmpty then none else some (some name, after)
    | [] => none
  | _ =>
    let inName (c : Char) : Bool := c ≠ '=' && c ≠ '#' && !isBlank c
    let name := text.takeWhile inName
    if name.isEmpty then none else some (some name, text.dropWhile inName)

/-- An assignment; the value may be missing. -/
structure Binding where
  name : String
  value : Option String
  deriving DecidableEq, Repr

/-- One line at the beginning of a text, which gives an assignment unless it is a comment, and what
follows it. -/
def line? (text : List Char) : Option (Option Binding × List Char) := do
  let (name, rest) ← name? (skipExport text)
  let rest := skipGap rest
  let (value, rest) ← match rest with
    | '=' :: more => (value? (skipGap more)).map fun (value, rest) => (some value, rest)
    | _ => some (none, rest)
  let rest ← lineEnd? rest
  return (name.map fun name => ⟨String.ofList name, value.map String.ofList⟩, rest)

/-- The assignments of a text; a line that makes no sense is passed over. -/
def bindingsFrom : Nat → List Char → List Binding
  | 0, _ => []
  | fuel + 1, text =>
    let start := text.dropWhile isBlank
    if start.isEmpty then []
    else
      match line? start with
      | some (binding, rest) => binding.toList ++ bindingsFrom fuel rest
      | none => bindingsFrom fuel (skipLine start)

/-- A value with the variables put in that it refers to: a dollar sign and a name in braces, with
an optional default after a colon and a dash. -/
def expand (valueOf : String → Option String) : Nat → List Char → List Char
  | 0, text => text
  | _, [] => []
  | fuel + 1, c :: rest =>
    let other := c :: expand valueOf fuel rest
    match c, rest with
    | '$', '\x7b' :: inner =>
      let name := inner.takeWhile fun d => d ≠ '\x7d' && d ≠ ':'
      match inner.drop name.length with
      | '\x7d' :: after =>
        ((valueOf (String.ofList name)).getD "").toList ++ expand valueOf fuel after
      | ':' :: '-' :: more =>
        let fallback := more.takeWhile (· ≠ '\x7d')
        match more.drop fallback.length with
        | _ :: after =>
          ((valueOf (String.ofList name)).getD (String.ofList fallback)).toList ++
            expand valueOf fuel after
        | [] => other
      | _ => other
    | _, _ => other

/-- The values of assignments in turn; a later value may refer to the names before it. -/
def resolve (environment : List (String × String)) (known : List (String × Option String)) :
    List Binding → List (String × Option String)
  | [] => known
  | binding :: rest =>
    let valueOf (name : String) : Option String :=
      match known.lookup name with
      | some value => some (value.getD "")
      | none => environment.lookup name
    let value := binding.value.map fun value =>
      String.ofList (expand valueOf (value.length + 1) value.toList)
    resolve environment ((binding.name, value) :: known) rest

/-- The names and values that a file of assignments gives, the last value of each name first. -/
def read (environment : List (String × String)) (text : String) : List (String × Option String) :=
  resolve environment [] (bindingsFrom (text.length + 1) text.toList)

end TileAtlas.Assignments
