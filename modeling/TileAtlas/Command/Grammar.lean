import TileAtlas.Keyword
import TileAtlas.Number.Reading

/-!
# The grammar of command lines

A command takes options and operands.  An option is given by its name, by an unambiguous
beginning of it, or by either with a value after an equals sign; everything after a double dash is
an operand.  An argument that begins with a dash is an operand all the same if it is a negative
number or contains a space.  Operands are matched to the names of the command in order; a name may
be optional, and the last one may take everything that is left.
-/

namespace TileAtlas.Command

inductive OptionKind
  | text
  | integer
  | choice (words : List String)
  | flag
  | help
  deriving DecidableEq, Repr

structure OptionSpec where
  names : List String
  kind : OptionKind
  deriving DecidableEq, Repr

/-- The name of an option in messages, also the name under which its value is kept. -/
def OptionSpec.title (o : OptionSpec) : String := "/".intercalate o.names

/-- The value of an option whose letter some text follows directly.  Letters that follow a request
for help do not matter. -/
def OptionSpec.attached? (o : OptionSpec) (text : String) : Option String :=
  if o.kind = .help ∧ text.toList.head? ≠ some '-' then none else some text

inductive OperandKind
  | one
  | atMostOne
  /-- One of some words and all that follows. -/
  | command (words : List String)
  deriving DecidableEq, Repr

structure OperandSpec where
  name : String
  kind : OperandKind
  deriving DecidableEq, Repr

structure Grammar where
  program : String
  options : List OptionSpec
  operands : List OperandSpec
  deriving DecidableEq, Repr

inductive UsageError
  | ambiguous (argument : String) (candidates : List String)
  | valueExpected (option : String)
  | valueUnexpected (option value : String)
  | notAnInteger (option value : String)
  | notAChoice (argument value : String) (words : List String)
  | missing (operands : List String)
  | unrecognized (arguments : List String)
  /-- The values do not go together. -/
  | invalid (text : String)
  deriving DecidableEq, Repr

def UsageError.message : UsageError → String
  | ambiguous argument candidates =>
    "ambiguous option: " ++ argument ++ " could match " ++ ", ".intercalate candidates
  | valueExpected option => "argument " ++ option ++ ": expected one argument"
  | valueUnexpected option value =>
    "argument " ++ option ++ ": ignored explicit argument " ++ Text.quoted value
  | notAnInteger option value =>
    "argument " ++ option ++ ": invalid int value: " ++ Text.quoted value
  | notAChoice argument value words =>
    "argument " ++ argument ++ ": invalid choice: " ++ Text.quoted value ++ " (choose from " ++
      ", ".intercalate (words.map Text.quoted) ++ ")"
  | missing operands =>
    "the following arguments are required: " ++ ", ".intercalate operands
  | unrecognized arguments => "unrecognized arguments: " ++ " ".intercalate arguments
  | invalid text => text

inductive Stop
  | help
  | refused (program : String) (why : UsageError)
  deriving DecidableEq, Repr

inductive Reading
  | operand
  | separator
  | option (spec : OptionSpec) (value : Option String)
  /-- Something that looks like an option and is none. -/
  | unknown
  deriving DecidableEq, Repr

namespace Grammar

def spellings (g : Grammar) : List (String × OptionSpec) :=
  g.options.flatMap fun o => o.names.map (·, o)

/-- The part before the first equals sign and the part after it, if there is one. -/
def splitEquals (argument : String) : String × Option String :=
  let chars := argument.toList
  match chars.dropWhile (· ≠ '=') with
  | [] => (argument, none)
  | _ :: value => (String.ofList (chars.takeWhile (· ≠ '=')), some (String.ofList value))

def isNegativeNumber (argument : String) : Bool :=
  match argument.toList with
  | '-' :: rest =>
    let digit (c : Char) : Bool := (Text.digitValue? c).isSome
    let whole := rest.takeWhile digit
    match rest.dropWhile digit with
    | [] => !whole.isEmpty
    | '.' :: part => !part.isEmpty && part.all digit
    | _ => false
  | _ => false

def begins (text start : String) : Bool := start.toList.isPrefixOf text.toList

/-- The options that an argument may be short for. -/
def candidates (g : Grammar) (argument : String) : List (OptionSpec × String × Option String) :=
  if begins argument "--" then
    let (start, value) := splitEquals argument
    (g.spellings.filter fun (name, _) => begins name start).map fun (name, o) => (o, name, value)
  else
    let short := String.ofList (argument.toList.take 2)
    g.spellings.filterMap fun (name, o) =>
      if name = short then some (o, name, o.attached? (String.ofList (argument.toList.drop 2)))
      else if begins name argument then some (o, name, none)
      else none

def readShort (g : Grammar) (argument : String) : Except Stop Reading :=
  match g.candidates argument with
  | [(o, _, value)] => .ok (.option o value)
  | [] =>
    if isNegativeNumber argument || argument.toList.contains ' ' then .ok .operand
    else .ok .unknown
  | several => .error (.refused g.program (.ambiguous argument (several.map (·.2.1))))

def read (g : Grammar) (argument : String) : Except Stop Reading :=
  if !begins argument "-" then .ok .operand
  else match g.spellings.lookup argument with
    | some o => .ok (.option o none)
    | none =>
      if argument.length = 1 then .ok .operand
      else
        let (name, value) := splitEquals argument
        match value, g.spellings.lookup name with
        | some value, some o => .ok (.option o (some value))
        | _, _ => g.readShort argument

def readAll (g : Grammar) : List String → Except Stop (List (String × Reading))
  | [] => .ok []
  | argument :: rest =>
    if argument = "--" then .ok ((argument, .separator) :: rest.map (·, .operand))
    else do
      let reading ← g.read argument
      let readings ← g.readAll rest
      return (argument, reading) :: readings

end Grammar

inductive ArgumentValue
  | text (s : String)
  | integer (n : Int)
  | flag
  | command (name : String) (arguments : List String)
  deriving DecidableEq, Repr

/-- What a command line gives: values by name, the last one of each name first, and the arguments
that have no place. -/
structure Arguments where
  values : List (String × ArgumentValue)
  extras : List String
  deriving DecidableEq, Repr

namespace Arguments

def text? (a : Arguments) (name : String) : Option String :=
  match a.values.lookup name with
  | some (.text s) => some s
  | _ => none

def integer? (a : Arguments) (name : String) : Option Int :=
  match a.values.lookup name with
  | some (.integer n) => some n
  | _ => none

def flag (a : Arguments) (name : String) : Bool := a.values.lookup name = some .flag

def set (a : Arguments) (name : String) (value : ArgumentValue) : Arguments :=
  { a with values := (name, value) :: a.values }

def leave (a : Arguments) (arguments : List String) : Arguments :=
  { a with extras := a.extras ++ arguments }

end Arguments

namespace Grammar

def optionValue (g : Grammar) (o : OptionSpec) (text : String) : Except Stop ArgumentValue :=
  match o.kind with
  | .integer =>
    match Number.int? text with
    | some n => .ok (.integer n)
    | none => .error (.refused g.program (.notAnInteger o.title text))
  | .choice words =>
    if words.contains text then .ok (.text text)
    else .error (.refused g.program (.notAChoice o.title text words))
  | _ => .ok (.text text)

/-- Takes an option; gives what is left of the arguments after it. -/
def takeOption (g : Grammar) (o : OptionSpec) (value : Option String)
    (rest : List (String × Reading)) (a : Arguments) :
    Except Stop (Arguments × List (String × Reading)) :=
  match o.kind, value with
  | .flag, none => .ok (a.set o.title .flag, rest)
  | .help, none => .error .help
  | .flag, some value => .error (.refused g.program (.valueUnexpected o.title value))
  | .help, some value => .error (.refused g.program (.valueUnexpected o.title value))
  | _, some value => do
    let v ← g.optionValue o value
    return (a.set o.title v, rest)
  | _, none =>
    match rest with
    | (value, .operand) :: rest => do
      let v ← g.optionValue o value
      return (a.set o.title v, rest)
    | _ => .error (.refused g.program (.valueExpected o.title))

def operandLength? (kind : OperandKind) (readings : List Reading) : Option Nat :=
  let isSeparator (r : Reading) : Bool := r = .separator
  let front := (readings.takeWhile isSeparator).length
  let after := readings.drop front
  match kind, after with
  | .one, .operand :: rest => some (front + 1 + (rest.takeWhile isSeparator).length)
  | .atMostOne, .operand :: rest => some (front + 1 + (rest.takeWhile isSeparator).length)
  | .atMostOne, _ => some front
  | .command _, .operand :: _ => some readings.length
  | _, _ => none

def takeOperand (g : Grammar) (o : OperandSpec) (arguments : List String) (a : Arguments) :
    Except Stop Arguments :=
  match o.kind, arguments with
  | .command words, name :: rest =>
    if words.contains name then .ok (a.set o.name (.command name rest))
    else .error (.refused g.program (.notAChoice o.name name words))
  | _, arguments =>
    match arguments.erase "--" with
    | text :: _ => .ok (a.set o.name (.text text))
    | [] => .ok a

/-- Takes as many operands as can be matched; gives the operands and the arguments that are
left. -/
def takeOperands (g : Grammar) (a : Arguments) (items : List (String × Reading)) :
    List OperandSpec → Except Stop (Arguments × List OperandSpec × List (String × Reading))
  | [] => .ok (a, [], items)
  | o :: operands =>
    match operandLength? o.kind (items.map (·.2)) with
    | none => .ok (a, o :: operands, items)
    | some count => do
      let a ← g.takeOperand o ((items.take count).map (·.1)) a
      g.takeOperands a (items.drop count) operands

def isOption : Reading → Bool
  | .option .. => true
  | .unknown => true
  | _ => false

def takeAll (g : Grammar) (operands : List OperandSpec) (a : Arguments) :
    Nat → List (String × Reading) → Except Stop (Arguments × List OperandSpec)
  | 0, items => .ok (a.leave (items.map (·.1)), operands)
  | fuel + 1, items =>
    match items with
    | [] => do
      let (a, operands, _) ← g.takeOperands a [] operands
      return (a, operands)
    | (_, .option o value) :: rest => do
      let (a, rest) ← g.takeOption o value rest a
      g.takeAll operands a fuel rest
    | (argument, .unknown) :: rest => g.takeAll operands (a.leave [argument]) fuel rest
    | items => do
      let (a, operands, rest) ← g.takeOperands a items operands
      if rest.length < items.length then g.takeAll operands a fuel rest
      else
        let stray := rest.takeWhile (!isOption ·.2)
        g.takeAll operands (a.leave (stray.map (·.1))) fuel (rest.dropWhile (!isOption ·.2))

/-- Reads a command line; arguments that have no place are left over. -/
def parseKnown (g : Grammar) (arguments : List String) : Except Stop Arguments := do
  let items ← g.readAll arguments
  let (a, operands) ← g.takeAll g.operands ⟨[], []⟩ (2 * items.length + 2) items
  match operands.filter (·.kind ≠ .atMostOne) with
  | [] => return a
  | missing => throw (.refused g.program (.missing (missing.map (·.name))))

end Grammar

end TileAtlas.Command
