import TileAtlas.Command.Grammar
import TileAtlas.Operation.Copy
import TileAtlas.Settings.Basic

/-!
# The commands

The commands with their options and operands, and the request that a command line makes.  Where
an option is not given the settings decide.
-/

namespace TileAtlas.Command

inductive Request
  | copy (source destination : String) (options : CopyOptions)
  | diff (base target patch : String) (patchType : PatchType)
  | applyPatch (base patch : String) (output : Option String) (policy : MergePolicy)
  | validate (file : String) (integrity : IntegrityCheck) (mode : AggHashMode) (json : Bool)
  | summary (file : String) (json : Bool)
  | metadataGet (file name : String)
  | metadataSet (file name : String) (value : Option String)
  deriving DecidableEq

def helpOption : OptionSpec := ⟨["-h", "--help"], .help⟩

def textOption (name : String) : OptionSpec := ⟨[name], .text⟩

def integerOption (name : String) : OptionSpec := ⟨[name], .integer⟩

def flagOption (name : String) : OptionSpec := ⟨[name], .flag⟩

def keywordOption (name : String) (α : Type) [Keyword α] : OptionSpec :=
  ⟨[name], .choice (Keyword.words α)⟩

def operand (name : String) : OperandSpec := ⟨name, .one⟩

def commands : List (String × List OptionSpec × List OperandSpec) := [
  ("copy",
    [helpOption, integerOption "--min-zoom", integerOption "--max-zoom", textOption "--bbox",
      textOption "--region", keywordOption "--copy-type" CopyType,
      keywordOption "--on-duplicate" OnDuplicate, keywordOption "--dst-type" Layout],
    [operand "source", operand "destination"]),
  ("diff", [helpOption, keywordOption "--patch-type" PatchType],
    [operand "base", operand "target", operand "patch"]),
  ("apply-patch",
    [helpOption, textOption "--output", keywordOption "--metadata-policy" MergePolicy],
    [operand "base", operand "patch"]),
  ("validate",
    [helpOption, keywordOption "--integrity-check" IntegrityCheck,
      keywordOption "--agg-hash" AggHashMode, flagOption "--json"],
    [operand "path"]),
  ("summary", [helpOption, flagOption "--json"], [operand "path"]),
  ("meta-get", [helpOption], [operand "path", operand "name"]),
  ("meta-set", [helpOption], [operand "path", operand "name", ⟨"value", .atMostOne⟩])]

def program : String := "tilesync"

def mainGrammar : Grammar :=
  ⟨program, [helpOption, textOption "--log-level", flagOption "--no-progress"],
    [⟨"command", .command (commands.map (·.1))⟩]⟩

def grammarOf (name : String) : Grammar :=
  let (options, operands) := (commands.lookup name).getD ([], [])
  ⟨program ++ " " ++ name, options, operands⟩

def refuse {α : Type} (why : UsageError) : Except Stop α := .error (.refused program why)

/-- The member of a type that an option names, or the one that the settings give. -/
def member {α : Type} [Keyword α] (a : Arguments) (name : String) (otherwise : α) : α :=
  ((a.text? name).bind Keyword.ofWord?).getD otherwise

def someText? (a : Arguments) (name : String) : Option String :=
  (a.text? name).filter (· ≠ "")

def filterOf (a : Arguments) : Except Stop TileFilter :=
  match TileFilter.parse (a.integer? "--min-zoom") (a.integer? "--max-zoom")
      (someText? a "--bbox") (someText? a "--region") with
  | .ok filter => .ok filter
  | .error why => refuse (.invalid why.message)

def operandText (a : Arguments) (name : String) : String := (a.text? name).getD ""

def requestOf (settings : Settings) (name : String) (a : Arguments) : Except Stop Request :=
  match name with
  | "copy" => do
    let filter ← filterOf a
    let layout := match a.text? "--dst-type" with
      | some word => Keyword.ofWord? word
      | none => settings.layout
    return .copy (operandText a "source") (operandText a "destination")
      ⟨filter, member a "--copy-type" .all, member a "--on-duplicate" settings.onDuplicate, layout⟩
  | "diff" =>
    .ok (.diff (operandText a "base") (operandText a "target") (operandText a "patch")
      (member a "--patch-type" settings.patchType))
  | "apply-patch" =>
    .ok (.applyPatch (operandText a "base") (operandText a "patch") (a.text? "--output")
      (member a "--metadata-policy" settings.metadataPolicy))
  | "validate" =>
    .ok (.validate (operandText a "path") (member a "--integrity-check" settings.integrity)
      (member a "--agg-hash" .verify) (a.flag "--json"))
  | "summary" => .ok (.summary (operandText a "path") (a.flag "--json"))
  | "meta-get" => .ok (.metadataGet (operandText a "path") (operandText a "name"))
  | _ => .ok (.metadataSet (operandText a "path") (operandText a "name") (a.text? "value"))

/-- What a command line asks for, and the level of messages that it wants to see. -/
def parse (settings : Settings) (arguments : List String) : Except Stop (Request × String) := do
  let outer ← mainGrammar.parseKnown arguments
  match outer.values.lookup "command" with
  | some (.command name rest) => do
    let inner ← (grammarOf name).parseKnown rest
    let extras := outer.extras ++ inner.extras
    if !extras.isEmpty then refuse (.unrecognized extras)
    else
      let request ← requestOf settings name inner
      return (request, (outer.text? "--log-level").getD settings.logLevel)
  | _ => refuse (.missing ["command"])

end TileAtlas.Command
