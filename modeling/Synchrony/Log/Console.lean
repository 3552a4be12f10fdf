import Synchrony.Log.Line
import Synchrony.Signature
import Synchrony.Text.Upper

/-!
# The console

Log lines go to one console, which has a threshold and a layout. Setting the console up again
replaces its layout and threshold, so nothing is ever written twice.

The names of levels are taken in any case. A name that no level has stands for the level of
information.
-/

set_option autoImplicit false

namespace Synchrony.Log

/-- How log lines look. -/
inductive Layout where
  /-- One JSON object to a line. -/
  | json
  /-- Time, level, logger and message in plain text. -/
  | plain
  deriving DecidableEq, Repr

namespace Layout

/-- The layout of that name. All but the name of JSON stand for plain text. -/
def ofName (name : String) : Layout :=
  if name = "json" then .json else .plain

/-- The name of the formatter behind a layout. -/
def formatter : Layout → String
  | .json => "JSONFormatter"
  | .plain => "Formatter"

/-- The template of the formatter behind a layout. -/
def template : Layout → String
  | .json => "%(message)s"
  | .plain => "%(asctime)s %(levelname)s %(name)s - %(message)s"

end Layout

/-- The styles of templates, as a refusal shows them. -/
def stylesShown : String :=
  "\x7b'%': (<class 'logging.PercentStyle'>, '%(levelname)s:%(name)s:%(message)s'), " ++
  "'\x7b': (<class 'logging.StrFormatStyle'>, " ++
  "'\x7blevelname\x7d:\x7bname\x7d:\x7bmessage\x7d'), " ++
  "'$': (<class 'logging.StringTemplateStyle'>, " ++
  "'$\x7blevelname\x7d:$\x7bname\x7d:$\x7bmessage\x7d')\x7d"

/-- The threshold that a name stands for. Two names belong to something that is no threshold. -/
def thresholdOf (name : String) : Except Failure Int :=
  match Text.upper name with
  | "CRITICAL" => .ok 50
  | "FATAL" => .ok 50
  | "ERROR" => .ok 40
  | "WARN" => .ok 30
  | "WARNING" => .ok 30
  | "INFO" => .ok 20
  | "DEBUG" => .ok 10
  | "NOTSET" => .ok 0
  | "BASIC_FORMAT" =>
    .error (.fault .value "Unknown level: '%(levelname)s:%(name)s:%(message)s'")
  | "_STYLES" =>
    .error (.fault .type ("Level not an integer or a valid string: " ++ stylesShown))
  | _ => .ok 20

/-- The console: from which level on it shows records, and how. -/
structure Console where
  threshold : Int := 30
  /-- The layout in use, once the console is set up. -/
  layout : Option Layout := none
  deriving Repr

/-- How the console is set up: with the name of a level and the name of a layout, or less. -/
def Console.signature : Signature := ⟨"setup_logging", [], 2, false⟩

/-- Set the console up. -/
def Console.setUp (_console : Console) (level : String) (format : String) :
    Except Failure Console :=
  match thresholdOf level with
  | .ok threshold => .ok ⟨threshold, some (.ofName format)⟩
  | .error e => .error e

/-- The name of a level, where a caller may hand over anything. -/
def levelText : Value → Except Failure String
  | .text s => .ok s
  | v => .error (.fault .attribute (Text.quoted v.kindName ++ " object has no attribute 'upper'"))

/-- What the console shows for an entry, if anything. -/
def Console.show? (console : Console) (entry : Entry) : Option String :=
  if entry.level < console.threshold then none
  else match console.layout with
    | none => none
    | some .json => entry.line.toOption
    | some .plain => entry.plainLine.toOption

/-- How many handlers the console has. -/
def Console.handlers (console : Console) : Nat :=
  if console.layout.isSome then 1 else 0

end Synchrony.Log
