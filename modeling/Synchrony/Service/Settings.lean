import Synchrony.Service.IntegerText
import Synchrony.Text.Lower
import Synchrony.Value.Basic

/-!
# Settings

Six settings govern the service. A setting is a text or an integer, and an integer may be given as a
text, as a floating point number without a fraction, or as a truth value. Two settings are checked
further: the cap on traces is at least one, and the log format is one of two.

All settings are checked, so that every complaint is made at once, in the order of the settings
(`check`). A name that is no setting is a complaint behind those.
-/

set_option autoImplicit false

namespace Synchrony

/-- The settings of the service. -/
structure Settings where
  /-- The rule file; the built-in rules are used when there is none. -/
  syncFile : Option String := none
  /-- The cap on the number of traces of a run, if there is one. -/
  maxCascadeTraces : Option Int := none
  logLevel : String := "INFO"
  logFormat : String := "json"
  host : String := "0.0.0.0"
  port : Int := 5000
  deriving DecidableEq, Repr

namespace Settings

/-- The names of the settings in order. -/
def names : List String :=
  ["sync_file", "max_cascade_traces", "log_level", "log_format", "host", "port"]

/-- A text in lower case. -/
def lower (s : String) : String :=
  String.ofList (Text.lower s.toList)

/-- The integer that a floating point number stands for. It has to fit a machine integer. -/
def integerOfFloat (x : Binary64) : Except Complaint Int :=
  match x.integerPart? with
  | none => .error .notFinite
  | some (n, isWhole) =>
    if !isWhole then .error .hasFraction
    else if n.natAbs < twoTo 63 then .ok n
    else .error .tooLarge

/-- The integer that a value stands for. -/
def integerOf : Value → Except Complaint Int
  | .int n => .ok n
  | .bool b => .ok (if b then 1 else 0)
  | .float x => integerOfFloat x
  | .text s => integerOfText s
  | _ => .error .notInteger

/-- The text that a value is. -/
def textOf : Value → Except Complaint String
  | .text s => .ok s
  | _ => .error .notText

/-- The value under a name, or the built-in one. -/
def valueOr {α : Type} (given : Keyed Value) (name : String) (builtIn : α)
    (check : Value → Except Complaint α) : Except Complaint α :=
  match given.get? name with
  | some v => check v
  | none => .ok builtIn

/-- A check that leaves a missing value missing. -/
def optional {α : Type} (check : Value → Except Complaint α) : Value → Except Complaint (Option α)
  | .null => .ok none
  | v => (check v).map some

/-- The cap that a value stands for. -/
def capOf (v : Value) : Except Complaint Int := do
  let n ← integerOf v
  if n < 1 then .error .capBelowOne else pure n

/-- The log format that a value stands for. -/
def formatOf (v : Value) : Except Complaint String := do
  let format := lower (← textOf v)
  if format = "json" || format = "text" then pure format else .error .unknownFormat

/-- What a check of the setting `name` complains about. -/
def complaints {α : Type} (name : String) : Except Complaint α → List (String × Complaint)
  | .ok _ => []
  | .error complaint => [(name, complaint)]

/-- The settings that were given, or all complaints about them. -/
def check (given : Keyed Value) : Except (List (String × Complaint)) Settings :=
  let syncFile := valueOr given "sync_file" none (optional textOf)
  let maxCascadeTraces := valueOr given "max_cascade_traces" none (optional capOf)
  let logLevel := valueOr given "log_level" "INFO" textOf
  let logFormat := valueOr given "log_format" "json" formatOf
  let host := valueOr given "host" "0.0.0.0" textOf
  let port := valueOr given "port" 5000 integerOf
  let unknown := given.keys.filter fun name => !names.contains name
  match syncFile, maxCascadeTraces, logLevel, logFormat, host, port, unknown with
  | .ok syncFile, .ok maxCascadeTraces, .ok logLevel, .ok logFormat, .ok host, .ok port, [] =>
    .ok ⟨syncFile, maxCascadeTraces, logLevel, logFormat, host, port⟩
  | _, _, _, _, _, _, _ =>
    .error (complaints "sync_file" syncFile ++
      complaints "max_cascade_traces" maxCascadeTraces ++ complaints "log_level" logLevel ++
      complaints "log_format" logFormat ++ complaints "host" host ++ complaints "port" port ++
      unknown.map fun name => (name, .unknownName))

end Settings

end Synchrony
