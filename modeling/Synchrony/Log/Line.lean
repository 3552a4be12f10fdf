import Synchrony.Json.Write
import Synchrony.Log.Record
import Synchrony.Log.Template
import Synchrony.Log.Timestamp

/-!
# Log lines

A log entry is written as one line of JSON: the timestamp, the name of the level, the logger, the
message, then those extras that are present, in their fixed order, and last the failure that the
entry is about. `Entry.fields` is what the line says and `Entry.line` how it is written.

Both the level and the failure stand in the line by a text. What that text is when nobody says
otherwise is told by `levelName` and `failureText`.
-/

set_option autoImplicit false

namespace Synchrony.Log

/-- The number of a level. -/
def Severity.level : Severity → Int
  | .debug => 10
  | .info => 20
  | .warning => 30
  | .error => 40

/-- The name of a level by its number. A number without a name of its own has a name made of it. -/
def levelName (level : Int) : String :=
  if level = 50 then "CRITICAL"
  else if level = 40 then "ERROR"
  else if level = 30 then "WARNING"
  else if level = 20 then "INFO"
  else if level = 10 then "DEBUG"
  else if level = 0 then "NOTSET"
  else "Level " ++ Decimal.intText level

/-- Where a failure belongs, as it stands in front of its name. -/
def familyOf (e : Failure) : String :=
  match e with
  | .fault .. => ""
  | .concept .. => "concepts."
  | _ => "errors."

/-- The text of a failure: the name of its kind, and its message unless that is empty. -/
def failureText (e : Failure) : String :=
  let name := familyOf e ++ e.name
  if e.message.isEmpty then name else name ++ ": " ++ e.message

/-- Something to be logged. -/
structure Entry where
  /-- When it happened, in seconds. -/
  created : Numeric
  level : Int
  /-- The name of the level, which can be any text. -/
  label : String := levelName level
  logger : String
  template : String
  args : List Value := []
  extras : Extras := {}
  /-- The failure that the entry is about. -/
  failure : Option Failure := none
  /-- The text of that failure. -/
  exception : Option String := failure.map failureText

/-- The extras of some named values: the last one under each name. -/
def Extras.ofFields (fields : List (String × Value)) : Extras :=
  let last := fun (name : String) => Keyed.get? fields.reverse name
  { action := last "action"
    anchor := last "anchor"
    rule := last "rule"
    traces := last "traces"
    errorCode := last "error_code" }

/-- Whether a value says anything. -/
def isPresent : Value → Bool
  | .null => false
  | _ => true

/-- The extras that say anything. -/
def Extras.present (extras : Extras) : List (String × Value) :=
  extras.fields.filter fun field => isPresent field.2

/-- What the line for an entry says, once its timestamp and message are known. -/
def Entry.fieldsWith (entry : Entry) (stamp message : String) : List (String × Value) :=
  [("timestamp", .text stamp), ("level", .text entry.label),
    ("logger", .text entry.logger), ("message", .text message)] ++
    entry.extras.present ++
    (match entry.exception with
    | some text => [("exception", .text text)]
    | none => [])

/-- What the line for an entry says. -/
def Entry.fields (entry : Entry) : Except Failure (List (String × Value)) := do
  let stamp ← Timestamp.stamp entry.created
  let message ← Template.format entry.template entry.args
  pure (entry.fieldsWith stamp message)

/-- The line for an entry. -/
def Entry.line (entry : Entry) : Except Failure String := do
  let fields ← entry.fields
  if (Value.record fields).hasText then pure (Json.line (.record fields))
  else .error .tooManyDigits

/-- The line for an entry in plain text. -/
def Entry.plainLine (entry : Entry) : Except Failure String := do
  let stamp ← Timestamp.plain entry.created
  let message ← Template.format entry.template entry.args
  pure (stamp ++ " " ++ entry.label ++ " " ++ entry.logger ++ " - " ++ message)

/-- A record that was logged at some moment, as an entry. Its message is already filled in. -/
def Record.entry (record : Record) (created : Numeric) : Entry where
  created := created
  level := record.severity.level
  logger := record.logger
  template := record.message
  extras := record.extras

end Synchrony.Log
