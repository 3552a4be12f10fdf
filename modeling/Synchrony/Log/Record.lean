import Synchrony.Value.Basic

/-!
# Log records

What the engine and the service say about themselves. A record has a level, the name of the logger
that it came through, a message, and **extras**: five named values that say what the record is
about. Which extras a record has is its own affair; their order never is.
-/

set_option autoImplicit false

namespace Synchrony.Log

/-- The levels at which this library logs. -/
inductive Severity where
  | debug
  | info
  | warning
  | error
  deriving DecidableEq, Repr, Inhabited

/-- The name of a level. -/
def Severity.name : Severity → String
  | .debug => "DEBUG"
  | .info => "INFO"
  | .warning => "WARNING"
  | .error => "ERROR"

/-- What a record is about. -/
structure Extras where
  action : Option Value := none
  anchor : Option Value := none
  rule : Option Value := none
  traces : Option Value := none
  errorCode : Option Value := none
  deriving Repr, Inhabited

/-- The field for an extra, if it is set. -/
def Extras.field (name : String) : Option Value → List (String × Value)
  | none => []
  | some v => [(name, v)]

/-- The extras that are set, under their names and in their fixed order. -/
def Extras.fields (extras : Extras) : List (String × Value) :=
  field "action" extras.action ++ field "anchor" extras.anchor ++ field "rule" extras.rule ++
    field "traces" extras.traces ++ field "error_code" extras.errorCode

/-- Something that was logged. -/
structure Record where
  severity : Severity
  /-- The logger that the record came through. -/
  logger : String
  message : String
  extras : Extras := {}
  deriving Repr, Inhabited

end Synchrony.Log
