import Synchrony.Value.Shown

/-!
# Failures

Everything that can go wrong, as causes. The wording of each cause stands in one place
(`Failure.message`), and so does the code under which clients meet it (`Failure.code?`).

## 1. Soft and hard

A **mismatch** is soft: a call or a value is not what a line of a rule asks for. While a rule's
guards are tried, a mismatch only means that the rule does not apply. Once the rule has fired, it
is a **violation**, which carries the mismatch as its cause. A violation that an action raises on
its own may have any cause.

## 2. Where failures come from

The first six kinds are the engine's own. A concept refuses a call with `concept`, and a `fault` is
what the machinery below an action runs into: wrong arguments, missing keys, arithmetic. An action
may raise any kind, the engine's own included.
-/

set_option autoImplicit false

namespace Synchrony

/-- A soft failure. -/
inductive Mismatch where
  /-- One that says nothing but its message. -/
  | general (message : String)
  | action (expected actual : String)
  | value (place : String) (expected actual : Value)
  /-- The wrong number of values, or a single value in place of several. -/
  | arity (place : String) (expected : Int) (actual : Option Int)
  | unbound (name : String)
  deriving Repr, Inhabited

/-- How a concept refuses a call. -/
inductive Refusal where
  | general
  | notFound
  | notAllowed
  deriving DecidableEq, Repr, Inhabited

/-- The kinds of faults. -/
inductive FaultKind where
  | value
  | runtime
  | type
  | key
  | attribute
  | overflow
  | system
  | missingFile
  | directory
  | notDirectory
  | decoding
  | unicode
  | notJson
  | settings
  deriving DecidableEq, Repr, Inhabited

/-- What can go wrong. -/
inductive Failure where
  /-- An engine failure that says nothing but its message. -/
  | general (message : String)
  /-- An error in a rule source. -/
  | source (reason : String) (line column : Int) (text : String)
  | unknownAction (action : String)
  | duplicateAction (action : String)
  | cascadeLimit (limit : Int)
  | mismatch (cause : Mismatch)
  /-- A rule fired and one of its calls did not do what the rule says. -/
  | violation (anchor action : String) (cause : Failure)
  | concept (refusal : Refusal) (message : String)
  | fault (kind : FaultKind) (message : String)
  deriving Repr, Inhabited

namespace Mismatch

/-- The wording of a mismatch. -/
def message : Mismatch → String
  | .general m => m
  | .action expected actual =>
    "Actions do not match: expected " ++ expected ++ ", got " ++ actual
  | .value place expected actual =>
    place ++ " does not match: expected " ++ expected.shown ++ ", got " ++ actual.shown
  | .arity place expected actual =>
    let got := match actual with
      | none => "a single value"
      | some n => Decimal.intText n ++ " values"
    place ++ ": expected " ++ Decimal.intText expected ++ " values, got " ++ got
  | .unbound name => "Unbound argument: " ++ name

/-- The code of a mismatch. -/
def code : Mismatch → String
  | .general _ => "MATCH_FAILURE"
  | .action .. => "ACTION_MISMATCH"
  | .value .. => "VALUE_MISMATCH"
  | .arity .. => "ARITY_MISMATCH"
  | .unbound _ => "UNBOUND_VARIABLE"

/-- The name of a mismatch's kind. -/
def name : Mismatch → String
  | .general _ => "MatchFailure"
  | .action .. => "ActionMismatch"
  | .value .. => "ValueMismatch"
  | .arity .. => "ArityMismatch"
  | .unbound _ => "UnboundVariable"

end Mismatch

namespace Refusal

/-- The name of a refusal's kind. -/
def name : Refusal → String
  | .general => "ConceptError"
  | .notFound => "NotFoundError"
  | .notAllowed => "NotAllowedError"

/-- The status under which a refusal is answered. -/
def status : Refusal → Nat
  | .general => 400
  | .notFound => 404
  | .notAllowed => 403

end Refusal

namespace FaultKind

/-- The name of a kind of fault. -/
def name : FaultKind → String
  | .value => "ValueError"
  | .runtime => "RuntimeError"
  | .type => "TypeError"
  | .key => "KeyError"
  | .attribute => "AttributeError"
  | .overflow => "OverflowError"
  | .system => "OSError"
  | .missingFile => "FileNotFoundError"
  | .directory => "IsADirectoryError"
  | .notDirectory => "NotADirectoryError"
  | .decoding => "UnicodeDecodeError"
  | .unicode => "UnicodeError"
  | .notJson => "JSONDecodeError"
  | .settings => "SettingsError"

end FaultKind

namespace Failure

/-- The fault of a missing key. -/
def missingKey (key : String) : Failure :=
  .fault .key (Text.quoted key)

/-- The fault of an integer that has too many digits to be written. -/
def tooManyDigits : Failure :=
  .fault .value ("Exceeds the limit (4300 digits) for integer string conversion; " ++
    "use sys.set_int_max_str_digits() to increase the limit")

/-- The wording of a failure. -/
def message : Failure → String
  | .general m => m
  | .source reason line column text =>
    reason ++ " at line " ++ Decimal.intText line ++ ", column " ++ Decimal.intText column ++
      ": " ++ Text.quoted text
  | .unknownAction action => "Unknown action: " ++ action
  | .duplicateAction action => "Action registered twice: " ++ action
  | .cascadeLimit limit =>
    "Cascade produced more than " ++ Decimal.intText limit ++ " traces"
  | .mismatch cause => cause.message
  | .violation anchor action cause =>
    "Sync anchored on " ++ anchor ++ " fired but " ++ action ++ " violated its pattern: " ++
      cause.message
  | .concept _ m => m
  | .fault _ m => m

/-- The code of a failure. Only the engine's own kinds have one. -/
def code? : Failure → Option String
  | .general _ => some "SYNC_ERROR"
  | .source .. => some "PARSE_ERROR"
  | .unknownAction _ => some "UNKNOWN_ACTION"
  | .duplicateAction _ => some "DUPLICATE_ACTION"
  | .cascadeLimit _ => some "CASCADE_LIMIT"
  | .mismatch cause => some cause.code
  | .violation .. => some "CONSEQUENCE_VIOLATION"
  | .concept .. => none
  | .fault .. => none

/-- The name of a failure's kind. -/
def name : Failure → String
  | .general _ => "SyncError"
  | .source .. => "ParseError"
  | .unknownAction _ => "UnknownAction"
  | .duplicateAction _ => "DuplicateAction"
  | .cascadeLimit _ => "CascadeLimitExceeded"
  | .mismatch cause => cause.name
  | .violation .. => "ConsequenceViolation"
  | .concept refusal _ => refusal.name
  | .fault kind _ => kind.name

/-- Whether the failure says that an action is not registered. -/
def isUnknownAction : Failure → Bool
  | .unknownAction _ => true
  | _ => false

/-- The body under which a failure is reported. -/
def report (code message : String) : Value :=
  .record [("error", .record [("code", .text code), ("message", .text message)])]

/-- The body of the answer for one of the engine's own failures. -/
def response? (e : Failure) : Option Value :=
  e.code?.map fun code => report code e.message

end Failure

end Synchrony
