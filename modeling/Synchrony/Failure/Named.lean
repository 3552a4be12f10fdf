import Synchrony.Signature

/-!
# Failures by name

An action may raise any failure, and it does so by naming the kind and giving what the kind is made
from, its **details**: values, and for a violation the failure that caused it. Each kind of the
engine's own has a signature, so a detail too many or too few is a fault in place of the failure
that was asked for. The other kinds take any details and say what they are.
-/

set_option autoImplicit false

namespace Synchrony

/-- Something that a failure is made from. -/
inductive Detail where
  | value (v : Value)
  | failure (e : Failure)
  deriving Inhabited

namespace Detail

/-- A detail as it stands in a message. -/
def text : Detail → String
  | .value v => v.plain
  | .failure e => e.message

/-- The integer that a detail is, if it is one. -/
def int? : Detail → Option Int
  | .value (.int n) => some n
  | _ => none

/-- The value that a detail is. -/
def toValue : Detail → Value
  | .value v => v
  | .failure e => .text e.message

/-- The failure that a detail is, if it can be the cause of another one: only the engine's own kinds
have a message to pass on. -/
def cause : Detail → Except Failure Failure
  | .failure e => if e.code?.isSome then .ok e else .error (messageless e.name)
  | .value v => .error (messageless v.kindName)
where
  messageless (kind : String) : Failure :=
    .fault .attribute (Text.quoted kind ++ " object has no attribute 'message'")

end Detail

namespace Failure

/-- How a failure is made, by the name of its kind. Kinds that take any details have none. -/
def signature? (name : String) : Option Signature :=
  let owned := fun (required : List String) (optional : Nat) =>
    some (Signature.mk (name ++ ".__init__") required optional true)
  match name with
  | "SyncError" => owned ["message"] 0
  | "MatchFailure" => some ⟨"SyncError.__init__", ["message"], 0, true⟩
  | "ParseError" => owned ["message", "line", "column"] 1
  | "UnknownAction" => owned ["action"] 0
  | "DuplicateAction" => owned ["action"] 0
  | "CascadeLimitExceeded" => owned ["limit"] 0
  | "ActionMismatch" => owned ["expected", "actual"] 0
  | "ValueMismatch" => owned ["where", "expected", "actual"] 0
  | "ArityMismatch" => owned ["where", "expected", "actual"] 0
  | "UnboundVariable" => owned ["name"] 0
  | "ConsequenceViolation" => owned ["anchor", "action", "cause"] 0
  | _ => none

/-- The message of a kind that takes any details. -/
def plainMessage : List Detail → String
  | [] => ""
  | [detail] => detail.text
  | details => (Value.tuple (details.map Detail.toValue)).shown

/-- The failure of a named kind that is made from some details. -/
def ofDetails (name : String) (details : List Detail) : Except Failure Failure := do
  match signature? name with
  | some signature => signature.check details.length
  | none => pure ()
  let at? := fun (i : Nat) => details.getD i (.value (.text ""))
  let text := fun (i : Nat) => (at? i).text
  let int := fun (i : Nat) => (at? i).int?.getD 0
  match name with
  | "SyncError" => pure (.general (text 0))
  | "ParseError" => pure (.source (text 0) (int 1) (int 2) (text 3))
  | "UnknownAction" => pure (.unknownAction (text 0))
  | "DuplicateAction" => pure (.duplicateAction (text 0))
  | "CascadeLimitExceeded" => pure (.cascadeLimit (int 0))
  | "MatchFailure" => pure (.mismatch (.general (text 0)))
  | "ActionMismatch" => pure (.mismatch (.action (text 0) (text 1)))
  | "ValueMismatch" =>
    pure (.mismatch (.value (text 0) (at? 1).toValue (at? 2).toValue))
  | "ArityMismatch" => pure (.mismatch (.arity (text 0) (int 1) (at? 2).int?))
  | "UnboundVariable" => pure (.mismatch (.unbound (text 0)))
  | "ConsequenceViolation" => pure (.violation (text 0) (text 1) (← (at? 2).cause))
  | "ConceptError" => pure (.concept .general (plainMessage details))
  | "NotFoundError" => pure (.concept .notFound (plainMessage details))
  | "NotAllowedError" => pure (.concept .notAllowed (plainMessage details))
  | "RuntimeError" => pure (.fault .runtime (plainMessage details))
  | "TypeError" => pure (.fault .type (plainMessage details))
  | "KeyError" =>
    match details with
    | [detail] => pure (.fault .key detail.toValue.shown)
    | details => pure (.fault .key (plainMessage details))
  | _ => pure (.fault .value (plainMessage details))

end Failure

end Synchrony
