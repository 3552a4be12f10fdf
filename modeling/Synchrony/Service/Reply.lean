import Synchrony.Engine.Cascade
import Synchrony.Json.Form

/-!
# Replies

The handlers of the service. One of them runs an action: it is handed the name of the action and
what could be read in the body of the request, which is nothing if there is no body, or none in
JSON. A body that does not say which arguments to use is refused before anything runs; a body that
says nothing means no arguments.

A run that returned is answered with its result. One that failed is answered under a status that
depends on the kind of its failure alone: an action that is not registered, a failure of the engine,
a concept's refusal, and anything else, which was an action's own fault. The second and the last are
logged.

How a request gets to a handler and an answer back to the client is no matter of this module.
-/

set_option autoImplicit false

namespace Synchrony

/-- What a handler answers: a status and a body, which is written as JSON. -/
structure Answer where
  status : Nat
  body : Value
  deriving Repr, Inhabited

/-- An answer, and what it took: the state then, what happened on the way, and what the service
logged about it in the end. A run that does not end has no answer. -/
structure Reply (σ : Type) where
  answer : Option Answer
  state : σ
  events : List Event := []
  notices : List Log.Record := []

/-- Everything that was logged on the way to an answer. -/
def Reply.records {σ : Type} (reply : Reply σ) : List Log.Record :=
  reply.events.filterMap Event.record? ++ reply.notices

namespace Answer

/-- The arguments that a body gives, or why it gives none. -/
def arguments : Option Value → Except String (List Value)
  | none => .ok []
  | some .null => .ok []
  | some (.record fields) =>
    match Keyed.get? fields "args" with
    | none => .ok []
    | some (.list args) => .ok args
    | some _ => .error "args must be a list"
  | some _ => .error "body must be a JSON object"

/-- The answer for an action that failed by a fault of its own, and the log record about it. -/
def ofFault (e : Failure) : Answer × List Log.Record :=
  (⟨400, Failure.report "ACTION_FAILED" (e.name ++ ": " ++ e.message)⟩,
    [{ severity := .warning
       logger := "app"
       message := "Action failed: " ++ e.message
       extras := { errorCode := some (.text "ACTION_FAILED") } }])

/-- The answer for a run that failed, and what is logged about it. -/
def ofFailure (e : Failure) : Answer × List Log.Record :=
  match e with
  | .unknownAction _ => (⟨404, Failure.report "UNKNOWN_ACTION" e.message⟩, [])
  | .concept refusal message => (⟨refusal.status, Failure.report refusal.name message⟩, [])
  | e =>
    match e.code? with
    | some code =>
      (⟨500, Failure.report code e.message⟩,
        [{ severity := .error
           logger := "app"
           message := "Sync failed: " ++ e.message
           extras := { errorCode := some (.text code) } }])
    | none => ofFault e

/-- The answer for a run that returned. A result with an integer that has too many digits cannot be
written, which counts as the action's fault. -/
def ofResult (result : Value) : Answer × List Log.Record :=
  if result.jsonForm.hasText then (⟨200, .record [("result", result.jsonForm)]⟩, [])
  else ofFault .tooManyDigits

/-- The answer for how a run ended, if it did. -/
def ofEnding : Ending Value → Option (Answer × List Log.Record)
  | .returned result => some (ofResult result)
  | .failed e => some (ofFailure e)
  | .unfinished => none

end Answer

/-- The number of rules under each anchor. -/
def Rulebook.counts (rulebook : Rulebook) : Value :=
  .record (rulebook.index.mapValues fun rules => .int rules.length)

/-- Reply to a request to run an action with what a body gives. -/
def Engine.replyToRun {σ : Type} (engine : Engine σ) (steps : Nat) (action : String)
    (body : Option Value) (state : σ) : Reply σ :=
  match Answer.arguments body with
  | .error message =>
    { answer := some ⟨400, Failure.report "BAD_REQUEST" message⟩, state := state }
  | .ok args =>
    let run := engine.run steps action args state
    match Answer.ofEnding run.ending with
    | some (answer, notices) => ⟨some answer, run.state, run.events, notices⟩
    | none => ⟨none, run.state, run.events, []⟩

end Synchrony
