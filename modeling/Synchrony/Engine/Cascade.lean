import Synchrony.Engine.Bindings
import Synchrony.Engine.Registry
import Synchrony.Engine.Run
import Synchrony.Rule.Rulebook

/-!
# Cascades

A run starts with one call and reacts to every call it makes, those that its own reactions make
included, in the order in which they were made.

## 1. One line

To perform a line is to work out its arguments, make the call, and fit the trace to the line again,
which binds what the line's return patterns name.

## 2. One rule

To apply a rule to a trace is to fit the trace to its trigger, perform its guards, and then enforce
its consequences. A failure before the consequences means that the rule does not apply, whatever the
failure is, with one exception: an action that is not registered is a fault of the rules and ends
the run. Calls that the guards made stay made, but they are no part of the history then. A mismatch
in a consequence ends the run as a violation; any other failure in a consequence ends it as it is.

## 3. The queue

`settle` reacts to traces one by one and appends what each reaction yields. The cap on the number
of traces is looked at after each whole reaction, so a run may exceed it in its last step. The
first argument of `settle` bounds the number of traces it reacts to; when that is used up, the run
is unfinished.
-/

set_option autoImplicit false

namespace Synchrony

/-- Rules, the actions they call, and the cap on the number of traces of a run. -/
structure Engine (σ : Type) where
  rulebook : Rulebook
  actions : Registry (Action σ)
  cap : Option Int := none

/-- What a run that returned has to tell: the result of its first call, and all its traces. -/
structure History where
  result : Value
  traces : List Trace
  deriving Repr, Inhabited

namespace Engine

variable {σ : Type} (engine : Engine σ)

/-- The actions that the rules name and nothing is registered for, in increasing order. -/
def missingActions : List String :=
  engine.rulebook.mentioned.filter fun action => !engine.actions.contains action

/-- Make one call. -/
def call (action : String) (args : List Value) : Act σ Trace := do
  let entry ← Act.ofExcept (engine.actions.get action)
  Act.emit (.called action args)
  let result ← Act.call entry args
  pure ⟨action, args, result⟩

/-- The arguments of a line, where a missing one is a failure of the line. -/
def argumentsOf (line : Line) (bindings : Bindings) : Except Failure (List Value) :=
  match bindings.arguments line with
  | .ok args => .ok args
  | .error mismatch => .error (.mismatch mismatch)

/-- The bindings after a trace has been fitted to a line. -/
def fitted (bindings : Bindings) (trace : Trace) (line : Line) : Except Failure Bindings :=
  match bindings.fitTrace trace line with
  | (none, bindings) => .ok bindings
  | (some e, _) => .error e

/-- Perform one line: its trace, and the bindings then. -/
def perform (line : Line) (bindings : Bindings) : Act σ (Bindings × Trace) := do
  let args ← Act.ofExcept (argumentsOf line bindings)
  let trace ← engine.call line.action args
  let bindings ← Act.ofExcept (fitted bindings trace line)
  pure (bindings, trace)

/-- Perform lines one after the other. -/
def performAll : List Line → Bindings → Act σ (Bindings × List Trace)
  | [], bindings => pure (bindings, [])
  | line :: lines, bindings => do
    let (bindings, trace) ← engine.perform line bindings
    let (bindings, traces) ← performAll lines bindings
    pure (bindings, trace :: traces)

/-- Fit a trace to the trigger of a rule and perform its guards. -/
def guard (rule : Rule) (trace : Trace) : Act σ (Bindings × List Trace) := do
  let bindings ← Act.ofExcept (fitted .empty trace rule.trigger)
  engine.performAll rule.guards bindings

/-- Enforce one consequence. A mismatch is a violation of the rule. -/
def enforce (rule : Rule) (line : Line) (bindings : Bindings) : Act σ (Bindings × Trace) := do
  match ← Act.attempt (engine.perform line bindings) with
  | .ok result => pure result
  | .error (.mismatch cause) =>
    Act.emit (.violated rule line.action cause)
    Act.fail (.violation rule.anchor line.action (.mismatch cause))
  | .error e => Act.fail e

/-- Enforce consequences one after the other. -/
def enforceAll (rule : Rule) : List Line → Bindings → Act σ (List Trace)
  | [], _ => pure []
  | line :: lines, bindings => do
    let (bindings, trace) ← engine.enforce rule line bindings
    let traces ← enforceAll rule lines bindings
    pure (trace :: traces)

/-- Apply a rule to a trace: the traces of its guards and consequences if it applies, and none if
it does not. -/
def applyRule (rule : Rule) (trace : Trace) : Act σ (List Trace) := do
  match ← Act.attempt (engine.guard rule trace) with
  | .ok (bindings, traces) =>
    Act.emit (.fired rule)
    let more ← engine.enforceAll rule rule.consequences bindings
    pure (traces ++ more)
  | .error e =>
    if e.isUnknownAction then Act.fail e
    else do
      Act.emit (.declined rule e)
      pure []

/-- Apply rules in order to one trace. -/
def applyRules (trace : Trace) : List Rule → Act σ (List Trace)
  | [] => pure []
  | rule :: rules => do
    let traces ← engine.applyRule rule trace
    let more ← applyRules trace rules
    pure (traces ++ more)

/-- React to a trace: apply all rules that its action sets off. -/
def react (trace : Trace) : Act σ (List Trace) :=
  engine.applyRules trace (engine.rulebook.under trace.action)

/-- Fail if there are more traces than the cap allows. -/
def checkCap (count : Nat) : Act σ Unit :=
  match engine.cap with
  | none => pure ()
  | some limit => if (count : Int) > limit then Act.fail (.cascadeLimit limit) else pure ()

/-- React to pending traces until none is left, and answer with the traces that came of it. There
are `count` traces so far, the pending ones among them. -/
def settle : Nat → Nat → List Trace → Act σ (List Trace)
  | _, _, [] => pure []
  | 0, _, _ :: _ => Act.unfinished
  | steps + 1, count, trace :: pending => do
    let batch ← engine.react trace
    engine.checkCap (count + batch.length)
    let more ← settle steps (count + batch.length) (pending ++ batch)
    pure (batch ++ more)

/-- A whole run: make a call and settle what comes of it, reacting to at most `steps` traces. -/
def cascade (steps : Nat) (action : String) (args : List Value) : Act σ History := do
  let first ← engine.call action args
  let more ← engine.settle steps 1 [first]
  let traces := first :: more
  Act.emit (.settled action traces)
  pure ⟨first.result, traces⟩

/-- A run of which only the result is asked for. -/
def run (steps : Nat) (action : String) (args : List Value) : Act σ Value := do
  let history ← engine.cascade steps action args
  pure history.result

end Engine

end Synchrony
