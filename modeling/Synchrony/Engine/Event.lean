import Synchrony.Engine.Trace
import Synchrony.Failure
import Synchrony.Log.Record
import Synchrony.Rule.Basic

/-!
# Events

A run is observed through its events, in the order in which they happen: every call of an action,
whether it returns or fails, what became of each attempt to apply a rule, and the history at the
end. The calls and the log of a run are two views of its events (`Event.call?`, `Event.record?`).
-/

set_option autoImplicit false

namespace Synchrony

/-- Something that happens during a run. -/
inductive Event where
  /-- A registered action is called. -/
  | called (action : String) (args : List Value)
  /-- A rule does not apply, because its trigger or one of its guards failed. -/
  | declined (rule : Rule) (reason : Failure)
  /-- A rule applies, and its consequences are about to be called. -/
  | fired (rule : Rule)
  /-- A consequence of a rule that applies did not do what the rule says. -/
  | violated (rule : Rule) (action : String) (cause : Mismatch)
  /-- The run has come to its end. -/
  | settled (action : String) (history : List Trace)
  deriving Repr, Inhabited

namespace Event

/-- The call that an event is. -/
def call? : Event → Option (String × List Value)
  | .called action args => some (action, args)
  | _ => none

/-- The extras of a record that is about a rule. -/
def aboutRule (rule : Rule) : Log.Extras :=
  { anchor := some (.text rule.anchor), rule := some (.int rule.line) }

/-- The log record of an event. Calls are not logged. -/
def record? : Event → Option Log.Record
  | .called .. => none
  | .declined rule reason => some {
      severity := .debug
      logger := "engine"
      message := "When clause failed to match due to: " ++ reason.message
      extras := aboutRule rule }
  | .fired rule => some {
      severity := .debug
      logger := "engine"
      message := "Firing sync"
      extras := aboutRule rule }
  | .violated rule action cause => some {
      severity := .error
      logger := "engine"
      message := "Sync consequence violated: " ++ cause.message
      extras := { aboutRule rule with action := some (.text action) } }
  | .settled action history => some {
      severity := .debug
      logger := "engine"
      message := "Execution history: " ++ Trace.shownAll history
      extras := { action := some (.text action), traces := some (.int history.length) } }

end Event

end Synchrony
