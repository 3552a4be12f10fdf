import Synchrony.Value.Shown

/-!
# Traces

A trace is the record of one call that returned: which action, with which arguments, and what it
answered. Rules are matched against traces, and a run is told by its traces in order.
-/

set_option autoImplicit false

namespace Synchrony

/-- A call that returned. -/
structure Trace where
  action : String
  args : List Value
  result : Value
  deriving Repr, Inhabited

namespace Trace

/-- The notation for a trace in histories. -/
def shown (trace : Trace) : String :=
  "Trace(action=" ++ Text.quoted trace.action ++ ", args=" ++ (Value.tuple trace.args).shown ++
    ", result=" ++ trace.result.shown ++ ")"

/-- The notation for a history. -/
def shownAll (traces : List Trace) : String :=
  "[" ++ ", ".intercalate (traces.map shown) ++ "]"

end Trace

end Synchrony
