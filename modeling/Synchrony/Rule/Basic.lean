import Synchrony.Value.Basic

/-!
# Rules

A rule says: when this action has been called in this way, and these further calls succeed, then
make those calls. Its lines share **variables**, which take their values from the arguments and
results of earlier lines.

## Scope

A variable belongs to its rule. Two rules that spell a name alike have two variables, so a variable
is its name together with the number of its rule among the rules of the source. Within a rule, the
same spelling is the same variable.
-/

set_option autoImplicit false

namespace Synchrony

/-- A variable: its spelling, and which rule of the source it belongs to. -/
structure Variable where
  name : String
  scope : Nat
  deriving DecidableEq, Repr, Inhabited

/-- What stands at one position of a line. -/
inductive Pattern where
  | var (v : Variable)
  | lit (value : Value)
  deriving Repr, Inhabited

/-- One line of a rule: an action, its arguments, and what its result must look like. A line
without a return clause asks nothing of the result. -/
structure Line where
  action : String
  args : List Pattern
  returns : Option (List Pattern)
  deriving Repr, Inhabited

/-- A rule. Its first line is matched against a call that has been made; the guards and then the
consequences are calls that the rule makes itself. -/
structure Rule where
  trigger : Line
  guards : List Line
  consequences : List Line
  /-- The text line on which the rule starts. -/
  line : Nat
  deriving Repr, Inhabited

namespace Pattern

/-- The variable at a position, if there is one. -/
def asVariable? : Pattern → Option Variable
  | .var v => some v
  | .lit _ => none

end Pattern

namespace Line

/-- The positions of a line in reading order: its arguments, then its return patterns. -/
def patterns (line : Line) : List Pattern :=
  line.args ++ line.returns.getD []

/-- The variables of a line in reading order, repetitions included. -/
def vars (line : Line) : List Variable :=
  line.patterns.filterMap Pattern.asVariable?

end Line

namespace Rule

/-- The action whose calls set the rule off. -/
def anchor (rule : Rule) : String :=
  rule.trigger.action

/-- The lines that stand under `when`. -/
def whenLines (rule : Rule) : List Line :=
  rule.trigger :: rule.guards

/-- All lines in reading order. -/
def lines (rule : Rule) : List Line :=
  rule.whenLines ++ rule.consequences

/-- The variables of a rule in order of first appearance. -/
def vars (rule : Rule) : List Variable :=
  (rule.lines.flatMap Line.vars).eraseDups

end Rule

end Synchrony
