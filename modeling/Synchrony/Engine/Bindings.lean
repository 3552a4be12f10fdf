import Synchrony.Engine.Trace
import Synchrony.Failure
import Synchrony.Rule.Basic
import Synchrony.Value.Equality

/-!
# Bindings

Bindings say what the variables of a rule stand for during one attempt to apply it. An attempt
starts with none, every line of the rule that a trace is fitted to may add some, and fitting never
changes a binding that is there.

## 1. Fitting one position

A variable that is not bound yet takes the value it meets. A bound variable and a literal ask that
the value be the same as theirs (`Value.same`).

## 2. Fitting a trace

A line and a trace give rise to a list of **positions** (`Line.argumentPositions`,
`Line.resultPositions`), each a value, the pattern it has to fit, and the name of the place for
error texts. They are taken from left to right. What was bound before the first position that does
not fit stays bound, so fitting answers with bindings in either case.

A line with one return pattern fits it to the whole result; one with several asks for a list or
tuple of exactly that many members.
-/

set_option autoImplicit false

namespace Synchrony

/-- The values of variables, in the order in which they were bound. -/
structure Bindings where
  entries : List (Variable × Value)
  deriving Repr, Inhabited

/-- One value that has to fit one pattern. -/
structure Position where
  /-- The name of the place in error texts. -/
  place : String
  actual : Value
  pattern : Pattern
  deriving Repr, Inhabited

namespace Line

/-- The positions of values and patterns paired up, named by a word and their number. -/
def numberedPositions (place : String) (values : List Value) (patterns : List Pattern) :
    List Position :=
  (values.zip patterns).zipIdx.map fun ((value, pattern), i) =>
    ⟨place ++ " " ++ Decimal.natText i, value, pattern⟩

/-- The positions of the arguments of a line. -/
def argumentPositions (line : Line) (args : List Value) : List Position :=
  numberedPositions (line.action ++ " argument") args line.args

/-- The positions of the result of a line, or why the result does not have the asked shape. -/
def resultPositions (line : Line) (result : Value) : Except Mismatch (List Position) :=
  match line.returns with
  | none => .ok []
  | some [] => .ok []
  | some [pattern] => .ok [⟨line.action ++ " return", result, pattern⟩]
  | some patterns =>
    let members? := match result with
      | .list members => some members
      | .tuple members => some members
      | _ => none
    let arity := Mismatch.arity (line.action ++ " returns") patterns.length
    match members? with
    | none => .error (arity none)
    | some members =>
      if members.length = patterns.length then
        .ok (numberedPositions (line.action ++ " return") members patterns)
      else .error (arity (some members.length))

end Line

namespace Bindings

/-- The bindings of an attempt that has not begun. -/
def empty : Bindings := ⟨[]⟩

/-- The value of a variable among some entries. -/
def lookup : List (Variable × Value) → Variable → Option Value
  | [], _ => none
  | (w, value) :: rest, v => if w = v then some value else lookup rest v

/-- The value of a variable, if it is bound. -/
def get? (bindings : Bindings) (v : Variable) : Option Value :=
  lookup bindings.entries v

/-- Entries with one of them set: in place if the variable is bound, at the end otherwise. -/
def assign : List (Variable × Value) → Variable → Value → List (Variable × Value)
  | [], v, value => [(v, value)]
  | (w, old) :: rest, v, value =>
    if w = v then (w, value) :: rest else (w, old) :: assign rest v value

/-- Give a variable a value, whether it had one or not. -/
def set (bindings : Bindings) (v : Variable) (value : Value) : Bindings :=
  ⟨assign bindings.entries v value⟩

/-- The value of a variable that has to be bound. -/
def value (bindings : Bindings) (v : Variable) : Except Mismatch Value :=
  match bindings.get? v with
  | some value => .ok value
  | none => .error (.unbound v.name)

/-- The value at an argument position. -/
def argument (bindings : Bindings) : Pattern → Except Mismatch Value
  | .var v => bindings.value v
  | .lit value => .ok value

/-- The arguments with which to make the call of a line. -/
def arguments (bindings : Bindings) (line : Line) : Except Mismatch (List Value) :=
  line.args.mapM bindings.argument

/-- The failure of a position that does not fit. Its text shows both values; if one of them has no
text, that is the failure. -/
def misfit (place : String) (expected actual : Value) : Failure :=
  if expected.hasText && actual.hasText then .mismatch (.value place expected actual)
  else .tooManyDigits

/-- Ask that a value be the same as the one expected, and leave the bindings as they are. -/
def require (bindings : Bindings) (place : String) (expected actual : Value) :
    Option Failure × Bindings :=
  (if actual.same expected then none else some (misfit place expected actual), bindings)

/-- Fit one position: the failure if it does not fit, and the bindings then. -/
def fit (bindings : Bindings) (position : Position) : Option Failure × Bindings :=
  match position.pattern with
  | .var v =>
    match bindings.get? v with
    | none => (none, bindings.set v position.actual)
    | some expected => bindings.require position.place expected position.actual
  | .lit expected => bindings.require position.place expected position.actual

/-- Fit positions from left to right up to the first that does not fit. -/
def fitAll (bindings : Bindings) : List Position → Option Failure × Bindings
  | [] => (none, bindings)
  | position :: more =>
    match bindings.fit position with
    | (none, bindings) => bindings.fitAll more
    | failed => failed

/-- Fit a trace to a line: the failure if it does not fit, and the bindings then. -/
def fitTrace (bindings : Bindings) (trace : Trace) (line : Line) : Option Failure × Bindings :=
  if trace.action ≠ line.action then
    (some (.mismatch (.action line.action trace.action)), bindings)
  else if trace.args.length ≠ line.args.length then
    (some (.mismatch (.arity (line.action ++ " arguments") line.args.length
      (some trace.args.length))), bindings)
  else
    match bindings.fitAll (line.argumentPositions trace.args) with
    | (none, bindings) =>
      match line.resultPositions trace.result with
      | .ok positions => bindings.fitAll positions
      | .error mismatch => (some (.mismatch mismatch), bindings)
    | failed => failed

theorem get?_set_self (bindings : Bindings) (v : Variable) (value : Value) :
    (bindings.set v value).get? v = some value := by
  obtain ⟨entries⟩ := bindings
  simp only [set, get?]
  induction entries with
  | nil => simp [assign, lookup]
  | cons entry rest ih =>
    obtain ⟨w, old⟩ := entry
    by_cases h : w = v <;> simp [assign, lookup, h, ih]

theorem get?_set_of_ne (bindings : Bindings) {v w : Variable} (value : Value) (h : v ≠ w) :
    (bindings.set v value).get? w = bindings.get? w := by
  obtain ⟨entries⟩ := bindings
  simp only [set, get?]
  induction entries with
  | nil => simp [assign, lookup, h]
  | cons entry rest ih =>
    obtain ⟨u, old⟩ := entry
    by_cases hu : u = v
    · subst hu
      simp [assign, lookup, h]
    · by_cases hw : u = w
      · subst hw
        simp [assign, lookup, hu]
      · simp [assign, lookup, hu, hw, ih]

/-- Fitting a position keeps every binding that was there. -/
theorem get?_fit_of_bound {bindings : Bindings} {position : Position} {v : Variable}
    {value : Value} (h : bindings.get? v = some value) :
    (bindings.fit position).2.get? v = some value := by
  unfold fit
  split
  · rename_i w _
    split
    · rename_i hw
      have hne : w ≠ v := fun e => by simp [e, h] at hw
      simpa [get?_set_of_ne _ _ hne] using h
    · exact h
  · exact h

/-- Fitting positions keeps every binding that was there. -/
theorem get?_fitAll_of_bound {bindings : Bindings} {positions : List Position} {v : Variable}
    {value : Value} (h : bindings.get? v = some value) :
    (bindings.fitAll positions).2.get? v = some value := by
  induction positions generalizing bindings with
  | nil => exact h
  | cons position more ih =>
    have hfit : (bindings.fit position).2.get? v = some value := get?_fit_of_bound h
    rcases hr : bindings.fit position with ⟨_ | e, after⟩
    · rw [hr] at hfit
      simpa [fitAll, hr] using ih hfit
    · rw [hr] at hfit
      simpa [fitAll, hr] using hfit

end Bindings

end Synchrony
