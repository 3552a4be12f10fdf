import Synchrony.Proofs.Engine.Supplies
import Synchrony.Proofs.Value.SelfAgreement

/-!
# Lines and their own arguments

When a call has returned, its trace is fitted to the line that made it, arguments included. The
arguments were worked out from the same bindings a moment before, so one would think that only the
return patterns can fail then. The fit asks of every argument whether it agrees with what the
pattern stands for, which is the argument itself; so it asks whether the argument agrees with itself
(`Bindings.fitAll_own`), and not-a-number does not. A line that passes it on fails although its
action returned, and if the line is a consequence, that is a violation (`passing_violated`).

There is no other exception. Values that agree with themselves are all that are well-formed, save
not-a-number, and a run into which only well-formed values come passes on no others
(`Engine.Turn.holds`). So a line fails on its own arguments exactly if one of them is not-a-number.
One that only holds it, as a list or a record may, does no harm. What clients send is well-formed
(`Json.read?_wellFormed`), and so are the literals of rules, which are never not-a-number
(`readRules_literals`).
-/

set_option autoImplicit false

namespace Synchrony

theorem Value.wellFormed_hereditary : Value.Hereditary Value.WellFormed where
  list _ h := by
    cases h
    assumption
  tuple _ h := by
    cases h
    assumption

namespace Bindings

variable {bindings : Bindings} {line : Line} {values : List Value}

/-- A position whose pattern stands for its value asks whether that agrees with itself. -/
theorem fit_own {position : Position}
    (h : bindings.argument position.pattern = .ok position.actual) :
    bindings.fit position = bindings.require position.place position.actual position.actual := by
  obtain ⟨place, actual, pattern⟩ := position
  cases pattern with
  | lit literal =>
    obtain rfl : literal = actual := Except.ok.inj h
    rfl
  | var v =>
    rw [argument, value] at h
    split at h
    next known hknown =>
      obtain rfl : known = actual := Except.ok.inj h
      simp only [fit, hknown]
    next => cases h

theorem fitAll_own {positions : List Position}
    (h : ∀ position ∈ positions, bindings.argument position.pattern = .ok position.actual) :
    bindings.fitAll positions = (none, bindings) ↔
      ∀ position ∈ positions, position.actual.same position.actual = true := by
  induction positions with
  | nil => simp [fitAll]
  | cons position more ih =>
    obtain ⟨hposition, hmore⟩ := List.forall_mem_cons.mp h
    rw [List.forall_mem_cons, ← ih hmore, fitAll, fit_own hposition, require]
    cases position.actual.same position.actual <;> simp

/-- The positions of a line's own arguments. -/
theorem argumentPositions_own (hvalues : bindings.arguments line = .ok values) :
    values.length = line.args.length ∧
      (line.argumentPositions values).map Position.actual = values ∧
      ∀ position ∈ line.argumentPositions values,
        bindings.argument position.pattern = .ok position.actual := by
  obtain ⟨hlength, hpairs⟩ := List.forall₂_iff_zip.mp (Except.forall₂_of_mapM hvalues)
  have hzip := Line.numberedPositions_pairs (line.action ++ " argument") values line.args
  refine ⟨hlength, ?_, ?_⟩
  · have hactual := congrArg (List.map Prod.fst) hzip
    rw [List.map_map, List.map_fst_zip (Nat.le_of_eq hlength)] at hactual
    exact hactual
  · intro position hmem
    refine hpairs ?_
    rw [← hzip]
    exact List.mem_map_of_mem hmem

/-- **A line's own arguments fit it if and only if all of them agree with themselves.** -/
theorem fitAll_own_arguments (hvalues : bindings.arguments line = .ok values) :
    bindings.fitAll (line.argumentPositions values) = (none, bindings) ↔
      ∀ value ∈ values, value.same value = true := by
  obtain ⟨-, hactual, hown⟩ := argumentPositions_own hvalues
  rw [fitAll_own hown]
  conv_rhs => rw [← hactual]
  rw [List.forall_mem_map]

/-- Fit a result to the return patterns of a line. -/
def fitResult (bindings : Bindings) (result : Value) (line : Line) : Option Failure × Bindings :=
  match line.resultPositions result with
  | .ok positions => bindings.fitAll positions
  | .error mismatch => (some (.mismatch mismatch), bindings)

theorem fitResult_of_returns_none (hreturns : line.returns = none) (result : Value) :
    bindings.fitResult result line = (none, bindings) := by
  simp [fitResult, Line.resultPositions, hreturns, fitAll]

/-- Where the arguments fit and bind nothing, what is left is the result. -/
theorem fitTrace_of_arguments {trace : Trace} (haction : trace.action = line.action)
    (hlength : trace.args.length = line.args.length)
    (hargs : bindings.fitAll (line.argumentPositions trace.args) = (none, bindings)) :
    bindings.fitTrace trace line = bindings.fitResult trace.result line := by
  simp only [fitTrace, haction, hlength, ne_eq, not_true_eq_false, if_false, hargs]
  rfl

end Bindings

namespace Engine

variable {σ : Type} {engine : Engine σ} {action : String} {args : List Value} {s u : σ}
  {rule : Rule} {line : Line} {bindings : Bindings}

variable (engine) in
/-- A run comes to a line of a rule: all lines before it have been performed, and these are the
bindings and the state by then. -/
inductive ComesTo (action : String) (args : List Value) (s : σ) :
    Rule → Line → Bindings → σ → Prop
  | guard {trace : Trace} {rule : Rule} {u v : σ} {matched reached : Bindings}
    {before after : List Line} {line : Line} {traces : List Trace}
    {calls : List (String × List Value)} {events : List Event}
    (turn : engine.Turn action args s trace rule u calls)
    (trigger_eq : Bindings.empty.fitTrace trace rule.trigger = (none, matched))
    (guards_eq : rule.guards = before ++ line :: after)
    (before_eq : engine.performAll before matched u = ⟨.returned (reached, traces), v, events⟩) :
    ComesTo action args s rule line reached v
  | consequence {trace : Trace} {rule : Rule} {u v w : σ} {matched reached : Bindings}
    {before after : List Line} {line : Line} {guards traces : List Trace}
    {calls : List (String × List Value)} {front back : List Event}
    (turn : engine.Turn action args s trace rule u calls)
    (guard_eq : engine.guard rule trace u = ⟨.returned (matched, guards), v, front⟩)
    (consequences_eq : rule.consequences = before ++ line :: after)
    (before_eq : engine.performAll before matched v = ⟨.returned (reached, traces), w, back⟩) :
    ComesTo action args s rule line reached w

theorem ComesTo.holds {I : σ → Prop} {P : Value → Prop} (hP : Value.Hereditary P)
    (hsupplies : engine.Supplies I P) (hstate : I s) (hargs : ∀ value ∈ args, P value)
    (h : engine.ComesTo action args s rule line bindings u) :
    bindings.Holds P ∧ line.LiteralsHold P := by
  cases h with
  | guard turn trigger_eq guards_eq before_eq =>
    obtain ⟨hkept, htrace⟩ := turn.holds hP hsupplies hstate hargs
    have hrule := engine.rulebook.mem_rules_of_under turn.rule_mem
    have hserves := hsupplies.serves hrule
    rw [Rule.ownLines, guards_eq] at hserves
    have hmatched := Bindings.Holds.empty.fitTrace hP htrace rule.trigger
    rw [trigger_eq] at hmatched
    refine ⟨?_, (hserves _ (by simp)).literals⟩
    refine ((performAll_upholds hP ?_ hmatched).of_returned hkept before_eq).2.1
    exact fun line hline => hserves line (by simp [hline])
  | consequence turn guard_eq consequences_eq before_eq =>
    obtain ⟨hkept, htrace⟩ := turn.holds hP hsupplies hstate hargs
    have hrule := engine.rulebook.mem_rules_of_under turn.rule_mem
    have hserves := hsupplies.serves hrule
    obtain ⟨hkept, hmatched, -⟩ :=
      (guard_upholds hP hserves htrace).of_returned hkept guard_eq
    rw [Rule.ownLines, consequences_eq] at hserves
    refine ⟨?_, (hserves _ (by simp)).literals⟩
    refine ((performAll_upholds hP ?_ hmatched).of_returned hkept before_eq).2.1
    exact fun line hline => hserves line (by simp [hline])

/-- **A line fails on its own arguments only if one of them is not-a-number.** Into a run come
well-formed values only. When the run comes to a guard or consequence, its arguments are bound, and
its call returns, then the trace has the action of the line and as many arguments; these fit the
line if and only if none of them is not-a-number; and if none is, only the return patterns can
fail. So a line without return patterns is performed then, and as a consequence it is no
violation. -/
theorem own_arguments_fit {I : σ → Prop} {values : List Value} {t : σ} {trace : Trace}
    {events : List Event} (hsupplies : engine.Supplies I Value.WellFormed) (hstate : I s)
    (hargs : ∀ value ∈ args, value.WellFormed)
    (hcomes : engine.ComesTo action args s rule line bindings u)
    (hvalues : bindings.arguments line = .ok values)
    (hcall : engine.call line.action values u = ⟨.returned trace, t, events⟩) :
    trace.action = line.action ∧ trace.args.length = line.args.length ∧
    (bindings.fitAll (line.argumentPositions trace.args) = (none, bindings) ↔
      ∀ value ∈ values, ¬value.IsNan) ∧
    ((∀ value ∈ values, ¬value.IsNan) →
      bindings.fitTrace trace line = bindings.fitResult trace.result line ∧
      (line.returns = none →
        engine.perform line bindings u = ⟨.returned (bindings, trace), t, events⟩ ∧
        engine.enforce rule line bindings u = ⟨.returned (bindings, trace), t, events⟩)) := by
  obtain ⟨haction, rfl, -⟩ := call_returned hcall
  have hlength := (Bindings.argumentPositions_own hvalues).1
  obtain ⟨hbindings, hliterals⟩ := hcomes.holds Value.wellFormed_hereditary hsupplies hstate hargs
  have hwellFormed := hbindings.arguments hliterals hvalues
  have hfit : bindings.fitAll (line.argumentPositions trace.args) = (none, bindings) ↔
      ∀ value ∈ trace.args, ¬value.IsNan := by
    rw [Bindings.fitAll_own_arguments hvalues]
    exact forall₂_congr fun value hmem => Value.same_self_iff (hwellFormed value hmem)
  refine ⟨haction, hlength, hfit, ?_⟩
  intro hnan
  have htrace := Bindings.fitTrace_of_arguments haction hlength (hfit.mpr hnan)
  refine ⟨htrace, ?_⟩
  intro hreturns
  rw [Bindings.fitResult_of_returns_none hreturns] at htrace
  have hperform := perform_answered engine hvalues hcall htrace
  exact ⟨hperform, enforce_of_returned rule hperform⟩

def passOnLine : Line :=
  ⟨"B.b", [.var ⟨"x", 0⟩], none⟩

/-- A rule that hands the argument of one action on to another. -/
def passOn : Rule where
  trigger := ⟨"A.a", [.var ⟨"x", 0⟩], none⟩
  guards := []
  consequences := [passOnLine]
  line := 1

/-- What the trigger binds. -/
def passedOn (value : Value) : Bindings :=
  ⟨[(⟨"x", 0⟩, value)]⟩

/-- Actions that return and have nothing to say. -/
def passing : Engine Unit where
  rulebook := .ofRules [passOn]
  actions := ⟨[("A.a", fun _ s => (.ok .null, s)), ("B.b", fun _ s => (.ok .null, s))], by decide⟩

theorem passing_supplies : passing.Supplies (fun _ => True) Value.WellFormed := by
  refine ⟨?_, ?_, fun _ _ _ _ _ _ _ => trivial⟩
  · intro rule hrule line hline value hvalue
    rw [List.mem_singleton.mp hrule] at hline
    rw [List.mem_singleton.mp hline] at hvalue
    simp [passOnLine] at hvalue
  · intro action entry hentry args _ s _ value t hrun
    rcases List.mem_cons.mp (Keyed.mem_of_get? hentry) with heq | hmem
    · cases heq
      cases hrun
      exact .null
    · cases List.mem_singleton.mp hmem
      cases hrun
      exact .null

/-- Whatever the argument is, the run comes to the consequence with it. -/
theorem passing_comesTo (value : Value) :
    passing.ComesTo "A.a" [value] () passOn passOnLine (passedOn value) () := by
  have hopens : passing.Opens "A.a" [value] () ⟨[], [⟨"A.a", [value], .null⟩], (), _⟩ := .intro rfl
  have hunder : passing.rulebook.under "A.a" = [] ++ [passOn] := rfl
  have hattempted : passing.Attempted [] () () := rfl
  have hturn := Turn.intro hopens .refl (.opening rfl) rfl hunder rfl hattempted
  have hlines : passOn.consequences = [] ++ passOnLine :: [] := rfl
  exact .consequence hturn rfl hlines rfl

/-- **Not-a-number does not fit the line that passes it on.** The line has no return patterns, its
argument is bound and its call returns, and still the run fails with a violation. -/
theorem passing_violated :
    passing.ComesTo "A.a" [.float (.nan 0)] () passOn passOnLine
      (passedOn (.float (.nan 0))) () ∧
    passOnLine.returns = none ∧
    (passedOn (.float (.nan 0))).arguments passOnLine = .ok [.float (.nan 0)] ∧
    passing.call "B.b" [.float (.nan 0)] () =
      ⟨.returned ⟨"B.b", [.float (.nan 0)], .null⟩, (), [.called "B.b" [.float (.nan 0)]]⟩ ∧
    ((passedOn (.float (.nan 0))).fitTrace ⟨"B.b", [.float (.nan 0)], .null⟩ passOnLine).1 =
      some (.mismatch (.value "B.b argument 0" (.float (.nan 0)) (.float (.nan 0)))) ∧
    (passing.cascade 2 "A.a" [.float (.nan 0)] ()).ending =
      .failed (.violation "A.a" "B.b"
        (.mismatch (.value "B.b argument 0" (.float (.nan 0)) (.float (.nan 0))))) := by
  -- Digits are found by a recursion that does not unfold by itself.
  have hplace : "B.b argument 0" = "B.b argument " ++ Decimal.natText 0 := by
    rw [Decimal.natText, Decimal.digits_of_lt (by decide)]
    rfl
  rw [hplace]
  exact ⟨passing_comesTo _, rfl, rfl, rfl, rfl, rfl⟩

/-- A list that holds not-a-number. -/
def nanList : Value :=
  .list [.float (.nan 0), .ident ⟨"ann", 3⟩]

/-- It fits the line that passes it on. -/
theorem own_arguments_fit_passing :
    passing.enforce passOn passOnLine (passedOn nanList) () =
      ⟨.returned (passedOn nanList, ⟨"B.b", [nanList], .null⟩), (), [.called "B.b" [nanList]]⟩ := by
  have hargs : ∀ value ∈ [nanList], value.WellFormed := by
    intro value hvalue
    rw [List.mem_singleton.mp hvalue]
    refine .list ?_
    intro item hitem
    rcases List.mem_cons.mp hitem with rfl | hitem
    · exact .float _
    · rw [List.mem_singleton.mp hitem]
      exact .ident _
  obtain ⟨-, -, -, hfits⟩ :=
    own_arguments_fit passing_supplies trivial hargs (passing_comesTo _) rfl rfl
  have hnan : ∀ value ∈ [nanList], ¬value.IsNan := by simp [nanList, Value.IsNan]
  exact ((hfits hnan).2 rfl).2

end Engine

end Synchrony
