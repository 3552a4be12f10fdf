import Synchrony.Proofs.Engine.Alike
import Synchrony.Proofs.Engine.Renaming

/-!
# Splitting a rule

A rule without guards may be split in two that stand one behind the other: both have its trigger,
the first has the front of its consequences and the second the rest. What the rule does to a run is
what the two do, as long as the rest uses nothing that the front has bound (`Rule.Splits`).

The second rule starts from the trigger again, where the whole rule would go on with what its front
has bound, so the two work from different bindings. They **agree** on the variables of the rest
(`Bindings.AgreeOn`): a variable of the trigger has kept the value that it had there, and any other
has no value in either. Lines look at their own variables only, so they do the same under bindings
that agree on these. This is what was shown for renamed lines, with every name as it is.

If the front fails, the second rule does not have its turn, and the whole rule does not come to its
rest. If it does not fail, nothing in between looks at the history: the cap is looked at when the
whole reaction is over, and by then the two batches are one.
-/

set_option autoImplicit false

namespace Synchrony

namespace Bindings

/-! ## Bindings that agree -/

/-- Both give these variables the same values, and none to the same of them. -/
def AgreeOn (vars : List Variable) (bindings bindings' : Bindings) : Prop :=
  ∀ v ∈ vars, bindings'.get? v = bindings.get? v

variable {bindings : Bindings}

/-- Fitting a trace keeps every binding that was there. -/
theorem get?_fitTrace_of_bound {v : Variable} {value : Value}
    (h : bindings.get? v = some value) (trace : Trace) (line : Line) :
    (bindings.fitTrace trace line).2.get? v = some value := by
  rw [Bindings.fitTrace]
  split
  · exact h
  · split
    · exact h
    · have hargs : (bindings.fitAll (line.argumentPositions trace.args)).2.get? v = some value :=
        get?_fitAll_of_bound h
      rcases hfit : bindings.fitAll (line.argumentPositions trace.args) with ⟨_ | e, after⟩
      · rw [hfit] at hargs
        cases line.resultPositions trace.result with
        | error mismatch => exact hargs
        | ok positions => exact get?_fitAll_of_bound hargs
      · rw [hfit] at hargs
        exact hargs

end Bindings

namespace Engine

variable {σ : Type} {lines : List Line} {bindings bindings' : Bindings}

/-! ## Lines under bindings that agree -/

/-- **Consequences do the same under bindings that agree on their variables**, and two rules with
one anchor pass the same verdicts on them. -/
theorem enforceAll_alike (engine : Engine σ) {rule rule' : Rule} (hanchor : rule'.anchor = rule.anchor)
    (h : bindings.AgreeOn (lines.flatMap Line.vars) bindings') :
    Act.Alike (engine.enforceAll rule lines bindings) (engine.enforceAll rule' lines bindings') := by
  have hnames : (Likeness.exact σ).AllowsNames id (lines.flatMap Line.vars) :=
    ⟨fun _ => rfl, fun _ _ => rfl⟩
  have hcall : ∀ line ∈ lines, ∀ args, Act.Akin (Likeness.exact σ) Eq
      (engine.call line.action args) (engine.call line.action args) :=
    fun _ _ _ => .refl_exact _
  have hlines := mirrors_map_rename hnames (fun _ _ _ _ heq => heq) hcall
    fun line hline v hv => List.mem_flatMap.mpr ⟨line, hline, hv⟩
  rw [funext Line.rename_id, List.map_id_fun'] at hlines
  have hakin := enforceAll_akin (Likeness.coherent_of_eq rfl) hanchor hlines h
  rw [List.forall₂_eq_eq_eq] at hakin
  exact Act.alike_iff.mpr hakin

end Engine

/-! ## Two rules in place of one -/

namespace Rule

/-- The rule with these consequences and no others. -/
def withConsequences (rule : Rule) (lines : List Line) (place : Nat) : Rule :=
  { rule with consequences := lines, line := place }

@[simp] theorem anchor_withConsequences (rule : Rule) (lines : List Line) (place : Nat) :
    (rule.withConsequences lines place).anchor = rule.anchor := rfl

theorem trigger_withConsequences (rule : Rule) (lines : List Line) (place : Nat) :
    (rule.withConsequences lines place).trigger = rule.trigger := rfl

/-- A rule without guards whose consequences come in two parts, of which the second uses no
variable of the first that the trigger does not have. -/
structure Splits (rule : Rule) (first second : List Line) : Prop where
  unguarded : rule.guards = []
  consequences_eq : rule.consequences = first ++ second
  separate : ∀ v ∈ first.flatMap Line.vars, v ∉ rule.trigger.vars → v ∉ second.flatMap Line.vars

end Rule

namespace Engine

variable {σ : Type} {engine engine' : Engine σ} {rule : Rule} {first second : List Line}
  {trace : Trace} {matched : Bindings}

theorem applyRule_of_misfit {e : Failure} {after : Bindings}
    (hfit : Bindings.empty.fitTrace trace rule.trigger = (some e, after)) (s : σ) :
    engine.applyRule rule trace s = ⟨.returned [], s, [.declined rule e]⟩ := by
  rw [applyRule_of_declined (engine.guard_of_misfit s hfit) (Bindings.fitTrace_failed hfit).soft,
    List.nil_append]

theorem applyRule_of_unguarded (hguards : rule.guards = [])
    (hfit : Bindings.empty.fitTrace trace rule.trigger = (none, matched)) (s : σ) :
    engine.applyRule rule trace s =
      (engine.enforceAll rule rule.consequences matched s).behind [.fired rule] := by
  have hguard : engine.guard rule trace s = ⟨.returned (matched, []), s, []⟩ := by
    rw [engine.guard_of_fit s hfit, hguards]
    rfl
  rw [applyRule_of_guard_returned hguard]
  simp only [List.nil_append, bind_pure]

theorem get?_perform_of_bound {line : Line} {bindings after : Bindings} {trace : Trace} {s t : σ}
    {events : List Event} {v : Variable} {value : Value}
    (hrun : engine.perform line bindings s = ⟨.returned (after, trace), t, events⟩)
    (h : bindings.get? v = some value) : after.get? v = some value := by
  have hcases := engine.perform_cases line bindings s
  rw [hrun] at hcases
  cases hcases with
  | answered args_eq call_eq fit_eq =>
    have hafter := Bindings.get?_fitTrace_of_bound h trace line
    rwa [fit_eq] at hafter

theorem get?_performAll_of_bound {lines : List Line} {bindings after : Bindings}
    {traces : List Trace} {s t : σ} {events : List Event} {v : Variable} {value : Value}
    (hrun : engine.performAll lines bindings s = ⟨.returned (after, traces), t, events⟩)
    (h : bindings.get? v = some value) : after.get? v = some value := by
  have hline : ∀ line ∈ lines, ∀ bindings after trace s t events, bindings.get? v = some value →
      engine.perform line bindings s = ⟨.returned (after, trace), t, events⟩ →
      after.get? v = some value ∧ True :=
    fun line _ bindings after trace s t events h hrun => ⟨get?_perform_of_bound hrun h, trivial⟩
  exact (performAll_keeps_bindings hline h hrun).1

/-- Behind its front, a rule knows of the rest what it knew behind its trigger. -/
theorem agreeOn_of_splits (h : rule.Splits first second) {reached : Bindings}
    {traces : List Trace} {s t : σ} {events : List Event}
    (hfit : Bindings.empty.fitTrace trace rule.trigger = (none, matched))
    (hrun : engine.performAll first matched s = ⟨.returned (reached, traces), t, events⟩) :
    reached.AgreeOn (second.flatMap Line.vars) matched := by
  have hmatched := Bindings.Knows.empty.fitTrace hfit
  have hreached := performAll_knows hmatched hrun
  intro v hv
  cases hvalue : matched.get? v with
  | some value => exact (get?_performAll_of_bound hrun hvalue).symm
  | none =>
    rw [eq_comm, ← Option.not_isSome_iff_eq_none, hreached v, List.nil_append, List.flatMap_append,
      List.mem_append]
    have htrigger : v ∉ rule.trigger.vars := by
      intro hmem
      have hsome := (hmatched v).mpr (by simpa using hmem)
      rw [hvalue] at hsome
      cases hsome
    rintro (hmem | hmem)
    · exact htrigger (by simpa using hmem)
    · exact h.separate v hmem htrigger hv

/-- **Trying the two rules is like trying the whole rule.** -/
theorem applyRules_alike_of_splits (engine : Engine σ) (h : rule.Splits first second)
    (trace : Trace) (m n : Nat) :
    Act.Alike (engine.applyRules trace [rule])
      (engine.applyRules trace
        [rule.withConsequences first m, rule.withConsequences second n]) := by
  simp only [applyRules, bind_pure, pure_bind, List.append_nil]
  intro s
  rcases hfit : Bindings.empty.fitTrace trace rule.trigger with ⟨_ | e, matched⟩
  · have hpart (lines : List Line) (place : Nat) (s : σ) :
        engine.applyRule (rule.withConsequences lines place) trace s =
          (engine.enforceAll (rule.withConsequences lines place) lines matched s).behind
            [.fired (rule.withConsequences lines place)] := by
      have hguards : (rule.withConsequences lines place).guards = [] := h.unguarded
      exact applyRule_of_unguarded hguards hfit s
    rw [applyRule_of_unguarded h.unguarded hfit, h.consequences_eq]
    rcases (engine.performAll_finishes first matched).cases s with
      ⟨⟨reached, traces⟩, t, events, hrun⟩ | ⟨e, t, events, hrun⟩
    · have hfirst := hpart first m s
      rw [enforceAll_of_returned _ hrun, Run.behind_mk] at hfirst
      -- The second rule starts anew, from where the first has left the state.
      rw [Act.bind_run_returned _ hfirst, Act.bind_behind _ (hpart second n t),
        enforceAll_append_of_returned rule second hrun, Run.behind_behind, Run.behind_behind,
        map_eq_pure_bind]
      have hsecond : Act.Alike (engine.enforceAll rule second reached)
          (engine.enforceAll (rule.withConsequences second n) second matched) :=
        enforceAll_alike engine (rule.anchor_withConsequences second n)
          (agreeOn_of_splits h hfit hrun)
      exact (hsecond.bind (fun _ => .refl _) t).behind (by simp)
    · obtain ⟨line, hfails⟩ := performAll_failed hrun
      have hfirst := hpart first m s
      rw [enforceAll_of_failsAt _ hfails, Run.behind_mk] at hfirst
      rw [Act.bind_run_failed _ hfirst, enforceAll_of_failsAt rule (hfails.append second)]
      exact ⟨rfl, rfl, by simp [Rule.calls_complaints]⟩
  · have hpart (lines : List Line) (place : Nat) :
        engine.applyRule (rule.withConsequences lines place) trace s =
          ⟨.returned [], s, [.declined (rule.withConsequences lines place) e]⟩ := by
      rw [← rule.trigger_withConsequences lines place] at hfit
      exact applyRule_of_misfit hfit s
    rw [applyRule_of_misfit hfit, Act.bind_run_returned _ (hpart first m),
      Act.bind_run_returned _ (hpart second n)]
    exact ⟨rfl, rfl, rfl⟩

theorem applyRules_append (engine : Engine σ) (trace : Trace) (front back : List Rule) :
    engine.applyRules trace (front ++ back) = (do
      let batch ← engine.applyRules trace front
      let more ← engine.applyRules trace back
      pure (batch ++ more)) := by
  induction front with
  | nil => simp [applyRules]
  | cons rule front ih =>
    simp only [List.cons_append, applyRules, ih, bind_assoc, pure_bind, List.append_assoc]

variable {front back : List Rule} {m n : Nat}

/-- **A reaction under the split rulebook is like one under the whole.** -/
theorem react_alike_of_splits (h : rule.Splits first second)
    (hrules : engine.rulebook.rules = front ++ rule :: back)
    (hrules' : engine'.rulebook.rules =
      front ++ rule.withConsequences first m :: rule.withConsequences second n :: back)
    (hactions : engine'.actions = engine.actions) (trace : Trace) :
    Act.Alike (engine.react trace) (engine'.react trace) := by
  rw [react, react, Rulebook.under_eq_filter, Rulebook.under_eq_filter, hrules, hrules',
    applyRules_of_actions_eq hactions]
  by_cases htrace : rule.anchor = trace.action
  · simp only [List.filter_append, List.filter_cons, Rule.anchor_withConsequences, htrace, decide_true, if_true]
    generalize front.filter _ = front
    generalize back.filter _ = back
    rw [applyRules_append, applyRules_append]
    refine .bind (.refl _) fun _ => .bind ?_ fun _ => .refl _
    change Act.Alike (engine.applyRules trace ([rule] ++ back)) (engine.applyRules trace
      ([rule.withConsequences first m, rule.withConsequences second n] ++ back))
    rw [applyRules_append, applyRules_append]
    exact (applyRules_alike_of_splits engine h trace m n).bind fun _ => .refl _
  · simp only [List.filter_append, List.filter_cons, Rule.anchor_withConsequences, htrace, decide_false,
      Bool.false_eq_true, if_false]
    exact .refl _

/-- **Splitting a rule changes no run.** Let a rule without guards stand somewhere among others,
and let its consequences come in two parts of which the second uses no variable of the first that
is not a variable of the trigger. If two rules take its place, one behind the other, with its
trigger and one of the parts each, then every run ends in the same way, be it with the same result
and the same traces or with the same failure, leaves the same state, and makes the same calls in
the same order. -/
theorem splitting_changes_nothing (h : rule.Splits first second)
    (hrules : engine.rulebook.rules = front ++ rule :: back)
    (hrules' : engine'.rulebook.rules =
      front ++ rule.withConsequences first m :: rule.withConsequences second n :: back)
    (hactions : engine'.actions = engine.actions) (hcap : engine'.cap = engine.cap)
    (steps : Nat) (action : String) (args : List Value) (s : σ) :
    (engine'.cascade steps action args s).ending = (engine.cascade steps action args s).ending ∧
    (engine'.cascade steps action args s).state = (engine.cascade steps action args s).state ∧
    Event.calls (engine'.cascade steps action args s).events =
      Event.calls (engine.cascade steps action args s).events := by
  obtain ⟨hending, hstate, hcalls⟩ := cascade_alike hactions hcap
    (react_alike_of_splits h hrules hrules' hactions) steps action args s
  exact ⟨hending, hstate, hcalls⟩

/-- Trigger and consequences share a variable, and the first consequence binds one of its own. -/
def bundle : Rule where
  trigger := ⟨"A.a", [.var ⟨"x", 0⟩], some [.var ⟨"r", 0⟩]⟩
  guards := []
  consequences := [⟨"B.b", [.var ⟨"x", 0⟩], some [.var ⟨"y", 0⟩]⟩,
    ⟨"C.c", [.var ⟨"x", 0⟩], some [.var ⟨"r", 0⟩]⟩]
  line := 1

/-- The two rules that take its place. -/
def bundleHalves : List Rule :=
  [bundle.withConsequences (bundle.consequences.take 1) 1,
    bundle.withConsequences (bundle.consequences.drop 1) 5]

def underToggling (rules : List Rule) : Engine Nat where
  rulebook := .ofRules rules
  actions := toggling.actions

def bundled : History :=
  ⟨.bool true, [⟨"A.a", [.int 7], .bool true⟩, ⟨"B.b", [.int 7], .bool false⟩,
    ⟨"C.c", [.int 7], .bool true⟩]⟩

/-- The two rules come to the history of the whole rule, although the first half binds a variable
that the second does not have. -/
theorem splitting_changes_nothing_bundle :
    ((underToggling bundleHalves).cascade 3 "A.a" [.int 7] 0).ending = .returned bundled ∧
    Event.calls ((underToggling bundleHalves).cascade 3 "A.a" [.int 7] 0).events =
      [("A.a", [.int 7]), ("B.b", [.int 7]), ("C.c", [.int 7])] := by
  have hsplits : bundle.Splits (bundle.consequences.take 1) (bundle.consequences.drop 1) :=
    ⟨rfl, rfl, by decide⟩
  have hrules : (underToggling [bundle]).rulebook.rules = [] ++ bundle :: [] := rfl
  have hrules' : (underToggling bundleHalves).rulebook.rules =
      [] ++ bundle.withConsequences (bundle.consequences.take 1) 1 ::
        bundle.withConsequences (bundle.consequences.drop 1) 5 :: [] := rfl
  obtain ⟨hending, -, hcalls⟩ :=
    splitting_changes_nothing hsplits hrules hrules' rfl rfl 3 "A.a" [.int 7] 0
  exact ⟨hending, hcalls⟩

end Engine

end Synchrony
