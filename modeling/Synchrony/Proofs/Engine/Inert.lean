import Synchrony.Proofs.Engine.Likeness
import Synchrony.Proofs.Engine.Splitting

/-!
# Rules that do nothing

A rule whose trigger fits no trace that a run comes to does nothing in that run, and the run would
have been the same without it. Whether it fits is asked of a trace and of empty bindings
(`Rule.Matches`), so nothing that other rules have bound, or that the same rule had bound in an
earlier attempt, has a say.

The rule leaves a mark all the same: under the traces of its action it is declined, and that is
told. It is no call and changes nothing (`Engine.applyRule_of_not_matches`), so the two runs go side
by side, one reaction after the other. What the run without the rule would come to need not be
asked, because it comes to the same traces.
-/

set_option autoImplicit false

namespace Synchrony

variable {σ : Type} {engine engine' : Engine σ} {rule : Rule} {trace : Trace}

/-- The trigger of a rule fits a trace. -/
def Rule.Matches (rule : Rule) (trace : Trace) : Prop :=
  ∃ matched, Bindings.empty.fitTrace trace rule.trigger = (none, matched)

instance (rule : Rule) (trace : Trace) : Decidable (rule.Matches trace) :=
  decidable_of_iff ((Bindings.empty.fitTrace trace rule.trigger).1 = none) <| by
    rcases hfit : Bindings.empty.fitTrace trace rule.trigger with ⟨failure, matched⟩
    simp [Rule.Matches, hfit]

namespace Engine

/-! ## One reaction -/

/-- Trying a rule that does not fit a trace does nothing but tell of it. -/
theorem applyRule_of_not_matches (engine : Engine σ) (h : ¬rule.Matches trace) (s : σ) :
    ∃ e, engine.applyRule rule trace s = ⟨.returned [], s, [.declined rule e]⟩ := by
  rcases hfit : Bindings.empty.fitTrace trace rule.trigger with ⟨_ | e, matched⟩
  · exact absurd ⟨matched, hfit⟩ h
  · exact ⟨e, applyRule_of_misfit hfit s⟩

/-- A rule that does not fit makes no difference to the rules behind it. -/
theorem applyRules_akin_of_not_matches (h : ¬rule.Matches trace) (rules : List Rule) :
    Act.Akin (Likeness.exact σ) Eq (engine.applyRules trace (rule :: rules))
      (engine.applyRules trace rules) := by
  rintro s _ rfl
  obtain ⟨e, hrule⟩ := engine.applyRule_of_not_matches h s
  have hrest : engine.applyRules trace (rule :: rules) s =
      (engine.applyRules trace rules s).behind [.declined rule e] := by
    rw [applyRules, Act.bind_run_returned _ hrule]
    simp only [List.nil_append, bind_pure]
  rw [hrest]
  have hrun := Act.Akin.refl_exact (engine.applyRules trace rules) s s rfl
  exact ⟨hrun.ending, hrun.state, hrun.calls⟩

variable {front back : List Rule}

/-- **A reaction to a trace that the rule does not fit is like one without the rule.** -/
theorem react_akin_of_not_matches (hrules : engine.rulebook.rules = front ++ rule :: back)
    (hrules' : engine'.rulebook.rules = front ++ back) (hactions : engine'.actions = engine.actions)
    (h : ¬rule.Matches trace) :
    Act.Akin (Likeness.exact σ) Eq (engine.react trace) (engine'.react trace) := by
  rw [react, react, Rulebook.under_eq_filter, Rulebook.under_eq_filter, hrules, hrules',
    applyRules_of_actions_eq hactions, List.filter_append, List.filter_append]
  by_cases htrace : rule.anchor = trace.action
  · rw [List.filter_cons_of_pos (by simpa using htrace), applyRules_append, applyRules_append]
    refine .bind (.refl_exact _) ?_
    rintro batch _ rfl
    refine .bind (applyRules_akin_of_not_matches h _) ?_
    rintro more _ rfl
    exact .pure rfl
  · rw [List.filter_cons_of_neg (by simpa using htrace)]
    exact .refl_exact _

/-! ## Whole runs -/

variable {action : String} {args : List Value} {s : σ}

/-- **A rule that never fits is inert.** Let a rule stand somewhere among others, and let its trigger
fit none of the traces that a run reacts to. Without the rule, the run ends in the same way, be it
with the same result and the same traces or with the same failure, leaves the same state, and makes
the same calls in the same order. -/
theorem unmatched_rule_is_inert (hrules : engine.rulebook.rules = front ++ rule :: back)
    (hrules' : engine'.rulebook.rules = front ++ back) (hactions : engine'.actions = engine.actions)
    (hcap : engine'.cap = engine.cap)
    (hunmatched : ∀ trace, engine.Processes action args s trace → ¬rule.Matches trace)
    (steps : Nat) :
    (engine'.cascade steps action args s).ending = (engine.cascade steps action args s).ending ∧
    (engine'.cascade steps action args s).state = (engine.cascade steps action args s).state ∧
    Event.calls (engine'.cascade steps action args s).events =
      Event.calls (engine.cascade steps action args s).events := by
  have hcall : (engine.call action args s).Akin (Likeness.exact σ) Eq
      (engine'.call action args s) := by
    rw [call_of_actions_eq hactions]
    exact Act.Akin.refl_exact _ s s rfl
  have hreact {trace trace' : Trace} (hprocesses : engine.Processes action args s trace)
      (htrace : trace = trace') : Act.Akin (Likeness.exact σ) (List.Forall₂ Eq)
        (engine.react trace) (engine'.react trace') := by
    subst htrace
    rw [List.forall₂_eq_eq_eq]
    exact react_akin_of_not_matches hrules hrules' hactions (hunmatched trace hprocesses)
  have hakin := cascade_akin (Likeness.coherent_of_eq rfl) hcap hcall hreact steps
  exact (hakin.mono fun _ _ hhistory => hhistory.eq.symm).same

/-- A rule on the same action as `bundle`, for the other answer. -/
def idle : Rule where
  trigger := ⟨"A.a", [.var ⟨"x", 0⟩], some [.lit (.bool false)]⟩
  guards := [⟨"B.b", [.var ⟨"x", 0⟩], none⟩]
  consequences := [⟨"C.c", [.var ⟨"x", 0⟩], none⟩]
  line := 9

theorem unmatched_rule_is_inert_idle :
    (∀ trace ∈ bundled.traces, ¬idle.Matches trace) ∧
    ((underToggling [bundle]).cascade 3 "A.a" [.int 7] 0).ending = .returned bundled ∧
    Event.calls ((underToggling [bundle]).cascade 3 "A.a" [.int 7] 0).events =
      [("A.a", [.int 7]), ("B.b", [.int 7]), ("C.c", [.int 7])] := by
  have hunmatched : ∀ trace ∈ bundled.traces, ¬idle.Matches trace := by decide
  have hrun : (underToggling [idle, bundle]).cascade 3 "A.a" [.int 7] 0 =
      ⟨.returned bundled, 3, ((underToggling [idle, bundle]).cascade 3 "A.a" [.int 7] 0).events⟩ :=
    rfl
  have hrules : (underToggling [idle, bundle]).rulebook.rules = [] ++ idle :: [bundle] := rfl
  have hrules' : (underToggling [bundle]).rulebook.rules = [] ++ [bundle] := rfl
  obtain ⟨hending, -, hcalls⟩ := unmatched_rule_is_inert hrules hrules' rfl rfl
    (fun trace hprocesses => hunmatched trace (hprocesses.mem_of_returned hrun)) 3
  exact ⟨hunmatched, hending, hcalls⟩

end Engine

end Synchrony
