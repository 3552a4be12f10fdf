import Synchrony.Proofs.Engine.Cap
import Synchrony.Proofs.Engine.Escapes

/-!
# Which actions a run can call

The rules tell beforehand which actions a run can come to: its first action, and whatever the
actions it has come to lead to. `Relation.ReflTransGen Rulebook.LeadsTo` is the least relation of
that kind, so the actions that can be reached from one are the least set that holds it and whatever
its members lead to.

Guards that are abandoned call what their lines say, and so do consequences at the end of a long
cascade. Both are attempts at a rule anchored on the action of a pending trace, so it is enough to
know that of the pending traces (`Engine.Confined`). One reaction passes it on to the traces it
adds, and its own calls are what its action leads to, however it ends.

## Missing actions

A failure that speaks of an unknown action comes from a call that finds nothing registered, or from
an action that fails as if it did. All calls are of actions that can be reached, so the first of
these is excluded if those are registered. The list of missing actions, which is looked through
once before any run, covers all but the first action itself.
-/

set_option autoImplicit false

namespace Synchrony

namespace Engine

variable {σ : Type} {engine : Engine σ}

/-! ## The calls of a run -/

variable (engine) in
/-- What a run has called and what it still has to react to can be reached from this action. -/
structure Confined (root : String) (stage : Stage σ) : Prop where
  pending : ∀ trace ∈ stage.pending,
    Relation.ReflTransGen engine.rulebook.LeadsTo root trace.action
  calls : ∀ call ∈ Event.calls stage.events,
    Relation.ReflTransGen engine.rulebook.LeadsTo root call.1

variable {root : String} {stage next : Stage σ}

theorem Confined.opens {action : String} {args : List Value} {s : σ}
    (h : engine.Opens action args s stage) : engine.Confined action stage := by
  cases h with
  | intro call_eq =>
    obtain ⟨rfl, -, rfl⟩ := call_returned call_eq
    refine ⟨?_, ?_⟩
    · intro trace hmem
      rw [List.mem_singleton.mp hmem]
    · intro call hmem
      rw [Event.calls_cons_ofCall, Event.calls_nil] at hmem
      rw [List.mem_singleton.mp hmem]
      exact .refl

theorem Confined.reacts (h : engine.Confined root stage) (hreacts : engine.Reacts stage next) :
    engine.Confined root next := by
  cases hreacts with
  | @intro settled pending batch trace s t events more react_eq =>
    have htrace := h.pending trace List.mem_cons_self
    refine ⟨?_, ?_⟩
    · intro trace' hmem
      rcases List.mem_append.mp hmem with hmem | hmem
      · exact h.pending trace' (List.mem_cons_of_mem _ hmem)
      · exact htrace.tail (leadsTo_of_react react_eq hmem)
    · intro call hmem
      rw [Event.calls_append] at hmem
      rcases List.mem_append.mp hmem with hmem | hmem
      · exact h.calls call hmem
      · refine htrace.tail (leadsTo_of_react_calls (s := s) ?_)
        rwa [react_eq]

theorem Confined.halts {run : Run σ (List Trace)} (h : engine.Confined root stage)
    (hhalts : engine.Halts stage run) :
    ∀ call ∈ Event.calls run.events, Relation.ReflTransGen engine.rulebook.LeadsTo root call.1 := by
  cases hhalts with
  | @intro settled pending trace s t e events more react_eq =>
    intro call hmem
    rw [Event.calls_append] at hmem
    rcases List.mem_append.mp hmem with hmem | hmem
    · exact h.calls call hmem
    · refine (h.pending trace List.mem_cons_self).tail (leadsTo_of_react_calls (s := s) ?_)
      rwa [react_eq]

theorem Confined.path (h : engine.Confined root stage)
    (hpath : Relation.ReflTransGen engine.Passes stage next) : engine.Confined root next := by
  induction hpath with
  | refl => exact h
  | tail _ hpasses ih => exact ih.reacts hpasses.1

/-- **Wherever the loop stops, it has called nothing that cannot be reached.** -/
theorem Confined.resume (h : engine.Confined root stage) (steps : Nat) :
    ∀ call ∈ Event.calls (engine.resume steps stage).events,
      Relation.ReflTransGen engine.rulebook.LeadsTo root call.1 := by
  induction steps generalizing stage with
  | zero =>
    by_cases hpending : stage.pending = []
    · rw [resume_of_pending_nil _ hpending]
      exact h.calls
    · rw [resume_zero hpending]
      exact h.calls
  | succ steps ih =>
    rcases engine.stage_cases stage with hpending | ⟨next, hreacts⟩ | ⟨run, hhalts⟩
    · rw [resume_of_pending_nil _ hpending]
      exact h.calls
    · rcases engine.admits_or_exceeds next.traces.length with hadmits | ⟨limit, hcap, hlimit⟩
      · rw [resume_of_admits steps hreacts hadmits]
        exact ih (h.reacts hreacts)
      · rw [resume_of_exceeds steps hreacts hcap hlimit]
        exact (h.reacts hreacts).calls
    · rw [resume_of_halts steps hhalts]
      exact h.halts hhalts

theorem reaches_of_cascade {steps : Nat} {action : String} {args : List Value} {s : σ} :
    ∀ call ∈ Event.calls (engine.cascade steps action args s).events,
      Relation.ReflTransGen engine.rulebook.LeadsTo action call.1 := by
  rcases (engine.call_finishes action args).cases s with
    ⟨first, t, events, hcall⟩ | ⟨e, t, events, hcall⟩
  · rw [cascade_of_call_returned steps hcall, calls_concluded]
    exact (Confined.opens ⟨hcall⟩).resume steps
  · intro call hmem
    rw [cascade_of_call_failed steps hcall] at hmem
    -- The first call has failed, and if it was one at all, it is the only one.
    have hevents := engine.call_events action args s
    rw [hcall] at hevents
    rcases hevents with rfl | rfl
    · cases hmem
    · rw [List.mem_singleton.mp hmem]

/-! ## Missing actions -/

/-- Whatever line of a rule has its turn, its action can be reached. -/
theorem Turn.reaches {action : String} {args : List Value} {s u : σ} {trace : Trace} {rule : Rule}
    {calls : List (String × List Value)} {line : Line}
    (h : engine.Turn action args s trace rule u calls) (hline : line ∈ rule.ownLines) :
    Relation.ReflTransGen engine.rulebook.LeadsTo action line.action := by
  have hrule := h.rule_mem
  cases h with
  | @intro opening stage earlier attempts trace pending done rest rule u opens path account
      pending_eq under_eq occasions_eq attempted =>
    have htrace := ((Confined.opens opens).path path).pending trace
      (pending_eq ▸ List.mem_cons_self)
    exact htrace.tail (Rulebook.leadsTo_of_under hrule hline)

variable (engine) in
/-- No action fails as if it called for one that is not registered. -/
def Forthright : Prop :=
  ∀ action entry, engine.actions.get? action = some entry → ∀ args s name,
    (entry args s).1 ≠ .error (.unknownAction name)

theorem Unanswered.unregistered_of_unknown {action name : String} {args : List Value} {s t : σ}
    {calls : List (String × List Value)} (hforthright : engine.Forthright)
    (h : engine.Unanswered action args s (.unknownAction name) t calls) :
    engine.actions.get? action = none := by
  generalize he : Failure.unknownAction name = e at h
  cases h with
  | unregistered entry_eq => exact entry_eq
  | raised entry_eq run_eq =>
    refine absurd ?_ (hforthright _ _ entry_eq args s name)
    rw [run_eq, he]

/-- **A run that fails with an unknown action has come to one that is not registered.** -/
theorem missing_of_unknown {steps : Nat} {action name : String} {args : List Value} {s t : σ}
    {events : List Event} (hforthright : engine.Forthright)
    (h : engine.cascade steps action args s = ⟨.failed (.unknownAction name), t, events⟩) :
    ∃ other, Relation.ReflTransGen engine.rulebook.LeadsTo action other ∧
      engine.actions.get? other = none := by
  obtain ⟨origin, hescapes⟩ := escapes_of_cascade h
  generalize Event.calls events = calls at hescapes
  generalize he : Failure.unknownAction name = e at hescapes
  cases hescapes with
  | firstCall unanswered =>
    subst he
    exact ⟨action, .refl, unanswered.unregistered_of_unknown hforthright⟩
  | @guard trace rule u v t matched reached before after line traces values calls last events'
      name' turn trigger_eq guards_eq before_eq args_eq unanswered =>
    refine ⟨line.action, turn.reaches ?_, unanswered.unregistered_of_unknown hforthright⟩
    rw [Rule.ownLines, guards_eq]
    simp
  | @consequence trace rule u v w t matched reached before after line guards traces calls last
      front back cause turn guard_eq consequences_eq before_eq refuses =>
    obtain rfl := Rule.eq_of_verdict_unknown he.symm
    obtain ⟨values, -, hunanswered⟩ := refuses.unanswered_of_unknown
    refine ⟨line.action, turn.reaches ?_, hunanswered.unregistered_of_unknown hforthright⟩
    rw [Rule.ownLines, consequences_eq]
    simp
  | cap => cases he

/-- Where no action is missing and the first one is registered, all that can be reached are. -/
theorem contains_of_reaches {action other : String} (hmissing : engine.missingActions = [])
    (haction : engine.actions.contains action = true)
    (h : Relation.ReflTransGen engine.rulebook.LeadsTo action other) :
    engine.actions.contains other = true := by
  rcases h.cases_tail with rfl | ⟨last, -, hleads⟩
  · exact haction
  · have hkept := List.filter_eq_nil_iff.mp hmissing other hleads.mentioned
    simpa using hkept

/-- **Only actions that can be reached are called.** Whatever the actions do, whichever guards are
abandoned, and however the run ends, the action of every call in it can be reached from the first
action. So if all of those are registered and no action fails as if it called for an unknown one,
the run does not fail with an unknown action; and this is so for every registered action if the
rules name no action that is missing. -/
theorem only_reachable_called (engine : Engine σ) (action : String) :
    (∀ steps args s, ∀ call ∈ Event.calls (engine.cascade steps action args s).events,
      Relation.ReflTransGen engine.rulebook.LeadsTo action call.1) ∧
    (engine.Forthright →
      (∀ other, Relation.ReflTransGen engine.rulebook.LeadsTo action other →
        engine.actions.contains other = true) →
      ∀ steps args s name,
        (engine.cascade steps action args s).ending ≠ .failed (.unknownAction name)) ∧
    (engine.Forthright → engine.missingActions = [] → engine.actions.contains action = true →
      ∀ steps args s name,
        (engine.cascade steps action args s).ending ≠ .failed (.unknownAction name)) := by
  have hnever (hforthright : engine.Forthright)
      (hregistered : ∀ other, Relation.ReflTransGen engine.rulebook.LeadsTo action other →
        engine.actions.contains other = true) (steps : Nat) (args : List Value) (s : σ)
      (name : String) :
      (engine.cascade steps action args s).ending ≠ .failed (.unknownAction name) := by
    intro hending
    rcases hrun : engine.cascade steps action args s with ⟨ending, t, events⟩
    rw [hrun] at hending
    obtain rfl : ending = _ := hending
    obtain ⟨other, hreaches, hnone⟩ := missing_of_unknown hforthright hrun
    obtain ⟨entry, hentry⟩ := Registry.contains_iff.mp (hregistered other hreaches)
    cases hnone.symm.trans hentry
  refine ⟨fun _ _ _ => reaches_of_cascade, hnever, ?_⟩
  intro hforthright hmissing haction
  exact hnever hforthright fun _ => contains_of_reaches hmissing haction

/-- Two actions that set off each other, and a rule that nothing sets off and that names an action
which is not registered. -/
def secluded : Engine Nat where
  rulebook := .ofRules [
    ⟨⟨"A.a", [], none⟩, [⟨"B.b", [], some [.lit (.bool false)]⟩], [⟨"A.a", [], none⟩], 1⟩,
    ⟨⟨"B.b", [], none⟩, [], [⟨"A.a", [], none⟩], 5⟩,
    ⟨⟨"C.c", [], none⟩, [], [⟨"D.d", [], none⟩], 8⟩]
  actions := yesToBoth
  cap := some 5

theorem only_reachable_called_secluded :
    "D.d" ∈ secluded.missingActions ∧
    (∀ steps args s name,
      (secluded.cascade steps "A.a" args s).ending ≠ .failed (.unknownAction name)) ∧
    (∀ steps args s name,
      ((repeating yes).cascade steps "A.a" args s).ending ≠ .failed (.unknownAction name)) := by
  have hyes (args : List Value) (s : Nat) (name : String) :
      (yes args s).1 ≠ .error (.unknownAction name) := by simp [yes]
  have hsecluded : secluded.Forthright := by
    intro action entry hentry
    have hmem := Keyed.mem_of_get? hentry
    rcases List.mem_cons.mp hmem with heq | hmem
    · cases heq
      exact hyes
    · cases List.mem_singleton.mp hmem
      exact hyes
  have hrepeating : (repeating yes).Forthright := by
    intro action entry hentry
    cases List.mem_singleton.mp (Keyed.mem_of_get? hentry)
    exact hyes
  have hreaches : ∀ other, Relation.ReflTransGen secluded.rulebook.LeadsTo "A.a" other →
      other ∈ ["A.a", "B.b"] := by
    intro other h
    induction h with
    | refl => decide
    | @tail x y hpath hstep ih =>
      clear hpath
      obtain ⟨rule, hrule, rfl, line, hline, rfl⟩ := Rulebook.leadsTo_iff.mp hstep
      clear hstep
      revert rule line
      decide
  have hregistered : ∀ other ∈ ["A.a", "B.b"], secluded.actions.contains other = true := by decide
  have hmissing : "D.d" ∈ secluded.missingActions := by
    have hleads : secluded.rulebook.LeadsTo "C.c" "D.d" := by
      rw [Rulebook.LeadsTo]
      decide
    exact List.mem_filter.mpr ⟨hleads.mentioned, by decide⟩
  refine ⟨hmissing, ?_, ?_⟩
  · exact (only_reachable_called secluded "A.a").2.1 hsecluded fun other hother =>
      hregistered other (hreaches other hother)
  · exact (only_reachable_called (repeating yes) "A.a").2.2 hrepeating (by decide +kernel) rfl

end Engine

end Synchrony
