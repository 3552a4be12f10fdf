import Synchrony.Proofs.Engine.Cap

/-!
# The cost of a run

Rules without cycles make runs that end. The loop extends the list that it walks through, so nothing
in its text gets smaller; what gets smaller is the sum of the costs of the pending actions, since a
reaction takes one action from the list and adds at most what that action leads to
(`Engine.Affords.reacts`). That sum bounds the number of reactions.

The number of calls is bounded by a sum that never grows (`Engine.Affords`): the calls made so far,
and what the pending actions may still lead to. A rule that fires turns a part of the second into
calls and pending actions, line by line. A rule that is declined makes no more calls than it has
lines and leaves nothing to react to. So the bound holds whichever rules fire, and for runs that
fail as well as for those that return.
-/

set_option autoImplicit false

namespace Synchrony

/-! ## One reaction -/

theorem Outcome.length_traces_le (outcome : Outcome) :
    outcome.traces.length ≤ outcome.calls.length := by
  cases outcome with
  | fired guards consequences => simp [traces, calls]
  | declined made reason => exact Nat.zero_le _

/-- Whatever comes of trying a rule, its calls and what its traces may lead to are paid for by the
costs of its lines. -/
theorem Outcome.Follows.affords {rulebook : Rulebook} {rule : Rule} {outcome : Outcome}
    (h : outcome.Follows rule)
    (hacyclic : ∀ line ∈ rule.ownLines, rulebook.AcyclicFrom line.action) :
    outcome.calls.length + rulebook.dueAll (outcome.traces.map Trace.action) ≤
      rulebook.costAll (rule.ownLines.map Line.action) := by
  cases outcome with
  | fired guards consequences =>
    -- One call and one pending trace for each line: nothing is left over.
    have hactions : (guards ++ consequences).map Trace.action =
        rule.ownLines.map Line.action := by
      rw [List.map_append, h.1, h.2, ← List.map_append]
      rfl
    have hcost := rulebook.costAll_eq (List.forall_mem_map.mpr hacyclic)
    have hlength := congrArg List.length hactions
    rw [List.length_map] at hlength
    rw [hcost, ← hlength, ← hactions, calls, traces, List.length_map]
  | declined made reason =>
    -- Calls of guards only, and nothing to react to.
    have hcalls := h.calls_prefix.length_le
    have hlines := rulebook.length_le_costAll (rule.ownLines.map Line.action)
    rw [List.length_map] at hcalls
    exact Nat.le_trans hcalls hlines

namespace Engine

variable {σ : Type} {engine : Engine σ}

theorem affords_of_attempts {rulebook : Rulebook} {attempts : List Attempt}
    (hfollows : ∀ attempt ∈ attempts, attempt.outcome.Follows attempt.rule)
    (hacyclic : ∀ attempt ∈ attempts, ∀ line ∈ attempt.rule.ownLines,
      rulebook.AcyclicFrom line.action) :
    (attempts.flatMap fun a => a.outcome.calls).length +
        rulebook.dueAll ((attempts.flatMap fun a => a.outcome.traces).map Trace.action) ≤
      rulebook.costAll ((attempts.flatMap fun a => a.rule.ownLines).map Line.action) := by
  induction attempts with
  | nil => exact Nat.le_refl 0
  | cons attempt rest ih =>
    obtain ⟨hfirst, hrest⟩ := List.forall_mem_cons.mp hfollows
    obtain ⟨hcycle, hcycles⟩ := List.forall_mem_cons.mp hacyclic
    have haffords := hfirst.affords hcycle
    have hmore := ih hrest hcycles
    simp only [List.flatMap_cons, List.map_append, List.length_append,
      Rulebook.dueAll_append, Rulebook.costAll_append]
    omega

/-- A reaction is paid for by what its action leads to, and the traces that come of it are fewer
than its calls. -/
theorem affords_of_react {trace : Trace} {batch : List Trace} {s t : σ} {events : List Event}
    (hacyclic : engine.rulebook.AcyclicFrom trace.action)
    (h : engine.react trace s = ⟨.returned batch, t, events⟩) :
    (∀ next ∈ batch, engine.rulebook.AcyclicFrom next.action) ∧
      batch.length ≤ (Event.calls events).length ∧
      (Event.calls events).length + engine.rulebook.dueAll (batch.map Trace.action) ≤
        engine.rulebook.costAll (engine.rulebook.leads trace.action) := by
  have hbatch {next : Trace} (hnext : next ∈ batch) := leadsTo_of_react h hnext
  obtain ⟨attempts, hoccasions, hattempted, rfl, rfl⟩ := applyRules_returned 0 h
  have hrules := rules_of_occasions hoccasions
  have hlines : attempts.flatMap (fun a => a.rule.ownLines) =
      (engine.rulebook.under trace.action).flatMap Rule.ownLines := by
    rw [← hrules, List.flatMap_map]
  have hline : ∀ attempt ∈ attempts, ∀ line ∈ attempt.rule.ownLines,
      engine.rulebook.AcyclicFrom line.action := by
    intro attempt hattempt line hline
    refine hacyclic.leadsTo ?_
    rw [Rulebook.LeadsTo, Rulebook.leads_eq, ← hlines]
    exact List.mem_map_of_mem (List.mem_flatMap.mpr ⟨attempt, hattempt, hline⟩)
  refine ⟨?_, ?_, ?_⟩
  · intro next hnext
    exact hacyclic.leadsTo (hbatch hnext)
  · rw [calls_of_attempts, List.length_flatMap, List.length_flatMap]
    exact List.sum_le_sum fun attempt _ => attempt.outcome.length_traces_le
  · rw [calls_of_attempts, Rulebook.leads_eq, ← hlines]
    exact affords_of_attempts hattempted.follows hline

theorem affords_of_react_failed {trace : Trace} {e : Failure} {s t : σ} {events : List Event}
    (h : engine.react trace s = ⟨.failed e, t, events⟩) :
    (Event.calls events).length ≤
      engine.rulebook.costAll (engine.rulebook.leads trace.action) := by
  have hcalls := (engine.react_calls trace s).length_le
  rw [h, List.length_map] at hcalls
  exact hcalls.trans (Rulebook.length_le_costAll _)

/-! ## Whole runs -/

variable (engine) in
/-- A budget for the calls of a run covers those made up to a stage and those still to come. -/
structure Affords (budget : Nat) (stage : Stage σ) : Prop where
  acyclic : ∀ trace ∈ stage.pending, engine.rulebook.AcyclicFrom trace.action
  covers : (Event.calls stage.events).length +
    engine.rulebook.dueAll (stage.pending.map Trace.action) ≤ budget

variable {budget : Nat} {stage next : Stage σ}

/-- **A reaction keeps to the budget, and less is pending afterwards.** -/
theorem Affords.reacts (h : engine.Affords budget stage) (hreacts : engine.Reacts stage next) :
    engine.Affords budget next ∧
      engine.rulebook.costAll (next.pending.map Trace.action) <
        engine.rulebook.costAll (stage.pending.map Trace.action) := by
  cases hreacts with
  | @intro settled pending batch trace s t events more react_eq =>
    obtain ⟨htrace, hpending⟩ := List.forall_mem_cons.mp h.acyclic
    obtain ⟨hbatch, hlength, haffords⟩ := affords_of_react htrace react_eq
    have hcovers := h.covers
    have hcost := engine.rulebook.costAll_eq (List.forall_mem_map.mpr hbatch)
    simp only [List.map_cons, Rulebook.dueAll_cons, List.length_map] at hcovers hcost
    refine ⟨⟨?_, ?_⟩, ?_⟩
    · exact List.forall_mem_append.mpr ⟨hpending, hbatch⟩
    · simp only [Event.calls_append, List.length_append, List.map_append,
        Rulebook.dueAll_append]
      omega
    · simp only [List.map_append, List.map_cons, Rulebook.costAll_append,
        Rulebook.costAll_cons, Rulebook.cost_eq htrace]
      omega

theorem Affords.halts {run : Run σ (List Trace)} (h : engine.Affords budget stage)
    (hhalts : engine.Halts stage run) : (Event.calls run.events).length ≤ budget := by
  cases hhalts with
  | @intro settled pending trace s t e events more react_eq =>
    have hmore := affords_of_react_failed react_eq
    have hcovers := h.covers
    simp only [List.map_cons, Rulebook.dueAll_cons] at hcovers
    rw [Event.calls_append, List.length_append]
    omega

/-- A loop within a budget ends when it may take as many steps as its pending actions cost. -/
theorem Affords.resume {steps : Nat} (h : engine.Affords budget stage)
    (hsteps : engine.rulebook.costAll (stage.pending.map Trace.action) ≤ steps) :
    (engine.uncapped.resume steps stage).ending ≠ .unfinished ∧
      (Event.calls (engine.uncapped.resume steps stage).events).length ≤ budget := by
  induction steps generalizing stage with
  | zero =>
    -- Whatever is pending costs something.
    have hpending : stage.pending = [] := by
      have hlength := engine.rulebook.length_le_costAll (stage.pending.map Trace.action)
      rw [List.length_map] at hlength
      exact List.eq_nil_of_length_eq_zero (by omega)
    rw [resume_of_pending_nil _ hpending]
    exact ⟨by simp, (Nat.le_add_right _ _).trans h.covers⟩
  | succ steps ih =>
    rcases engine.stage_cases stage with hpending | ⟨next, hreacts⟩ | ⟨run, hhalts⟩
    · rw [resume_of_pending_nil _ hpending]
      exact ⟨by simp, (Nat.le_add_right _ _).trans h.covers⟩
    · obtain ⟨hnext, hless⟩ := h.reacts hreacts
      rw [resume_uncapped_of_reacts steps hreacts]
      exact ih hnext (by omega)
    · have hcalls := h.halts hhalts
      rw [← halts_withCap none] at hhalts
      rw [resume_of_halts steps hhalts]
      refine ⟨?_, hcalls⟩
      cases hhalts
      simp

/-- **Rules without cycles make runs that end, within a bound that the rules alone tell.** Where no
cycle can be reached from an action, its cost is one and the costs of all it leads to, and every
uncapped run that starts with a call of it ends after at most so many calls, whatever the actions
do, and whatever rules fire. -/
theorem acyclic_ends_within_cost (engine : Engine σ) {action : String}
    (h : engine.rulebook.AcyclicFrom action) (args : List Value) (s : σ) :
    (∀ other, Relation.ReflTransGen engine.rulebook.LeadsTo action other →
      engine.rulebook.cost other =
        1 + ((engine.rulebook.leads other).map engine.rulebook.cost).sum) ∧
    ∃ run, engine.uncapped.Ends action args s run ∧
      (Event.calls run.events).length ≤ engine.rulebook.cost action := by
  refine ⟨fun other hother => Rulebook.cost_eq fun last hlast => h last (hother.trans hlast), ?_⟩
  have hcost := Rulebook.cost_eq h
  rcases (engine.call_finishes action args).cases s with
    ⟨first, t, events, hcall⟩ | ⟨e, t, events, hcall⟩
  · obtain ⟨haction, -, rfl⟩ := call_returned hcall
    have haffords : engine.Affords (engine.rulebook.cost action)
        ⟨[], [first], t, [Event.ofCall first.call]⟩ := by
      refine ⟨?_, ?_⟩
      · intro trace hmem
        rw [List.mem_singleton.mp hmem, haction]
        exact h
      · rw [hcost]
        simp [haction, Event.calls_cons_ofCall]
    obtain ⟨steps, hsteps⟩ : ∃ steps, engine.rulebook.costAll [first.action] ≤ steps :=
      ⟨_, Nat.le_refl _⟩
    obtain ⟨hne, hcalls⟩ := haffords.resume hsteps
    refine ⟨_, ⟨?_, steps, cascade_withCap_of_returned none steps hcall⟩, ?_⟩
    · exact fun hu => hne (concluded_unfinished_iff.mp hu)
    · rw [calls_concluded]
      exact hcalls
  · refine ⟨_, ⟨by simp, 0, cascade_withCap_of_failed none 0 hcall⟩, ?_⟩
    have hevents := engine.call_events action args s
    rw [hcall] at hevents
    rcases hevents with rfl | rfl
    · exact Nat.zero_le _
    · exact engine.rulebook.cost_pos action

/-- Rules that call the same action on two ways, and actions that all answer yes. -/
def diamond : Engine Nat where
  rulebook := .ofRules [
    ⟨⟨"A.a", [], none⟩, [⟨"B.b", [], none⟩], [⟨"C.c", [], none⟩], 1⟩,
    ⟨⟨"B.b", [], none⟩, [], [⟨"D.d", [], none⟩], 5⟩,
    ⟨⟨"C.c", [], none⟩, [], [⟨"D.d", [], none⟩], 8⟩]
  actions := ⟨[("A.a", yes), ("B.b", yes), ("C.c", yes), ("D.d", yes)], by decide⟩

theorem diamond_acyclic : diamond.rulebook.AcyclicFrom "A.a" := by
  refine Rulebook.acyclicFrom_of_rank _
    (fun action => if action = "A.a" then 2 else if action = "D.d" then 0 else 1) ?_
  intro x y h
  obtain ⟨rule, hrule, rfl, line, hline, rfl⟩ := Rulebook.leadsTo_iff.mp h
  clear h
  revert line
  revert rule
  decide

theorem acyclic_ends_within_cost_diamond :
    diamond.rulebook.cost "A.a" = 5 ∧
    (∀ other, Relation.ReflTransGen diamond.rulebook.LeadsTo "A.a" other →
      diamond.rulebook.cost other =
        1 + ((diamond.rulebook.leads other).map diamond.rulebook.cost).sum) ∧
    ∃ run, diamond.uncapped.Ends "A.a" [] 0 run ∧
      (Event.calls run.events).length ≤ diamond.rulebook.cost "A.a" :=
  ⟨by decide, acyclic_ends_within_cost diamond diamond_acyclic [] 0⟩

end Engine

end Synchrony
