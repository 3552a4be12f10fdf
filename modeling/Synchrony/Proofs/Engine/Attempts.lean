import Synchrony.Proofs.Engine.Lines
import Synchrony.Proofs.Rule.Graph

/-!
# Attempts

A run consists of attempts to apply a rule to a trace, made one after the other. An attempt ends
with an outcome (`Engine.Tries`) or breaks the run (`Engine.Breaks`), and nothing else can come of
it (`Engine.applyRule_cases`). A reaction to a trace is one attempt for each rule that the trace
sets off, in order, up to the first that breaks the run (`Engine.applyRules_returned`,
`Engine.applyRules_failed`).

## 1. What an outcome says

An outcome keeps the traces that the attempt adds to the history and the calls that it made. For a
rule that fired these are the same calls; for a rule that was declined there are no traces, and the
calls are those of its guards up to the one that failed. The events of an attempt are told by its
outcome alone (`Outcome.events`).

## 2. Occasions

A rule is tried on a trace because of the trace's place in the history, not because of what the
trace says: two traces that are equal set off their rules twice. So an attempt belongs to an
**occasion**, which is a place, the trace there, and one of the rules under the trace's action.
-/

set_option autoImplicit false

namespace Synchrony

/-- What came of trying to apply a rule to a trace. -/
inductive Outcome where
  /-- The rule applied. These are the traces of its guards and of its consequences. -/
  | fired (guards consequences : List Trace)
  /-- The rule did not apply. These are the calls its guards made, and why they failed. -/
  | declined (calls : List (String × List Value)) (reason : Failure)
  deriving Repr

namespace Outcome

def traces : Outcome → List Trace
  | fired guards consequences => guards ++ consequences
  | declined _ _ => []

def calls : Outcome → List (String × List Value)
  | fired guards consequences => (guards ++ consequences).map Trace.call
  | declined calls _ => calls

/-- The events of an attempt to apply a rule. -/
def events (rule : Rule) : Outcome → List Event
  | fired guards consequences =>
    (guards.map Trace.call).map Event.ofCall ++
      .fired rule :: (consequences.map Trace.call).map Event.ofCall
  | declined calls reason => calls.map Event.ofCall ++ [.declined rule reason]

/-- What an outcome owes to the lines of the rule: a rule that fires has made one trace for each
line it performs itself, in order, and a rule that is declined has called guards only. -/
def Follows (rule : Rule) : Outcome → Prop
  | fired guards consequences =>
    guards.map Trace.action = rule.guards.map Line.action ∧
      consequences.map Trace.action = rule.consequences.map Line.action
  | declined calls _ => calls.map Prod.fst <+: rule.guards.map Line.action

@[simp] theorem calls_events (rule : Rule) (outcome : Outcome) :
    Event.calls (outcome.events rule) = outcome.calls := by
  cases outcome with
  | fired guards consequences =>
    rw [events, Event.calls_append, Event.calls_cons_fired, Event.calls_map_ofCall,
      Event.calls_map_ofCall, calls, List.map_append]
  | declined made reason =>
    rw [events, Event.calls_append, Event.calls_map_ofCall]
    exact List.append_nil made

/-- Whatever the outcome, the actions called are those of the rule's own lines from the front. -/
theorem Follows.calls_prefix {rule : Rule} {outcome : Outcome} (h : outcome.Follows rule) :
    outcome.calls.map Prod.fst <+: rule.ownLines.map Line.action := by
  rw [Rule.ownLines, List.map_append]
  cases outcome with
  | fired guards consequences =>
    obtain ⟨hguards, hconsequences⟩ := h
    rw [calls, List.map_map, List.map_append, ← hguards, ← hconsequences]
    exact List.prefix_refl _
  | declined made reason => exact List.IsPrefix.trans h (List.prefix_append _ _)

theorem Follows.mem_traces {rule : Rule} {outcome : Outcome} {trace : Trace}
    (h : outcome.Follows rule) (hmem : trace ∈ outcome.traces) :
    ∃ line ∈ rule.ownLines, line.action = trace.action := by
  cases outcome with
  | fired guards consequences =>
    have hactions : trace.action ∈ rule.ownLines.map Line.action := by
      rw [Rule.ownLines, List.map_append, ← h.1, ← h.2, ← List.map_append]
      exact List.mem_map_of_mem hmem
    exact List.mem_map.mp hactions
  | declined made reason => exact absurd hmem List.not_mem_nil

end Outcome

/-- A place in a history, the trace there, and a rule to try on it. -/
structure Occasion where
  place : Nat
  trace : Trace
  rule : Rule

/-- What came of an occasion. -/
structure Attempt extends Occasion where
  outcome : Outcome

namespace Attempt

def events (attempt : Attempt) : List Event :=
  attempt.outcome.events attempt.rule

end Attempt

namespace Engine

variable {σ : Type}

/-! ## Guards -/

theorem guard_finishes (engine : Engine σ) (rule : Rule) (trace : Trace) :
    Act.Finishes (engine.guard rule trace) :=
  .bind (.ofExcept _) fun _ => engine.performAll_finishes _ _

theorem guard_of_fit (engine : Engine σ) {rule : Rule} {trace : Trace} {bindings : Bindings} (s : σ)
    (hfit : Bindings.empty.fitTrace trace rule.trigger = (none, bindings)) :
    engine.guard rule trace s = engine.performAll rule.guards bindings s := by
  simp only [guard, fitted, hfit, Act.ofExcept_ok, pure_bind]

theorem guard_of_misfit (engine : Engine σ) {rule : Rule} {trace : Trace} {e : Failure}
    {after : Bindings} (s : σ)
    (hfit : Bindings.empty.fitTrace trace rule.trigger = (some e, after)) :
    engine.guard rule trace s = ⟨.failed e, s, []⟩ := by
  simp only [guard, fitted, hfit, Act.ofExcept_error, Act.fail_bind, Act.fail_apply]

theorem guard_returned {engine : Engine σ} {rule : Rule} {trace : Trace} {bindings : Bindings}
    {traces : List Trace} {s t : σ} {events : List Event}
    (h : engine.guard rule trace s = ⟨.returned (bindings, traces), t, events⟩) :
    traces.map Trace.action = rule.guards.map Line.action ∧
      events = (traces.map Trace.call).map Event.ofCall := by
  obtain ⟨matched, u, front, back, hfit, hguards, rfl⟩ := Act.bind_returned h
  obtain ⟨-, rfl, rfl⟩ := Act.ofExcept_returned hfit
  exact performAll_returned hguards

/-- However guards end, their events are calls, of their actions from the front. -/
theorem guard_events {engine : Engine σ} {rule : Rule} {trace : Trace} {s t : σ}
    {ending : Ending (Bindings × List Trace)} {events : List Event}
    (h : engine.guard rule trace s = ⟨ending, t, events⟩) :
    events = (Event.calls events).map Event.ofCall ∧
      (Event.calls events).map Prod.fst <+: rule.guards.map Line.action := by
  rcases hfit : fitted .empty trace rule.trigger with e | matched
  · rw [guard, hfit, Act.ofExcept_error, Act.fail_bind, Act.fail_apply] at h
    cases h
    exact ⟨rfl, List.nil_prefix⟩
  · rw [guard, hfit, Act.ofExcept_ok, pure_bind] at h
    exact performAll_events h

/-! ## One attempt -/

variable (engine : Engine σ)

/-- An attempt that does not break the run, from one state to the next. -/
inductive Tries (rule : Rule) (trace : Trace) (s : σ) : Outcome → σ → Prop
  | fired {bindings after : Bindings} {guards consequences : List Trace} {u t : σ}
    {front back : List Event}
    (guard_eq : engine.guard rule trace s = ⟨.returned (bindings, guards), u, front⟩)
    (lines_eq : engine.performAll rule.consequences bindings u =
      ⟨.returned (after, consequences), t, back⟩) :
    Tries rule trace s (.fired guards consequences) t
  | declined {reason : Failure} {t : σ} {events : List Event}
    (guard_eq : engine.guard rule trace s = ⟨.failed reason, t, events⟩)
    (soft : reason.isUnknownAction = false) :
    Tries rule trace s (.declined (Event.calls events) reason) t

/-- An attempt that breaks the run. -/
inductive Breaks (rule : Rule) (trace : Trace) (s : σ) : Run σ (List Trace) → Prop
  /-- A guard met an action that is not registered. -/
  | guard {e : Failure} {t : σ} {events : List Event}
    (guard_eq : engine.guard rule trace s = ⟨.failed e, t, events⟩)
    (hard : e.isUnknownAction = true) :
    Breaks rule trace s ⟨.failed e, t, events⟩
  /-- A consequence failed. -/
  | consequence {bindings : Bindings} {guards : List Trace} {e : Failure} {line : Line}
    {u t : σ} {front back : List Event}
    (guard_eq : engine.guard rule trace s = ⟨.returned (bindings, guards), u, front⟩)
    (fails : engine.FailsAt rule.consequences bindings u line ⟨.failed e, t, back⟩) :
    Breaks rule trace s ⟨.failed (rule.verdict line e), t,
      front ++ .fired rule :: (back ++ rule.complaints line e)⟩

variable {engine}

theorem applyRule_of_guard_returned {rule : Rule} {trace : Trace} {bindings : Bindings}
    {guards : List Trace} {s u : σ} {front : List Event}
    (hguard : engine.guard rule trace s = ⟨.returned (bindings, guards), u, front⟩) :
    engine.applyRule rule trace s =
      ((engine.enforceAll rule rule.consequences bindings >>= fun more => pure (guards ++ more))
        u).behind (front ++ [.fired rule]) := by
  rw [applyRule, Act.bind_run_returned _ (Act.attempt_of_returned hguard)]
  dsimp only
  rw [Act.bind_run_returned _ (Act.emit_apply _ u), Run.behind_behind]

theorem applyRule_of_declined {rule : Rule} {trace : Trace} {reason : Failure} {s t : σ}
    {events : List Event} (hguard : engine.guard rule trace s = ⟨.failed reason, t, events⟩)
    (hsoft : reason.isUnknownAction = false) :
    engine.applyRule rule trace s = ⟨.returned [], t, events ++ [.declined rule reason]⟩ := by
  rw [applyRule, Act.bind_run_returned _ (Act.attempt_of_failed hguard)]
  simp only [hsoft, Bool.false_eq_true, if_false]
  rw [Act.bind_run_returned _ (Act.emit_apply _ t)]
  rfl

/-- What an attempt that does not break the run does. -/
theorem Tries.applyRule {rule : Rule} {trace : Trace} {outcome : Outcome} {s t : σ}
    (h : engine.Tries rule trace s outcome t) :
    engine.applyRule rule trace s = ⟨.returned outcome.traces, t, outcome.events rule⟩ := by
  cases h with
  | fired guard_eq lines_eq =>
    obtain ⟨-, rfl⟩ := guard_returned guard_eq
    obtain ⟨-, rfl⟩ := performAll_returned lines_eq
    rw [applyRule_of_guard_returned guard_eq,
      Act.bind_run_returned _ (enforceAll_of_returned rule lines_eq)]
    simp [Outcome.traces, Outcome.events]
  | declined guard_eq soft =>
    rw [applyRule_of_declined guard_eq soft, Outcome.events, ← (guard_events guard_eq).1]
    rfl

/-- What an attempt that breaks the run does. -/
theorem Breaks.applyRule {rule : Rule} {trace : Trace} {s : σ} {run : Run σ (List Trace)}
    (h : engine.Breaks rule trace s run) : engine.applyRule rule trace s = run := by
  cases h with
  | guard guard_eq hard =>
    rw [Engine.applyRule, Act.bind_run_returned _ (Act.attempt_of_failed guard_eq)]
    simp [hard]
  | consequence guard_eq fails =>
    rw [applyRule_of_guard_returned guard_eq,
      Act.bind_run_failed _ (enforceAll_of_failsAt rule fails)]
    simp

variable (engine)

/-- **Everything that an attempt can come to.** -/
theorem applyRule_cases (rule : Rule) (trace : Trace) (s : σ) :
    (∃ outcome t, engine.Tries rule trace s outcome t ∧
      engine.applyRule rule trace s = ⟨.returned outcome.traces, t, outcome.events rule⟩) ∨
    engine.Breaks rule trace s (engine.applyRule rule trace s) := by
  have htried {outcome : Outcome} {t : σ} (h : engine.Tries rule trace s outcome t) :
      ∃ outcome t, engine.Tries rule trace s outcome t ∧
        engine.applyRule rule trace s = ⟨.returned outcome.traces, t, outcome.events rule⟩ :=
    ⟨outcome, t, h, h.applyRule⟩
  have hbroken {run : Run σ (List Trace)} (h : engine.Breaks rule trace s run) :
      engine.Breaks rule trace s (engine.applyRule rule trace s) := by
    rwa [h.applyRule]
  rcases (engine.guard_finishes rule trace).cases s with
    ⟨⟨bindings, guards⟩, u, front, hguard⟩ | ⟨e, u, front, hguard⟩
  · rcases (engine.performAll_finishes rule.consequences bindings).cases u with
      ⟨⟨after, consequences⟩, t, back, hlines⟩ | ⟨e, t, back, hlines⟩
    · exact Or.inl (htried (.fired hguard hlines))
    · obtain ⟨line, hfails⟩ := performAll_failed hlines
      exact Or.inr (hbroken (.consequence hguard hfails))
  · -- An action that is not registered is the one failure of a guard that is not caught.
    cases hunknown : e.isUnknownAction with
    | true => exact Or.inr (hbroken (.guard hguard hunknown))
    | false => exact Or.inl (htried (.declined hguard hunknown))

variable {engine}

theorem Tries.follows {rule : Rule} {trace : Trace} {s t : σ} {outcome : Outcome}
    (h : engine.Tries rule trace s outcome t) : outcome.Follows rule := by
  cases h with
  | fired guard_eq lines_eq =>
    exact ⟨(guard_returned guard_eq).1, (performAll_returned lines_eq).1⟩
  | declined guard_eq soft => exact (guard_events guard_eq).2

/-- An attempt whose guards fail makes their calls and no others. -/
theorem calls_of_guard_failed {rule : Rule} {trace : Trace} {s t : σ} {e : Failure}
    {events : List Event} (hguard : engine.guard rule trace s = ⟨.failed e, t, events⟩) :
    Event.calls (engine.applyRule rule trace s).events = Event.calls events := by
  cases hunknown : e.isUnknownAction with
  | true => rw [(Breaks.guard hguard hunknown).applyRule]
  | false =>
    rw [(Tries.declined hguard hunknown).applyRule, Outcome.calls_events]
    rfl

/-- The calls of an attempt that a consequence broke are those of its guards and consequences. -/
theorem calls_of_broken (rule : Rule) (line : Line) (e : Failure) (front back : List Event) :
    Event.calls (front ++ .fired rule :: (back ++ rule.complaints line e)) =
      Event.calls front ++ Event.calls back := by
  rw [Event.calls_append, Event.calls_cons_fired, Event.calls_append, Rule.calls_complaints,
    List.append_nil]

theorem Breaks.calls_prefix {rule : Rule} {trace : Trace} {s : σ} {run : Run σ (List Trace)}
    (h : engine.Breaks rule trace s run) :
    (Event.calls run.events).map Prod.fst <+: rule.ownLines.map Line.action := by
  rw [Rule.ownLines, List.map_append]
  cases h with
  | guard guard_eq hard => exact (guard_events guard_eq).2.trans (List.prefix_append _ _)
  | consequence guard_eq fails =>
    obtain ⟨hguards, rfl⟩ := guard_returned guard_eq
    rw [calls_of_broken, Event.calls_map_ofCall, List.map_append, List.map_map, ← hguards]
    exact (List.prefix_append_right_inj _).mpr (performAll_events fails.performAll).2

/-! ## Reactions -/

variable (engine)

/-- Attempts made one after the other, from one state to the next. -/
def Attempted : List Attempt → σ → σ → Prop
  | [], s, t => s = t
  | attempt :: rest, s, t =>
    ∃ u, engine.Tries attempt.rule attempt.trace s attempt.outcome u ∧ Attempted rest u t

variable {engine}

theorem Attempted.tries {attempts : List Attempt} {s t : σ} (h : engine.Attempted attempts s t) :
    ∀ attempt ∈ attempts, ∃ u v, engine.Tries attempt.rule attempt.trace u attempt.outcome v := by
  induction attempts generalizing s with
  | nil => exact fun attempt hmem => absurd hmem List.not_mem_nil
  | cons attempt rest ih =>
    obtain ⟨u, htry, hrest⟩ := h
    intro attempt' hmem
    rcases List.mem_cons.mp hmem with rfl | hmem
    · exact ⟨s, u, htry⟩
    · exact ih hrest attempt' hmem

theorem Attempted.follows {attempts : List Attempt} {s t : σ}
    (h : engine.Attempted attempts s t) :
    ∀ attempt ∈ attempts, attempt.outcome.Follows attempt.rule := by
  intro attempt hmem
  obtain ⟨u, v, htry⟩ := h.tries attempt hmem
  exact htry.follows

theorem rules_of_occasions {attempts : List Attempt} {rules : List Rule} {place : Nat}
    {trace : Trace}
    (h : attempts.map Attempt.toOccasion = rules.map fun rule => ⟨place, trace, rule⟩) :
    attempts.map (fun a => a.rule) = rules := by
  have hrules := congrArg (List.map Occasion.rule) h
  rw [List.map_map, List.map_map] at hrules
  exact hrules.trans (List.map_id _)

theorem Attempted.append {front back : List Attempt} {s u t : σ}
    (hfront : engine.Attempted front s u) (hback : engine.Attempted back u t) :
    engine.Attempted (front ++ back) s t := by
  induction front generalizing s with
  | nil => exact hfront ▸ hback
  | cons attempt rest ih =>
    obtain ⟨v, htry, hrest⟩ := hfront
    exact ⟨v, htry, ih hrest⟩

theorem calls_of_attempts (attempts : List Attempt) :
    Event.calls (attempts.flatMap Attempt.events) =
      attempts.flatMap fun a => a.outcome.calls := by
  induction attempts with
  | nil => rfl
  | cons attempt rest ih =>
    rw [List.flatMap_cons, Event.calls_append, ih, List.flatMap_cons, Attempt.events,
      Outcome.calls_events]

/-- Rules that are applied without breaking the run were tried once each, in order. -/
theorem applyRules_returned {trace : Trace} {rules : List Rule} {batch : List Trace} {s t : σ}
    {events : List Event} (place : Nat)
    (h : engine.applyRules trace rules s = ⟨.returned batch, t, events⟩) :
    ∃ attempts : List Attempt,
      attempts.map Attempt.toOccasion = rules.map (fun rule => ⟨place, trace, rule⟩) ∧
      engine.Attempted attempts s t ∧
      batch = attempts.flatMap (fun attempt => attempt.outcome.traces) ∧
      events = attempts.flatMap Attempt.events := by
  induction rules generalizing batch s t events with
  | nil =>
    obtain ⟨hreturned, rfl, rfl⟩ := Act.pure_run h
    cases hreturned
    exact ⟨[], rfl, rfl, rfl, rfl⟩
  | cons rule rules ih =>
    obtain ⟨traces, u, front, back, hrule, hrest, rfl⟩ := Act.bind_returned h
    obtain ⟨more, v, back', tail, hrules, hpure, rfl⟩ := Act.bind_returned hrest
    obtain ⟨hreturned, rfl, rfl⟩ := Act.pure_run hpure
    cases hreturned
    obtain ⟨attempts, hoccasions, hattempted, rfl, rfl⟩ := ih hrules
    rcases engine.applyRule_cases rule trace s with ⟨outcome, w, htry, hrun⟩ | hbreaks
    · rw [hrule] at hrun
      cases hrun
      exact ⟨⟨⟨place, trace, rule⟩, outcome⟩ :: attempts, by simp [hoccasions],
        ⟨u, htry, hattempted⟩, rfl, by simp [Attempt.events]⟩
    · rw [hrule] at hbreaks
      cases hbreaks

/-- Rules whose application breaks the run were tried in order up to the one that broke it. -/
theorem applyRules_failed {trace : Trace} {rules : List Rule} {e : Failure} {s t : σ}
    {events : List Event} (place : Nat)
    (h : engine.applyRules trace rules s = ⟨.failed e, t, events⟩) :
    ∃ (done : List Rule) (rule : Rule) (rest : List Rule) (attempts : List Attempt) (u : σ)
      (last : List Event),
      rules = done ++ rule :: rest ∧
      attempts.map Attempt.toOccasion = done.map (fun rule => ⟨place, trace, rule⟩) ∧
      engine.Attempted attempts s u ∧
      engine.Breaks rule trace u ⟨.failed e, t, last⟩ ∧
      events = attempts.flatMap Attempt.events ++ last := by
  induction rules generalizing s t events with
  | nil =>
    obtain ⟨hfailed, -, -⟩ := Act.pure_run h
    cases hfailed
  | cons rule rules ih =>
    rcases Act.bind_failed h with ⟨traces, u, front, back, hrule, hrest, rfl⟩ | hrule
    · rcases Act.bind_failed hrest with ⟨more, v, back', tail, -, hpure, -⟩ | hrules
      · obtain ⟨hfailed, -, -⟩ := Act.pure_run hpure
        cases hfailed
      · obtain ⟨done, broken, rest, attempts, v, last, rfl, hoccasions, hattempted, hbreaks,
          rfl⟩ := ih hrules
        rcases engine.applyRule_cases rule trace s with ⟨outcome, w, htry, hrun⟩ | hbreaks'
        · rw [hrule] at hrun
          cases hrun
          exact ⟨rule :: done, broken, rest, ⟨⟨place, trace, rule⟩, outcome⟩ :: attempts, v,
            last, rfl, by simp [hoccasions], ⟨u, htry, hattempted⟩, hbreaks,
            by simp [Attempt.events]⟩
        · rw [hrule] at hbreaks'
          cases hbreaks'
    · rcases engine.applyRule_cases rule trace s with ⟨outcome, w, htry, hrun⟩ | hbreaks
      · rw [hrule] at hrun
        cases hrun
      · rw [hrule] at hbreaks
        exact ⟨[], rule, rules, [], s, events, rfl, rfl, rfl, hbreaks, rfl⟩

/-- Behind attempts at the rules before it, a rule that breaks the run does so. -/
theorem applyRules_of_breaks {trace : Trace} {place : Nat} {done rest : List Rule} {rule : Rule}
    {attempts : List Attempt} {s u t : σ} {e : Failure} {last : List Event}
    (hoccasions : attempts.map Attempt.toOccasion = done.map fun rule => ⟨place, trace, rule⟩)
    (hattempted : engine.Attempted attempts s u)
    (hbreaks : engine.Breaks rule trace u ⟨.failed e, t, last⟩) :
    ∃ events, engine.applyRules trace (done ++ rule :: rest) s = ⟨.failed e, t, events⟩ := by
  induction done generalizing attempts s with
  | nil =>
    cases List.map_eq_nil_iff.mp hoccasions
    obtain rfl : s = u := hattempted
    exact ⟨last, by rw [List.nil_append, applyRules, Act.bind_run_failed _ hbreaks.applyRule]⟩
  | cons first done ih =>
    cases attempts with
    | nil => cases hoccasions
    | cons attempt attempts =>
      obtain ⟨v, htry, hrest⟩ := hattempted
      rw [List.map_cons, List.map_cons, List.cons.injEq] at hoccasions
      rw [hoccasions.1] at htry
      obtain ⟨events, hrun⟩ := ih hoccasions.2 hrest
      refine ⟨attempt.outcome.events first ++ events, ?_⟩
      rw [List.cons_append, applyRules, Act.bind_run_returned _ htry.applyRule,
        Act.bind_run_failed _ hrun]
      rfl

theorem applyRules_finishes (engine : Engine σ) (trace : Trace) (rules : List Rule) :
    Act.Finishes (engine.applyRules trace rules) := by
  induction rules with
  | nil => exact .pure _
  | cons rule rules ih =>
    refine .bind ?_ fun _ => .bind ih fun _ => .pure _
    intro s hunfinished
    rcases engine.applyRule_cases rule trace s with ⟨outcome, t, -, hrun⟩ | hbreaks
    · rw [hrun] at hunfinished
      cases hunfinished
    · generalize engine.applyRule rule trace s = run at hbreaks hunfinished
      cases hbreaks <;> cases hunfinished

/-- What comes of applying rules is told by the actions: the rulebook and the cap have no say. -/
theorem applyRules_of_actions_eq {engine engine' : Engine σ}
    (h : engine'.actions = engine.actions) (trace : Trace) (rules : List Rule) :
    engine'.applyRules trace rules = engine.applyRules trace rules := by
  induction rules with
  | nil => rfl
  | cons rule rules ih =>
    simp only [applyRules, applyRule, guard, performAll_of_actions_eq h,
      enforceAll_of_actions_eq h, ih]

theorem react_finishes (engine : Engine σ) (trace : Trace) : Act.Finishes (engine.react trace) :=
  engine.applyRules_finishes trace _

/-! ## What a reaction calls -/

variable (engine)

/-- However an attempt ends, the actions called are those of the rule's own lines from the front. -/
theorem applyRule_calls (rule : Rule) (trace : Trace) (s : σ) :
    (Event.calls (engine.applyRule rule trace s).events).map Prod.fst <+:
      rule.ownLines.map Line.action := by
  rcases engine.applyRule_cases rule trace s with ⟨outcome, t, htry, hrun⟩ | hbreaks
  · rw [hrun, Outcome.calls_events]
    exact htry.follows.calls_prefix
  · exact hbreaks.calls_prefix

theorem applyRules_calls (trace : Trace) (rules : List Rule) (s : σ) :
    ((Event.calls (engine.applyRules trace rules s).events).map Prod.fst).Sublist
      ((rules.flatMap Rule.ownLines).map Line.action) := by
  induction rules generalizing s with
  | nil => exact List.nil_sublist _
  | cons rule rules ih =>
    have hrule := (engine.applyRule_calls rule trace s).sublist
    rw [applyRules, List.flatMap_cons, List.map_append]
    rcases hrun : engine.applyRule rule trace s with ⟨traces | e | _, t, events⟩
    · rw [hrun] at hrule
      have hrules := ih t
      rw [Act.bind_run_returned _ hrun]
      rcases (engine.applyRules_finishes trace rules).cases t with
        ⟨more, u, back, hmore⟩ | ⟨e, u, back, hmore⟩
      · rw [hmore] at hrules
        rw [Act.bind_run_returned _ hmore, Act.pure_apply, Run.behind_mk, Run.behind_mk,
          List.append_nil, Event.calls_append, List.map_append]
        exact hrule.append hrules
      · rw [hmore] at hrules
        rw [Act.bind_run_failed _ hmore, Run.behind_mk, Event.calls_append, List.map_append]
        exact hrule.append hrules
    · rw [hrun] at hrule
      rw [Act.bind_run_failed _ hrun]
      exact hrule.trans (List.sublist_append_left _ _)
    · rw [hrun] at hrule
      rw [Act.bind_run_unfinished _ hrun]
      exact hrule.trans (List.sublist_append_left _ _)

/-- **However a reaction ends, it calls what its action leads to**, each line once at most and in
order. -/
theorem react_calls (trace : Trace) (s : σ) :
    ((Event.calls (engine.react trace s).events).map Prod.fst).Sublist
      (engine.rulebook.leads trace.action) := by
  rw [Rulebook.leads_eq]
  exact engine.applyRules_calls trace _ s

variable {engine}

theorem leadsTo_of_react_calls {trace : Trace} {s : σ} {call : String × List Value}
    (h : call ∈ Event.calls (engine.react trace s).events) :
    engine.rulebook.LeadsTo trace.action call.1 :=
  (engine.react_calls trace s).subset (List.mem_map_of_mem h)

/-- Every trace that comes of a reaction is one of an attempt at a rule that the reaction tries. -/
theorem tries_of_react {trace next : Trace} {batch : List Trace} {s t : σ} {events : List Event}
    (h : engine.react trace s = ⟨.returned batch, t, events⟩) (hnext : next ∈ batch) :
    ∃ rule ∈ engine.rulebook.under trace.action, ∃ outcome u v,
      engine.Tries rule trace u outcome v ∧ next ∈ outcome.traces := by
  obtain ⟨attempts, hoccasions, hattempted, rfl, -⟩ := applyRules_returned 0 h
  obtain ⟨attempt, hattempt, hmem⟩ := List.mem_flatMap.mp hnext
  obtain ⟨u, v, htry⟩ := hattempted.tries attempt hattempt
  have hoccasion : attempt.toOccasion ∈ attempts.map Attempt.toOccasion :=
    List.mem_map_of_mem hattempt
  rw [hoccasions] at hoccasion
  obtain ⟨rule, hrule, heq⟩ := List.mem_map.mp hoccasion
  rw [← heq] at htry
  exact ⟨rule, hrule, attempt.outcome, u, v, htry, hmem⟩

theorem leadsTo_of_react {trace next : Trace} {batch : List Trace} {s t : σ}
    {events : List Event} (h : engine.react trace s = ⟨.returned batch, t, events⟩)
    (hnext : next ∈ batch) : engine.rulebook.LeadsTo trace.action next.action := by
  obtain ⟨rule, hrule, outcome, u, v, htry, hmem⟩ := tries_of_react h hnext
  obtain ⟨line, hline, haction⟩ := htry.follows.mem_traces hmem
  rw [← haction]
  exact Rulebook.leadsTo_of_under hrule hline

/-! ## What becomes of the state -/

variable (engine)

/-- An attempt leaves the state of its guards, if they fail, and otherwise the state that its
consequences leave. -/
theorem applyRule_state (rule : Rule) (trace : Trace) (s : σ) :
    (∃ e t events, engine.guard rule trace s = ⟨.failed e, t, events⟩ ∧
      (engine.applyRule rule trace s).state = t) ∨
    ∃ bindings guards t events,
      engine.guard rule trace s = ⟨.returned (bindings, guards), t, events⟩ ∧
      (engine.applyRule rule trace s).state =
        (engine.performAll rule.consequences bindings t).state := by
  rcases engine.applyRule_cases rule trace s with ⟨outcome, t, htry, hrun⟩ | hbreaks
  · rw [hrun]
    cases htry with
    | fired guard_eq lines_eq => exact Or.inr ⟨_, _, _, _, guard_eq, by rw [lines_eq]⟩
    | declined guard_eq soft => exact Or.inl ⟨_, _, _, guard_eq, rfl⟩
  · generalize engine.applyRule rule trace s = run at hbreaks ⊢
    cases hbreaks with
    | guard guard_eq hard => exact Or.inl ⟨_, _, _, guard_eq, rfl⟩
    | consequence guard_eq fails => exact Or.inr ⟨_, _, _, _, guard_eq, by rw [fails.performAll]⟩

/-- A reaction to a trace that sets off one rule is the attempt to apply it. -/
theorem react_single_state {rule : Rule} {trace : Trace}
    (h : engine.rulebook.under trace.action = [rule]) (s : σ) :
    (engine.react trace s).state = (engine.applyRule rule trace s).state := by
  rw [react, h, applyRules]
  rcases hrun : engine.applyRule rule trace s with ⟨traces | e | _, t, events⟩
  · rw [Act.bind_run_returned _ hrun]
    rfl
  · rw [Act.bind_run_failed _ hrun]
  · rw [Act.bind_run_unfinished _ hrun]

end Engine

end Synchrony
