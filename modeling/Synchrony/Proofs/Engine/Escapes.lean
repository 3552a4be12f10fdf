import Synchrony.Proofs.Engine.History

/-!
# What escapes a run

A run that fails has one of four origins (`Origin`): its first call, a guard that met an action
nobody answers for, a consequence, or the cap. Each origin says what led up to the failure, what
the failure is, and which calls were made (`Engine.Escapes`); the call that failed is the last.

## 1. Why the failure alone does not tell

Actions may raise any failure, those of the engine included, so a failure that speaks of the cap
may come from a consequence and one that speaks of a missing action from the first call. What tells
the origins apart is where the run stood. A run comes to one stage at which it can go no further,
there to one trace, and there to one rule (`Engine.Turn`), because reactions and attempts leave
no choice. So a failure has one origin and no more (`Engine.Escapes.unique`).

## 2. Soft failures

Between the beginning of a run and its failure, every rule was tried on every trace that came before
it, and whatever made a guard fail, the rules behind it had their turn. This is part of what it
means that it is the turn of a rule.
-/

set_option autoImplicit false

namespace Synchrony

/-- What fitting fails with: a mismatch, but none about a variable without a value, or the failure
of a mismatch that has no text. -/
inductive Failure.IsMisfit : Failure → Prop
  | mismatch {cause : Mismatch} (bound : ∀ name, cause ≠ .unbound name) : IsMisfit (.mismatch cause)
  | textless : IsMisfit .tooManyDigits

theorem Failure.IsMisfit.soft {e : Failure} (h : e.IsMisfit) : e.isUnknownAction = false := by
  cases h <;> rfl

theorem Failure.IsMisfit.ne_unbound {e : Failure} (h : e.IsMisfit) (name : String) :
    e ≠ .mismatch (.unbound name) := by
  rintro rfl
  cases h with
  | mismatch bound => exact bound name rfl

namespace Bindings

theorem misfit_isMisfit (place : String) (expected actual : Value) :
    (misfit place expected actual).IsMisfit := by
  rw [misfit]
  split
  · exact .mismatch fun name h => by cases h
  · exact .textless

theorem fitAll_failed {bindings after : Bindings} {positions : List Position} {e : Failure}
    (h : bindings.fitAll positions = (some e, after)) : e.IsMisfit := by
  have hrequire (b : Bindings) (place : String) (expected actual : Value) :
      ∀ e, (b.require place expected actual).1 = some e → e.IsMisfit := by
    intro e he
    rw [require] at he
    split at he
    · cases he
    · cases he
      exact misfit_isMisfit place expected actual
  induction positions generalizing bindings with
  | nil => cases h
  | cons position more ih =>
    rw [fitAll] at h
    split at h
    · exact ih h
    · rename_i hfit _
      have hfirst : (bindings.fit position).1 = some e := by rw [h]
      rw [fit] at hfirst
      split at hfirst
      · split at hfirst
        · cases hfirst
        · exact hrequire _ _ _ _ e hfirst
      · exact hrequire _ _ _ _ e hfirst

theorem resultPositions_failed {line : Line} {result : Value} {cause : Mismatch}
    (h : line.resultPositions result = .error cause) (name : String) : cause ≠ .unbound name := by
  rintro rfl
  unfold Line.resultPositions at h
  split at h
  case h_4 =>
    dsimp only at h
    split at h
    · cases h
    · split at h <;> cases h
  all_goals cases h

theorem fitTrace_failed {bindings after : Bindings} {trace : Trace} {line : Line}
    {e : Failure} (h : bindings.fitTrace trace line = (some e, after)) : e.IsMisfit := by
  rw [fitTrace] at h
  split at h
  · cases h
    exact .mismatch fun name h => by cases h
  · split at h
    · cases h
      exact .mismatch fun name h => by cases h
    · split at h
      · split at h
        next => exact fitAll_failed h
        next hresult =>
          cases h
          exact .mismatch (resultPositions_failed hresult)
      · exact fitAll_failed h

end Bindings

namespace Engine

variable {σ : Type} (engine : Engine σ)

/-! ## Calls and lines that fail -/

/-- A call without an answer: how it fails, where that leaves the state, and the calls made. -/
inductive Unanswered (action : String) (args : List Value) (s : σ) :
    Failure → σ → List (String × List Value) → Prop
  /-- Nothing is registered for the action. -/
  | unregistered (entry_eq : engine.actions.get? action = none) :
    Unanswered action args s (.unknownAction action) s []
  /-- The action fails. -/
  | raised {entry : Action σ} {e : Failure} {t : σ}
    (entry_eq : engine.actions.get? action = some entry) (run_eq : entry args s = (.error e, t)) :
    Unanswered action args s e t [(action, args)]

/-- A line that fails: how, where that leaves the state, and the calls made. -/
inductive Refuses (line : Line) (bindings : Bindings) (s : σ) :
    Failure → σ → List (String × List Value) → Prop
  /-- An argument is a variable without a value. -/
  | unbound {mismatch : Mismatch} (args_eq : bindings.arguments line = .error mismatch) :
    Refuses line bindings s (.mismatch mismatch) s []
  | unanswered {args : List Value} {e : Failure} {t : σ} {calls : List (String × List Value)}
    (args_eq : bindings.arguments line = .ok args)
    (unanswered : engine.Unanswered line.action args s e t calls) :
    Refuses line bindings s e t calls
  /-- The action answers, and the answer is not what the line says. -/
  | misfit {args : List Value} {entry : Action σ} {value : Value} {t : σ} {e : Failure}
    {after : Bindings} (args_eq : bindings.arguments line = .ok args)
    (entry_eq : engine.actions.get? line.action = some entry)
    (run_eq : entry args s = (.ok value, t))
    (fit_eq : bindings.fitTrace ⟨line.action, args, value⟩ line = (some e, after)) :
    Refuses line bindings s e t [(line.action, args)]

variable {engine} {action : String} {args : List Value} {s t : σ} {e : Failure}

theorem unanswered_of_call {events : List Event}
    (h : engine.call action args s = ⟨.failed e, t, events⟩) :
    engine.Unanswered action args s e t (Event.calls events) := by
  rcases engine.call_cases action args s with
    ⟨hentry, hrun⟩ | ⟨entry, u, hentry, ⟨e', hraised, hrun⟩ | ⟨value, -, hrun⟩⟩
  · rw [hrun] at h
    cases h
    exact .unregistered hentry
  · rw [hrun] at h
    cases h
    exact .raised hentry hraised
  · rw [hrun] at h
    cases h

theorem Unanswered.call {calls : List (String × List Value)}
    (h : engine.Unanswered action args s e t calls) :
    engine.call action args s = ⟨.failed e, t, calls.map Event.ofCall⟩ := by
  cases h with
  | unregistered entry_eq => exact engine.call_unknown args s entry_eq
  | raised entry_eq run_eq => exact engine.call_raised entry_eq run_eq

variable {line : Line} {bindings : Bindings}

theorem refuses_of_perform {events : List Event}
    (h : engine.perform line bindings s = ⟨.failed e, t, events⟩) :
    engine.Refuses line bindings s e t (Event.calls events) := by
  have hcases := engine.perform_cases line bindings s
  rw [h] at hcases
  cases hcases with
  | unbound args_eq => exact .unbound args_eq
  | uncalled args_eq call_eq => exact .unanswered args_eq (unanswered_of_call call_eq)
  | @misfit args trace t events e after args_eq call_eq fit_eq =>
    rcases engine.call_cases line.action args s with
      ⟨-, hrun⟩ | ⟨entry, u, hentry, ⟨e', -, hrun⟩ | ⟨value, hanswer, hrun⟩⟩
    · rw [hrun] at call_eq
      cases call_eq
    · rw [hrun] at call_eq
      cases call_eq
    · rw [hrun] at call_eq
      cases call_eq
      exact .misfit args_eq hentry hanswer fit_eq

theorem Refuses.perform {calls : List (String × List Value)}
    (h : engine.Refuses line bindings s e t calls) :
    engine.perform line bindings s = ⟨.failed e, t, calls.map Event.ofCall⟩ := by
  cases h with
  | unbound args_eq =>
    simp only [Engine.perform, argumentsOf, args_eq]
    rfl
  | unanswered args_eq unanswered =>
    simp only [Engine.perform, argumentsOf, args_eq, Act.ofExcept_ok, pure_bind]
    rw [Act.bind_run_failed _ unanswered.call]
  | misfit args_eq entry_eq run_eq fit_eq =>
    simp only [Engine.perform, argumentsOf, args_eq, Act.ofExcept_ok, pure_bind]
    rw [Act.bind_run_returned _ (engine.call_answered entry_eq run_eq)]
    simp only [fitted, fit_eq]
    rfl

/-- Only a call without an answer fails with an unknown action. -/
theorem Refuses.unanswered_of_unknown {calls : List (String × List Value)} {name : String}
    (h : engine.Refuses line bindings s (.unknownAction name) t calls) :
    ∃ args, bindings.arguments line = .ok args ∧
      engine.Unanswered line.action args s (.unknownAction name) t calls := by
  cases h with
  | unanswered args_eq unanswered => exact ⟨_, args_eq, unanswered⟩
  | misfit args_eq entry_eq run_eq fit_eq =>
    have hsoft := (Bindings.fitTrace_failed fit_eq).soft
    cases hsoft

/-! ## The turn of a rule -/

variable (engine) in
/-- It is the turn of a rule on a trace: the run has come this far, every rule has been tried on
every trace before this one, and so have the rules before this one on this trace. The state is the
one in which the rule is tried, and the calls are those made until then. -/
inductive Turn (action : String) (args : List Value) (s : σ) :
    Trace → Rule → σ → List (String × List Value) → Prop
  | intro {opening stage : Stage σ} {earlier attempts : List Attempt} {trace : Trace}
    {pending : List Trace} {done rest : List Rule} {rule : Rule} {u : σ}
    (opens : engine.Opens action args s opening)
    (path : Relation.ReflTransGen engine.Passes opening stage)
    (account : engine.Accounts opening stage earlier)
    (pending_eq : stage.pending = trace :: pending)
    (under_eq : engine.rulebook.under trace.action = done ++ rule :: rest)
    (occasions_eq : attempts.map Attempt.toOccasion =
      done.map fun rule => ⟨stage.settled.length, trace, rule⟩)
    (attempted : engine.Attempted attempts stage.state u) :
    Turn action args s trace rule u
      (Event.calls stage.events ++ attempts.flatMap fun a => a.outcome.calls)

theorem Turn.rule_mem {trace : Trace} {rule : Rule} {u : σ} {calls : List (String × List Value)}
    (h : engine.Turn action args s trace rule u calls) :
    rule ∈ engine.rulebook.under trace.action := by
  cases h with
  | intro opens path account pending_eq under_eq occasions_eq attempted =>
    rw [under_eq]
    exact List.mem_append_right _ List.mem_cons_self

/-- Where a failure comes from. -/
inductive Origin where
  | firstCall
  | guard
  | consequence
  | cap
  deriving DecidableEq, Repr

variable (engine) in
/-- What escapes a run: where it comes from, the failure, the state it leaves, and all calls that
were made. -/
inductive Escapes (action : String) (args : List Value) (s : σ) :
    Origin → Failure → σ → List (String × List Value) → Prop
  /-- The first call has no answer, and it is the only one. -/
  | firstCall {e : Failure} {t : σ} {calls : List (String × List Value)}
    (unanswered : engine.Unanswered action args s e t calls) :
    Escapes action args s .firstCall e t calls
  /-- A rule whose trigger fits comes to a guard that calls for an unknown action. -/
  | guard {trace : Trace} {rule : Rule} {u v t : σ} {matched reached : Bindings}
    {before after : List Line} {line : Line} {traces : List Trace} {values : List Value}
    {calls last : List (String × List Value)} {events : List Event} {name : String}
    (turn : engine.Turn action args s trace rule u calls)
    (trigger_eq : Bindings.empty.fitTrace trace rule.trigger = (none, matched))
    (guards_eq : rule.guards = before ++ line :: after)
    (before_eq : engine.performAll before matched u = ⟨.returned (reached, traces), v, events⟩)
    (args_eq : reached.arguments line = .ok values)
    (unanswered : engine.Unanswered line.action values v (.unknownAction name) t last) :
    Escapes action args s .guard (.unknownAction name) t (calls ++ (traces.map Trace.call ++ last))
  /-- A rule whose guards all hold comes to a consequence that fails, and the verdict is passed. -/
  | consequence {trace : Trace} {rule : Rule} {u v w t : σ} {matched reached : Bindings}
    {before after : List Line} {line : Line} {guards traces : List Trace}
    {calls last : List (String × List Value)} {front back : List Event} {cause : Failure}
    (turn : engine.Turn action args s trace rule u calls)
    (guard_eq : engine.guard rule trace u = ⟨.returned (matched, guards), v, front⟩)
    (consequences_eq : rule.consequences = before ++ line :: after)
    (before_eq : engine.performAll before matched v = ⟨.returned (reached, traces), w, back⟩)
    (refuses : engine.Refuses line reached w cause t last) :
    Escapes action args s .consequence (rule.verdict line cause) t
      (calls ++ (guards.map Trace.call ++ (traces.map Trace.call ++ last)))
  /-- A whole reaction leaves more traces than the cap allows. -/
  | cap {opening stage next : Stage σ} {limit : Int}
    (opens : engine.Opens action args s opening)
    (path : Relation.ReflTransGen engine.Passes opening stage)
    (reacts : engine.Reacts stage next) (cap_eq : engine.cap = some limit)
    (exceeds : limit < next.traces.length) :
    Escapes action args s .cap (.cascadeLimit limit) next.state (Event.calls next.events)

/-! ## Every failure has an origin -/

theorem guard_failed {rule : Rule} {trace : Trace} {events : List Event}
    (h : engine.guard rule trace s = ⟨.failed e, t, events⟩) :
    (∃ after, Bindings.empty.fitTrace trace rule.trigger = (some e, after)) ∨
    ∃ matched, Bindings.empty.fitTrace trace rule.trigger = (none, matched) ∧
      engine.performAll rule.guards matched s = ⟨.failed e, t, events⟩ := by
  rcases hfit : Bindings.empty.fitTrace trace rule.trigger with ⟨_ | e', matched⟩
  · simp only [guard, fitted, hfit, Act.ofExcept_ok, pure_bind] at h
    exact Or.inr ⟨matched, rfl, h⟩
  · simp only [guard, fitted, hfit, Act.ofExcept_error, Act.fail_bind, Act.fail_apply] at h
    cases h
    exact Or.inl ⟨matched, rfl⟩

/-- An attempt that breaks the run gives the failure its origin. -/
theorem Turn.escapes {trace : Trace} {rule : Rule} {u : σ} {calls : List (String × List Value)}
    {events : List Event} (turn : engine.Turn action args s trace rule u calls)
    (h : engine.Breaks rule trace u ⟨.failed e, t, events⟩) :
    ∃ origin, engine.Escapes action args s origin e t (calls ++ Event.calls events) := by
  cases h with
  | guard guard_eq hard =>
    refine ⟨.guard, ?_⟩
    rcases guard_failed guard_eq with ⟨after, hfit⟩ | ⟨matched, htrigger, hguards⟩
    · rw [(Bindings.fitTrace_failed hfit).soft] at hard
      cases hard
    · -- Every other failure of a guard is caught, so its action is one that is not registered.
      cases e with
      | unknownAction name =>
        obtain ⟨line, hfails⟩ := performAll_failed hguards
        cases hfails with
        | @intro before after reached traces v t front back e lines_eq before_eq line_eq =>
          obtain ⟨values, hargs, hunanswered⟩ :=
            (refuses_of_perform line_eq).unanswered_of_unknown
          obtain ⟨-, rfl⟩ := performAll_returned before_eq
          rw [Event.calls_append, Event.calls_map_ofCall]
          exact .guard turn htrigger lines_eq before_eq hargs hunanswered
      | _ => cases hard
  | @consequence matched guards cause line v t front back guard_eq fails =>
    refine ⟨.consequence, ?_⟩
    cases fails with
    | @intro before after reached traces w t front' back' e lines_eq before_eq line_eq =>
      obtain ⟨-, rfl⟩ := guard_returned guard_eq
      obtain ⟨-, rfl⟩ := performAll_returned before_eq
      rw [calls_of_broken, Event.calls_append, Event.calls_map_ofCall, Event.calls_map_ofCall]
      exact .consequence turn guard_eq lines_eq before_eq (refuses_of_perform line_eq)

/-- A rule that breaks the run when it has its turn is the end of the run. -/
theorem Turn.ends {trace : Trace} {rule : Rule} {u : σ} {calls : List (String × List Value)}
    {last : List Event} (turn : engine.Turn action args s trace rule u calls)
    (h : engine.Breaks rule trace u ⟨.failed e, t, last⟩) :
    ∃ events, engine.Ends action args s ⟨.failed e, t, events⟩ := by
  cases turn with
  | @intro opening stage _ _ _ pending _ _ _ _ opens path _ pending_eq under_eq occasions_eq
      attempted =>
    obtain ⟨more, hrules⟩ := applyRules_of_breaks occasions_eq attempted h
    rw [← under_eq] at hrules
    obtain ⟨settled, _, v, before⟩ := stage
    obtain rfl : _ = trace :: pending := pending_eq
    have hhalts : engine.Halts ⟨settled, trace :: pending, v, before⟩ _ := .intro hrules
    obtain ⟨count, hcount⟩ := resume_of_path path
    cases opens with
    | intro call_eq =>
      refine ⟨before ++ more, by simp, 1 + count, ?_⟩
      rw [cascade_of_call_returned _ call_eq, hcount, resume_of_halts _ hhalts]
      rfl

theorem escapes_of_cascade {steps : Nat} {events : List Event}
    (h : engine.cascade steps action args s = ⟨.failed e, t, events⟩) :
    ∃ origin, engine.Escapes action args s origin e t (Event.calls events) := by
  rcases engine.cascade_stops steps action args s with
    ⟨e', u, front, hcall, hrun⟩ | ⟨first, u, front, stage, earlier, hcall, hpath, haccount,
      ⟨-, hrun⟩ | ⟨run, hstops, hrun⟩⟩
  · rw [hrun] at h
    cases h
    exact ⟨.firstCall, .firstCall (unanswered_of_call hcall)⟩
  · rw [hrun] at h
    cases h
  · rw [hrun] at h
    have hopens : engine.Opens action args s ⟨[], [first], u, front⟩ := ⟨hcall⟩
    cases hstops with
    | settled pending_eq => cases h
    | capped reacts cap_eq exceeds =>
      cases h
      exact ⟨.cap, .cap hopens hpath reacts cap_eq exceeds⟩
    | halted halts =>
      cases halts with
      | @intro settled pending trace v w e' before more react_eq =>
        cases h
        obtain ⟨done, rule, rest, attempts, x, last, hunder, hoccasions, hattempted, hbreaks,
          rfl⟩ := applyRules_failed settled.length react_eq
        have hturn := Turn.intro hopens hpath haccount rfl hunder hoccasions hattempted
        obtain ⟨origin, hescapes⟩ := hturn.escapes hbreaks
        refine ⟨origin, ?_⟩
        rw [Event.calls_append, Event.calls_append, calls_of_attempts, ← List.append_assoc]
        exact hescapes

/-! ## No failure has two -/

theorem Tries.unique {rule : Rule} {trace : Trace} {outcome outcome' : Outcome} {t t' : σ}
    (h : engine.Tries rule trace s outcome t) (h' : engine.Tries rule trace s outcome' t') :
    outcome = outcome' ∧ t = t' := by
  cases h with
  | fired guard_eq lines_eq =>
    cases h' with
    | fired guard_eq' lines_eq' =>
      rw [guard_eq] at guard_eq'
      cases guard_eq'
      rw [lines_eq] at lines_eq'
      cases lines_eq'
      exact ⟨rfl, rfl⟩
    | declined guard_eq' soft' =>
      rw [guard_eq] at guard_eq'
      cases guard_eq'
  | declined guard_eq soft =>
    cases h' with
    | fired guard_eq' lines_eq' =>
      rw [guard_eq] at guard_eq'
      cases guard_eq'
    | declined guard_eq' soft' =>
      rw [guard_eq] at guard_eq'
      cases guard_eq'
      exact ⟨rfl, rfl⟩

/-- Attempts at more rules begin with the attempts at the first of them. -/
theorem Attempted.of_append {place : Nat} {trace : Trace} {done rest : List Rule}
    {attempts all : List Attempt} {u v : σ} (hattempted : engine.Attempted attempts s u)
    (hoccasions : attempts.map Attempt.toOccasion = done.map fun rule => ⟨place, trace, rule⟩)
    (hall : engine.Attempted all s v)
    (halls : all.map Attempt.toOccasion = (done ++ rest).map fun rule => ⟨place, trace, rule⟩) :
    ∃ more, engine.Attempted more u v ∧
      more.map Attempt.toOccasion = rest.map fun rule => ⟨place, trace, rule⟩ := by
  induction done generalizing attempts all s with
  | nil =>
    cases attempts with
    | nil => exact ⟨all, hattempted ▸ hall, halls⟩
    | cons attempt attempts => cases hoccasions
  | cons rule done ih =>
    cases attempts with
    | nil => cases hoccasions
    | cons attempt attempts =>
      cases all with
      | nil => cases halls
      | cons attempt' all =>
        obtain ⟨w, htry, hrest⟩ := hattempted
        obtain ⟨w', htry', hrest'⟩ := hall
        rw [List.map_cons, List.map_cons, List.cons.injEq] at hoccasions
        rw [List.map_cons, List.cons_append, List.map_cons, List.cons.injEq] at halls
        have hsame : attempt.toOccasion = attempt'.toOccasion := hoccasions.1.trans halls.1.symm
        -- One rule is tried twice from one state, which leads to one state.
        rw [hsame] at htry
        obtain ⟨-, rfl⟩ := htry.unique htry'
        exact ih hrest hoccasions.2 hrest' halls.2

variable (engine) in
/-- A rule that cannot be tried without breaking the run. -/
def Stuck (rule : Rule) (trace : Trace) (u : σ) : Prop :=
  ∀ outcome v, ¬engine.Tries rule trace u outcome v

theorem stuck_of_guard {rule : Rule} {trace : Trace} {name : String} {events : List Event}
    (h : engine.guard rule trace s = ⟨.failed (.unknownAction name), t, events⟩) :
    engine.Stuck rule trace s := by
  intro outcome v htry
  cases htry with
  | fired guard_eq lines_eq =>
    rw [h] at guard_eq
    cases guard_eq
  | declined guard_eq soft =>
    rw [h] at guard_eq
    cases guard_eq
    cases soft

theorem stuck_of_consequences {rule : Rule} {trace : Trace} {matched : Bindings}
    {guards : List Trace} {u : σ} {front back : List Event}
    (hguard : engine.guard rule trace s = ⟨.returned (matched, guards), u, front⟩)
    (hlines : engine.performAll rule.consequences matched u = ⟨.failed e, t, back⟩) :
    engine.Stuck rule trace s := by
  intro outcome v htry
  cases htry with
  | fired guard_eq lines_eq =>
    rw [hguard] at guard_eq
    cases guard_eq
    rw [hlines] at lines_eq
    cases lines_eq
  | declined guard_eq soft =>
    rw [hguard] at guard_eq
    cases guard_eq

/-- The rules under an action cannot all be tried if one of them is stuck when it has its turn. -/
theorem Stuck.not_attempted {place : Nat} {trace : Trace} {rule : Rule} {rest : List Rule}
    {u v : σ} {more : List Attempt} (h : engine.Stuck rule trace u)
    (hmore : engine.Attempted more u v)
    (hoccasions : more.map Attempt.toOccasion =
      (rule :: rest).map fun rule => ⟨place, trace, rule⟩) : False := by
  cases more with
  | nil => cases hoccasions
  | cons attempt more =>
    obtain ⟨w, htry, -⟩ := hmore
    rw [List.map_cons, List.map_cons, List.cons.injEq] at hoccasions
    rw [hoccasions.1] at htry
    exact h _ _ htry

/-- Two stages of a run that lead no further are one. -/
theorem passes_final_unique {opening stage stage' : Stage σ}
    (hpath : Relation.ReflTransGen engine.Passes opening stage)
    (hpath' : Relation.ReflTransGen engine.Passes opening stage')
    (hfinal : ∀ next, ¬engine.Passes stage next) (hfinal' : ∀ next, ¬engine.Passes stage' next) :
    stage = stage' := by
  have hunique : Relator.RightUnique engine.Passes :=
    fun _ _ _ h h' => h.1.unique h'.1
  rcases Relation.ReflTransGen.total_of_right_unique hunique hpath hpath' with h | h
  · rcases h.cases_head with heq | ⟨next, hnext, -⟩
    · exact heq
    · exact absurd hnext (hfinal next)
  · rcases h.cases_head with heq | ⟨next, hnext, -⟩
    · exact heq.symm
    · exact absurd hnext (hfinal' next)

/-- A stage whose trace comes to a rule that is stuck leads no further. -/
theorem Stuck.not_reacts {stage next : Stage σ} {trace : Trace} {pending : List Trace}
    {done rest : List Rule} {rule : Rule} {u : σ} {attempts : List Attempt}
    (h : engine.Stuck rule trace u) (hpending : stage.pending = trace :: pending)
    (hunder : engine.rulebook.under trace.action = done ++ rule :: rest)
    (hoccasions : attempts.map Attempt.toOccasion =
      done.map fun rule => ⟨stage.settled.length, trace, rule⟩)
    (hattempted : engine.Attempted attempts stage.state u) : ¬engine.Reacts stage next := by
  intro hreacts
  cases hreacts with
  | @intro settled pending' batch trace' s t events more react_eq =>
    cases hpending
    rw [react, hunder] at react_eq
    obtain ⟨all, halls, hall, -, -⟩ := applyRules_returned settled.length react_eq
    obtain ⟨more, hmore, hrest⟩ := hattempted.of_append hoccasions hall halls
    exact h.not_attempted hmore hrest

/-- Of two rules in a row that have their turns, neither comes behind one that is stuck. -/
theorem Stuck.no_later {place : Nat} {trace : Trace} {done front rest rest' : List Rule}
    {rule rule' : Rule} {u u' : σ} {attempts attempts' : List Attempt}
    (h : engine.Stuck rule trace u) (hattempted : engine.Attempted attempts s u)
    (hoccasions : attempts.map Attempt.toOccasion = done.map fun rule => ⟨place, trace, rule⟩)
    (hattempted' : engine.Attempted attempts' s u')
    (hoccasions' : attempts'.map Attempt.toOccasion =
      (done ++ front).map fun rule => ⟨place, trace, rule⟩)
    (hrules : rule :: rest = front ++ rule' :: rest') : rule = rule' ∧ u = u' := by
  obtain ⟨more, hmore, hfront⟩ := hattempted.of_append hoccasions hattempted' hoccasions'
  cases front with
  | nil =>
    cases hrules
    cases List.map_eq_nil_iff.mp hfront
    exact ⟨rfl, hmore⟩
  | cons first front =>
    cases hrules
    exact (h.not_attempted hmore hfront).elim

/-- **A run is stuck at one rule at most.** -/
theorem Turn.unique {trace trace' : Trace} {rule rule' : Rule} {u u' : σ}
    {calls calls' : List (String × List Value)} (h : engine.Turn action args s trace rule u calls)
    (hstuck : engine.Stuck rule trace u) (h' : engine.Turn action args s trace' rule' u' calls')
    (hstuck' : engine.Stuck rule' trace' u') : trace = trace' ∧ rule = rule' ∧ u = u' := by
  cases h with
  | @intro opening stage _ attempts trace pending done rest rule u opens path _ pending_eq
      under_eq occasions_eq attempted =>
    cases h' with
    | @intro opening' stage' _ attempts' trace' pending' done' rest' rule' u' opens' path' _
        pending_eq' under_eq' occasions_eq' attempted' =>
      obtain rfl := opens.unique opens'
      obtain rfl := passes_final_unique path path'
        (fun next hnext => hstuck.not_reacts pending_eq under_eq occasions_eq attempted hnext.1)
        (fun next hnext =>
          hstuck'.not_reacts pending_eq' under_eq' occasions_eq' attempted' hnext.1)
      rw [pending_eq] at pending_eq'
      cases pending_eq'
      rw [under_eq] at under_eq'
      rcases List.append_eq_append_iff.mp under_eq' with ⟨front, rfl, hrest⟩ | ⟨front, rfl, hrest⟩
      · exact ⟨rfl, hstuck.no_later attempted occasions_eq attempted' occasions_eq' hrest⟩
      · obtain ⟨hrule, hstate⟩ :=
          hstuck'.no_later attempted' occasions_eq' attempted occasions_eq hrest
        exact ⟨rfl, hrule.symm, hstate.symm⟩

theorem Escapes.guard_stuck {calls : List (String × List Value)}
    (h : engine.Escapes action args s .guard e t calls) :
    ∃ trace rule u before, engine.Turn action args s trace rule u before ∧
      engine.Stuck rule trace u ∧
      ∃ name v events, engine.guard rule trace u = ⟨.failed (.unknownAction name), v, events⟩ := by
  cases h with
  | @guard trace rule u v t matched reached before after line traces values calls last events name
      turn trigger_eq guards_eq before_eq args_eq unanswered =>
    have hfails := FailsAt.intro guards_eq before_eq (Refuses.unanswered args_eq unanswered).perform
    have hguard : engine.guard rule trace u =
        ⟨.failed (.unknownAction name), t, events ++ last.map Event.ofCall⟩ := by
      simp only [Engine.guard, fitted, trigger_eq, Act.ofExcept_ok, pure_bind]
      exact hfails.performAll
    exact ⟨trace, rule, u, calls, turn, stuck_of_guard hguard, name, t, _, hguard⟩

theorem Escapes.consequence_stuck {calls : List (String × List Value)}
    (h : engine.Escapes action args s .consequence e t calls) :
    ∃ trace rule u before, engine.Turn action args s trace rule u before ∧
      engine.Stuck rule trace u ∧
      ∃ answer v events, engine.guard rule trace u = ⟨.returned answer, v, events⟩ := by
  cases h with
  | @consequence trace rule u v w t matched reached before after line guards traces calls last
      front back cause turn guard_eq consequences_eq before_eq refuses =>
    have hfails := FailsAt.intro consequences_eq before_eq refuses.perform
    exact ⟨trace, rule, u, calls, turn, stuck_of_consequences guard_eq hfails.performAll,
      (matched, guards), v, front, guard_eq⟩

/-- A run that is stuck at a rule is not cut off by the cap. -/
theorem Turn.not_cap {trace : Trace} {rule : Rule} {u : σ}
    {calls calls' : List (String × List Value)} (h : engine.Turn action args s trace rule u calls)
    (hstuck : engine.Stuck rule trace u) : ¬engine.Escapes action args s .cap e t calls' := by
  intro hcap
  cases h with
  | @intro opening stage _ attempts trace pending done rest rule u opens path _ pending_eq
      under_eq occasions_eq attempted =>
    cases hcap with
    | @cap opening' stage' next limit opens' path' reacts cap_eq exceeds =>
      obtain rfl := opens.unique opens'
      have hfinal : ∀ later, ¬engine.Reacts stage later := fun later =>
        hstuck.not_reacts pending_eq under_eq occasions_eq attempted
      obtain rfl := passes_final_unique path path' (fun later hlater => hfinal later hlater.1)
        fun later hlater => by
          have hadmits := hlater.2 limit cap_eq
          rw [hlater.1.unique reacts] at hadmits
          exact absurd exceeds (Int.not_lt.mpr hadmits)
      exact hfinal next reacts

theorem Escapes.opens {origin : Origin} {calls : List (String × List Value)}
    (h : engine.Escapes action args s origin e t calls) (horigin : origin ≠ .firstCall) :
    ∃ first u events, engine.call action args s = ⟨.returned first, u, events⟩ := by
  have hopens {opening : Stage σ} (hopening : engine.Opens action args s opening) :
      ∃ first u events, engine.call action args s = ⟨.returned first, u, events⟩ := by
    cases hopening with
    | intro call_eq => exact ⟨_, _, _, call_eq⟩
  cases h with
  | firstCall unanswered => exact absurd rfl horigin
  | guard turn =>
    cases turn with
    | intro opens => exact hopens opens
  | consequence turn =>
    cases turn with
    | intro opens => exact hopens opens
  | cap opens => exact hopens opens

theorem Escapes.firstCall_unique {origin : Origin} {e' : Failure} {t' : σ}
    {calls calls' : List (String × List Value)}
    (h : engine.Escapes action args s .firstCall e t calls)
    (h' : engine.Escapes action args s origin e' t' calls') : origin = .firstCall := by
  by_contra horigin
  obtain ⟨first, u, events, hcall⟩ := h'.opens horigin
  cases h with
  | firstCall unanswered =>
    rw [unanswered.call] at hcall
    cases hcall

theorem Escapes.guard_not_consequence {e' : Failure} {t' : σ}
    {calls calls' : List (String × List Value)}
    (h : engine.Escapes action args s .guard e t calls) :
    ¬engine.Escapes action args s .consequence e' t' calls' := by
  intro h'
  obtain ⟨trace, rule, u, before, hturn, hstuck, name, v, events, hguard⟩ := h.guard_stuck
  obtain ⟨trace', rule', u', before', hturn', hstuck', answer, w, events', hguard'⟩ :=
    h'.consequence_stuck
  obtain ⟨rfl, rfl, rfl⟩ := hturn.unique hstuck hturn' hstuck'
  rw [hguard] at hguard'
  cases hguard'

/-- **A failure has one origin and no more.** -/
theorem Escapes.unique {origin origin' : Origin} {e' : Failure} {t' : σ}
    {calls calls' : List (String × List Value)}
    (h : engine.Escapes action args s origin e t calls)
    (h' : engine.Escapes action args s origin' e' t' calls') : origin = origin' := by
  cases origin with
  | firstCall => exact (h.firstCall_unique h').symm
  | guard =>
    obtain ⟨trace, rule, u, before, hturn, hstuck, -⟩ := h.guard_stuck
    cases origin' with
    | firstCall => exact h'.firstCall_unique h
    | guard => rfl
    | consequence => exact absurd h' h.guard_not_consequence
    | cap => exact absurd h' (hturn.not_cap hstuck)
  | consequence =>
    obtain ⟨trace, rule, u, before, hturn, hstuck, -⟩ := h.consequence_stuck
    cases origin' with
    | firstCall => exact h'.firstCall_unique h
    | guard => exact absurd h h'.guard_not_consequence
    | consequence => rfl
    | cap => exact absurd h' (hturn.not_cap hstuck)
  | cap =>
    cases origin' with
    | firstCall => exact h'.firstCall_unique h
    | guard =>
      obtain ⟨trace, rule, u, before, hturn, hstuck, -⟩ := h'.guard_stuck
      exact absurd h (hturn.not_cap hstuck)
    | consequence =>
      obtain ⟨trace, rule, u, before, hturn, hstuck, -⟩ := h'.consequence_stuck
      exact absurd h (hturn.not_cap hstuck)
    | cap => rfl

/-- A guard that fails without meeting an unknown action declines its rule, and the rules behind it
have their turn. -/
theorem applyRules_of_soft {rule : Rule} {trace : Trace} {reason : Failure}
    {events : List Event} (rules : List Rule)
    (hguard : engine.guard rule trace s = ⟨.failed reason, t, events⟩)
    (hsoft : reason.isUnknownAction = false) :
    engine.applyRules trace (rule :: rules) s =
      (engine.applyRules trace rules t).behind (events ++ [.declined rule reason]) := by
  rw [applyRules, Act.bind_run_returned _ (applyRule_of_declined hguard hsoft)]
  simp only [List.nil_append, bind_pure]

/-- **Exactly the failures that are meant to escape a run escape it.** A run that fails has one
origin: its first call, a guard that calls for an unknown action, a consequence, or the cap; and its
calls are those that led up to the failure, the failed one last. Any other failure of a guard only
declines its rule, and the rules behind it are tried as if it were not there. -/
theorem failure_has_one_origin {steps : Nat} {events : List Event}
    (h : engine.cascade steps action args s = ⟨.failed e, t, events⟩) :
    (∃! origin, engine.Escapes action args s origin e t (Event.calls events)) ∧
    ∀ rule trace rules u reason v more,
      engine.guard rule trace u = ⟨.failed reason, v, more⟩ → reason.isUnknownAction = false →
        engine.applyRules trace (rule :: rules) u =
          (engine.applyRules trace rules v).behind (more ++ [.declined rule reason]) := by
  refine ⟨?_, ?_⟩
  · obtain ⟨origin, horigin⟩ := escapes_of_cascade h
    exact ⟨origin, horigin, fun other hother => hother.unique horigin⟩
  · intro rule trace rules u reason v more hguard hsoft
    exact applyRules_of_soft rules hguard hsoft

/-- An action that counts its calls and fails every time. -/
def failing (e : Failure) : Action Nat :=
  fun _ calls => (.error e, calls + 1)

/-- A rule whose guard fails as if because of a cap, and a rule whose consequence fails. -/
def unruly : Engine Nat where
  rulebook := .ofRules [
    ⟨⟨"A.a", [], none⟩, [⟨"B.b", [], none⟩], [⟨"C.c", [], none⟩], 1⟩,
    ⟨⟨"A.a", [], none⟩, [], [⟨"C.c", [], none⟩], 6⟩]
  actions := ⟨[("A.a", toggle), ("B.b", failing (.cascadeLimit 0)),
    ("C.c", failing (.mismatch (.general "refused")))], by decide⟩

theorem failure_has_one_origin_unruly :
    ∃ e events, unruly.cascade 1 "A.a" [] 0 = ⟨.failed e, 3, events⟩ ∧
      e = .violation "A.a" "C.c" (.mismatch (.general "refused")) ∧
      Event.calls events = [("A.a", []), ("B.b", []), ("C.c", [])] ∧
      ∃! origin, unruly.Escapes "A.a" [] 0 origin e 3 (Event.calls events) := by
  have hrun : unruly.cascade 1 "A.a" [] 0 =
      ⟨.failed (.violation "A.a" "C.c" (.mismatch (.general "refused"))), 3,
        (unruly.cascade 1 "A.a" [] 0).events⟩ := rfl
  exact ⟨_, _, hrun, rfl, rfl, (failure_has_one_origin hrun).1⟩

end Engine

end Synchrony
