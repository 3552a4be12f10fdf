import Synchrony.Proofs.Engine.Stages

/-!
# The history of a run

A run that returned tells its traces. This module says which: the history is the first trace and
then, attempt by attempt, what every attempt yielded, and the attempts are those of the
**occasions** of that same history, each once and in order.

## Why an account is kept of stages

The history grows while it is walked through, so the statement about the end, where every trace has
had its turn, is not one that can be carried from stage to stage. What can be carried is an account
(`Engine.Accounts`): the attempts so far are those of the traces reacted to so far, and the traces
and events so far are what those attempts yielded. One reaction extends an account by the attempts
of one trace; where nothing is pending, the traces reacted to are the history.
-/

set_option autoImplicit false

namespace Synchrony

namespace Engine

variable {σ : Type} (engine : Engine σ)

/-! ## Occasions -/

/-- The occasions of one trace: one for each rule that is anchored on its action, in source
order. -/
def occasionsAt (trace : Trace) (place : Nat) : List Occasion :=
  (engine.rulebook.rules.filter fun rule => rule.anchor = trace.action).map
    fun rule => ⟨place, trace, rule⟩

def occasions (traces : List Trace) : List Occasion :=
  traces.zipIdx.flatMap fun entry => engine.occasionsAt entry.1 entry.2

theorem occasions_concat (traces : List Trace) (trace : Trace) :
    engine.occasions (traces ++ [trace]) =
      engine.occasions traces ++ engine.occasionsAt trace traces.length := by
  simp [occasions, List.zipIdx_append]

/-! ## Accounts -/

/-- How a stage came about from the opening of the run, attempt by attempt. -/
structure Accounts (opening stage : Stage σ) (attempts : List Attempt) : Prop where
  occasions_eq : attempts.map Attempt.toOccasion = engine.occasions stage.settled
  attempted : engine.Attempted attempts opening.state stage.state
  traces_eq : stage.traces = opening.traces ++ attempts.flatMap fun a => a.outcome.traces
  events_eq : stage.events = opening.events ++ attempts.flatMap Attempt.events

variable {engine}

theorem Accounts.opening {opening : Stage σ} (h : opening.settled = []) :
    engine.Accounts opening opening [] where
  occasions_eq := by rw [h]; rfl
  attempted := rfl
  traces_eq := (List.append_nil _).symm
  events_eq := (List.append_nil _).symm

/-- A reaction extends the account by the attempts of one trace. -/
theorem Accounts.reacts {opening stage next : Stage σ} {attempts : List Attempt}
    (h : engine.Accounts opening stage attempts) (hreacts : engine.Reacts stage next) :
    ∃ more, engine.Accounts opening next (attempts ++ more) := by
  cases hreacts with
  | @intro settled pending batch trace s t events back react_eq =>
    -- The trace reacted to stands behind those settled before, which gives the place.
    obtain ⟨more, hoccasions, hattempted, rfl, rfl⟩ := applyRules_returned settled.length react_eq
    have hmore : more.map Attempt.toOccasion = engine.occasionsAt trace settled.length := by
      rw [hoccasions, occasionsAt, Rulebook.under_eq_filter]
    have htraces := h.traces_eq
    simp only [Stage.traces] at htraces
    refine ⟨more, ?_, h.attempted.append hattempted, ?_, ?_⟩
    · rw [List.map_append, h.occasions_eq, hmore, occasions_concat]
    · simp only [Stage.traces, List.flatMap_append]
      rw [← List.append_assoc, ← List.append_assoc, ← htraces]
      simp
    · rw [List.flatMap_append, ← List.append_assoc, ← h.events_eq]

/-- **Every stage of a run has an account.** -/
theorem accounts_of_reacts {opening stage : Stage σ} (h : opening.settled = [])
    (hpath : Relation.ReflTransGen engine.Reacts opening stage) :
    ∃ attempts, engine.Accounts opening stage attempts := by
  induction hpath with
  | refl => exact ⟨[], .opening h⟩
  | tail _ hreacts ih =>
    obtain ⟨attempts, haccounts⟩ := ih
    obtain ⟨more, hmore⟩ := haccounts.reacts hreacts
    exact ⟨attempts ++ more, hmore⟩

/-- **Where a run stops.** Its first call fails, or it comes to a stage, of which there is an account,
and there it is cut off by the bound or stops by itself. -/
theorem cascade_stops (engine : Engine σ) (steps : Nat) (action : String) (args : List Value)
    (s : σ) :
    (∃ e t events, engine.call action args s = ⟨.failed e, t, events⟩ ∧
      engine.cascade steps action args s = ⟨.failed e, t, events⟩) ∨
    ∃ first u front stage attempts,
      engine.call action args s = ⟨.returned first, u, front⟩ ∧
      Relation.ReflTransGen engine.Passes ⟨[], [first], u, front⟩ stage ∧
      engine.Accounts ⟨[], [first], u, front⟩ stage attempts ∧
      ((stage.pending ≠ [] ∧
          engine.cascade steps action args s = ⟨.unfinished, stage.state, stage.events⟩) ∨
        ∃ run, engine.Stops stage run ∧
          engine.cascade steps action args s = concluded action first run) := by
  rcases (engine.call_finishes action args).cases s with
    ⟨first, u, front, hcall⟩ | ⟨e, u, front, hcall⟩
  · refine Or.inr ⟨first, u, front, ?_⟩
    rw [cascade_of_call_returned steps hcall]
    by_cases hcut : (engine.resume steps ⟨[], [first], u, front⟩).ending = .unfinished
    · obtain ⟨last, hpath, -, hpending, hrun⟩ := resume_unfinished hcut
      obtain ⟨attempts, haccount⟩ := accounts_of_reacts rfl (reacts_of_passes hpath)
      rw [hrun]
      exact ⟨last, attempts, hcall, hpath, haccount, Or.inl ⟨hpending, rfl⟩⟩
    · obtain ⟨stage, hpath, hstops⟩ := resume_stops hcut
      obtain ⟨attempts, haccount⟩ := accounts_of_reacts rfl (reacts_of_passes hpath)
      exact ⟨stage, attempts, hcall, hpath, haccount, Or.inr ⟨_, hstops, rfl⟩⟩
  · exact Or.inl ⟨e, u, front, hcall, cascade_of_call_failed steps hcall⟩

/-! ## The history -/

/-- **The law of histories.** A run that returned made the call it was asked for, and then one
attempt after the other, from the state the call left to the state of the run. The attempts are
those of the occasions of the history, each once, by place and then in source order. The history is
the trace of the first call and then, attempt by attempt, the traces of the rules that fired; the
calls of the run are the same, except that a rule that was declined has left calls of its guards
between them and no traces. -/
theorem cascade_history {steps : Nat} {action : String} {args : List Value} {s t : σ}
    {history : History} {events : List Event}
    (h : engine.cascade steps action args s = ⟨.returned history, t, events⟩) :
    ∃ (first : Trace) (u : σ) (attempts : List Attempt),
      engine.call action args s = ⟨.returned first, u, [.called action args]⟩ ∧
      first.action = action ∧ first.args = args ∧ first.result = history.result ∧
      engine.Attempted attempts u t ∧
      attempts.map Attempt.toOccasion = engine.occasions history.traces ∧
      history.traces = first :: attempts.flatMap (fun a => a.outcome.traces) ∧
      (∀ attempt ∈ attempts, attempt.outcome.Follows attempt.rule) ∧
      Event.calls events = first.call :: attempts.flatMap (fun a => a.outcome.calls) := by
  obtain ⟨first, u, front, last, hcall, hpath, hpending, rfl, rfl, rfl⟩ := cascade_returned h
  obtain ⟨attempts, haccount⟩ := accounts_of_reacts rfl (reacts_of_passes hpath)
  obtain ⟨haction, hargs, rfl⟩ := call_returned hcall
  have hsettled : last.settled = last.traces := by rw [Stage.traces, hpending, List.append_nil]
  refine ⟨first, u, attempts, ?_, haction, hargs, rfl, haccount.attempted, ?_,
    haccount.traces_eq, haccount.attempted.follows, ?_⟩
  · rw [hcall, Event.ofCall, Trace.call, haction, hargs]
  · rw [haccount.occasions_eq, hsettled]
  · rw [haccount.events_eq, Event.calls_append, Event.calls_append, calls_of_attempts]
    exact List.append_nil _

/-- An action that answers yes and no in turn. -/
def toggle : Action Nat :=
  fun _ calls => (.ok (.bool (calls % 2 == 0)), calls + 1)

/-- Two rules that ask the same of a toggle, so that one of them is declined. -/
def toggling : Engine Nat where
  rulebook := .ofRules [
    ⟨⟨"A.a", [], none⟩, [⟨"B.b", [], some [.lit (.bool true)]⟩], [⟨"C.c", [], none⟩], 1⟩,
    ⟨⟨"A.a", [], none⟩, [⟨"B.b", [], some [.lit (.bool true)]⟩], [⟨"C.c", [], none⟩], 4⟩]
  actions := ⟨[("A.a", toggle), ("B.b", toggle), ("C.c", toggle)], by decide⟩

/-- The history of a run of them, in which the second rule fires. -/
def toggled : History :=
  ⟨.bool true, [⟨"A.a", [], .bool true⟩, ⟨"B.b", [], .bool true⟩, ⟨"C.c", [], .bool false⟩]⟩

theorem cascade_history_toggling :
    ∃ events, toggling.cascade 3 "A.a" [] 0 = ⟨.returned toggled, 4, events⟩ ∧
      Event.calls events = [("A.a", []), ("B.b", []), ("B.b", []), ("C.c", [])] ∧
      ∃ (first : Trace) (u : Nat) (attempts : List Attempt),
        toggling.call "A.a" [] 0 = ⟨.returned first, u, [.called "A.a" []]⟩ ∧
        first.action = "A.a" ∧ first.args = [] ∧ first.result = toggled.result ∧
        toggling.Attempted attempts u 4 ∧
        attempts.map Attempt.toOccasion = toggling.occasions toggled.traces ∧
        toggled.traces = first :: attempts.flatMap (fun a => a.outcome.traces) ∧
        (∀ attempt ∈ attempts, attempt.outcome.Follows attempt.rule) ∧
        Event.calls events = first.call :: attempts.flatMap (fun a => a.outcome.calls) := by
  have hrun : toggling.cascade 3 "A.a" [] 0 =
      ⟨.returned toggled, 4, (toggling.cascade 3 "A.a" [] 0).events⟩ := rfl
  exact ⟨_, hrun, rfl, cascade_history hrun⟩

end Engine

end Synchrony
