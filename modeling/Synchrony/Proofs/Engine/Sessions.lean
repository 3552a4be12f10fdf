import Mathlib.Data.List.Induction
import Synchrony.Proofs.Engine.Likeness

/-!
# Flat rules and sessions

## 1. Flat rules

Rules are **flat** if the calls that they make set off no rules themselves. A run on such rules
is its first call and one reaction (`Engine.Ends.flat`): whatever the cap says, it is looked at
behind that reaction, and nothing changes the state from there on.

## 2. Sessions

A **session** is a row of runs, each from the state that the run before it left, however that one
ended. It is told by its visits: which call was made, and in which state. What holds at the start
and is kept by every run of a session holds at its end (`Engine.Session.invariant`).

## 3. Series

Where every single run matters, and not only where they lead, a session is told as a **series**: the
runs themselves, in order (`Engine.Series`). Two series go side by side as their runs do.
-/

set_option autoImplicit false

namespace Synchrony

/-- The calls that the rules make set off no rules. -/
def Rulebook.Flat (rulebook : Rulebook) : Prop :=
  ∀ rule ∈ rulebook.rules, ∀ line ∈ rule.ownLines, rulebook.under line.action = []

namespace Engine

variable {σ : Type} {engine : Engine σ}

/-! ## Traces that set nothing off -/

/-- The pending traces set off no rules. -/
def Quiet (engine : Engine σ) (stage : Stage σ) : Prop :=
  ∀ trace ∈ stage.pending, engine.rulebook.under trace.action = []

theorem react_of_under_nil {trace : Trace} (h : engine.rulebook.under trace.action = []) (s : σ) :
    engine.react trace s = ⟨.returned [], s, []⟩ := by
  rw [react, h]
  rfl

theorem Quiet.reacts {stage next : Stage σ} (h : engine.Quiet stage)
    (hreacts : engine.Reacts stage next) : engine.Quiet next ∧ next.state = stage.state := by
  cases hreacts with
  | @intro settled pending batch trace s t events more react_eq =>
    rw [react_of_under_nil (h trace List.mem_cons_self)] at react_eq
    cases react_eq
    refine ⟨?_, rfl⟩
    intro trace' hmem
    rw [List.append_nil] at hmem
    exact h trace' (List.mem_cons_of_mem _ hmem)

theorem Quiet.not_halts {stage : Stage σ} {run : Run σ (List Trace)} (h : engine.Quiet stage) :
    ¬engine.Halts stage run := by
  rintro ⟨react_eq⟩
  rw [react_of_under_nil (h _ List.mem_cons_self)] at react_eq
  cases react_eq

/-- So many steps are enough for so many traces that set nothing off. -/
theorem Quiet.resume_finishes {stage : Stage σ} {steps : Nat} (h : engine.Quiet stage)
    (hsteps : stage.pending.length ≤ steps) :
    (engine.resume steps stage).ending ≠ .unfinished := by
  induction steps generalizing stage with
  | zero =>
    rw [resume_of_pending_nil _ (List.length_eq_zero_iff.mp (Nat.le_zero.mp hsteps))]
    exact fun hu => by cases hu
  | succ steps ih =>
    rcases engine.stage_cases stage with hpending | ⟨next, hreacts⟩ | ⟨run, hhalts⟩
    · rw [resume_of_pending_nil _ hpending]
      exact fun hu => by cases hu
    · rcases engine.admits_or_exceeds next.traces.length with hadmits | ⟨limit, hcap, hlimit⟩
      · rw [resume_of_admits steps hreacts hadmits]
        refine ih (h.reacts hreacts).1 ?_
        cases hreacts with
        | @intro settled pending batch trace s t events more react_eq =>
          rw [react_of_under_nil (h trace List.mem_cons_self)] at react_eq
          cases react_eq
          simpa using hsteps
      · rw [resume_of_exceeds steps hreacts hcap hlimit]
        exact fun hu => by cases hu
    · exact absurd hhalts h.not_halts

theorem Quiet.passes {stage last : Stage σ} (h : engine.Quiet stage)
    (hpath : Relation.ReflTransGen engine.Passes stage last) :
    engine.Quiet last ∧ last.state = stage.state := by
  induction hpath with
  | refl => exact ⟨h, rfl⟩
  | tail _ hpasses ih =>
    obtain ⟨hquiet, hstate⟩ := ih.1.reacts hpasses.1
    exact ⟨hquiet, hstate.trans ih.2⟩

theorem Quiet.stops {stage : Stage σ} {run : Run σ (List Trace)} (h : engine.Quiet stage)
    (hstops : engine.Stops stage run) : run.state = stage.state := by
  cases hstops with
  | settled pending_eq => rfl
  | halted halts => exact absurd halts h.not_halts
  | capped reacts cap_eq exceeds => exact (h.reacts reacts).2

/-! ## Runs on flat rules -/

/-- What a reaction on flat rules yields sets nothing off. -/
theorem under_of_react (hflat : engine.rulebook.Flat) {trace : Trace} {batch : List Trace}
    {s t : σ} {events : List Event}
    (h : engine.react trace s = ⟨.returned batch, t, events⟩) :
    ∀ trace ∈ batch, engine.rulebook.under trace.action = [] := by
  obtain ⟨attempts, hoccasions, hattempted, rfl, -⟩ := applyRules_returned 0 h
  intro trace' hmem
  obtain ⟨attempt, hattempt, htrace⟩ := List.mem_flatMap.mp hmem
  have hrule : attempt.rule ∈ engine.rulebook.rules := by
    have hunder := List.mem_map_of_mem (f := fun a => a.rule) hattempt
    rw [rules_of_occasions hoccasions, Rulebook.under_eq_filter] at hunder
    exact (List.mem_filter.mp hunder).1
  obtain ⟨line, hline, haction⟩ :=
    (hattempted.follows attempt hattempt).mem_traces htrace
  rw [← haction]
  exact hflat attempt.rule hrule line hline

theorem quiet_of_reacts (hflat : engine.rulebook.Flat) {first : Trace} {s : σ}
    {events : List Event} {next : Stage σ}
    (h : engine.Reacts ⟨[], [first], s, events⟩ next) : engine.Quiet next := by
  cases h with
  | intro react_eq => exact under_of_react hflat react_eq

/-- **A run on flat rules is its first call and the reaction to it.** -/
theorem Ends.flat (hflat : engine.rulebook.Flat) {action : String} {args : List Value}
    {s : σ} {run : Run σ History} (h : engine.Ends action args s run) :
    (∃ e events, engine.call action args s = ⟨.failed e, run.state, events⟩ ∧
      run.ending = .failed e) ∨
    ∃ first t events, engine.call action args s = ⟨.returned first, t, events⟩ ∧
      run.state = (engine.react first t).state ∧
      ∀ history, run.ending = .returned history →
        history.result = first.result ∧
          ∃ batch, (engine.react first t).ending = .returned batch := by
  obtain ⟨hne, steps, rfl⟩ := h
  rcases (engine.call_finishes action args).cases s with
    ⟨first, t, events, hcall⟩ | ⟨e, t, events, hcall⟩
  · refine Or.inr ⟨first, t, events, hcall, ?_⟩
    rw [cascade_of_call_returned steps hcall] at hne ⊢
    obtain ⟨last, hpath, hstops⟩ := resume_stops fun hu => hne (concluded_unfinished_iff.mpr hu)
    generalize engine.resume steps ⟨[], [first], t, events⟩ = run at hne hstops ⊢
    rcases hpath.cases_head with rfl | ⟨next, hnext, hrest⟩
    -- The first reaction is the last one: it breaks the run, or the cap does behind it.
    · cases hstops with
      | settled pending_eq => cases pending_eq
      | halted halts =>
        cases halts with
        | intro react_eq => exact ⟨by rw [react_eq]; rfl, fun history hh => by cases hh⟩
      | capped reacts cap_eq exceeds =>
        cases reacts with
        | intro react_eq => exact ⟨by rw [react_eq]; rfl, fun history hh => by cases hh⟩
    · have hquiet := quiet_of_reacts hflat hnext.1
      have hlast := hquiet.passes hrest
      have hstate := hlast.1.stops hstops
      cases hnext.1 with
      | @intro _ _ batch _ _ u _ more react_eq =>
        have hrun : run.state = u := hstate.trans hlast.2
        rw [react_eq]
        obtain ⟨traces | e | _, v, back⟩ := run
        · exact ⟨hrun, fun history hh => by cases hh; exact ⟨rfl, batch, rfl⟩⟩
        · exact ⟨hrun, fun history hh => by cases hh⟩
        · exact absurd rfl hne
  · rw [cascade_of_call_failed steps hcall]
    exact Or.inl ⟨e, events, hcall, rfl⟩

theorem Ends.state_of_returned (hflat : engine.rulebook.Flat) {action : String}
    {args : List Value} {s t : σ} {run : Run σ History} {first : Trace} {events : List Event}
    (h : engine.Ends action args s run)
    (hcall : engine.call action args s = ⟨.returned first, t, events⟩) :
    run.state = (engine.react first t).state := by
  rcases h.flat hflat with ⟨e, events', hcall', -⟩ | ⟨first', t', events', hcall', hstate, -⟩
  · rw [hcall] at hcall'
    cases hcall'
  · rw [hcall] at hcall'
    cases hcall'
    exact hstate

/-- Every run on flat rules comes to an end. -/
theorem ends_of_flat (hflat : engine.rulebook.Flat) (action : String)
    (args : List Value) (s : σ) : ∃ run, engine.Ends action args s run := by
  rcases (engine.call_finishes action args).cases s with
    ⟨first, t, events, hcall⟩ | ⟨e, t, events, hcall⟩
  · have hfinishes : ∃ steps,
        (engine.resume steps ⟨[], [first], t, events⟩).ending ≠ .unfinished := by
      rcases (engine.react_finishes first).cases t with
        ⟨batch, u, more, hreact⟩ | ⟨e, u, more, hreact⟩
      · have hreacts : engine.Reacts ⟨[], [first], t, events⟩ _ := .intro hreact
        refine ⟨batch.length + 1, ?_⟩
        rcases engine.admits_or_exceeds _ with hadmits | ⟨limit, hcap, hlimit⟩
        · rw [resume_of_admits _ hreacts hadmits]
          exact (quiet_of_reacts hflat hreacts).resume_finishes (Nat.le_refl _)
        · rw [resume_of_exceeds _ hreacts hcap hlimit]
          exact fun hu => by cases hu
      · refine ⟨1, ?_⟩
        rw [resume_of_halts _ (.intro hreact)]
        exact fun hu => by cases hu
    obtain ⟨steps, hsteps⟩ := hfinishes
    refine ⟨engine.cascade steps action args s, ?_, steps, rfl⟩
    rw [cascade_of_call_returned steps hcall]
    exact fun hu => hsteps (concluded_unfinished_iff.mp hu)
  · refine ⟨⟨.failed e, t, events⟩, ?_, 0, cascade_of_call_failed 0 hcall⟩
    exact fun hu => by cases hu

end Engine

/-! ## Sessions -/

/-- A run of a session, by its call and the state it starts from. -/
structure Visit (σ : Type) where
  action : String
  args : List Value
  state : σ

namespace Engine

variable {σ : Type} (engine : Engine σ)

/-- The visits of a session and the state it comes to. -/
inductive Session (start : σ) : List (Visit σ) → σ → Prop
  | nil : Session start [] start
  | snoc {visits : List (Visit σ)} {s : σ} {action : String} {args : List Value}
    {run : Run σ History} (before : Session start visits s)
    (ends : engine.Ends action args s run) :
    Session start (visits ++ [⟨action, args, s⟩]) run.state

variable {engine}

/-- **What the start has and every run keeps, a session keeps.** -/
theorem Session.invariant {start t : σ} {visits : List (Visit σ)} {I : List (Visit σ) → σ → Prop}
    {Allowed : Visit σ → Prop} (h : engine.Session start visits t)
    (hallowed : ∀ visit ∈ visits, Allowed visit) (hstart : I [] start)
    (hstep : ∀ (visits : List (Visit σ)) (visit : Visit σ) (run : Run σ History), Allowed visit →
      I visits visit.state → engine.Ends visit.action visit.args visit.state run →
      I (visits ++ [visit]) run.state) :
    I visits t := by
  induction h with
  | nil => exact hstart
  | @snoc visits s action args run before ends ih =>
    refine hstep visits ⟨action, args, s⟩ run (hallowed _ (by simp)) (ih ?_) ends
    exact fun visit hmem => hallowed visit (List.mem_append_left _ hmem)

/-- Where every run ends, every row of calls makes a session. -/
theorem exists_session (hends : ∀ action args s, ∃ run, engine.Ends action args s run)
    (start : σ) (calls : List (String × List Value)) :
    ∃ visits t, engine.Session start visits t ∧
      visits.map (fun visit => (visit.action, visit.args)) = calls := by
  induction calls using List.reverseRecOn with
  | nil => exact ⟨[], start, .nil, rfl⟩
  | append_singleton calls call ih =>
    obtain ⟨visits, s, hsession, hcalls⟩ := ih
    obtain ⟨run, hrun⟩ := hends call.1 call.2 s
    exact ⟨_, _, hsession.snoc hrun, by simp [hcalls]⟩

/-! ## Series -/

variable (engine) in
/-- The runs of a row of calls, each from the state that the run before it left. -/
inductive Series : σ → List (String × List Value) → List (Run σ History) → Prop
  | nil {s : σ} : Series s [] []
  | cons {s : σ} {action : String} {args : List Value} {calls : List (String × List Value)}
    {run : Run σ History} {runs : List (Run σ History)} (ends : engine.Ends action args s run)
    (rest : Series run.state calls runs) : Series s ((action, args) :: calls) (run :: runs)

/-- A row of calls makes one series at most. -/
theorem Series.unique {s : σ} {calls : List (String × List Value)} {runs runs' : List (Run σ History)}
    (h : engine.Series s calls runs) (h' : engine.Series s calls runs') : runs = runs' := by
  induction h generalizing runs' with
  | nil =>
    cases h'
    rfl
  | cons ends _ ih =>
    cases h' with
    | cons ends' rest' =>
      obtain rfl := ends.unique ends'
      rw [ih rest']

/-- Where every run ends, every row of calls makes a series. -/
theorem exists_series (hends : ∀ action args s, ∃ run, engine.Ends action args s run) (s : σ)
    (calls : List (String × List Value)) : ∃ runs, engine.Series s calls runs := by
  induction calls generalizing s with
  | nil => exact ⟨[], .nil⟩
  | cons call calls ih =>
    obtain ⟨run, hrun⟩ := hends call.1 call.2 s
    obtain ⟨runs, hruns⟩ := ih run.state
    exact ⟨run :: runs, .cons hrun hruns⟩

/-- **Series go side by side as their runs do.** If runs of calls that are alike are akin from all
states that are alike, then so are the runs of two series, one by one. -/
theorem Series.akin {L : Likeness σ} {A : History → History → Prop} {engine' : Engine σ}
    (hruns : ∀ call call' s s', L.call call call' → L.state s s' → ∀ steps,
      (engine.cascade steps call.1 call.2 s).Akin L A (engine'.cascade steps call'.1 call'.2 s'))
    {calls calls' : List (String × List Value)} (hcalls : List.Forall₂ L.call calls calls')
    {s s' : σ} (hstate : L.state s s') {runs : List (Run σ History)}
    (h : engine.Series s calls runs) :
    ∃ runs', engine'.Series s' calls' runs' ∧ List.Forall₂ (Run.Akin L A) runs runs' := by
  induction h generalizing calls' s' with
  | nil =>
    cases hcalls
    exact ⟨[], .nil, .nil⟩
  | @cons s action args calls run runs ends rest ih =>
    cases hcalls with
    | @cons _ call' _ calls' hcall hcalls =>
      obtain ⟨run', hends', hakin⟩ := ends.akin (hruns _ call' s s' hcall hstate)
      obtain ⟨runs', hseries, hrest⟩ := ih hcalls hakin.state
      exact ⟨run' :: runs', .cons hends' hseries, .cons hakin hrest⟩

end Engine

end Synchrony
