import Synchrony.Engine.Cascade
import Synchrony.Proofs.Engine.Acts

/-!
# What the lines of a rule do

The engine reaches the outside world in one place only: it performs a line. `Performs` lists the
four things that can come of that, with everything that was checked on the way, and
`Engine.perform_cases` says that nothing else can. All that is said about guards, consequences and
whole rules below comes from it.

## 1. Calls

The calls of a run are a view of its events (`Event.calls`). Lines that are performed one after the
other call their actions in order, and each of them at most once, so whatever the ending is, the
actions called are the actions of some of the lines from the front (`Engine.performAll_events`).

## 2. Guards and consequences

A guard is performed as it is. A consequence is performed too, and what is added is a verdict on
its failure (`Rule.verdict`), so the consequences of a rule do what the same lines would do as
guards: they return the same traces or fail at the same call, from the same state and with the same
calls made (`Engine.enforceAll_of_returned`, `Engine.enforceAll_of_failsAt`).
-/

set_option autoImplicit false

namespace Synchrony

/-! ## Calls among events -/

/-- The event of a call. -/
def Event.ofCall (call : String × List Value) : Event :=
  .called call.1 call.2

/-- The calls among some events, in order. -/
def Event.calls (events : List Event) : List (String × List Value) :=
  events.filterMap Event.call?

def Trace.call (trace : Trace) : String × List Value :=
  (trace.action, trace.args)

@[simp] theorem Event.calls_nil : Event.calls [] = [] := rfl

@[simp] theorem Event.calls_append (front back : List Event) :
    Event.calls (front ++ back) = Event.calls front ++ Event.calls back :=
  List.filterMap_append

theorem Event.calls_cons_ofCall (call : String × List Value) (events : List Event) :
    Event.calls (Event.ofCall call :: events) = call :: Event.calls events := rfl

@[simp] theorem Event.calls_cons_fired (rule : Rule) (events : List Event) :
    Event.calls (.fired rule :: events) = Event.calls events := rfl

@[simp] theorem Event.calls_map_ofCall (calls : List (String × List Value)) :
    Event.calls (calls.map Event.ofCall) = calls := by
  induction calls with
  | nil => rfl
  | cons call rest ih => rw [List.map_cons, Event.calls_cons_ofCall, ih]

/-! ## The verdict on a consequence -/

/-- What a run fails with when a consequence fails: a mismatch is a violation of the rule, and
every other failure stands as it is. -/
def Rule.verdict (rule : Rule) (line : Line) : Failure → Failure
  | .mismatch cause => .violation rule.anchor line.action (.mismatch cause)
  | e => e

def Rule.complaints (rule : Rule) (line : Line) : Failure → List Event
  | .mismatch cause => [.violated rule line.action cause]
  | _ => []

/-- Nothing becomes an unknown action by a verdict. -/
theorem Rule.eq_of_verdict_unknown {rule : Rule} {line : Line} {e : Failure} {name : String}
    (h : rule.verdict line e = .unknownAction name) : e = .unknownAction name := by
  cases e with
  | mismatch cause => cases h
  | _ => exact h

theorem Rule.calls_complaints (rule : Rule) (line : Line) (e : Failure) :
    Event.calls (rule.complaints line e) = [] := by
  cases e <;> rfl

namespace Engine

variable {σ : Type} (engine : Engine σ)

/-! ## One call -/

theorem call_unknown {action : String} (args : List Value) (s : σ)
    (hentry : engine.actions.get? action = none) :
    engine.call action args s = ⟨.failed (.unknownAction action), s, []⟩ := by
  simp only [call, Registry.get, hentry]
  rfl

theorem call_raised {action : String} {args : List Value} {s t : σ} {entry : Action σ}
    {e : Failure} (hentry : engine.actions.get? action = some entry)
    (hrun : entry args s = (.error e, t)) :
    engine.call action args s = ⟨.failed e, t, [.called action args]⟩ := by
  have hcall : Act.call entry args s = ⟨.failed e, t, []⟩ := by simp only [Act.call, hrun]
  simp only [call, Registry.get, hentry, Act.ofExcept_ok, pure_bind]
  rw [Act.bind_run_returned _ (Act.emit_apply _ s), Act.bind_run_failed _ hcall]
  rfl

theorem call_answered {action : String} {args : List Value} {s t : σ} {entry : Action σ}
    {value : Value} (hentry : engine.actions.get? action = some entry)
    (hrun : entry args s = (.ok value, t)) :
    engine.call action args s =
      ⟨.returned ⟨action, args, value⟩, t, [.called action args]⟩ := by
  have hcall : Act.call entry args s = ⟨.returned value, t, []⟩ := by simp only [Act.call, hrun]
  simp only [call, Registry.get, hentry, Act.ofExcept_ok, pure_bind]
  rw [Act.bind_run_returned _ (Act.emit_apply _ s), Act.bind_run_returned _ hcall]
  rfl

/-- **Everything that a call can do.** -/
theorem call_cases (action : String) (args : List Value) (s : σ) :
    (engine.actions.get? action = none ∧
      engine.call action args s = ⟨.failed (.unknownAction action), s, []⟩) ∨
    ∃ entry t, engine.actions.get? action = some entry ∧
      ((∃ e, entry args s = (.error e, t) ∧
        engine.call action args s = ⟨.failed e, t, [.called action args]⟩) ∨
      ∃ value, entry args s = (.ok value, t) ∧
        engine.call action args s =
          ⟨.returned ⟨action, args, value⟩, t, [.called action args]⟩) := by
  rcases hentry : engine.actions.get? action with _ | entry
  · exact Or.inl ⟨rfl, engine.call_unknown args s hentry⟩
  · rcases hrun : entry args s with ⟨e | value, t⟩
    · exact Or.inr ⟨entry, t, rfl, Or.inl ⟨e, hrun, engine.call_raised hentry hrun⟩⟩
    · exact Or.inr ⟨entry, t, rfl, Or.inr ⟨value, hrun, engine.call_answered hentry hrun⟩⟩

theorem call_finishes (action : String) (args : List Value) :
    Act.Finishes (engine.call action args) :=
  .bind (.ofExcept _) fun _ => .bind (.emit _) fun _ => .bind (.call _ _) fun _ => .pure _

/-- What is called and how it answers is told by the actions: the rules and the cap have no say. -/
theorem call_of_actions_eq {engine engine' : Engine σ} (h : engine'.actions = engine.actions)
    (action : String) (args : List Value) : engine'.call action args = engine.call action args := by
  simp only [call, h]

/-! ## One line -/

/-- What can come of performing a line. -/
inductive Performs (line : Line) (bindings : Bindings) (s : σ) : Run σ (Bindings × Trace) → Prop
  /-- An argument is a variable without a value. -/
  | unbound {mismatch : Mismatch} (args_eq : bindings.arguments line = .error mismatch) :
    Performs line bindings s ⟨.failed (.mismatch mismatch), s, []⟩
  /-- The call does not return. -/
  | uncalled {args : List Value} {e : Failure} {t : σ} {events : List Event}
    (args_eq : bindings.arguments line = .ok args)
    (call_eq : engine.call line.action args s = ⟨.failed e, t, events⟩) :
    Performs line bindings s ⟨.failed e, t, events⟩
  /-- The call returns, and its trace does not fit the line. -/
  | misfit {args : List Value} {trace : Trace} {t : σ} {events : List Event} {e : Failure}
    {after : Bindings} (args_eq : bindings.arguments line = .ok args)
    (call_eq : engine.call line.action args s = ⟨.returned trace, t, events⟩)
    (fit_eq : bindings.fitTrace trace line = (some e, after)) :
    Performs line bindings s ⟨.failed e, t, events⟩
  | answered {args : List Value} {trace : Trace} {t : σ} {events : List Event}
    {after : Bindings} (args_eq : bindings.arguments line = .ok args)
    (call_eq : engine.call line.action args s = ⟨.returned trace, t, events⟩)
    (fit_eq : bindings.fitTrace trace line = (none, after)) :
    Performs line bindings s ⟨.returned (after, trace), t, events⟩

/-- **Everything that performing a line can do.** -/
theorem perform_cases (line : Line) (bindings : Bindings) (s : σ) :
    engine.Performs line bindings s (engine.perform line bindings s) := by
  rcases hargs : bindings.arguments line with mismatch | args
  · simp only [perform, argumentsOf, hargs]
    exact .unbound hargs
  · simp only [perform, argumentsOf, hargs, Act.ofExcept_ok, pure_bind]
    rcases (engine.call_finishes line.action args).cases s with
      ⟨trace, t, events, hcall⟩ | ⟨e, t, events, hcall⟩
    · rw [Act.bind_run_returned _ hcall]
      rcases hfit : bindings.fitTrace trace line with ⟨_ | e, after⟩
      · simp only [fitted, hfit, Act.ofExcept_ok, pure_bind, Act.pure_apply, Run.behind_mk,
          List.append_nil]
        exact .answered hargs hcall hfit
      · simp only [fitted, hfit, Act.ofExcept_error, Act.fail_bind, Act.fail_apply,
          Run.behind_mk, List.append_nil]
        exact .misfit hargs hcall hfit
    · rw [Act.bind_run_failed _ hcall]
      exact .uncalled hargs hcall

variable {engine}

theorem call_returned {action : String} {args : List Value} {s t : σ} {trace : Trace}
    {events : List Event} (h : engine.call action args s = ⟨.returned trace, t, events⟩) :
    trace.action = action ∧ trace.args = args ∧ events = [Event.ofCall trace.call] := by
  rcases engine.call_cases action args s with
    ⟨-, hrun⟩ | ⟨entry, u, -, ⟨e, -, hrun⟩ | ⟨value, -, hrun⟩⟩
  · rw [hrun] at h
    cases h
  · rw [hrun] at h
    cases h
  · rw [hrun] at h
    cases h
    exact ⟨rfl, rfl, rfl⟩

/-- However a call ends, its events are at most one call, and of its own action. -/
theorem call_events (engine : Engine σ) (action : String) (args : List Value) (s : σ) :
    (engine.call action args s).events = [] ∨
      (engine.call action args s).events = [Event.ofCall (action, args)] := by
  rcases engine.call_cases action args s with
    ⟨-, hrun⟩ | ⟨entry, u, -, ⟨e, -, hrun⟩ | ⟨value, -, hrun⟩⟩
  · exact Or.inl (by rw [hrun])
  · exact Or.inr (by rw [hrun]; rfl)
  · exact Or.inr (by rw [hrun]; rfl)

theorem perform_returned {line : Line} {bindings after : Bindings} {trace : Trace} {s t : σ}
    {events : List Event}
    (h : engine.perform line bindings s = ⟨.returned (after, trace), t, events⟩) :
    trace.action = line.action ∧ events = [Event.ofCall trace.call] := by
  have hcases := engine.perform_cases line bindings s
  rw [h] at hcases
  cases hcases with
  | answered args_eq call_eq fit_eq =>
    obtain ⟨haction, -, hevents⟩ := call_returned call_eq
    exact ⟨haction, hevents⟩

theorem perform_events (engine : Engine σ) (line : Line) (bindings : Bindings) (s : σ) :
    (engine.perform line bindings s).events = [] ∨
      ∃ args, (engine.perform line bindings s).events = [Event.ofCall (line.action, args)] := by
  have hcall (args : List Value) {run : Run σ Trace}
      (h : engine.call line.action args s = run) :
      run.events = [] ∨ ∃ args, run.events = [Event.ofCall (line.action, args)] := by
    rcases engine.call_events line.action args s with he | he
    · exact Or.inl (h ▸ he)
    · exact Or.inr ⟨args, h ▸ he⟩
  have hcases := engine.perform_cases line bindings s
  generalize engine.perform line bindings s = run at hcases ⊢
  cases hcases with
  | unbound args_eq => exact Or.inl rfl
  | uncalled args_eq call_eq => exact hcall _ call_eq
  | misfit args_eq call_eq fit_eq => exact hcall _ call_eq
  | answered args_eq call_eq fit_eq => exact hcall _ call_eq

theorem perform_finishes (engine : Engine σ) (line : Line) (bindings : Bindings) :
    Act.Finishes (engine.perform line bindings) :=
  .bind (.ofExcept _) fun _ => .bind (engine.call_finishes _ _) fun _ =>
    .bind (.ofExcept _) fun _ => .pure _

/-! ## Lines in a row -/

/-- Lines that return are a line that returns and lines that return behind it. -/
theorem performAll_cons_returned {line : Line} {lines : List Line} {bindings after : Bindings}
    {traces : List Trace} {s t : σ} {events : List Event}
    (h : engine.performAll (line :: lines) bindings s = ⟨.returned (after, traces), t, events⟩) :
    ∃ middle trace more u front back,
      engine.perform line bindings s = ⟨.returned (middle, trace), u, front⟩ ∧
      engine.performAll lines middle u = ⟨.returned (after, more), t, back⟩ ∧
      traces = trace :: more ∧ events = front ++ back := by
  obtain ⟨⟨middle, trace⟩, u, front, back, hline, hrest, rfl⟩ := Act.bind_returned h
  obtain ⟨⟨last, more⟩, v, back, none, hlines, hpure, rfl⟩ := Act.bind_returned hrest
  obtain ⟨hreturned, rfl, rfl⟩ := Act.pure_run hpure
  cases hreturned
  exact ⟨middle, trace, more, u, front, back, hline, hlines, rfl, by rw [List.append_nil]⟩

theorem performAll_nil_returned {bindings after : Bindings} {traces : List Trace} {s t : σ}
    {events : List Event}
    (h : engine.performAll [] bindings s = ⟨.returned (after, traces), t, events⟩) :
    after = bindings ∧ traces = [] ∧ t = s ∧ events = [] := by
  obtain ⟨hreturned, rfl, rfl⟩ := Act.pure_run h
  cases hreturned
  exact ⟨rfl, rfl, rfl, rfl⟩

/-- What one line keeps of the bindings, and what it makes sure of its trace, all lines do. -/
theorem performAll_keeps_bindings {I : Bindings → Prop} {Q : Trace → Prop} {lines : List Line}
    (hline : ∀ line ∈ lines, ∀ bindings after trace s t events, I bindings →
      engine.perform line bindings s = ⟨.returned (after, trace), t, events⟩ → I after ∧ Q trace)
    {bindings after : Bindings} {traces : List Trace} {s t : σ} {events : List Event}
    (h : I bindings)
    (hrun : engine.performAll lines bindings s = ⟨.returned (after, traces), t, events⟩) :
    I after ∧ ∀ trace ∈ traces, Q trace := by
  induction lines generalizing bindings traces s events with
  | nil =>
    obtain ⟨rfl, rfl, -, -⟩ := performAll_nil_returned hrun
    exact ⟨h, fun trace hmem => absurd hmem List.not_mem_nil⟩
  | cons line lines ih =>
    obtain ⟨middle, trace, more, u, front, back, hfirst, hrest, rfl, -⟩ :=
      performAll_cons_returned hrun
    obtain ⟨hmiddle, htrace⟩ := hline line List.mem_cons_self _ _ _ _ _ _ h hfirst
    obtain ⟨hafter, hmore⟩ :=
      ih (fun line hmem => hline line (List.mem_cons_of_mem _ hmem)) hmiddle hrest
    exact ⟨hafter, List.forall_mem_cons.mpr ⟨htrace, hmore⟩⟩

theorem performAll_returned {lines : List Line} {bindings after : Bindings}
    {traces : List Trace} {s t : σ} {events : List Event}
    (h : engine.performAll lines bindings s = ⟨.returned (after, traces), t, events⟩) :
    traces.map Trace.action = lines.map Line.action ∧
      events = (traces.map Trace.call).map Event.ofCall := by
  induction lines generalizing bindings after traces s t events with
  | nil =>
    obtain ⟨-, rfl, -, rfl⟩ := performAll_nil_returned h
    exact ⟨rfl, rfl⟩
  | cons line lines ih =>
    obtain ⟨middle, trace, more, u, front, back, hline, hlines, rfl, rfl⟩ :=
      performAll_cons_returned h
    obtain ⟨haction, rfl⟩ := perform_returned hline
    obtain ⟨hactions, rfl⟩ := ih hlines
    exact ⟨by simp [haction, hactions], by simp⟩

/-- However lines end, their events are calls, of their actions from the front. -/
theorem performAll_events {lines : List Line} {bindings : Bindings} {s t : σ}
    {ending : Ending (Bindings × List Trace)} {events : List Event}
    (h : engine.performAll lines bindings s = ⟨ending, t, events⟩) :
    events = (Event.calls events).map Event.ofCall ∧
      (Event.calls events).map Prod.fst <+: lines.map Line.action := by
  induction lines generalizing bindings s t ending events with
  | nil =>
    obtain ⟨-, -, rfl⟩ := Act.pure_run h
    exact ⟨rfl, List.nil_prefix⟩
  | cons line lines ih =>
    -- The line at which the row stops has made one call at most, and that is its own.
    have hstopped {run : Run σ (Bindings × Trace)}
        (hline : engine.perform line bindings s = run) :
        run.events = (Event.calls run.events).map Event.ofCall ∧
          (Event.calls run.events).map Prod.fst <+: (line :: lines).map Line.action := by
      rcases hline ▸ engine.perform_events line bindings s with he | ⟨args, he⟩
      · rw [he]
        exact ⟨rfl, List.nil_prefix⟩
      · rw [he]
        exact ⟨rfl, List.cons_prefix_cons.mpr ⟨rfl, List.nil_prefix⟩⟩
    rcases Act.bind_cases h with
      ⟨⟨after, trace⟩, u, front, back, hline, hrest, rfl⟩ | ⟨e, hline, -⟩ | ⟨hline, -⟩
    · obtain ⟨haction, rfl⟩ := perform_returned hline
      have hlines : back = (Event.calls back).map Event.ofCall ∧
          (Event.calls back).map Prod.fst <+: lines.map Line.action := by
        rcases Act.bind_cases hrest with
          ⟨_, v, front', back', hlines, hpure, rfl⟩ | ⟨e, hlines, -⟩ | ⟨hlines, -⟩
        · obtain ⟨-, -, rfl⟩ := Act.pure_run hpure
          rw [List.append_nil]
          exact ih hlines
        · exact ih hlines
        · exact ih hlines
      obtain ⟨hcalls, hfront⟩ := hlines
      rw [List.singleton_append, Event.calls_cons_ofCall]
      refine ⟨?_, List.cons_prefix_cons.mpr ⟨haction, hfront⟩⟩
      rw [List.map_cons, ← hcalls]
    · exact hstopped hline
    · exact hstopped hline

theorem performAll_finishes (engine : Engine σ) (lines : List Line) (bindings : Bindings) :
    Act.Finishes (engine.performAll lines bindings) := by
  induction lines generalizing bindings with
  | nil => exact .pure _
  | cons line lines ih =>
    exact .bind (engine.perform_finishes _ _) fun _ => .bind (ih _) fun _ => .pure _

/-- Lines behind others that return go on from what these have bound. -/
theorem performAll_append_of_returned {front : List Line} (back : List Line)
    {bindings reached : Bindings} {traces : List Trace} {s t : σ} {events : List Event}
    (h : engine.performAll front bindings s = ⟨.returned (reached, traces), t, events⟩) :
    engine.performAll (front ++ back) bindings s =
      (((fun answer => (answer.1, traces ++ answer.2)) <$> engine.performAll back reached)
        t).behind events := by
  induction front generalizing bindings traces s events with
  | nil =>
    obtain ⟨rfl, rfl, rfl, rfl⟩ := performAll_nil_returned h
    simp [Run.behind]
  | cons line front ih =>
    obtain ⟨middle, trace, more, u, first, rest, hline, hfront, rfl, rfl⟩ :=
      performAll_cons_returned h
    rw [List.cons_append, performAll, Act.bind_run_returned _ hline]
    dsimp only
    rw [Act.bind_behind _ (ih hfront), Run.behind_behind]
    simp only [map_eq_pure_bind, bind_assoc, pure_bind, List.cons_append]

variable (engine) in
/-- Lines that fail at this one of them, when all lines before it have been performed. -/
inductive FailsAt (lines : List Line) (bindings : Bindings) (s : σ) (line : Line) :
    Run σ (Bindings × List Trace) → Prop
  | intro {before after : List Line} {reached : Bindings} {traces : List Trace} {u t : σ}
    {front back : List Event} {e : Failure} (lines_eq : lines = before ++ line :: after)
    (before_eq : engine.performAll before bindings s = ⟨.returned (reached, traces), u, front⟩)
    (line_eq : engine.perform line reached u = ⟨.failed e, t, back⟩) :
    FailsAt lines bindings s line ⟨.failed e, t, front ++ back⟩

theorem performAll_failed {lines : List Line} {bindings : Bindings} {s t : σ} {e : Failure}
    {events : List Event} (h : engine.performAll lines bindings s = ⟨.failed e, t, events⟩) :
    ∃ line, engine.FailsAt lines bindings s line ⟨.failed e, t, events⟩ := by
  induction lines generalizing bindings s events with
  | nil =>
    obtain ⟨hfailed, -, -⟩ := Act.pure_run h
    cases hfailed
  | cons first lines ih =>
    rcases Act.bind_failed h with ⟨⟨b, trace⟩, u, front, back, hfirst, hrest, rfl⟩ | hfirst
    · rcases Act.bind_failed hrest with ⟨_, v, _, _, -, hpure, -⟩ | hlines
      · obtain ⟨hfailed, -, -⟩ := Act.pure_run hpure
        cases hfailed
      · obtain ⟨line, hfails⟩ := ih hlines
        refine ⟨line, ?_⟩
        cases hfails with
        | @intro before after reached traces v t front' back' e lines_eq before_eq line_eq =>
          have hbefore : engine.performAll (first :: before) bindings s =
              ⟨.returned (reached, trace :: traces), v, front ++ front'⟩ := by
            rw [performAll, Act.bind_run_returned _ hfirst]
            dsimp only
            rw [Act.bind_run_returned _ before_eq, Act.pure_apply, Run.behind_mk, Run.behind_mk,
              List.append_nil]
          have hlines_eq : first :: lines = (first :: before) ++ line :: after := by
            rw [lines_eq, List.cons_append]
          rw [← List.append_assoc]
          exact .intro hlines_eq hbefore line_eq
    · have hnone : engine.performAll [] bindings s = ⟨.returned (bindings, []), s, []⟩ := rfl
      exact ⟨first, .intro rfl hnone hfirst⟩

theorem FailsAt.performAll {lines : List Line} {bindings : Bindings} {s : σ} {line : Line}
    {run : Run σ (Bindings × List Trace)} (h : engine.FailsAt lines bindings s line run) :
    engine.performAll lines bindings s = run := by
  cases h with
  | @intro before after reached traces u t front back e lines_eq before_eq line_eq =>
    have hfails : engine.performAll (line :: after) reached u = ⟨.failed e, t, back⟩ := by
      rw [Engine.performAll, Act.bind_run_failed _ line_eq]
    rw [lines_eq, performAll_append_of_returned _ before_eq, map_eq_pure_bind,
      Act.bind_run_failed _ hfails, Run.behind_mk]

/-- Lines that fail at one of them fail there whatever comes behind them. -/
theorem FailsAt.append {front : List Line} {bindings : Bindings} {s : σ} {line : Line}
    {run : Run σ (Bindings × List Trace)} (h : engine.FailsAt front bindings s line run)
    (back : List Line) : engine.FailsAt (front ++ back) bindings s line run := by
  cases h with
  | @intro before after reached traces u t front' back' e lines_eq before_eq line_eq =>
    have hlines : front ++ back = before ++ line :: (after ++ back) := by
      rw [lines_eq, List.append_assoc, List.cons_append]
    exact .intro hlines before_eq line_eq

theorem performAll_of_actions_eq {engine engine' : Engine σ}
    (h : engine'.actions = engine.actions) (lines : List Line) (bindings : Bindings) :
    engine'.performAll lines bindings = engine.performAll lines bindings := by
  induction lines generalizing bindings with
  | nil => rfl
  | cons line lines ih => simp only [performAll, perform, call_of_actions_eq h, ih]

/-! ## Consequences -/

theorem enforce_of_returned (rule : Rule) {line : Line} {bindings : Bindings} {s t : σ}
    {answer : Bindings × Trace} {events : List Event}
    (h : engine.perform line bindings s = ⟨.returned answer, t, events⟩) :
    engine.enforce rule line bindings s = ⟨.returned answer, t, events⟩ := by
  rw [enforce, Act.bind_run_returned _ (Act.attempt_of_returned h)]
  simp

/-- Enforcing a consequence that fails is performing it and passing the verdict. -/
theorem enforce_of_failed (rule : Rule) {line : Line} {bindings : Bindings} {s t : σ}
    {e : Failure} {events : List Event}
    (h : engine.perform line bindings s = ⟨.failed e, t, events⟩) :
    engine.enforce rule line bindings s =
      ⟨.failed (rule.verdict line e), t, events ++ rule.complaints line e⟩ := by
  rw [enforce, Act.bind_run_returned _ (Act.attempt_of_failed h)]
  cases e with
  | mismatch cause =>
    dsimp only
    rw [Act.bind_run_returned _ (Act.emit_apply _ t)]
    simp [Rule.verdict, Rule.complaints]
  | _ => simp [Rule.verdict, Rule.complaints]

/-- Consequences behind others that do not fail go on from what these have bound. -/
theorem enforceAll_append_of_returned (rule : Rule) {front : List Line} (back : List Line)
    {bindings reached : Bindings} {traces : List Trace} {s t : σ} {events : List Event}
    (h : engine.performAll front bindings s = ⟨.returned (reached, traces), t, events⟩) :
    engine.enforceAll rule (front ++ back) bindings s =
      (((traces ++ ·) <$> engine.enforceAll rule back reached) t).behind events := by
  induction front generalizing bindings traces s events with
  | nil =>
    obtain ⟨rfl, rfl, rfl, rfl⟩ := performAll_nil_returned h
    simp [Run.behind]
  | cons line front ih =>
    obtain ⟨middle, trace, more, u, first, rest, hline, hfront, rfl, rfl⟩ :=
      performAll_cons_returned h
    rw [List.cons_append, enforceAll, Act.bind_run_returned _ (enforce_of_returned rule hline)]
    dsimp only
    rw [Act.bind_behind _ (ih hfront), Run.behind_behind]
    simp only [map_eq_pure_bind, bind_assoc, pure_bind, List.cons_append]

theorem enforceAll_of_returned (rule : Rule) {lines : List Line} {bindings after : Bindings}
    {traces : List Trace} {s t : σ} {events : List Event}
    (h : engine.performAll lines bindings s = ⟨.returned (after, traces), t, events⟩) :
    engine.enforceAll rule lines bindings s = ⟨.returned traces, t, events⟩ := by
  have hlines := enforceAll_append_of_returned rule [] h
  rw [List.append_nil, enforceAll, map_pure, List.append_nil, Act.pure_apply, Run.behind_mk,
    List.append_nil] at hlines
  exact hlines

/-- Consequences fail where the same lines fail, with a verdict on the line that failed. -/
theorem enforceAll_of_failsAt (rule : Rule) {lines : List Line} {bindings : Bindings} {s t : σ}
    {line : Line} {e : Failure} {events : List Event}
    (h : engine.FailsAt lines bindings s line ⟨.failed e, t, events⟩) :
    engine.enforceAll rule lines bindings s =
      ⟨.failed (rule.verdict line e), t, events ++ rule.complaints line e⟩ := by
  cases h with
  | @intro before after reached traces u t front back e lines_eq before_eq line_eq =>
    have hfails : engine.enforceAll rule (line :: after) reached u =
        ⟨.failed (rule.verdict line e), t, back ++ rule.complaints line e⟩ := by
      rw [enforceAll, Act.bind_run_failed _ (enforce_of_failed rule line_eq)]
    rw [lines_eq, enforceAll_append_of_returned rule _ before_eq, map_eq_pure_bind,
      Act.bind_run_failed _ hfails, Run.behind_mk, List.append_assoc]

theorem enforceAll_of_actions_eq {engine engine' : Engine σ}
    (h : engine'.actions = engine.actions) (rule : Rule) (lines : List Line)
    (bindings : Bindings) :
    engine'.enforceAll rule lines bindings = engine.enforceAll rule lines bindings := by
  induction lines generalizing bindings with
  | nil => rfl
  | cons line lines ih => simp only [enforceAll, enforce, perform, call_of_actions_eq h, ih]

/-! ## What becomes of the state -/

variable (engine)

/-- A line whose arguments are known leaves the state that its call leaves. -/
theorem perform_state {line : Line} {bindings : Bindings} {args : List Value} (s : σ)
    (hargs : bindings.arguments line = .ok args) :
    (engine.perform line bindings s).state = (engine.call line.action args s).state := by
  have hcases := engine.perform_cases line bindings s
  generalize engine.perform line bindings s = run at hcases ⊢
  cases hcases with
  | unbound args_eq =>
    rw [hargs] at args_eq
    cases args_eq
  | uncalled args_eq call_eq =>
    rw [hargs] at args_eq
    cases args_eq
    rw [call_eq]
  | misfit args_eq call_eq fit_eq =>
    rw [hargs] at args_eq
    cases args_eq
    rw [call_eq]
  | answered args_eq call_eq fit_eq =>
    rw [hargs] at args_eq
    cases args_eq
    rw [call_eq]

theorem perform_answered {line : Line} {bindings after : Bindings} {args : List Value}
    {trace : Trace} {s t : σ} {events : List Event} (hargs : bindings.arguments line = .ok args)
    (hcall : engine.call line.action args s = ⟨.returned trace, t, events⟩)
    (hfit : bindings.fitTrace trace line = (none, after)) :
    engine.perform line bindings s = ⟨.returned (after, trace), t, events⟩ := by
  simp only [perform, argumentsOf, hargs, Act.ofExcept_ok, pure_bind]
  rw [Act.bind_run_returned _ hcall]
  simp only [fitted, hfit, Act.ofExcept_ok, pure_bind, Act.pure_apply, Run.behind_mk,
    List.append_nil]

theorem performAll_single {line : Line} {bindings after : Bindings} {trace : Trace} {s t : σ}
    {events : List Event}
    (h : engine.perform line bindings s = ⟨.returned (after, trace), t, events⟩) :
    engine.performAll [line] bindings s = ⟨.returned (after, [trace]), t, events⟩ := by
  rw [performAll, Act.bind_run_returned _ h]
  exact congrArg (Run.mk _ t) (List.append_nil events)

/-- Lines leave the state that the first of them leaves, if it fails, and otherwise the state that
the others leave from there on. -/
theorem performAll_cons_state (line : Line) (lines : List Line) (bindings : Bindings) (s : σ) :
    (∃ e t events, engine.perform line bindings s = ⟨.failed e, t, events⟩ ∧
      (engine.performAll (line :: lines) bindings s).state = t) ∨
    ∃ after trace t events, engine.perform line bindings s = ⟨.returned (after, trace), t, events⟩ ∧
      (engine.performAll (line :: lines) bindings s).state =
        (engine.performAll lines after t).state := by
  rcases (engine.perform_finishes line bindings).cases s with
    ⟨⟨after, trace⟩, t, events, hline⟩ | ⟨e, t, events, hline⟩
  · refine Or.inr ⟨after, trace, t, events, hline, ?_⟩
    rw [performAll, Act.bind_run_returned _ hline]
    dsimp only
    rcases (engine.performAll_finishes lines after).cases t with
      ⟨answer, u, back, hlines⟩ | ⟨e, u, back, hlines⟩
    · rw [Act.bind_run_returned _ hlines, hlines]
      rfl
    · rw [Act.bind_run_failed _ hlines, hlines]
      rfl
  · refine Or.inl ⟨e, t, events, hline, ?_⟩
    rw [performAll, Act.bind_run_failed _ hline]

theorem performAll_single_state (line : Line) (bindings : Bindings) (s : σ) :
    (engine.performAll [line] bindings s).state = (engine.perform line bindings s).state := by
  rcases engine.performAll_cons_state line [] bindings s with
    ⟨e, t, events, hline, hstate⟩ | ⟨after, trace, t, events, hline, hstate⟩
  · rw [hstate, hline]
  · rw [hstate, hline]
    rfl

end Engine

end Synchrony
