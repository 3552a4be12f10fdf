import Mathlib.Logic.Relation
import Synchrony.Proofs.Engine.Attempts

/-!
# The stages of a run

`Engine.settle` takes one pending trace after the other and appends what the reaction to it yields.
A **stage** is where that loop stands between two reactions: the traces it has reacted to, the
traces it still has to react to, the state, and the events so far. One reaction leads from a stage
to the next (`Engine.Reacts`), whatever the cap says, and to one next stage only.

## 1. Runs as paths

A run is a path of reactions from the stage behind its first call (`Engine.Opens`). It is cut short
by a reaction that breaks it or by the cap, and it returns where nothing is pending. The equations
for `Engine.resume` say this of the loop, one reaction at a time; every statement about whole runs
is an induction over a path, or over the number of steps by way of those equations.

## 2. Ending and diverging

The number of steps that `Engine.cascade` takes is a bound on work and no part of the meaning of a
run: a run that finished with one bound ends in the same way with every larger one
(`Engine.resume_of_le`). So a run **ends** in one way at most (`Engine.Ends`), or else it
**diverges**, which is to say that it uses up every bound (`Engine.Diverges`).
-/

set_option autoImplicit false

namespace Synchrony

/-- Where the loop of a run stands between two reactions. -/
structure Stage (σ : Type) where
  settled : List Trace
  pending : List Trace
  state : σ
  events : List Event

def Stage.traces {σ : Type} (stage : Stage σ) : List Trace :=
  stage.settled ++ stage.pending

theorem Stage.settled_lt {σ : Type} (stage : Stage σ) (h : stage.pending ≠ []) :
    stage.settled.length < stage.traces.length := by
  have hpos := List.length_pos_iff.mpr h
  rw [Stage.traces, List.length_append]
  omega

namespace Engine

variable {σ : Type} (engine : Engine σ)

/-! ## Reactions -/

/-- The stage behind the first call of a run. -/
inductive Opens (action : String) (args : List Value) (s : σ) : Stage σ → Prop
  | intro {first : Trace} {t : σ} {events : List Event}
    (call_eq : engine.call action args s = ⟨.returned first, t, events⟩) :
    Opens action args s ⟨[], [first], t, events⟩

/-- One whole reaction, without a look at the cap. -/
inductive Reacts : Stage σ → Stage σ → Prop
  | intro {settled pending batch : List Trace} {trace : Trace} {s t : σ}
    {events more : List Event}
    (react_eq : engine.react trace s = ⟨.returned batch, t, more⟩) :
    Reacts ⟨settled, trace :: pending, s, events⟩
      ⟨settled ++ [trace], pending ++ batch, t, events ++ more⟩

/-- A reaction that breaks the run. -/
inductive Halts : Stage σ → Run σ (List Trace) → Prop
  | intro {settled pending : List Trace} {trace : Trace} {s t : σ} {e : Failure}
    {events more : List Event}
    (react_eq : engine.react trace s = ⟨.failed e, t, more⟩) :
    Halts ⟨settled, trace :: pending, s, events⟩ ⟨.failed e, t, events ++ more⟩

variable {engine}

theorem Reacts.unique {stage next next' : Stage σ} (h : engine.Reacts stage next)
    (h' : engine.Reacts stage next') : next = next' := by
  cases h with
  | intro react_eq =>
    cases h' with
    | intro react_eq' =>
      rw [react_eq] at react_eq'
      cases react_eq'
      rfl

theorem Opens.unique {action : String} {args : List Value} {s : σ} {stage stage' : Stage σ}
    (h : engine.Opens action args s stage) (h' : engine.Opens action args s stage') :
    stage = stage' := by
  cases h with
  | intro call_eq =>
    cases h' with
    | intro call_eq' =>
      rw [call_eq] at call_eq'
      cases call_eq'
      rfl

/-- A reaction adds to the history and to the events, and takes nothing back. -/
theorem Reacts.grows {stage next : Stage σ} (h : engine.Reacts stage next) :
    stage.traces <+: next.traces ∧ stage.events <+: next.events ∧
      next.settled.length = stage.settled.length + 1 := by
  cases h with
  | @intro settled pending batch trace s t events more react_eq =>
    refine ⟨?_, List.prefix_append _ _, by simp⟩
    simp only [Stage.traces, List.append_assoc, List.singleton_append]
    rw [← List.cons_append, ← List.append_assoc]
    exact List.prefix_append _ _

theorem reacts_grows {stage last : Stage σ}
    (h : Relation.ReflTransGen engine.Reacts stage last) :
    stage.traces <+: last.traces ∧ stage.events <+: last.events := by
  induction h with
  | refl => exact ⟨List.prefix_refl _, List.prefix_refl _⟩
  | tail _ hlast ih => exact ⟨ih.1.trans hlast.grows.1, ih.2.trans hlast.grows.2.1⟩

/-- Of two stages that can be reached from one, the one that can go no further is reached from the
other. -/
theorem reacts_to_final {stage middle last : Stage σ}
    (hmiddle : Relation.ReflTransGen engine.Reacts stage middle)
    (hlast : Relation.ReflTransGen engine.Reacts stage last) (hfinal : last.pending = []) :
    Relation.ReflTransGen engine.Reacts middle last := by
  induction hmiddle with
  | refl => exact hlast
  | tail _ hstep ih =>
    -- The path to the end is longer, or else it would end where one more reaction follows.
    rcases ih.cases_head with rfl | ⟨next, hnext, hrest⟩
    · cases hstep
      cases hfinal
    · exact hstep.unique hnext ▸ hrest

/-- Nothing is pending, or the next trace is reacted to, or the reaction breaks the run. -/
theorem stage_cases (engine : Engine σ) (stage : Stage σ) :
    stage.pending = [] ∨ (∃ next, engine.Reacts stage next) ∨ ∃ run, engine.Halts stage run := by
  obtain ⟨settled, pending, s, events⟩ := stage
  cases pending with
  | nil => exact Or.inl rfl
  | cons trace pending =>
    rcases (engine.react_finishes trace).cases s with
      ⟨batch, t, more, hreact⟩ | ⟨e, t, more, hreact⟩
    · exact Or.inr (Or.inl ⟨_, .intro hreact⟩)
    · exact Or.inr (Or.inr ⟨_, .intro hreact⟩)

/-! ## The loop, one reaction at a time -/

variable (engine)

/-- Whether the cap allows so many traces. -/
def Admits (count : Nat) : Prop :=
  ∀ limit, engine.cap = some limit → (count : Int) ≤ limit

/-- The loop from a stage on, told from the start of the run. -/
def resume (steps : Nat) (stage : Stage σ) : Run σ (List Trace) :=
  (((stage.traces ++ ·) <$> engine.settle steps stage.traces.length stage.pending)
    stage.state).behind stage.events

variable {engine}

theorem admits_or_exceeds (engine : Engine σ) (count : Nat) :
    engine.Admits count ∨ ∃ limit, engine.cap = some limit ∧ limit < count := by
  cases hcap : engine.cap with
  | none => exact Or.inl fun limit h => by rw [hcap] at h; cases h
  | some limit =>
    rcases Int.lt_or_le limit count with hlt | hle
    · exact Or.inr ⟨limit, rfl, hlt⟩
    · refine Or.inl fun limit' h => ?_
      rw [hcap] at h
      cases h
      exact hle

theorem checkCap_of_admits {count : Nat} (h : engine.Admits count) :
    engine.checkCap count = (pure () : Act σ Unit) := by
  rw [checkCap]
  cases hcap : engine.cap with
  | none => rfl
  | some limit => exact if_neg (Int.not_lt.mpr (h limit hcap))

theorem checkCap_of_exceeds {count : Nat} {limit : Int} (hcap : engine.cap = some limit)
    (h : limit < count) :
    engine.checkCap count = (Act.fail (.cascadeLimit limit) : Act σ Unit) := by
  rw [checkCap, hcap]
  exact if_pos h

theorem resume_of_pending_nil (steps : Nat) {stage : Stage σ} (h : stage.pending = []) :
    engine.resume steps stage = ⟨.returned stage.traces, stage.state, stage.events⟩ := by
  rw [resume, h]
  have hsettle : engine.settle steps stage.traces.length [] = (pure [] : Act σ (List Trace)) := by
    cases steps <;> rfl
  rw [hsettle, map_pure, List.append_nil, Act.pure_apply, Run.behind_mk, List.append_nil]

theorem resume_zero {stage : Stage σ} (h : stage.pending ≠ []) :
    engine.resume 0 stage = ⟨.unfinished, stage.state, stage.events⟩ := by
  obtain ⟨settled, pending, s, events⟩ := stage
  cases pending with
  | nil => exact absurd rfl h
  | cons trace pending =>
    change (⟨.unfinished, s, []⟩ : Run σ (List Trace)).behind events = _
    rw [Run.behind_mk, List.append_nil]

/-- The loop behind a reaction: a look at the cap, and then the loop from the next stage. -/
theorem resume_of_reacts (steps : Nat) {stage next : Stage σ} (h : engine.Reacts stage next) :
    engine.resume (steps + 1) stage =
      ((do
        engine.checkCap next.traces.length
        (next.traces ++ ·) <$> engine.settle steps next.traces.length next.pending : Act σ _)
        next.state).behind next.events := by
  cases h with
  | @intro settled pending batch trace s t events more react_eq =>
    -- The loop carries a number of traces and appends what is new; a stage has all of them.
    have hcount : (settled ++ trace :: pending).length + batch.length =
        (settled ++ [trace] ++ (pending ++ batch)).length := by
      simp only [List.length_append, List.length_cons, List.length_nil]
      omega
    have htraces (rest : List Trace) : settled ++ trace :: pending ++ (batch ++ rest) =
        settled ++ [trace] ++ (pending ++ batch) ++ rest := by simp
    simp only [resume, settle, map_bind, map_pure, Stage.traces]
    rw [Act.bind_run_returned _ react_eq, Run.behind_behind, hcount]
    simp only [htraces, map_eq_pure_bind]

theorem resume_of_admits (steps : Nat) {stage next : Stage σ} (h : engine.Reacts stage next)
    (hcap : engine.Admits next.traces.length) :
    engine.resume (steps + 1) stage = engine.resume steps next := by
  rw [resume_of_reacts steps h, checkCap_of_admits hcap, pure_bind]
  rfl

theorem resume_of_exceeds (steps : Nat) {stage next : Stage σ} {limit : Int}
    (h : engine.Reacts stage next) (hcap : engine.cap = some limit)
    (hlimit : limit < next.traces.length) :
    engine.resume (steps + 1) stage =
      ⟨.failed (.cascadeLimit limit), next.state, next.events⟩ := by
  rw [resume_of_reacts steps h, checkCap_of_exceeds hcap hlimit, Act.fail_bind, Act.fail_apply,
    Run.behind_mk, List.append_nil]

theorem resume_of_halts (steps : Nat) {stage : Stage σ} {run : Run σ (List Trace)}
    (h : engine.Halts stage run) : engine.resume (steps + 1) stage = run := by
  cases h with
  | @intro settled pending trace s t e events more react_eq =>
    simp only [resume, settle, map_bind]
    rw [Act.bind_run_failed _ react_eq, Run.behind_mk]

/-- A loop that is not cut off by its bound does the same with a larger one. -/
theorem resume_of_le {steps more : Nat} {stage : Stage σ}
    (h : (engine.resume steps stage).ending ≠ .unfinished) (hle : steps ≤ more) :
    engine.resume more stage = engine.resume steps stage := by
  -- Both bounds go down together; the smaller one is used up only where nothing is pending.
  induction steps generalizing more stage with
  | zero =>
    by_cases hpending : stage.pending = []
    · rw [resume_of_pending_nil _ hpending, resume_of_pending_nil _ hpending]
    · exact absurd (by rw [resume_zero hpending]) h
  | succ steps ih =>
    obtain ⟨more, rfl⟩ : ∃ n, more = n + 1 := ⟨more - 1, by omega⟩
    rcases engine.stage_cases stage with hpending | ⟨next, hreacts⟩ | ⟨run, hhalts⟩
    · rw [resume_of_pending_nil _ hpending, resume_of_pending_nil _ hpending]
    · rcases engine.admits_or_exceeds next.traces.length with hadmits | ⟨limit, hcap, hlimit⟩
      · rw [resume_of_admits steps hreacts hadmits] at h ⊢
        rw [resume_of_admits more hreacts hadmits]
        exact ih h (by omega)
      · rw [resume_of_exceeds steps hreacts hcap hlimit,
          resume_of_exceeds more hreacts hcap hlimit]
    · rw [resume_of_halts _ hhalts, resume_of_halts _ hhalts]

/-! ## Paths -/

variable (engine)

def Passes (stage next : Stage σ) : Prop :=
  engine.Reacts stage next ∧ engine.Admits next.traces.length

/-- How the loop can stop at a stage. -/
inductive Stops (stage : Stage σ) : Run σ (List Trace) → Prop
  | settled (pending_eq : stage.pending = []) :
    Stops stage ⟨.returned stage.traces, stage.state, stage.events⟩
  | halted {run : Run σ (List Trace)} (halts : engine.Halts stage run) : Stops stage run
  | capped {next : Stage σ} {limit : Int} (reacts : engine.Reacts stage next)
    (cap_eq : engine.cap = some limit) (exceeds : limit < next.traces.length) :
    Stops stage ⟨.failed (.cascadeLimit limit), next.state, next.events⟩

variable {engine}

theorem reacts_of_passes {stage last : Stage σ}
    (h : Relation.ReflTransGen engine.Passes stage last) :
    Relation.ReflTransGen engine.Reacts stage last := by
  induction h with
  | refl => exact .refl
  | tail _ hpasses ih => exact ih.tail hpasses.1

/-- The loop follows a path that the cap allows. -/
theorem resume_of_path {stage last : Stage σ}
    (hpath : Relation.ReflTransGen engine.Passes stage last) :
    ∃ count, ∀ steps, engine.resume (steps + count) stage = engine.resume steps last := by
  induction hpath using Relation.ReflTransGen.head_induction_on with
  | refl => exact ⟨0, fun steps => rfl⟩
  | head hpasses _ ih =>
    obtain ⟨count, hcount⟩ := ih
    refine ⟨count + 1, fun steps => ?_⟩
    rw [← Nat.add_assoc, resume_of_admits _ hpasses.1 hpasses.2, hcount]

/-- **A loop that is not cut off by its bound follows a path and stops at its end.** -/
theorem resume_stops {steps : Nat} {stage : Stage σ}
    (h : (engine.resume steps stage).ending ≠ .unfinished) :
    ∃ last, Relation.ReflTransGen engine.Passes stage last ∧
      engine.Stops last (engine.resume steps stage) := by
  induction steps generalizing stage with
  | zero =>
    by_cases hpending : stage.pending = []
    · rw [resume_of_pending_nil _ hpending]
      exact ⟨stage, .refl, .settled hpending⟩
    · exact absurd (by rw [resume_zero hpending]) h
  | succ steps ih =>
    rcases engine.stage_cases stage with hpending | ⟨next, hreacts⟩ | ⟨run, hhalts⟩
    · rw [resume_of_pending_nil _ hpending]
      exact ⟨stage, .refl, .settled hpending⟩
    · rcases engine.admits_or_exceeds next.traces.length with hadmits | ⟨limit, hcap, hlimit⟩
      · rw [resume_of_admits steps hreacts hadmits] at h ⊢
        obtain ⟨last, hpath, hstops⟩ := ih h
        exact ⟨last, hpath.head ⟨hreacts, hadmits⟩, hstops⟩
      · rw [resume_of_exceeds steps hreacts hcap hlimit]
        exact ⟨stage, .refl, .capped hreacts hcap hlimit⟩
    · rw [resume_of_halts _ hhalts]
      exact ⟨stage, .refl, .halted hhalts⟩

/-- A loop that is cut off by its bound has reacted as often as the bound says, and something is
pending. -/
theorem resume_unfinished {steps : Nat} {stage : Stage σ}
    (h : (engine.resume steps stage).ending = .unfinished) :
    ∃ last, Relation.ReflTransGen engine.Passes stage last ∧
      last.settled.length = stage.settled.length + steps ∧ last.pending ≠ [] ∧
      engine.resume steps stage = ⟨.unfinished, last.state, last.events⟩ := by
  induction steps generalizing stage with
  | zero =>
    have hpending : stage.pending ≠ [] := by
      intro hnil
      rw [resume_of_pending_nil _ hnil] at h
      cases h
    exact ⟨stage, .refl, rfl, hpending, resume_zero hpending⟩
  | succ steps ih =>
    rcases engine.stage_cases stage with hpending | ⟨next, hreacts⟩ | ⟨run, hhalts⟩
    · rw [resume_of_pending_nil _ hpending] at h
      cases h
    · rcases engine.admits_or_exceeds next.traces.length with hadmits | ⟨limit, hcap, hlimit⟩
      · rw [resume_of_admits steps hreacts hadmits] at h ⊢
        obtain ⟨last, hpath, hcount, hstopped⟩ := ih h
        refine ⟨last, hpath.head ⟨hreacts, hadmits⟩, ?_, hstopped⟩
        rw [hcount, hreacts.grows.2.2]
        omega
      · rw [resume_of_exceeds steps hreacts hcap hlimit] at h
        cases h
    · rw [resume_of_halts _ hhalts] at h
      cases hhalts
      cases h

/-! ## Whole runs -/

/-- A run of the loop as a run of the whole: what it returned becomes a history, and the history is
told at the end. -/
def concluded (action : String) (first : Trace) : Run σ (List Trace) → Run σ History
  | ⟨.returned traces, t, events⟩ =>
    ⟨.returned ⟨first.result, traces⟩, t, events ++ [.settled action traces]⟩
  | ⟨.failed e, t, events⟩ => ⟨.failed e, t, events⟩
  | ⟨.unfinished, t, events⟩ => ⟨.unfinished, t, events⟩

theorem cascade_of_call_failed (steps : Nat) {action : String} {args : List Value} {s t : σ}
    {e : Failure} {events : List Event}
    (h : engine.call action args s = ⟨.failed e, t, events⟩) :
    engine.cascade steps action args s = ⟨.failed e, t, events⟩ := by
  rw [cascade, Act.bind_run_failed _ h]

theorem cascade_of_call_returned (steps : Nat) {action : String} {args : List Value} {s t : σ}
    {first : Trace} {events : List Event}
    (h : engine.call action args s = ⟨.returned first, t, events⟩) :
    engine.cascade steps action args s =
      concluded action first (engine.resume steps ⟨[], [first], t, events⟩) := by
  rw [cascade, Act.bind_run_returned _ h, resume]
  change _ = concluded action first (Run.behind events
    (((first :: ·) <$> engine.settle steps 1 [first]) t))
  rcases hsettle : engine.settle steps 1 [first] t with ⟨more | e | _, u, back⟩
  · rw [map_eq_pure_bind, Act.bind_run_returned _ hsettle, Act.bind_run_returned _ hsettle]
    simp [concluded, Act.bind_run_returned _ (Act.emit_apply _ u)]
  · rw [map_eq_pure_bind, Act.bind_run_failed _ hsettle, Act.bind_run_failed _ hsettle]
    rfl
  · rw [map_eq_pure_bind, Act.bind_run_unfinished _ hsettle, Act.bind_run_unfinished _ hsettle]
    rfl

theorem concluded_unfinished_iff {action : String} {first : Trace} {run : Run σ (List Trace)} :
    (concluded action first run).ending = .unfinished ↔ run.ending = .unfinished := by
  obtain ⟨traces | e | _, t, events⟩ := run <;> simp [concluded]

theorem calls_concluded (action : String) (first : Trace) (run : Run σ (List Trace)) :
    Event.calls (concluded action first run).events = Event.calls run.events := by
  obtain ⟨traces | e | _, t, events⟩ := run
  · rw [concluded, Event.calls_append]
    exact List.append_nil _
  · rfl
  · rfl

/-- A run that returned made its first call, followed a path, and stopped where nothing was
pending. -/
theorem cascade_returned {steps : Nat} {action : String} {args : List Value} {s t : σ}
    {history : History} {events : List Event}
    (h : engine.cascade steps action args s = ⟨.returned history, t, events⟩) :
    ∃ (first : Trace) (u : σ) (front : List Event) (last : Stage σ),
      engine.call action args s = ⟨.returned first, u, front⟩ ∧
      Relation.ReflTransGen engine.Passes ⟨[], [first], u, front⟩ last ∧
      last.pending = [] ∧ history = ⟨first.result, last.traces⟩ ∧ t = last.state ∧
      events = last.events ++ [.settled action last.traces] := by
  rcases (engine.call_finishes action args).cases s with
    ⟨first, u, front, hcall⟩ | ⟨e, u, front, hcall⟩
  · rw [cascade_of_call_returned steps hcall] at h
    have hfinished : (engine.resume steps ⟨[], [first], u, front⟩).ending ≠ .unfinished := by
      intro hu
      rw [← concluded_unfinished_iff, h] at hu
      cases hu
    obtain ⟨last, hpath, hstops⟩ := resume_stops hfinished
    generalize engine.resume steps ⟨[], [first], u, front⟩ = run at h hstops
    cases hstops with
    | settled pending_eq =>
      cases h
      exact ⟨first, u, front, last, hcall, hpath, pending_eq, rfl, rfl, rfl⟩
    | halted halts =>
      cases halts
      cases h
    | capped reacts cap_eq exceeds => cases h
  · rw [cascade_of_call_failed steps hcall] at h
    cases h

theorem cascade_of_le {steps more : Nat} {action : String} {args : List Value} {s : σ}
    (h : (engine.cascade steps action args s).ending ≠ .unfinished) (hle : steps ≤ more) :
    engine.cascade more action args s = engine.cascade steps action args s := by
  rcases (engine.call_finishes action args).cases s with
    ⟨first, t, events, hcall⟩ | ⟨e, t, events, hcall⟩
  · rw [cascade_of_call_returned _ hcall] at h ⊢
    rw [cascade_of_call_returned _ hcall,
      resume_of_le (fun hu => h (concluded_unfinished_iff.mpr hu)) hle]
  · rw [cascade_of_call_failed _ hcall, cascade_of_call_failed _ hcall]

variable (engine)

/-- A run comes to this end, whatever bound lets it. -/
def Ends (action : String) (args : List Value) (s : σ) (run : Run σ History) : Prop :=
  run.ending ≠ .unfinished ∧ ∃ steps, engine.cascade steps action args s = run

/-- A run uses up every bound. -/
def Diverges (action : String) (args : List Value) (s : σ) : Prop :=
  ∀ steps, (engine.cascade steps action args s).ending = .unfinished

variable {engine}

/-- **A run ends in one way at most.** -/
theorem Ends.unique {action : String} {args : List Value} {s : σ} {run run' : Run σ History}
    (h : engine.Ends action args s run) (h' : engine.Ends action args s run') : run = run' := by
  obtain ⟨hne, steps, rfl⟩ := h
  obtain ⟨hne', steps', rfl⟩ := h'
  rcases Nat.le_total steps steps' with hle | hle
  · exact (cascade_of_le hne hle).symm
  · exact cascade_of_le hne' hle

end Engine

end Synchrony
