import Mathlib.Data.Multiset.AddSub
import Synchrony.Proofs.Engine.Cap

/-!
# The order of rules

Actions that keep no state make runs in which the order of the rules does not matter. With such
actions the reaction to a trace is told by the trace: it breaks the run or yields a batch, and rules
in another order break it too or yield the same batch in another order. So a reaction is a relation
between a trace and a **multiset** of traces (`Engine.Yields`), and it is the same relation for
every order of the rules (`Engine.Yields.reordered`).

## 1. Why not level by level

The queues of two such runs hold the same traces only at the end, if there is one, and a run that
goes on for ever has no end to look at. Two facts that speak of no order take the place of a
comparison of queues.

* A run returns exactly when its first trace **unfolds** to a multiset (`Engine.Unfolds`): pick any
  trace, put in its place what it yields, and go on until nothing is left. It does not matter which
  trace is picked (`Engine.Unfolds.of_mem`), so the queue may pick the first.
* A run fails exactly when its first trace leads to a trace whose reaction breaks the run. A queue
  comes to each of its traces after finitely many reactions (`Engine.reaches_or_halts`), so it
  cannot go on for ever in front of one.
-/

set_option autoImplicit false

namespace Synchrony

/-- The answer depends on the arguments alone. -/
def Action.Pure {σ : Type} (action : Action σ) : Prop :=
  ∀ args s t, (action args s).1 = (action args t).1

/-! ## Acts that do not look at the state -/

namespace Act

variable {σ α β : Type}

/-- An act that ends in the same way from every state. -/
def Steady (act : Act σ α) : Prop :=
  ∀ s t, (act s).ending = (act t).ending

theorem Steady.pure (a : α) : Steady (Pure.pure a : Act σ α) :=
  fun _ _ => rfl

theorem Steady.fail (e : Failure) : Steady (fail e : Act σ α) :=
  fun _ _ => rfl

theorem Steady.emit (event : Event) : Steady (emit event : Act σ Unit) :=
  fun _ _ => rfl

theorem Steady.ofExcept (x : Except Failure α) : Steady (ofExcept x : Act σ α) := by
  cases x with
  | ok a => exact Steady.pure a
  | error e => exact Steady.fail e

theorem Steady.bind {act : Act σ α} {next : α → Act σ β} (hact : Steady act)
    (hnext : ∀ a, Steady (next a)) : Steady (act >>= next) := by
  intro s t
  have hending := hact s t
  rcases hs : act s with ⟨a | e | _, u, front⟩ <;> rcases ht : act t with ⟨b | e' | _, v, back⟩ <;>
    rw [hs, ht] at hending <;> cases hending
  · rw [bind_run_returned _ hs, bind_run_returned _ ht]
    exact hnext a u v
  · rw [bind_run_failed _ hs, bind_run_failed _ ht]
  · rw [bind_run_unfinished _ hs, bind_run_unfinished _ ht]

theorem Steady.attempt {act : Act σ α} (hact : Steady act) : Steady (attempt act) := by
  intro s t
  have hending := hact s t
  rcases hs : act s with ⟨a | e | _, u, front⟩ <;> rcases ht : act t with ⟨b | e' | _, v, back⟩ <;>
    rw [hs, ht] at hending <;> cases hending
  · rw [attempt_of_returned hs, attempt_of_returned ht]
  · rw [attempt_of_failed hs, attempt_of_failed ht]
  · simp only [Act.attempt, hs, ht]

/-- A steady act that returned once returns the same from everywhere. -/
theorem Steady.returned {act : Act σ α} (hact : Steady act) {s t : σ} {a : α}
    {events : List Event} (h : act s = ⟨.returned a, t, events⟩) (u : σ) :
    ∃ v more, act u = ⟨.returned a, v, more⟩ := by
  have hending := hact u s
  rw [h] at hending
  rcases hu : act u with ⟨ending, v, more⟩
  rw [hu] at hending
  exact ⟨v, more, by rw [show ending = .returned a from hending]⟩

end Act

namespace Engine

variable {σ : Type}

/-- Every action that is registered is pure. -/
def Pure (engine : Engine σ) : Prop :=
  ∀ name entry, engine.actions.get? name = some entry → Action.Pure entry

namespace Pure

variable {engine : Engine σ} (h : engine.Pure)

include h

theorem call (action : String) (args : List Value) : Act.Steady (engine.call action args) := by
  intro s t
  rcases hentry : engine.actions.get? action with _ | entry
  · rw [engine.call_unknown args s hentry, engine.call_unknown args t hentry]
  · have hanswer := h action entry hentry args s t
    rcases hs : entry args s with ⟨e | value, u⟩ <;>
      rcases ht : entry args t with ⟨e' | value', v⟩ <;> rw [hs, ht] at hanswer <;> cases hanswer
    · rw [engine.call_raised hentry hs, engine.call_raised hentry ht]
    · rw [engine.call_answered hentry hs, engine.call_answered hentry ht]

theorem perform (line : Line) (bindings : Bindings) :
    Act.Steady (engine.perform line bindings) :=
  .bind (.ofExcept _) fun _ => .bind (h.call _ _) fun _ => .bind (.ofExcept _) fun _ => .pure _

theorem performAll (lines : List Line) (bindings : Bindings) :
    Act.Steady (engine.performAll lines bindings) := by
  induction lines generalizing bindings with
  | nil => exact .pure _
  | cons line lines ih =>
    exact .bind (h.perform _ _) fun _ => .bind (ih _) fun _ => .pure _

theorem enforce (rule : Rule) (line : Line) (bindings : Bindings) :
    Act.Steady (engine.enforce rule line bindings) := by
  refine .bind (.attempt (h.perform line bindings)) fun outcome => ?_
  cases outcome with
  | ok answer => exact .pure _
  | error e =>
    cases e with
    | mismatch cause => exact .bind (.emit _) fun _ => .fail _
    | _ => exact .fail _

theorem enforceAll (rule : Rule) (lines : List Line) (bindings : Bindings) :
    Act.Steady (engine.enforceAll rule lines bindings) := by
  induction lines generalizing bindings with
  | nil => exact .pure _
  | cons line lines ih =>
    exact .bind (h.enforce _ _ _) fun _ => .bind (ih _) fun _ => .pure _

theorem applyRule (rule : Rule) (trace : Trace) : Act.Steady (engine.applyRule rule trace) := by
  have hguard : Act.Steady (engine.guard rule trace) :=
    .bind (.ofExcept _) fun _ => h.performAll _ _
  refine .bind (.attempt hguard) fun outcome => ?_
  cases outcome with
  | ok answer => exact .bind (.emit _) fun _ => .bind (h.enforceAll _ _ _) fun _ => .pure _
  | error e =>
    dsimp only
    split
    · exact .fail _
    · exact .bind (.emit _) fun _ => .pure _

theorem applyRules (trace : Trace) (rules : List Rule) :
    Act.Steady (engine.applyRules trace rules) := by
  induction rules with
  | nil => exact .pure _
  | cons rule rules ih => exact .bind (h.applyRule _ _) fun _ => .bind ih fun _ => .pure _

theorem react (trace : Trace) : Act.Steady (engine.react trace) :=
  h.applyRules trace _

/-! ## Rules in another order -/

theorem applyRules_cons {trace : Trace} {rule : Rule} {rules : List Rule} {batch : List Trace}
    (s : σ) :
    (engine.applyRules trace (rule :: rules) s).ending = .returned batch ↔
      ∃ first more, (engine.applyRule rule trace s).ending = .returned first ∧
        (engine.applyRules trace rules s).ending = .returned more ∧ batch = first ++ more := by
  constructor
  · intro hreturned
    rcases hrun : engine.applyRules trace (rule :: rules) s with ⟨ending, t, events⟩
    rw [hrun] at hreturned
    subst hreturned
    obtain ⟨first, u, front, back, hrule, hrest, -⟩ := Act.bind_returned hrun
    obtain ⟨more, v, back', tail, hrules, hpure, -⟩ := Act.bind_returned hrest
    obtain ⟨hbatch, -, -⟩ := Act.pure_run hpure
    cases hbatch
    refine ⟨first, more, by rw [hrule], ?_, rfl⟩
    rw [h.applyRules trace rules s u, hrules]
  · rintro ⟨first, more, hrule, hrules, rfl⟩
    rcases hs : engine.applyRule rule trace s with ⟨ending, u, front⟩
    rw [hs] at hrule
    subst hrule
    rw [h.applyRules trace rules s u] at hrules
    rcases hu : engine.applyRules trace rules u with ⟨ending, v, back⟩
    rw [hu] at hrules
    subst hrules
    rw [Engine.applyRules, Act.bind_run_returned _ hs, Act.bind_run_returned _ hu]
    rfl

/-- Rules in another order yield the same traces in another order. -/
theorem applyRules_perm {trace : Trace} {rules rules' : List Rule} (hperm : rules.Perm rules')
    {batch : List Trace} (s : σ)
    (hreturned : (engine.applyRules trace rules s).ending = .returned batch) :
    ∃ batch', (engine.applyRules trace rules' s).ending = .returned batch' ∧
      batch'.Perm batch := by
  induction hperm generalizing batch with
  | nil => exact ⟨batch, hreturned, List.Perm.refl _⟩
  | cons rule _ ih =>
    obtain ⟨first, more, hrule, hrules, rfl⟩ := (h.applyRules_cons s).mp hreturned
    obtain ⟨more', hrules', hmore⟩ := ih hrules
    exact ⟨first ++ more', (h.applyRules_cons s).mpr ⟨first, more', hrule, hrules', rfl⟩,
      hmore.append_left first⟩
  | swap rule rule' rules =>
    obtain ⟨first, rest, hrule, hrest, rfl⟩ := (h.applyRules_cons s).mp hreturned
    obtain ⟨second, more, hrule', hrules, rfl⟩ := (h.applyRules_cons s).mp hrest
    have hlast := (h.applyRules_cons s).mpr ⟨first, more, hrule, hrules, rfl⟩
    refine ⟨second ++ (first ++ more),
      (h.applyRules_cons s).mpr ⟨second, first ++ more, hrule', hlast, rfl⟩, ?_⟩
    rw [← List.append_assoc, ← List.append_assoc]
    exact List.perm_append_comm.append_right more
  | trans _ _ ih ih' =>
    obtain ⟨middle, hmiddle, hperm⟩ := ih hreturned
    obtain ⟨last, hlast, hperm'⟩ := ih' hmiddle
    exact ⟨last, hlast, hperm'.trans hperm⟩

end Pure

/-! ## Reactions as a relation -/

variable (engine : Engine σ)

/-- From every state, the reaction to the trace yields these traces in some order. -/
def Yields (trace : Trace) (batch : Multiset Trace) : Prop :=
  ∀ s, ∃ traces t events,
    engine.react trace s = ⟨.returned traces, t, events⟩ ∧ (traces : Multiset Trace) = batch

/-- From every state, the reaction to the trace breaks the run. -/
def BreaksOn (trace : Trace) : Prop :=
  ∀ s, ∃ e t events, engine.react trace s = ⟨.failed e, t, events⟩

variable {engine}

theorem Pure.yields (h : engine.Pure) {trace : Trace} {batch : List Trace} {s t : σ}
    {events : List Event} (hreact : engine.react trace s = ⟨.returned batch, t, events⟩) :
    engine.Yields trace batch := by
  intro u
  obtain ⟨v, more, hu⟩ := (h.react trace).returned hreact u
  exact ⟨batch, v, more, hu, rfl⟩

theorem Pure.breaksOn (h : engine.Pure) {trace : Trace} {e : Failure} {s t : σ}
    {events : List Event} (hreact : engine.react trace s = ⟨.failed e, t, events⟩) :
    engine.BreaksOn trace := by
  intro u
  have hending := h.react trace u s
  rcases hu : engine.react trace u with ⟨ending, v, more⟩
  rw [hu, hreact] at hending
  exact ⟨e, v, more, by rw [show ending = .failed e from hending]⟩

theorem Yields.unique {trace : Trace} {batch batch' : Multiset Trace} (s : σ)
    (h : engine.Yields trace batch) (h' : engine.Yields trace batch') : batch = batch' := by
  obtain ⟨traces, t, events, hreact, rfl⟩ := h s
  obtain ⟨traces', t', events', hreact', rfl⟩ := h' s
  rw [hreact] at hreact'
  cases hreact'
  rfl

theorem BreaksOn.not_yields {trace : Trace} {batch : Multiset Trace} (s : σ)
    (h : engine.BreaksOn trace) : ¬engine.Yields trace batch := by
  intro hyields
  obtain ⟨e, t, events, hreact⟩ := h s
  obtain ⟨traces, u, more, hreact', -⟩ := hyields s
  rw [hreact] at hreact'
  cases hreact'

theorem Pure.yields_or_breaksOn (h : engine.Pure) (trace : Trace) (s : σ) :
    (∃ batch, engine.Yields trace batch) ∨ engine.BreaksOn trace := by
  rcases (engine.react_finishes trace).cases s with
    ⟨batch, t, events, hreact⟩ | ⟨e, t, events, hreact⟩
  · exact Or.inl ⟨batch, h.yields hreact⟩
  · exact Or.inr (h.breaksOn hreact)

/-! ## Unfolding -/

variable (engine) in
/-- Traces unfold to all that comes of them: one of them is put into the result, what it yields
takes its place, and so on until nothing is left. -/
inductive Unfolds : Multiset Trace → Multiset Trace → Prop
  | nothing : Unfolds 0 0
  | trace {trace : Trace} {batch rest all : Multiset Trace} (yields : engine.Yields trace batch)
    (unfolds : Unfolds (batch + rest) all) : Unfolds (trace ::ₘ rest) (trace ::ₘ all)

/-- **Any of the traces may be the first to unfold.** -/
theorem Unfolds.of_mem {trace : Trace} {pending rest all : Multiset Trace}
    (h : engine.Unfolds pending all) (hpending : pending = trace ::ₘ rest) :
    ∃ batch more, engine.Yields trace batch ∧ all = trace ::ₘ more ∧
      engine.Unfolds (batch + rest) more := by
  induction h generalizing rest with
  | nothing => exact absurd hpending.symm (Multiset.cons_ne_zero)
  | @trace first batch left all yields unfolds ih =>
    rcases Multiset.cons_eq_cons.mp hpending with ⟨rfl, rfl⟩ | ⟨-, common, rfl, rfl⟩
    · exact ⟨batch, all, yields, rfl, unfolds⟩
    -- Another trace came first: it can wait until the one that is asked for has had its turn.
    · obtain ⟨batch', more, yields', rfl, unfolds'⟩ := ih (Multiset.add_cons _ _ _)
      refine ⟨batch', first ::ₘ more, yields', Multiset.cons_swap _ _ _, ?_⟩
      rw [Multiset.add_cons]
      refine .trace yields ?_
      rw [← Multiset.add_assoc, Multiset.add_comm batch, Multiset.add_assoc]
      exact unfolds'

theorem Unfolds.eq_zero_iff {pending all : Multiset Trace} (h : engine.Unfolds pending all) :
    pending = 0 ↔ all = 0 := by
  cases h with
  | nothing => exact Iff.rfl
  | trace => exact iff_of_false Multiset.cons_ne_zero Multiset.cons_ne_zero

theorem Unfolds.mono {engine' : Engine σ}
    (hyields : ∀ trace batch, engine.Yields trace batch → engine'.Yields trace batch)
    {pending all : Multiset Trace} (h : engine.Unfolds pending all) :
    engine'.Unfolds pending all := by
  induction h with
  | nothing => exact .nothing
  | trace yields _ ih => exact .trace (hyields _ _ yields) ih

/-! ## Runs that return -/

/-- The traces that a path adds are those to which its pending traces unfold. -/
theorem Pure.unfolds_of_path (h : engine.Pure) {stage last : Stage σ}
    (hpath : Relation.ReflTransGen engine.Reacts stage last) (hlast : last.pending = []) :
    ∃ all, engine.Unfolds stage.pending all ∧
      (last.traces : Multiset Trace) = stage.settled + all := by
  induction hpath using Relation.ReflTransGen.head_induction_on with
  | refl => exact ⟨0, by rw [hlast]; exact .nothing, by simp [Stage.traces, hlast]⟩
  | head hreacts _ ih =>
    obtain ⟨all, hunfolds, htraces⟩ := ih
    cases hreacts with
    | @intro settled pending batch trace s t events more react_eq =>
      have hrest : engine.Unfolds (batch + pending) all := by
        rw [Multiset.add_comm]
        exact hunfolds
      refine ⟨trace ::ₘ all, .trace (h.yields react_eq) hrest, ?_⟩
      rw [htraces]
      change ((settled ++ [trace] : List Trace) : Multiset Trace) + all = settled + trace ::ₘ all
      rw [← Multiset.coe_add, Multiset.coe_singleton, Multiset.add_assoc, Multiset.singleton_add]

/-- A loop whose pending traces unfold returns. -/
theorem Unfolds.resume {stage : Stage σ} {all : Multiset Trace}
    (h : engine.Unfolds stage.pending all) :
    ∃ steps traces t events,
      engine.uncapped.resume steps stage = ⟨.returned traces, t, events⟩ ∧
      (traces : Multiset Trace) = stage.settled + all := by
  -- The queue takes its first trace, and what comes of the rest is one trace smaller.
  induction hcard : all.card generalizing stage all with
  | zero =>
    have hall : all = 0 := Multiset.card_eq_zero.mp hcard
    have hpending : stage.pending = [] := (Multiset.coe_eq_zero _).mp (h.eq_zero_iff.mpr hall)
    refine ⟨0, _, _, _, resume_of_pending_nil 0 hpending, ?_⟩
    simp [Stage.traces, hpending, hall]
  | succ n ih =>
    obtain ⟨settled, pending, s, events⟩ := stage
    cases pending with
    | nil =>
      rw [h.eq_zero_iff.mp rfl] at hcard
      cases hcard
    | cons trace pending =>
      obtain ⟨batch, more, hyields, rfl, hrest⟩ := h.of_mem (Multiset.cons_coe trace pending).symm
      obtain ⟨traces, t, back, hreact, rfl⟩ := hyields s
      have hnext : engine.Reacts ⟨settled, trace :: pending, s, events⟩
          ⟨settled ++ [trace], pending ++ traces, t, events ++ back⟩ := .intro hreact
      have hunfolds : engine.Unfolds
          (⟨settled ++ [trace], pending ++ traces, t, events ++ back⟩ : Stage σ).pending more := by
        rw [← Multiset.coe_add, Multiset.add_comm]
        exact hrest
      have hcount : more.card = n := by
        rw [Multiset.card_cons] at hcard
        omega
      obtain ⟨steps, last, u, ends, hrun, hlast⟩ := ih hunfolds hcount
      refine ⟨steps + 1, last, u, ends, ?_, ?_⟩
      · rw [resume_uncapped_of_reacts steps hnext, hrun]
      · rw [hlast]
        change ((settled ++ [trace] : List Trace) : Multiset Trace) + more =
          settled + trace ::ₘ more
        rw [← Multiset.coe_add, Multiset.coe_singleton, Multiset.add_assoc,
          Multiset.singleton_add]

/-! ## Runs that fail -/

variable (engine) in
/-- The reaction to the first trace yields the second, among others. -/
def Begets (trace child : Trace) : Prop :=
  ∃ batch, engine.Yields trace batch ∧ child ∈ batch

/-- A loop comes to every trace that is pending, unless its reaction to one before it breaks the
run. -/
theorem reaches_or_halts (engine : Engine σ) {front back : List Trace} {trace : Trace} :
    ∀ {stage : Stage σ}, stage.pending = front ++ trace :: back →
      (∃ later rest, Relation.ReflTransGen engine.Reacts stage later ∧
        later.pending = trace :: rest) ∨
      ∃ later run, Relation.ReflTransGen engine.Reacts stage later ∧ engine.Halts later run := by
  induction front generalizing back with
  | nil => exact fun h => Or.inl ⟨_, back, .refl, h⟩
  | cons first front ih =>
    intro stage h
    rcases engine.stage_cases stage with hpending | ⟨next, hreacts⟩ | ⟨run, hhalts⟩
    · rw [hpending] at h
      cases h
    · have hnext : ∃ batch, next.pending = front ++ trace :: (back ++ batch) := by
        cases hreacts with
        | @intro settled pending batch trace' s t events more react_eq =>
          cases h
          exact ⟨batch, List.append_assoc _ _ _⟩
      obtain ⟨batch, hbatch⟩ := hnext
      rcases ih hbatch with ⟨later, rest, hpath, hlater⟩ | ⟨later, run, hpath, hhalts⟩
      · exact Or.inl ⟨later, rest, hpath.head hreacts, hlater⟩
      · exact Or.inr ⟨later, run, hpath.head hreacts, hhalts⟩
    · exact Or.inr ⟨stage, run, .refl, hhalts⟩

/-- A loop with a pending trace that leads to a break comes to a break. -/
theorem halts_of_begets {trace broken : Trace}
    (hpath : Relation.ReflTransGen engine.Begets trace broken) (hbroken : engine.BreaksOn broken)
    {stage : Stage σ} (hmem : trace ∈ stage.pending) :
    ∃ later run, Relation.ReflTransGen engine.Reacts stage later ∧ engine.Halts later run := by
  induction hpath using Relation.ReflTransGen.head_induction_on generalizing stage with
  | refl =>
    obtain ⟨front, back, hpending⟩ := List.append_of_mem hmem
    rcases engine.reaches_or_halts hpending with ⟨later, rest, hlater, hfirst⟩ | hhalts
    · obtain ⟨settled, pending, s, events⟩ := later
      obtain ⟨e, t, more, hreact⟩ := hbroken s
      cases hfirst
      exact ⟨_, _, hlater, .intro hreact⟩
    · exact hhalts
  | @head trace child hbegets _ ih =>
    obtain ⟨front, back, hpending⟩ := List.append_of_mem hmem
    rcases engine.reaches_or_halts hpending with ⟨later, rest, hlater, hfirst⟩ | hhalts
    · obtain ⟨settled, pending, s, events⟩ := later
      obtain ⟨batch, hyields, hchild⟩ := hbegets
      obtain ⟨traces, t, more, hreact, rfl⟩ := hyields s
      cases hfirst
      have hnext : engine.Reacts ⟨settled, trace :: rest, s, events⟩
          ⟨settled ++ [trace], rest ++ traces, t, events ++ more⟩ := .intro hreact
      have hmem : child ∈ (⟨settled ++ [trace], rest ++ traces, t, events ++ more⟩ :
          Stage σ).pending := List.mem_append_right _ hchild
      obtain ⟨last, run, hlast, hhalts⟩ := ih hmem
      exact ⟨last, run, hlater.trans (hlast.head hnext), hhalts⟩
    · exact hhalts

/-- Every trace of a run comes of its first. -/
theorem Pure.begets_of_path (h : engine.Pure) {first : Trace} {stage : Stage σ} {t : σ}
    {events : List Event}
    (hpath : Relation.ReflTransGen engine.Reacts ⟨[], [first], t, events⟩ stage) :
    ∀ trace ∈ stage.pending, Relation.ReflTransGen engine.Begets first trace := by
  induction hpath with
  | refl =>
    intro trace hmem
    rw [List.mem_singleton.mp hmem]
  | tail _ hreacts ih =>
    cases hreacts with
    | @intro settled pending batch trace s u before more react_eq =>
      intro next hnext
      rcases List.mem_append.mp hnext with hmem | hmem
      · exact ih next (List.mem_cons_of_mem trace hmem)
      · exact (ih trace List.mem_cons_self).tail ⟨batch, h.yields react_eq, hmem⟩

/-! ## Whole runs -/

theorem resume_uncapped_of_path {stage last : Stage σ}
    (hpath : Relation.ReflTransGen engine.Reacts stage last) :
    ∃ count, ∀ steps, engine.uncapped.resume (steps + count) stage =
      engine.uncapped.resume steps last := by
  refine resume_of_path (hpath.lift id fun before after hreacts => ⟨?_, ?_⟩)
  · exact reacts_withCap _ ▸ hreacts
  · intro limit hcap
    cases hcap

variable {action : String} {args : List Value} {s : σ}

variable (engine action args s) in
/-- The uncapped run returns this result and these traces, whatever their order. -/
def Returns (result : Value) (traces : Multiset Trace) : Prop :=
  ∃ history t events, engine.uncapped.Ends action args s ⟨.returned history, t, events⟩ ∧
    history.result = result ∧ (history.traces : Multiset Trace) = traces

/-- **When a run returns, and what.** -/
theorem Pure.returns_iff (h : engine.Pure) {result : Value} {traces : Multiset Trace} :
    engine.Returns action args s result traces ↔
    ∃ first t events, engine.call action args s = ⟨.returned first, t, events⟩ ∧
      first.result = result ∧ engine.Unfolds {first} traces := by
  constructor
  · rintro ⟨history, t, events, ⟨-, steps, hrun⟩, rfl, rfl⟩
    obtain ⟨first, u, front, last, hcall, hpasses, hpending, rfl, -, -⟩ := cascade_returned hrun
    have hpath := reacts_of_passes hpasses
    rw [reacts_withCap] at hpath
    obtain ⟨all, hunfolds, htraces⟩ := h.unfolds_of_path hpath hpending
    refine ⟨first, u, front, hcall, rfl, ?_⟩
    rw [htraces, Multiset.coe_nil, Multiset.zero_add]
    exact hunfolds
  · rintro ⟨first, t, events, hcall, rfl, hunfolds⟩
    have hopening : engine.Unfolds (⟨[], [first], t, events⟩ : Stage σ).pending traces := hunfolds
    obtain ⟨steps, all, u, more, hrun, hall⟩ := hopening.resume
    rw [Multiset.coe_nil, Multiset.zero_add] at hall
    refine ⟨⟨first.result, all⟩, u, more ++ [.settled action all], ⟨by simp, steps, ?_⟩, rfl,
      hall⟩
    rw [cascade_withCap_of_returned none steps hcall, hrun]
    rfl

/-- **When a run fails.** -/
theorem Pure.fails_iff (h : engine.Pure) :
    (∃ e, engine.uncapped.Fails action args s e) ↔
    (∃ e t events, engine.call action args s = ⟨.failed e, t, events⟩) ∨
    ∃ first t events broken, engine.call action args s = ⟨.returned first, t, events⟩ ∧
      Relation.ReflTransGen engine.Begets first broken ∧ engine.BreaksOn broken := by
  constructor
  · rintro ⟨e, t, events, -, steps, hrun⟩
    rcases (engine.call_finishes action args).cases s with
      ⟨first, u, front, hcall⟩ | ⟨e', u, front, hcall⟩
    · rw [cascade_withCap_of_returned none steps hcall] at hrun
      have hfinished : (engine.uncapped.resume steps ⟨[], [first], u, front⟩).ending ≠
          .unfinished := by
        intro hu
        rw [← concluded_unfinished_iff, hrun] at hu
        cases hu
      obtain ⟨last, hpasses, hstops⟩ := resume_stops hfinished
      have hpath := reacts_of_passes hpasses
      rw [reacts_withCap] at hpath
      generalize engine.uncapped.resume steps ⟨[], [first], u, front⟩ = run at hrun hstops
      cases hstops with
      | settled pending_eq => cases hrun
      | capped reacts cap_eq exceeds => cases cap_eq
      | halted halts =>
        rw [halts_withCap] at halts
        cases halts with
        | @intro settled pending trace v w e before more react_eq =>
          exact Or.inr ⟨first, u, front, trace, hcall,
            h.begets_of_path hpath trace List.mem_cons_self, h.breaksOn react_eq⟩
    · exact Or.inl ⟨e', u, front, hcall⟩
  · rintro (⟨e, t, events, hcall⟩ | ⟨first, t, events, broken, hcall, hpath, hbroken⟩)
    · exact ⟨e, t, events, by simp, 0, cascade_withCap_of_failed none 0 hcall⟩
    · -- The run comes to the trace that breaks it, unless another one breaks it before.
      have hmem : first ∈ (⟨[], [first], t, events⟩ : Stage σ).pending :=
        List.mem_singleton_self first
      obtain ⟨later, run, hlater, hhalts⟩ := halts_of_begets hpath hbroken hmem
      obtain ⟨count, hcount⟩ := resume_uncapped_of_path hlater
      rw [← halts_withCap none] at hhalts
      have hresume := (hcount 1).trans (resume_of_halts 0 hhalts)
      cases hhalts with
      | @intro settled pending trace u v e before more react_eq =>
        refine ⟨e, v, before ++ more, by simp, 1 + count, ?_⟩
        rw [cascade_withCap_of_returned none _ hcall, hresume]
        rfl

/-- A run returns, fails or goes on for ever. -/
theorem diverges_iff (engine : Engine σ) :
    engine.Diverges action args s ↔
      (¬∃ history t events, engine.Ends action args s ⟨.returned history, t, events⟩) ∧
        ¬∃ e, engine.Fails action args s e := by
  constructor
  · intro hdiverges
    refine ⟨?_, ?_⟩
    · rintro ⟨history, t, events, hne, steps, hrun⟩
      exact hne (hrun ▸ hdiverges steps)
    · rintro ⟨e, t, events, hne, steps, hrun⟩
      exact hne (hrun ▸ hdiverges steps)
  · rintro ⟨hreturned, hfailed⟩ steps
    rcases hrun : engine.cascade steps action args s with ⟨history | e | _, t, events⟩
    · exact absurd ⟨history, t, events, by simp, steps, hrun⟩ hreturned
    · exact absurd ⟨e, t, events, by simp, steps, hrun⟩ hfailed
    · rfl

/-! ## The order of the rules -/

theorem Yields.reordered {engine' : Engine σ} (h : engine.Pure)
    (hactions : engine'.actions = engine.actions)
    (hrules : engine.rulebook.rules.Perm engine'.rulebook.rules) {trace : Trace}
    {batch : Multiset Trace} (hyields : engine.Yields trace batch) :
    engine'.Yields trace batch := by
  intro s
  obtain ⟨traces, t, events, hreact, rfl⟩ := hyields s
  have hunder : (engine.rulebook.under trace.action).Perm
      (engine'.rulebook.under trace.action) := by
    rw [Rulebook.under_eq_filter, Rulebook.under_eq_filter]
    exact hrules.filter _
  obtain ⟨traces', hreturned, hperm⟩ := h.applyRules_perm hunder s (congrArg Run.ending hreact)
  rw [← applyRules_of_actions_eq hactions] at hreturned
  rcases hrun : engine'.react trace s with ⟨ending, u, more⟩
  have hending : ending = .returned traces' := by
    rw [react] at hrun
    rw [hrun] at hreturned
    exact hreturned
  exact ⟨traces', u, more, by rw [hending], Multiset.coe_eq_coe.mpr hperm⟩

theorem Pure.of_actions_eq {engine' : Engine σ} (h : engine.Pure)
    (hactions : engine'.actions = engine.actions) : engine'.Pure := by
  intro name entry hentry
  exact h name entry (hactions ▸ hentry)

theorem BreaksOn.reordered {engine' : Engine σ} (h : engine.Pure)
    (hactions : engine'.actions = engine.actions)
    (hrules : engine.rulebook.rules.Perm engine'.rulebook.rules) {trace : Trace} (s : σ)
    (hbreaks : engine.BreaksOn trace) : engine'.BreaksOn trace := by
  have h' := h.of_actions_eq hactions
  rcases h'.yields_or_breaksOn trace s with ⟨batch, hyields⟩ | hbreaks'
  · exact absurd (hyields.reordered h' hactions.symm hrules.symm) (hbreaks.not_yields s)
  · exact hbreaks'

theorem Returns.reordered {engine' : Engine σ} (h : engine.Pure)
    (hactions : engine'.actions = engine.actions)
    (hrules : engine.rulebook.rules.Perm engine'.rulebook.rules) {result : Value}
    {traces : Multiset Trace} (hreturns : engine.Returns action args s result traces) :
    engine'.Returns action args s result traces := by
  obtain ⟨first, t, events, hcall, hresult, hunfolds⟩ := h.returns_iff.mp hreturns
  rw [← call_of_actions_eq hactions] at hcall
  refine (h.of_actions_eq hactions).returns_iff.mpr ⟨first, t, events, hcall, hresult, ?_⟩
  exact hunfolds.mono fun trace batch hyields => hyields.reordered h hactions hrules

theorem fails_reordered {engine' : Engine σ} (h : engine.Pure)
    (hactions : engine'.actions = engine.actions)
    (hrules : engine.rulebook.rules.Perm engine'.rulebook.rules)
    (hfails : ∃ e, engine.uncapped.Fails action args s e) :
    ∃ e, engine'.uncapped.Fails action args s e := by
  refine (h.of_actions_eq hactions).fails_iff.mpr ?_
  rw [call_of_actions_eq hactions]
  rcases h.fails_iff.mp hfails with hcall | ⟨first, t, events, broken, hcall, hpath, hbroken⟩
  · exact Or.inl hcall
  · refine Or.inr ⟨first, t, events, broken, hcall, ?_, hbroken.reordered h hactions hrules s⟩
    refine Relation.ReflTransGen.mono ?_ first broken hpath
    rintro trace child ⟨batch, hyields, hchild⟩
    exact ⟨batch, hyields.reordered h hactions hrules, hchild⟩

/-- **If no action keeps a state, the order of the rules does not matter.** Under rules in another
order, a run that returned returns the same result and the same traces in some order, a run that
failed fails, though perhaps with another failure, and a run that goes on for ever does so too. -/
theorem rule_order_irrelevant {engine engine' : Engine σ} (hpure : engine.Pure)
    (hactions : engine'.actions = engine.actions)
    (hrules : engine.rulebook.rules.Perm engine'.rulebook.rules) (action : String)
    (args : List Value) (s : σ) :
    (∀ history t events,
      engine.uncapped.Ends action args s ⟨.returned history, t, events⟩ →
        ∃ history' t' events',
          engine'.uncapped.Ends action args s ⟨.returned history', t', events'⟩ ∧
          history'.result = history.result ∧ history'.traces.Perm history.traces) ∧
    ((∃ e, engine.uncapped.Fails action args s e) ↔
      ∃ e, engine'.uncapped.Fails action args s e) ∧
    (engine.uncapped.Diverges action args s ↔ engine'.uncapped.Diverges action args s) := by
  have hpure' : engine'.Pure := hpure.of_actions_eq hactions
  have hreturns (history : History) (t : σ) (events : List Event)
      (hends : engine.uncapped.Ends action args s ⟨.returned history, t, events⟩) :
      engine'.Returns action args s history.result history.traces :=
    Returns.reordered hpure hactions hrules ⟨history, t, events, hends, rfl, rfl⟩
  have hreturns' (history : History) (t : σ) (events : List Event)
      (hends : engine'.uncapped.Ends action args s ⟨.returned history, t, events⟩) :
      engine.Returns action args s history.result history.traces :=
    Returns.reordered hpure' hactions.symm hrules.symm ⟨history, t, events, hends, rfl, rfl⟩
  have hfails : (∃ e, engine.uncapped.Fails action args s e) ↔
      ∃ e, engine'.uncapped.Fails action args s e :=
    ⟨fails_reordered hpure hactions hrules, fails_reordered hpure' hactions.symm hrules.symm⟩
  refine ⟨?_, hfails, ?_⟩
  · intro history t events hends
    obtain ⟨history', t', events', hends', hresult, htraces⟩ := hreturns history t events hends
    exact ⟨history', t', events', hends', hresult, Multiset.coe_eq_coe.mp htraces⟩
  · rw [diverges_iff, diverges_iff, hfails]
    refine and_congr_left fun _ => not_congr ⟨?_, ?_⟩
    · rintro ⟨history, t, events, hends⟩
      obtain ⟨history', t', events', hends', -⟩ := hreturns history t events hends
      exact ⟨history', t', events', hends'⟩
    · rintro ⟨history, t, events, hends⟩
      obtain ⟨history', t', events', hends', -⟩ := hreturns' history t events hends
      exact ⟨history', t', events', hends'⟩

/-- Two rules that react to one action, the first with an action that sets off a third rule. -/
def forkingRules : List Rule := [
  ⟨⟨"A.a", [], none⟩, [], [⟨"B.b", [], none⟩], 1⟩,
  ⟨⟨"A.a", [], none⟩, [], [⟨"C.c", [], none⟩], 4⟩,
  ⟨⟨"B.b", [], none⟩, [], [⟨"D.d", [], none⟩], 7⟩]

theorem forking_nodup : ["A.a", "B.b", "C.c", "D.d"].Nodup := by decide

/-- An engine of these rules, with actions that count their calls and all answer yes. -/
def forking (rules : List Rule) : Engine Nat where
  rulebook := .ofRules rules
  actions := ⟨[("A.a", yes), ("B.b", yes), ("C.c", yes), ("D.d", yes)], forking_nodup⟩

theorem forking_pure (rules : List Rule) : (forking rules).Pure := by
  intro name entry hentry args s t
  simp only [forking, Registry.get?, Keyed.get?] at hentry
  split_ifs at hentry <;> cases hentry <;> rfl

def forked : History :=
  ⟨.bool true, [⟨"A.a", [], .bool true⟩, ⟨"B.b", [], .bool true⟩, ⟨"C.c", [], .bool true⟩,
    ⟨"D.d", [], .bool true⟩]⟩

theorem rule_order_irrelevant_forking :
    (forking forkingRules).Pure ∧ forkingRules.Perm forkingRules.reverse ∧
    ∃ history t events,
      (forking forkingRules.reverse).uncapped.Ends "A.a" [] 0 ⟨.returned history, t, events⟩ ∧
      history.result = forked.result ∧ history.traces.Perm forked.traces := by
  have hpure := forking_pure forkingRules
  have hperm : forkingRules.Perm forkingRules.reverse := (List.reverse_perm _).symm
  have hactions : (forking forkingRules.reverse).actions = (forking forkingRules).actions := rfl
  have hends : (forking forkingRules).uncapped.Ends "A.a" [] 0
      ⟨.returned forked, 4, ((forking forkingRules).uncapped.cascade 4 "A.a" [] 0).events⟩ :=
    ⟨by simp, 4, rfl⟩
  exact ⟨hpure, hperm, (rule_order_irrelevant hpure hactions hperm "A.a" [] 0).1 _ _ _ hends⟩

end Engine

end Synchrony
