import Synchrony.Proofs.Engine.Cap

/-!
# The work of a capped run

A cap on the number of traces also bounds the work of a run, whether its rules have cycles or not,
although the cap looks at traces only: guards that are abandoned make calls that leave no trace, and
a reaction may overshoot the cap before that is noticed.

Both are settled by counting reactions. A reaction makes no more calls than the rules under its
action have lines of their own, however many of them leave a trace (`Engine.react_calls`). So the
calls up to a stage are the first one and, for every trace that has been reacted to, what the most
laborious anchor asks for (`Engine.Metered`). And a trace that is reacted to is one of the traces
that passed the last look at the cap, which are no more than it allows.
-/

set_option autoImplicit false

namespace Synchrony

namespace Rulebook

variable (rulebook : Rulebook)

/-- The lines that the rules under an action perform themselves. -/
def load (action : String) : Nat :=
  ((rulebook.under action).map fun rule => rule.guards.length + rule.consequences.length).sum

/-- The largest load of an anchor. -/
def heaviest : Nat :=
  (rulebook.anchors.map rulebook.load).max?.getD 0

theorem length_leads (action : String) : (rulebook.leads action).length = rulebook.load action := by
  rw [leads_eq, List.length_map, List.length_flatMap, load]
  simp only [Rule.ownLines, List.length_append]

theorem load_le_heaviest (action : String) : rulebook.load action ≤ rulebook.heaviest := by
  cases hrules : rulebook.get? action with
  | none =>
    rw [load, under, hrules]
    exact Nat.zero_le _
  | some rules =>
    have hanchor : action ∈ rulebook.anchors :=
      List.mem_map_of_mem (f := Prod.fst) (Keyed.mem_of_get? hrules)
    exact List.le_max?_getD_of_mem (List.mem_map_of_mem hanchor)

end Rulebook

namespace Engine

variable {σ : Type} {engine : Engine σ} {stage next : Stage σ}

theorem react_calls_le (engine : Engine σ) (trace : Trace) (s : σ) :
    (Event.calls (engine.react trace s).events).length ≤ engine.rulebook.heaviest := by
  have hcalls := (engine.react_calls trace s).length_le
  rw [List.length_map, Rulebook.length_leads] at hcalls
  exact hcalls.trans (engine.rulebook.load_le_heaviest trace.action)

variable (engine) in
/-- The most calls that a run can make until it has reacted to so many traces. -/
def allowance (count : Nat) : Nat :=
  1 + count * engine.rulebook.heaviest

theorem allowance_mono {count more : Nat} (h : count ≤ more) :
    engine.allowance count ≤ engine.allowance more :=
  Nat.add_le_add_left (Nat.mul_le_mul_right _ h) 1

variable (engine) in
/-- Up to a stage there have been no more calls than its reactions account for. -/
def Metered (stage : Stage σ) : Prop :=
  (Event.calls stage.events).length ≤ engine.allowance stage.settled.length

theorem Metered.opens {action : String} {args : List Value} {s : σ}
    (h : engine.Opens action args s stage) : engine.Metered stage := by
  cases h with
  | intro call_eq =>
    obtain ⟨-, -, rfl⟩ := call_returned call_eq
    simp [Metered, allowance, Event.calls_cons_ofCall]

theorem Metered.reacts (h : engine.Metered stage) (hreacts : engine.Reacts stage next) :
    engine.Metered next := by
  cases hreacts with
  | @intro settled pending batch trace s t events more react_eq =>
    have hmore := engine.react_calls_le trace s
    rw [react_eq] at hmore
    rw [Metered, allowance] at h ⊢
    simp only [Event.calls_append, List.length_append, List.length_singleton, Nat.add_mul,
      Nat.one_mul] at h hmore ⊢
    omega

theorem Metered.halts {run : Run σ (List Trace)} (h : engine.Metered stage)
    (hhalts : engine.Halts stage run) :
    (Event.calls run.events).length ≤ engine.allowance (stage.settled.length + 1) := by
  cases hhalts with
  | @intro settled pending trace s t e events more react_eq =>
    have hmore := engine.react_calls_le trace s
    rw [react_eq] at hmore
    rw [Metered, allowance] at h
    rw [allowance]
    simp only [Event.calls_append, List.length_append, Nat.add_mul, Nat.one_mul] at h hmore ⊢
    omega

/-! ## The loop under a cap -/

/-- A path that the cap allows has no more traces than that at its end. -/
theorem traces_le_of_passes {limit : Nat} (hcap : engine.cap = some (limit : Int))
    (hlength : stage.traces.length ≤ limit)
    (hpath : Relation.ReflTransGen engine.Passes stage next) : next.traces.length ≤ limit := by
  induction hpath with
  | refl => exact hlength
  | tail _ hpasses ih => exact Int.ofNat_le.mp (hpasses.2 _ hcap)

/-- What the cap promises of the loop, wherever it stops. -/
structure Contained (engine : Engine σ) (limit : Nat) (run : Run σ (List Trace)) : Prop where
  ends : run.ending ≠ .unfinished
  calls : (Event.calls run.events).length ≤ engine.allowance limit
  returned : ∀ traces, run.ending = .returned traces → traces.length ≤ limit

/-- **A loop ends under its cap** if it may react to as many traces as the cap leaves. -/
theorem Metered.resume {limit steps : Nat} (hcap : engine.cap = some (limit : Int))
    (h : engine.Metered stage) (hlength : stage.traces.length ≤ limit)
    (hsteps : limit ≤ stage.settled.length + steps) :
    engine.Contained limit (engine.resume steps stage) := by
  have hsettled {stage : Stage σ} (h : engine.Metered stage) (hpending : stage.pending = [])
      (hlength : stage.traces.length ≤ limit) (steps : Nat) :
      engine.Contained limit (engine.resume steps stage) := by
    rw [resume_of_pending_nil _ hpending]
    refine ⟨by simp, h.trans (allowance_mono ?_), ?_⟩
    · exact (List.prefix_append _ _).length_le.trans hlength
    · intro traces htraces
      cases htraces
      exact hlength
  induction steps generalizing stage with
  | zero =>
    -- All traces that the cap allows have been reacted to.
    have hpending : stage.pending = [] := by
      by_contra hpending
      have hlt := stage.settled_lt hpending
      omega
    exact hsettled h hpending hlength 0
  | succ steps ih =>
    by_cases hpending : stage.pending = []
    · exact hsettled h hpending hlength _
    have hlt := stage.settled_lt hpending
    rcases engine.stage_cases stage with hnil | ⟨next, hreacts⟩ | ⟨run, hhalts⟩
    · exact absurd hnil hpending
    · have hnext := h.reacts hreacts
      have hcount := hreacts.grows.2.2
      rcases engine.admits_or_exceeds next.traces.length with hadmits | ⟨limit', hcap', hlimit⟩
      · rw [resume_of_admits steps hreacts hadmits]
        exact ih hnext (Int.ofNat_le.mp (hadmits _ hcap)) (by omega)
      · -- The reaction overshoots, but it was one more reaction only.
        rw [resume_of_exceeds steps hreacts hcap' hlimit]
        exact ⟨by simp, hnext.trans (allowance_mono (by omega)), by simp⟩
    · rw [resume_of_halts steps hhalts]
      refine ⟨?_, (h.halts hhalts).trans (allowance_mono (by omega)), ?_⟩
      · cases hhalts
        simp
      · cases hhalts
        simp

/-- **A capped run ends, and its work is bounded.** Whatever the rules and the actions are, a run
under a positive cap reacts to no more traces than the cap allows and comes to an end. The calls it
makes are at most the first one and, for each of these traces, the lines of the heaviest anchor. If
it returns, its history has no more traces than the cap allows. -/
theorem capped_run_bounded {engine : Engine σ} {limit : Nat}
    (hcap : engine.cap = some (limit : Int)) (hpos : 1 ≤ limit) (action : String)
    (args : List Value) (s : σ) :
    (∀ opening stage, engine.Opens action args s opening →
      Relation.ReflTransGen engine.Passes opening stage → stage.pending ≠ [] →
      stage.settled.length < limit) ∧
    ∃ run, engine.Ends action args s run ∧ engine.cascade limit action args s = run ∧
      (Event.calls run.events).length ≤ 1 + limit * engine.rulebook.heaviest ∧
      ∀ history, run.ending = .returned history → history.traces.length ≤ limit := by
  refine ⟨?_, ?_⟩
  · intro opening stage hopens hpath hpending
    have hopening : opening.traces.length ≤ limit := by
      cases hopens
      exact hpos
    have hlength := traces_le_of_passes hcap hopening hpath
    exact (stage.settled_lt hpending).trans_le hlength
  · rcases (engine.call_finishes action args).cases s with
      ⟨first, t, events, hcall⟩ | ⟨e, t, events, hcall⟩
    · have hopens : engine.Opens action args s ⟨[], [first], t, events⟩ := ⟨hcall⟩
      have hcontained := (Metered.opens hopens).resume hcap hpos (Nat.le_add_left limit 0)
      have hrun := cascade_of_call_returned limit hcall
      generalize engine.resume limit ⟨[], [first], t, events⟩ = run at hcontained hrun
      refine ⟨_, ⟨?_, limit, hrun⟩, hrun, ?_, ?_⟩
      · exact fun hunfinished => hcontained.ends (concluded_unfinished_iff.mp hunfinished)
      · rw [calls_concluded]
        exact hcontained.calls
      · intro history hreturned
        obtain ⟨traces | e | _, u, back⟩ := run <;> cases hreturned
        exact hcontained.returned traces rfl
    · have hrun := cascade_of_call_failed limit hcall
      refine ⟨_, ⟨by simp, limit, hrun⟩, hrun, ?_, by simp⟩
      have hevents := engine.call_events action args s
      rw [hcall] at hevents
      rcases hevents with rfl | rfl
      · exact Nat.zero_le _
      · exact Nat.le_add_right 1 _

/-- Rules with a cycle whose guard always fails, so that every reaction makes a call that leaves no
trace. -/
def fruitless : Engine Nat where
  rulebook := .ofRules [
    ⟨⟨"A.a", [], none⟩, [⟨"B.b", [], some [.lit (.bool false)]⟩], [⟨"A.a", [], none⟩], 1⟩,
    ⟨⟨"A.a", [], none⟩, [], [⟨"A.a", [], none⟩], 5⟩]
  actions := yesToBoth
  cap := some 3

/-- Three reactions with two calls each: the last of them leaves four traces. -/
theorem capped_run_bounded_fruitless :
    fruitless.rulebook.heaviest = 3 ∧
    (∃ run, fruitless.Ends "A.a" [] 0 run ∧ fruitless.cascade 3 "A.a" [] 0 = run ∧
      (Event.calls run.events).length ≤ 1 + 3 * fruitless.rulebook.heaviest ∧
      ∀ history, run.ending = .returned history → history.traces.length ≤ 3) ∧
    (fruitless.cascade 3 "A.a" [] 0).ending = .failed (.cascadeLimit 3) ∧
    (Event.calls (fruitless.cascade 3 "A.a" [] 0).events).length = 7 := by
  have hcap : fruitless.cap = some ((3 : Nat) : Int) := rfl
  exact ⟨by decide, (capped_run_bounded hcap (by decide) "A.a" [] 0).2, rfl, rfl⟩

end Engine

end Synchrony
