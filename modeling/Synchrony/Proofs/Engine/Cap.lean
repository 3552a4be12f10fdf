import Mathlib.Data.List.Infix
import Synchrony.Proofs.Engine.Stages

/-!
# The cap

A cap on the number of traces only cuts a run, it never changes one. Reactions do not look at the
cap (`Engine.reacts_withCap`), so the capped run and the uncapped run of one engine walk along
the same path of stages. The cap is looked at behind every whole reaction, and what decides between
the two runs is whether one of these stages, the last one included, has more traces than the cap
allows.

* If none has, the two runs are the same (`Engine.resume_within`).
* If one has, the capped run fails at the first that has (`Engine.resume_beyond`).

The three ways in which an uncapped run can go say where its stages are. A run that returned has its
whole history in its last stage, and earlier stages have less. A run that diverges has stages of
every length. A run that fails may have gone beyond the cap before it failed.
-/

set_option autoImplicit false

namespace Synchrony

namespace Engine

variable {σ : Type} (engine : Engine σ)

/-- The same rules and actions under another cap. -/
def withCap (cap : Option Int) : Engine σ :=
  { engine with cap := cap }

abbrev uncapped : Engine σ :=
  engine.withCap none

/-- With a cap of so many traces. -/
abbrev capped (limit : Int) : Engine σ :=
  engine.withCap (some limit)

/-! ## Reactions do not look at the cap -/

theorem react_withCap (cap : Option Int) (trace : Trace) :
    (engine.withCap cap).react trace = engine.react trace := by
  have hactions : (engine.withCap cap).actions = engine.actions := rfl
  exact applyRules_of_actions_eq hactions trace _

variable {engine}

theorem reacts_withCap (cap : Option Int) : (engine.withCap cap).Reacts = engine.Reacts := by
  ext stage next
  constructor
  · rintro ⟨react_eq⟩
    exact .intro (engine.react_withCap cap _ ▸ react_eq)
  · rintro ⟨react_eq⟩
    exact .intro ((engine.react_withCap cap _).symm ▸ react_eq)

theorem halts_withCap (cap : Option Int) : (engine.withCap cap).Halts = engine.Halts := by
  ext stage run
  constructor
  · rintro ⟨react_eq⟩
    exact .intro (engine.react_withCap cap _ ▸ react_eq)
  · rintro ⟨react_eq⟩
    exact .intro ((engine.react_withCap cap _).symm ▸ react_eq)

/-! ## The loop under a cap and without one -/

theorem resume_uncapped_of_reacts (steps : Nat) {stage next : Stage σ}
    (h : engine.Reacts stage next) :
    engine.uncapped.resume (steps + 1) stage = engine.uncapped.resume steps next := by
  refine resume_of_admits steps (reacts_withCap _ ▸ h) ?_
  intro limit hcap
  cases hcap

theorem resume_capped_of_le (steps : Nat) {stage next : Stage σ} {limit : Int}
    (h : engine.Reacts stage next) (hle : next.traces.length ≤ limit) :
    (engine.capped limit).resume (steps + 1) stage = (engine.capped limit).resume steps next := by
  refine resume_of_admits steps (reacts_withCap _ ▸ h) ?_
  intro limit' hcap
  cases hcap
  exact hle

theorem resume_capped_of_lt (steps : Nat) {stage next : Stage σ} {limit : Int}
    (h : engine.Reacts stage next) (hlt : limit < next.traces.length) :
    (engine.capped limit).resume (steps + 1) stage =
      ⟨.failed (.cascadeLimit limit), next.state, next.events⟩ :=
  resume_of_exceeds steps (reacts_withCap _ ▸ h) rfl hlt

theorem resume_capped_zero (limit : Int) (stage : Stage σ) :
    (engine.capped limit).resume 0 stage = engine.uncapped.resume 0 stage := by
  by_cases hpending : stage.pending = []
  · rw [resume_of_pending_nil _ hpending, resume_of_pending_nil _ hpending]
  · rw [resume_zero hpending, resume_zero hpending]

/-- Where there is no whole reaction left to make, the cap is not looked at again. -/
theorem resume_capped_of_stuck (limit : Int) (steps : Nat) {stage : Stage σ}
    (h : ¬∃ next, engine.Reacts stage next) :
    (engine.capped limit).resume (steps + 1) stage =
      engine.uncapped.resume (steps + 1) stage := by
  rcases engine.stage_cases stage with hpending | hreacts | ⟨run, hhalts⟩
  · rw [resume_of_pending_nil _ hpending, resume_of_pending_nil _ hpending]
  · exact absurd hreacts h
  · rw [← halts_withCap (some limit)] at hhalts
    rw [resume_of_halts steps hhalts]
    rw [halts_withCap, ← halts_withCap none] at hhalts
    rw [resume_of_halts steps hhalts]

/-- **The capped loop does nothing that the uncapped loop does not do.** -/
theorem resume_capped_events (limit : Int) (steps : Nat) (stage : Stage σ) :
    ((engine.capped limit).resume steps stage).events <+:
      (engine.uncapped.resume steps stage).events := by
  induction steps generalizing stage with
  | zero =>
    rw [resume_capped_zero]
  | succ steps ih =>
    by_cases hstage : ∃ next, engine.Reacts stage next
    · obtain ⟨next, hreacts⟩ := hstage
      rw [resume_uncapped_of_reacts steps hreacts]
      rcases Int.lt_or_le limit next.traces.length with hlt | hle
      · rw [resume_capped_of_lt steps hreacts hlt]
        exact List.prefix_append _ _
      · rw [resume_capped_of_le steps hreacts hle]
        exact ih next
    · rw [resume_capped_of_stuck limit steps hstage]

/-- **If no reaction goes beyond the cap, the two loops are one.** -/
theorem resume_within {limit : Int} (steps : Nat) {stage : Stage σ}
    (h : ∀ next, Relation.TransGen engine.Reacts stage next → next.traces.length ≤ limit) :
    (engine.capped limit).resume steps stage = engine.uncapped.resume steps stage := by
  induction steps generalizing stage with
  | zero => exact resume_capped_zero limit stage
  | succ steps ih =>
    by_cases hstage : ∃ next, engine.Reacts stage next
    · obtain ⟨next, hreacts⟩ := hstage
      rw [resume_uncapped_of_reacts steps hreacts,
        resume_capped_of_le steps hreacts (h next (.single hreacts))]
      exact ih fun later hlater => h later (.head hreacts hlater)
    · exact resume_capped_of_stuck limit steps hstage

/-- **If some reaction goes beyond the cap, the capped loop fails**, at the first that does. -/
theorem resume_beyond {limit : Int} {stage last : Stage σ}
    (h : Relation.TransGen engine.Reacts stage last) (hlt : limit < last.traces.length) :
    ∃ steps t events, (engine.capped limit).resume steps stage =
      ⟨.failed (.cascadeLimit limit), t, events⟩ := by
  induction h using Relation.TransGen.head_induction_on with
  | single hreacts => exact ⟨1, _, _, resume_capped_of_lt 0 hreacts hlt⟩
  | @head stage next hreacts hpath ih =>
    -- The stage that exceeds the cap may come before the one that is known to.
    rcases Int.lt_or_le limit next.traces.length with hnext | hnext
    · exact ⟨1, _, _, resume_capped_of_lt 0 hreacts hnext⟩
    · obtain ⟨steps, t, events, hrun⟩ := ih
      exact ⟨steps + 1, t, events, by rw [resume_capped_of_le steps hreacts hnext, hrun]⟩

/-! ## Whole runs -/

variable (engine)

/-- A run fails in this way, wherever that leaves the state. -/
def Fails (action : String) (args : List Value) (s : σ) (e : Failure) : Prop :=
  ∃ t events, engine.Ends action args s ⟨.failed e, t, events⟩

/-- A stage of a run behind at least one whole reaction. -/
def Completes (action : String) (args : List Value) (s : σ) (stage : Stage σ) : Prop :=
  ∃ opening, engine.Opens action args s opening ∧
    Relation.TransGen engine.Reacts opening stage

variable {engine} {action : String} {args : List Value} {s t : σ} {limit : Int}

theorem cascade_withCap_of_returned (cap : Option Int) (steps : Nat) {first : Trace}
    {events : List Event} (h : engine.call action args s = ⟨.returned first, t, events⟩) :
    (engine.withCap cap).cascade steps action args s =
      concluded action first ((engine.withCap cap).resume steps ⟨[], [first], t, events⟩) :=
  cascade_of_call_returned steps h

theorem cascade_withCap_of_failed (cap : Option Int) (steps : Nat) {e : Failure}
    {events : List Event} (h : engine.call action args s = ⟨.failed e, t, events⟩) :
    (engine.withCap cap).cascade steps action args s = ⟨.failed e, t, events⟩ :=
  cascade_of_call_failed steps h

/-- A run that returned tells its last stage, which lies behind a reaction and has the traces of
every stage before it. -/
theorem completes_of_returned {history : History} {events : List Event}
    (h : engine.uncapped.Ends action args s ⟨.returned history, t, events⟩) :
    (∃ last, engine.Completes action args s last ∧ history.traces = last.traces) ∧
      ∀ stage, engine.Completes action args s stage → stage.traces <+: history.traces := by
  obtain ⟨-, steps, hrun⟩ := h
  obtain ⟨first, u, front, last, hcall, hpasses, hpending, rfl, -, -⟩ := cascade_returned hrun
  have hpath := reacts_of_passes hpasses
  rw [reacts_withCap] at hpath
  refine ⟨⟨last, ⟨_, ⟨hcall⟩, ?_⟩, rfl⟩, ?_⟩
  -- The first trace was pending, so where nothing is pending a reaction has been made.
  · rcases Relation.reflTransGen_iff_eq_or_transGen.mp hpath with rfl | hlast
    · cases hpending
    · exact hlast
  · rintro stage ⟨opening, hopens, hstage⟩
    obtain rfl := hopens.unique ⟨hcall⟩
    exact (reacts_grows (reacts_to_final hstage.to_reflTransGen hpath hpending)).1

/-- A run that diverges has stages of every length. -/
theorem completes_of_diverges (h : engine.uncapped.Diverges action args s) (count : Nat) :
    ∃ stage, engine.Completes action args s stage ∧ count < stage.traces.length := by
  rcases (engine.call_finishes action args).cases s with
    ⟨first, u, front, hcall⟩ | ⟨e, u, front, hcall⟩
  -- So many steps that are used up have reacted to as many traces.
  · have hrun := h (count + 1)
    rw [cascade_withCap_of_returned none (count + 1) hcall, concluded_unfinished_iff] at hrun
    obtain ⟨last, hpasses, hcount, -⟩ := resume_unfinished hrun
    have hpath := reacts_of_passes hpasses
    rw [reacts_withCap] at hpath
    refine ⟨last, ⟨_, ⟨hcall⟩, ?_⟩, ?_⟩
    · rcases Relation.reflTransGen_iff_eq_or_transGen.mp hpath with rfl | hlast
      · simp at hcount
      · exact hlast
    · rw [Stage.traces, List.length_append, hcount]
      simp only [List.length_nil]
      omega
  · have hrun := h 0
    rw [cascade_withCap_of_failed none 0 hcall] at hrun
    cases hrun

theorem capped_fails_of_completes {stage : Stage σ}
    (h : engine.Completes action args s stage) (hlt : limit < stage.traces.length) :
    (engine.capped limit).Fails action args s (.cascadeLimit limit) := by
  obtain ⟨opening, ⟨call_eq⟩, hpath⟩ := h
  obtain ⟨steps, t, events, hrun⟩ := resume_beyond hpath hlt
  refine ⟨t, events, by simp, steps, ?_⟩
  rw [cascade_withCap_of_returned (some limit) steps call_eq, hrun]
  rfl

theorem capped_ends_of_completes {run : Run σ History}
    (h : engine.uncapped.Ends action args s run)
    (hle : ∀ stage, engine.Completes action args s stage → stage.traces.length ≤ limit) :
    (engine.capped limit).Ends action args s run := by
  obtain ⟨hne, steps, rfl⟩ := h
  refine ⟨hne, steps, ?_⟩
  rcases (engine.call_finishes action args).cases s with
    ⟨first, u, front, hcall⟩ | ⟨e, u, front, hcall⟩
  · rw [cascade_withCap_of_returned _ steps hcall, cascade_withCap_of_returned _ steps hcall,
      resume_within steps fun next hnext => hle next ⟨_, ⟨hcall⟩, hnext⟩]
  · rw [cascade_withCap_of_failed _ steps hcall, cascade_withCap_of_failed _ steps hcall]

theorem cascade_capped_calls (engine : Engine σ) (limit : Int) (steps : Nat) (action : String)
    (args : List Value) (s : σ) :
    Event.calls ((engine.capped limit).cascade steps action args s).events <+:
      Event.calls (engine.uncapped.cascade steps action args s).events := by
  rcases (engine.call_finishes action args).cases s with
    ⟨first, u, front, hcall⟩ | ⟨e, u, front, hcall⟩
  · rw [cascade_withCap_of_returned _ steps hcall, cascade_withCap_of_returned _ steps hcall,
      calls_concluded, calls_concluded]
    exact (resume_capped_events limit steps _).filterMap _
  · rw [cascade_withCap_of_failed _ steps hcall, cascade_withCap_of_failed _ steps hcall]

/-- **The cap only cuts a run, it never changes one.** The calls of the capped run are calls of the
uncapped run from the front. Where the uncapped run returns a history that the cap allows, the
capped run is the same; where it returns a longer one or never comes to an end, the capped run
fails because of the cap. Where the uncapped run fails, the capped run fails because of the cap if
a whole reaction before that had left more traces than the cap allows, and is the same
otherwise. -/
theorem cap_only_cuts (engine : Engine σ) (limit : Int) (action : String) (args : List Value)
    (s : σ) :
    (∀ steps, Event.calls ((engine.capped limit).cascade steps action args s).events <+:
      Event.calls (engine.uncapped.cascade steps action args s).events) ∧
    (∀ history t events,
      engine.uncapped.Ends action args s ⟨.returned history, t, events⟩ →
        (history.traces.length ≤ limit →
          (engine.capped limit).Ends action args s ⟨.returned history, t, events⟩) ∧
        (limit < history.traces.length →
          (engine.capped limit).Fails action args s (.cascadeLimit limit))) ∧
    (engine.uncapped.Diverges action args s →
      (engine.capped limit).Fails action args s (.cascadeLimit limit)) ∧
    (∀ e t events, engine.uncapped.Ends action args s ⟨.failed e, t, events⟩ →
      ((∃ stage, engine.Completes action args s stage ∧ limit < stage.traces.length) →
        (engine.capped limit).Fails action args s (.cascadeLimit limit)) ∧
      ((¬∃ stage, engine.Completes action args s stage ∧ limit < stage.traces.length) →
        (engine.capped limit).Ends action args s ⟨.failed e, t, events⟩)) := by
  refine ⟨fun steps => engine.cascade_capped_calls limit steps action args s, ?_, ?_, ?_⟩
  · intro history t events hends
    obtain ⟨⟨last, hlast, hhistory⟩, hfront⟩ := completes_of_returned hends
    refine ⟨fun hle => capped_ends_of_completes hends fun stage hstage => ?_, fun hlt => ?_⟩
    · have hlength := (hfront stage hstage).length_le
      omega
    · rw [hhistory] at hlt
      exact capped_fails_of_completes hlast hlt
  · intro hdiverges
    obtain ⟨stage, hstage, hcount⟩ := completes_of_diverges hdiverges limit.toNat
    exact capped_fails_of_completes hstage (by omega)
  · intro e t events hends
    refine ⟨fun ⟨stage, hstage, hlt⟩ => capped_fails_of_completes hstage hlt, fun hnone => ?_⟩
    refine capped_ends_of_completes hends fun stage hstage => ?_
    exact Int.not_lt.mp fun hlt => hnone ⟨stage, hstage, hlt⟩

/-- A rule that repeats an action as long as it answers yes. -/
def repeating (act : Action Nat) : Engine Nat where
  rulebook := .ofRules
    [⟨⟨"A.a", [], some [.lit (.bool true)]⟩, [], [⟨"A.a", [], none⟩], 1⟩]
  actions := ⟨[("A.a", act)], by simp [Keyed.keys]⟩

/-- An action that answers yes so many times. -/
def yesUpTo (count : Nat) : Action Nat :=
  fun _ calls => (.ok (.bool (calls < count)), calls + 1)

/-- An action that always answers yes. -/
def yes : Action Nat :=
  fun _ calls => (.ok (.bool true), calls + 1)

/-- Two actions that always answer yes. -/
def yesToBoth : Registry (Action Nat) :=
  ⟨[("A.a", yes), ("B.b", yes)], by decide⟩

/-- An action that answers yes so many times and fails from then on. -/
def yesThenFail (count : Nat) : Action Nat :=
  fun _ calls =>
    (if calls < count then .ok (.bool true) else .error (.general "worn out"), calls + 1)

theorem repeating_yes_diverges (s : Nat) : (repeating yes).uncapped.Diverges "A.a" [] s := by
  -- One trace is pending at every stage, and it is the same trace.
  have hreacts (settled : List Trace) (t : Nat) (events : List Event) :
      ∃ more, (repeating yes).Reacts ⟨settled, [⟨"A.a", [], .bool true⟩], t, events⟩
        ⟨settled ++ [⟨"A.a", [], .bool true⟩], [⟨"A.a", [], .bool true⟩], t + 1,
          events ++ more⟩ := ⟨_, .intro rfl⟩
  have hresume (steps : Nat) : ∀ settled t events, ((repeating yes).uncapped.resume steps
      ⟨settled, [⟨"A.a", [], .bool true⟩], t, events⟩).ending = .unfinished := by
    induction steps with
    | zero =>
      intro settled t events
      rw [resume_zero (by simp)]
    | succ steps ih =>
      intro settled t events
      obtain ⟨more, hmore⟩ := hreacts settled t events
      rw [resume_uncapped_of_reacts steps hmore]
      exact ih _ _ _
  intro steps
  have hcall : (repeating yes).call "A.a" [] s =
      ⟨.returned ⟨"A.a", [], .bool true⟩, s + 1, [.called "A.a" []]⟩ := rfl
  rw [cascade_withCap_of_returned none steps hcall, concluded_unfinished_iff]
  exact hresume steps _ _ _

def repeatedTwice : History :=
  ⟨.bool true, [⟨"A.a", [], .bool true⟩, ⟨"A.a", [], .bool true⟩, ⟨"A.a", [], .bool false⟩]⟩

theorem cap_only_cuts_repeating :
    (∃ events, (repeating (yesUpTo 2)).uncapped.Ends "A.a" [] 0
        ⟨.returned repeatedTwice, 3, events⟩ ∧
      ((repeating (yesUpTo 2)).capped 3).Ends "A.a" [] 0
        ⟨.returned repeatedTwice, 3, events⟩) ∧
    ((repeating (yesUpTo 2)).capped 2).Fails "A.a" [] 0 (.cascadeLimit 2) ∧
    ((repeating yes).capped 5).Fails "A.a" [] 0 (.cascadeLimit 5) ∧
    (repeating (yesThenFail 2)).uncapped.Fails "A.a" [] 0 (.general "worn out") ∧
    ((repeating (yesThenFail 2)).capped 1).Fails "A.a" [] 0 (.cascadeLimit 1) := by
  have hends : (repeating (yesUpTo 2)).uncapped.Ends "A.a" [] 0
      ⟨.returned repeatedTwice, 3,
        ((repeating (yesUpTo 2)).uncapped.cascade 3 "A.a" [] 0).events⟩ :=
    ⟨by simp, 3, rfl⟩
  obtain ⟨-, hwithin, -⟩ := cap_only_cuts (repeating (yesUpTo 2)) 3 "A.a" [] 0
  obtain ⟨-, hbeyond, -⟩ := cap_only_cuts (repeating (yesUpTo 2)) 2 "A.a" [] 0
  obtain ⟨-, -, hdiverges, -⟩ := cap_only_cuts (repeating yes) 5 "A.a" [] 0
  obtain ⟨-, -, -, hfailed⟩ := cap_only_cuts (repeating (yesThenFail 2)) 1 "A.a" [] 0
  have hfails : (repeating (yesThenFail 2)).uncapped.Ends "A.a" [] 0
      ⟨.failed (.general "worn out"), 3,
        ((repeating (yesThenFail 2)).uncapped.cascade 2 "A.a" [] 0).events⟩ :=
    ⟨by simp, 2, rfl⟩
  have hstage : ∃ stage, (repeating (yesThenFail 2)).Completes "A.a" [] 0 stage ∧
      1 < (stage.traces.length : Int) :=
    ⟨⟨[⟨"A.a", [], .bool true⟩], [⟨"A.a", [], .bool true⟩], 2, _⟩,
      ⟨_, .intro rfl, .single (.intro rfl)⟩, by decide⟩
  exact ⟨⟨_, hends, (hwithin _ _ _ hends).1 (by decide)⟩, (hbeyond _ _ _ hends).2 (by decide),
    hdiverges (repeating_yes_diverges 0), ⟨_, _, hfails⟩, (hfailed _ _ _ hfails).1 hstage⟩

end Engine

end Synchrony
