import Synchrony.Proofs.Engine.Sessions

/-!
# Engines that agree

Two engines on the same rules tell each other apart by their calls alone. If every call that a run
makes does the same in both, from the very state in which it is made, then the run is the same.

The lemmas follow the engine from the line outwards. They speak of one state where the calls agree
in that state only, and of all states where they agree in all of them.
-/

set_option autoImplicit false

namespace Synchrony

/-- Two sequences do the same if their first acts do, and the rest does behind what those return. -/
theorem Act.bind_congr_at {σ α β : Type} {act act' : Act σ α} {next next' : α → Act σ β} {s : σ}
    (hact : act' s = act s)
    (hnext : ∀ a t events, act s = ⟨.returned a, t, events⟩ → next' a t = next a t) :
    (act' >>= next') s = (act >>= next) s := by
  rcases hrun : act s with ⟨a | e | _, t, events⟩
  · rw [bind_run_returned _ hrun, bind_run_returned _ (hact.trans hrun), hnext a t events hrun]
  · rw [bind_run_failed _ hrun, bind_run_failed _ (hact.trans hrun)]
  · rw [bind_run_unfinished _ hrun, bind_run_unfinished _ (hact.trans hrun)]

namespace Engine

variable {σ : Type} {engine engine' : Engine σ}

/-! ## Calls and lines -/

theorem call_congr {action : String} {args : List Value} {s : σ} {entry entry' : Action σ}
    (hentry : engine.actions.get? action = some entry)
    (hentry' : engine'.actions.get? action = some entry') (h : entry' args s = entry args s) :
    engine'.call action args s = engine.call action args s := by
  have hcall : Act.call entry' args s = Act.call entry args s := by rw [Act.call, Act.call, h]
  simp only [call, Registry.get, hentry, hentry', Act.ofExcept_ok, pure_bind]
  -- The call is announced first, which leaves the state as it was.
  refine Act.bind_congr_at rfl ?_
  intro _ t events hemit
  cases hemit
  exact Act.bind_congr_at hcall fun _ _ _ _ => rfl

theorem perform_congr {line : Line} {bindings : Bindings} {s : σ}
    (h : ∀ args, bindings.arguments line = .ok args →
      engine'.call line.action args s = engine.call line.action args s) :
    engine'.perform line bindings s = engine.perform line bindings s := by
  refine Act.bind_congr_at rfl ?_
  intro args t events hargs
  obtain ⟨hargs, rfl, -⟩ := Act.ofExcept_returned hargs
  rw [argumentsOf] at hargs
  split at hargs
  next known hknown =>
    cases hargs
    exact Act.bind_congr_at (h _ hknown) fun _ _ _ _ => rfl
  next => cases hargs

theorem enforce_congr (rule : Rule) {line : Line} {bindings : Bindings} {s : σ}
    (h : engine'.perform line bindings s = engine.perform line bindings s) :
    engine'.enforce rule line bindings s = engine.enforce rule line bindings s := by
  refine Act.bind_congr_at ?_ fun _ _ _ _ => rfl
  rw [Act.attempt, Act.attempt, h]

theorem enforceAll_single_congr (rule : Rule) {line : Line} {bindings : Bindings} {s : σ}
    (h : engine'.perform line bindings s = engine.perform line bindings s) :
    engine'.enforceAll rule [line] bindings s = engine.enforceAll rule [line] bindings s :=
  Act.bind_congr_at (enforce_congr rule h) fun _ _ _ _ => rfl

section Lines

variable {lines : List Line}

theorem performAll_congr
    (h : ∀ line ∈ lines, engine'.call line.action = engine.call line.action)
    (bindings : Bindings) :
    engine'.performAll lines bindings = engine.performAll lines bindings := by
  induction lines generalizing bindings with
  | nil => rfl
  | cons line lines ih =>
    have hline : engine'.perform line = engine.perform line := by
      funext b s
      exact perform_congr fun args _ => by rw [h line List.mem_cons_self]
    simp only [performAll, hline, ih fun l hmem => h l (List.mem_cons_of_mem _ hmem)]

theorem enforceAll_congr (rule : Rule)
    (h : ∀ line ∈ lines, engine'.call line.action = engine.call line.action)
    (bindings : Bindings) :
    engine'.enforceAll rule lines bindings = engine.enforceAll rule lines bindings := by
  induction lines generalizing bindings with
  | nil => rfl
  | cons line lines ih =>
    have hline : engine'.enforce rule line = engine.enforce rule line := by
      funext b s
      exact enforce_congr rule (perform_congr fun args _ => by rw [h line List.mem_cons_self])
    simp only [enforceAll, hline, ih fun l hmem => h l (List.mem_cons_of_mem _ hmem)]

end Lines

/-! ## Rules -/

theorem guard_congr {rule : Rule}
    (h : ∀ line ∈ rule.guards, engine'.call line.action = engine.call line.action)
    (trace : Trace) : engine'.guard rule trace = engine.guard rule trace := by
  have hguards : engine'.performAll rule.guards = engine.performAll rule.guards :=
    funext (performAll_congr h)
  rw [guard, guard, hguards]

theorem applyRule_congr {rule : Rule} {trace : Trace} {s : σ}
    (hguard : engine'.guard rule trace = engine.guard rule trace)
    (h : ∀ bindings guards t events,
      engine.guard rule trace s = ⟨.returned (bindings, guards), t, events⟩ →
      engine'.enforceAll rule rule.consequences bindings t =
        engine.enforceAll rule rule.consequences bindings t) :
    engine'.applyRule rule trace s = engine.applyRule rule trace s := by
  refine Act.bind_congr_at (by rw [hguard]) ?_
  intro outcome t events hattempt
  rcases hrun : engine.guard rule trace s with ⟨⟨bindings, guards⟩ | e | _, u, front⟩
  · rw [Act.attempt_of_returned hrun] at hattempt
    cases hattempt
    refine Act.bind_congr_at rfl ?_
    intro _ v back hemit
    cases hemit
    exact Act.bind_congr_at (h bindings guards t events hrun) fun _ _ _ _ => rfl
  · rw [Act.attempt_of_failed hrun] at hattempt
    cases hattempt
    rfl
  · simp [Act.attempt, hrun] at hattempt

/-- A rule whose calls agree in every state. -/
theorem applyRule_congr_of_calls {rule : Rule}
    (h : ∀ line ∈ rule.ownLines, engine'.call line.action = engine.call line.action)
    (trace : Trace) (s : σ) : engine'.applyRule rule trace s = engine.applyRule rule trace s := by
  refine applyRule_congr (guard_congr (fun line hmem => h line ?_) trace) ?_
  · exact List.mem_append_left _ hmem
  · intro bindings guards t events _
    rw [enforceAll_congr rule (fun line hmem => h line ?_)]
    exact List.mem_append_right _ hmem

/-! ## Reactions and runs -/

/-- A reaction whose calls agree in every state. -/
theorem react_congr_of_calls {trace : Trace} (hrulebook : engine'.rulebook = engine.rulebook)
    (h : ∀ rule ∈ engine.rulebook.under trace.action, ∀ line ∈ rule.ownLines,
      engine'.call line.action = engine.call line.action) :
    engine'.react trace = engine.react trace := by
  rw [react, react, hrulebook]
  generalize engine.rulebook.under trace.action = rules at h
  induction rules with
  | nil => rfl
  | cons rule rules ih =>
    have hrule : engine'.applyRule rule trace = engine.applyRule rule trace :=
      funext (applyRule_congr_of_calls (h rule List.mem_cons_self) trace)
    rw [applyRules, applyRules, hrule, ih fun r hmem => h r (List.mem_cons_of_mem _ hmem)]

theorem react_congr_of_single {rule : Rule} {trace : Trace} {s : σ}
    (hrulebook : engine'.rulebook = engine.rulebook)
    (hunder : engine.rulebook.under trace.action = [rule])
    (h : engine'.applyRule rule trace s = engine.applyRule rule trace s) :
    engine'.react trace s = engine.react trace s := by
  rw [react, react, hrulebook, hunder]
  exact Act.bind_congr_at h fun _ _ _ _ => rfl

/-- Where nothing is set off, there is nothing to tell two engines apart. -/
theorem settle_congr_of_quiet (hrulebook : engine'.rulebook = engine.rulebook)
    (hcap : engine'.cap = engine.cap) (steps count : Nat) {pending : List Trace}
    (h : ∀ trace ∈ pending, engine.rulebook.under trace.action = []) :
    engine'.settle steps count pending = engine.settle steps count pending := by
  induction steps generalizing count pending with
  | zero => cases pending <;> rfl
  | succ steps ih =>
    cases pending with
    | nil => rfl
    | cons trace pending =>
      have hunder := h trace List.mem_cons_self
      funext s
      refine Act.bind_congr_at ?_ ?_
      · rw [react_of_under_nil hunder, react_of_under_nil (hrulebook ▸ hunder)]
      · intro batch t events hreact
        rw [react_of_under_nil hunder] at hreact
        cases hreact
        rw [checkCap, checkCap, hcap, List.append_nil,
          ih _ fun trace' hmem => h trace' (List.mem_cons_of_mem _ hmem)]

/-- **On flat rules, a run is the same in two engines if its first call and the reaction to it
are.** -/
theorem cascade_congr_of_flat (hflat : engine.rulebook.Flat)
    (hrulebook : engine'.rulebook = engine.rulebook) (hcap : engine'.cap = engine.cap)
    {action : String} {args : List Value} {s : σ}
    (hcall : engine'.call action args s = engine.call action args s)
    (hreact : ∀ first t events, engine.call action args s = ⟨.returned first, t, events⟩ →
      engine'.react first t = engine.react first t) (steps : Nat) :
    engine'.cascade steps action args s = engine.cascade steps action args s := by
  refine Act.bind_congr_at hcall ?_
  intro first t events hfirst
  refine Act.bind_congr_at ?_ fun _ _ _ _ => rfl
  -- What the first reaction calls sets nothing off, so the rest of the run has no calls in it.
  cases steps with
  | zero => rfl
  | succ steps =>
    refine Act.bind_congr_at (hreact first t events hfirst) ?_
    intro batch u more hbatch
    rw [checkCap, checkCap, hcap, List.nil_append,
      settle_congr_of_quiet hrulebook hcap _ _ (under_of_react hflat hbatch)]

end Engine

end Synchrony
