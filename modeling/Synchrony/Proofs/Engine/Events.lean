import Synchrony.Proofs.Engine.Attempts

/-!
# What the events of a run tell

Besides its calls, a run tells what became of its attempts: which rules fired, which were declined
and why, and which were violated. It tells this of every attempt and of nothing else, so what holds
of the events of all attempts holds of the events of all runs (`Engine.cascade_emits`).
-/

set_option autoImplicit false

namespace Synchrony

namespace Act

variable {σ α β : Type} {P : Event → Prop}

/-- Whatever happens is of this kind. -/
def Emits (P : Event → Prop) (act : Act σ α) : Prop :=
  ∀ s, ∀ event ∈ (act s).events, P event

theorem Emits.pure (a : α) : Emits P (Pure.pure a : Act σ α) :=
  fun _ _ hmem => absurd hmem List.not_mem_nil

theorem Emits.fail (e : Failure) : Emits P (fail e : Act σ α) :=
  fun _ _ hmem => absurd hmem List.not_mem_nil

theorem Emits.unfinished : Emits P (unfinished : Act σ α) :=
  fun _ _ hmem => absurd hmem List.not_mem_nil

theorem Emits.emit {event : Event} (h : P event) : Emits P (emit event : Act σ Unit) := by
  intro s event' hmem
  rwa [List.mem_singleton.mp hmem]

theorem Emits.bind {act : Act σ α} {next : α → Act σ β} (h : Emits P act)
    (hnext : ∀ a, Emits P (next a)) : Emits P (act >>= next) := by
  intro s event hmem
  have hact := h s
  rcases hrun : act s with ⟨a | e | _, t, events⟩
  · rw [hrun] at hact
    rw [bind_run_returned _ hrun] at hmem
    rcases List.mem_append.mp hmem with hmem | hmem
    · exact hact event hmem
    · exact hnext a t event hmem
  · rw [hrun] at hact
    rw [bind_run_failed _ hrun] at hmem
    exact hact event hmem
  · rw [hrun] at hact
    rw [bind_run_unfinished _ hrun] at hmem
    exact hact event hmem

end Act

namespace Engine

variable {σ : Type} {engine : Engine σ} {P : Event → Prop}

theorem call_emits (hcalled : ∀ action args, P (.called action args)) (action : String)
    (args : List Value) : Act.Emits P (engine.call action args) := by
  intro s event hmem
  rcases engine.call_events action args s with hnone | hone
  · rw [hnone] at hmem
    cases hmem
  · rw [hone] at hmem
    rw [List.mem_singleton.mp hmem]
    exact hcalled action args

/-- An attempt tells its calls, and what became of it. -/
theorem applyRule_emits {rule : Rule} {trace : Trace} {s : σ}
    (hcalled : ∀ action args, P (.called action args))
    (hdeclined : ∀ reason t events,
      engine.guard rule trace s = ⟨.failed reason, t, events⟩ → P (.declined rule reason))
    (hfired : ∀ answer t events,
      engine.guard rule trace s = ⟨.returned answer, t, events⟩ → P (.fired rule))
    (hviolated : ∀ bindings guards u front line cause t back,
      engine.guard rule trace s = ⟨.returned (bindings, guards), u, front⟩ →
      engine.FailsAt rule.consequences bindings u line ⟨.failed (.mismatch cause), t, back⟩ →
      P (.violated rule line.action cause)) :
    ∀ event ∈ (engine.applyRule rule trace s).events, P event := by
  have hcalls (calls : List (String × List Value)) : ∀ event ∈ calls.map Event.ofCall, P event := by
    intro event hmem
    obtain ⟨call, -, rfl⟩ := List.mem_map.mp hmem
    exact hcalled call.1 call.2
  intro event hmem
  rcases engine.applyRule_cases rule trace s with ⟨outcome, t, htry, hrun⟩ | hbreaks
  · rw [hrun] at hmem
    cases htry with
    | fired guard_eq lines_eq =>
      rcases List.mem_append.mp hmem with hmem | hmem
      · exact hcalls _ event hmem
      · rcases List.mem_cons.mp hmem with rfl | hmem
        · exact hfired _ _ _ guard_eq
        · exact hcalls _ event hmem
    | declined guard_eq soft =>
      rcases List.mem_append.mp hmem with hmem | hmem
      · exact hcalls _ event hmem
      · rw [List.mem_singleton.mp hmem]
        exact hdeclined _ _ _ guard_eq
  · generalize engine.applyRule rule trace s = run at hbreaks hmem
    cases hbreaks with
    | guard guard_eq hard =>
      rw [(guard_events guard_eq).1] at hmem
      exact hcalls _ event hmem
    | @consequence bindings guards e line u t front back guard_eq fails =>
      rcases List.mem_append.mp hmem with hmem | hmem
      · rw [(guard_events guard_eq).1] at hmem
        exact hcalls _ event hmem
      · rcases List.mem_cons.mp hmem with rfl | hmem
        · exact hfired _ _ _ guard_eq
        · rcases List.mem_append.mp hmem with hmem | hmem
          · rw [(performAll_events fails.performAll).1] at hmem
            exact hcalls _ event hmem
          · cases e with
            | mismatch cause =>
              rw [List.mem_singleton.mp hmem]
              exact hviolated _ _ _ _ _ _ _ _ guard_eq fails
            | _ => cases hmem

section Runs

variable (hcalled : ∀ action args, P (.called action args))
  (hsettled : ∀ action traces, P (.settled action traces))
  (hrule : ∀ rule trace, Act.Emits P (engine.applyRule rule trace))

include hrule in
theorem applyRules_emits (trace : Trace) (rules : List Rule) :
    Act.Emits P (engine.applyRules trace rules) := by
  induction rules with
  | nil => exact .pure _
  | cons rule rules ih => exact .bind (hrule rule trace) fun _ => .bind ih fun _ => .pure _

theorem checkCap_emits (count : Nat) : Act.Emits P (engine.checkCap count) := by
  rw [checkCap]
  split
  · exact .pure _
  · split
    · exact .fail _
    · exact .pure _

include hrule in
theorem settle_emits (steps count : Nat) (pending : List Trace) :
    Act.Emits P (engine.settle steps count pending) := by
  induction steps generalizing count pending with
  | zero =>
    cases pending with
    | nil => exact .pure _
    | cons trace pending => exact .unfinished
  | succ steps ih =>
    cases pending with
    | nil => exact .pure _
    | cons trace pending =>
      refine .bind (applyRules_emits hrule trace _) fun batch => ?_
      exact .bind (checkCap_emits _) fun _ => .bind (ih _ _) fun _ => .pure _

include hcalled hsettled hrule in
/-- **What holds of the events of all attempts holds of the events of all runs.** -/
theorem cascade_emits (steps : Nat) (action : String) (args : List Value) :
    Act.Emits P (engine.cascade steps action args) :=
  .bind (call_emits hcalled action args) fun _ => .bind (settle_emits hrule _ _ _) fun _ =>
    .bind (.emit (hsettled _ _)) fun _ => .pure _

end Runs

end Engine

end Synchrony
