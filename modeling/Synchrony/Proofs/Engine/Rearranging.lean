import Mathlib.Logic.Equiv.Fin.Rotate
import Synchrony.Proofs.Engine.Order
import Synchrony.Proofs.Rule.Index

/-!
# Rules in another order

A run asks its rulebook for the rules under an action and for nothing else. So rulebooks that answer
alike make the same runs, whatever the actions do (`Engine.cascade_of_under_eq`): they call the same
actions with the same arguments in the same states, log the same and end alike, bound by bound.

Rules with different anchors are never looked up together, so their order among each other makes no
difference (`Rulebook.index_loses_nothing`). That of rules with one anchor does, unless the actions
keep no state (`Engine.rule_order_irrelevant`).
-/

set_option autoImplicit false

namespace Synchrony

namespace Engine

variable {σ : Type} {engine engine' : Engine σ}

theorem react_of_under_eq (hactions : engine'.actions = engine.actions)
    (hunder : ∀ action, engine'.rulebook.under action = engine.rulebook.under action)
    (trace : Trace) : engine'.react trace = engine.react trace := by
  rw [react, react, hunder]
  exact applyRules_of_actions_eq hactions trace _

theorem checkCap_of_cap_eq (hcap : engine'.cap = engine.cap) (count : Nat) :
    engine'.checkCap count = engine.checkCap count := by
  rw [checkCap, checkCap, hcap]

theorem settle_of_react_eq (hcap : engine'.cap = engine.cap)
    (hreact : ∀ trace, engine'.react trace = engine.react trace) (steps count : Nat)
    (pending : List Trace) :
    engine'.settle steps count pending = engine.settle steps count pending := by
  induction steps generalizing count pending with
  | zero => cases pending <;> rfl
  | succ steps ih =>
    cases pending with
    | nil => rfl
    | cons trace pending => simp only [settle, hreact, checkCap_of_cap_eq hcap, ih]

/-- **Engines whose rulebooks answer alike make the same runs.** -/
theorem cascade_of_under_eq (engine engine' : Engine σ)
    (hactions : engine'.actions = engine.actions) (hcap : engine'.cap = engine.cap)
    (hunder : ∀ action, engine'.rulebook.under action = engine.rulebook.under action)
    (steps : Nat) (action : String) (args : List Value) :
    engine'.cascade steps action args = engine.cascade steps action args := by
  have hreact := react_of_under_eq hactions hunder
  simp only [cascade, call_of_actions_eq hactions, settle_of_react_eq hcap hreact]

end Engine

namespace Rulebook

/-- **The index loses nothing, and only the order under each anchor matters.** The index of a list
of rules is that list, filed by anchors; and rules in any other order that keeps those with one
anchor in theirs make the same runs, to the last state and event. -/
theorem index_loses_nothing (rules : List Rule) :
    (ofRules rules).Indexes ∧
    ∀ (rules' : List Rule), Rearrangement rules rules' →
      ∀ (σ : Type) (actions : Registry (Action σ)) (cap : Option Int) (steps : Nat)
        (action : String) (args : List Value) (s : σ),
        (Engine.mk (ofRules rules') actions cap).cascade steps action args s =
          (Engine.mk (ofRules rules) actions cap).cascade steps action args s := by
  refine ⟨(ofRules rules).indexes, fun rules' h σ actions cap steps action args s => ?_⟩
  rw [Engine.cascade_of_under_eq ⟨ofRules rules, actions, cap⟩ ⟨ofRules rules', actions, cap⟩ rfl
    rfl h.under_eq]

end Rulebook

/-- The rule on `B.b` stands in front of those on `A.a`. -/
def Engine.forkingMoved : List Rule := [
  ⟨⟨"B.b", [], none⟩, [], [⟨"D.d", [], none⟩], 7⟩,
  ⟨⟨"A.a", [], none⟩, [], [⟨"B.b", [], none⟩], 1⟩,
  ⟨⟨"A.a", [], none⟩, [], [⟨"C.c", [], none⟩], 4⟩]

def Engine.forkingRearranged : Rearrangement forkingRules forkingMoved where
  place := finRotate 3
  rule_at := by
    rintro ⟨_ | _ | _ | i, hi⟩
    case succ.succ.succ => exact absurd hi (by simp [forkingRules])
    all_goals rfl
  ordered := by decide

namespace Rulebook

theorem index_loses_nothing_forking :
    (ofRules Engine.forkingRules).Indexes ∧
    ((Engine.forking Engine.forkingMoved).cascade 4 "A.a" [] 0).ending =
      .returned Engine.forked := by
  obtain ⟨hindexes, hruns⟩ := index_loses_nothing Engine.forkingRules
  refine ⟨hindexes, ?_⟩
  have hrun : (Engine.forking Engine.forkingMoved).cascade 4 "A.a" [] 0 =
      (Engine.forking Engine.forkingRules).cascade 4 "A.a" [] 0 :=
    hruns _ Engine.forkingRearranged _ _ _ _ _ _ _
  rw [hrun]
  rfl

end Rulebook

end Synchrony
