import Mathlib.Algebra.Order.BigOperators.Group.List
import Mathlib.Algebra.Order.Ring.Nat
import Mathlib.Data.List.Perm.Subperm
import Mathlib.Logic.Relation
import Synchrony.Rule.Rulebook

/-!
# What actions lead to

A rule that is set off by an action calls the actions of its own lines. So rules make a graph of
actions, in which an action leads to those that the rules anchored on it call
(`Rulebook.leads`), as often as their lines name them.

## 1. The cost of an action

Where no cycle can be reached, every call has a **cost**: one for the call itself, and the costs of
all that its action leads to. It is the number of calls that a run makes if every rule that is set
off fires. `Rulebook.cost` works it out to a depth that no path without a cycle exceeds, since every
step of a path leaves another anchor behind; the equation that one would like to define the cost by
is then a theorem (`Rulebook.cost_eq`).

## 2. Depth

`Rulebook.Shallow` bounds the length of all paths from an action at once. It follows the recursion
of the cost, which is the reason for having it: one more level changes nothing below a shallow
action.
-/

set_option autoImplicit false

namespace Synchrony

/-- The lines that a rule performs itself: all but its trigger. -/
def Rule.ownLines (rule : Rule) : List Line :=
  rule.guards ++ rule.consequences

namespace Rulebook

variable (rulebook : Rulebook)

/-! ## The graph -/

/-- The actions that the rules anchored on an action call, one for each line. -/
def leads (action : String) : List String :=
  ((rulebook.rules.filter fun rule => rule.anchor = action).flatMap Rule.ownLines).map
    Line.action

def LeadsTo (action other : String) : Prop :=
  other ∈ rulebook.leads action

/-- No action that can be reached from this one can be reached from itself. -/
def AcyclicFrom (action : String) : Prop :=
  ∀ other, Relation.ReflTransGen rulebook.LeadsTo action other →
    ¬Relation.TransGen rulebook.LeadsTo other other

theorem acyclicFrom_of_rank {action : String} (rank : String → Nat)
    (h : ∀ x y, rulebook.LeadsTo x y → rank y < rank x) : rulebook.AcyclicFrom action := by
  have hpath {x y : String} (hxy : Relation.TransGen rulebook.LeadsTo x y) :
      rank y < rank x := by
    induction hxy with
    | single hstep => exact h _ _ hstep
    | tail _ hstep ih => exact Nat.lt_trans (h _ _ hstep) ih
  intro other _ hcycle
  exact Nat.lt_irrefl _ (hpath hcycle)

variable {rulebook}

theorem AcyclicFrom.leadsTo {action other : String} (h : rulebook.AcyclicFrom action)
    (hother : rulebook.LeadsTo action other) : rulebook.AcyclicFrom other :=
  fun last hlast => h last (.head hother hlast)

theorem leadsTo_iff {action other : String} :
    rulebook.LeadsTo action other ↔
      ∃ rule ∈ rulebook.rules, rule.anchor = action ∧
        ∃ line ∈ rule.ownLines, line.action = other := by
  simp only [LeadsTo, leads, List.mem_map, List.mem_flatMap, List.mem_filter, decide_eq_true_eq]
  constructor
  · rintro ⟨line, ⟨rule, ⟨hrule, hanchor⟩, hline⟩, haction⟩
    exact ⟨rule, hrule, hanchor, line, hline, haction⟩
  · rintro ⟨rule, hrule, hanchor, line, hline, haction⟩
    exact ⟨line, ⟨rule, ⟨hrule, hanchor⟩, hline⟩, haction⟩

/-- The lines of the rules that an action sets off are what it leads to. -/
theorem leads_eq (rulebook : Rulebook) (action : String) :
    rulebook.leads action =
      ((rulebook.under action).flatMap Rule.ownLines).map Line.action := by
  rw [leads, under_eq_filter]

theorem leadsTo_of_under {action : String} {rule : Rule} {line : Line}
    (hrule : rule ∈ rulebook.under action) (hline : line ∈ rule.ownLines) :
    rulebook.LeadsTo action line.action := by
  rw [LeadsTo, leads_eq]
  exact List.mem_map_of_mem (List.mem_flatMap.mpr ⟨rule, hrule, hline⟩)

theorem mem_rules_of_under (rulebook : Rulebook) {action : String} {rule : Rule}
    (h : rule ∈ rulebook.under action) : rule ∈ rulebook.rules := by
  rw [under_eq_filter] at h
  exact List.mem_of_mem_filter h

theorem anchor_mem_of_leadsTo {action other : String} (h : rulebook.LeadsTo action other) :
    action ∈ rulebook.rules.map Rule.anchor := by
  obtain ⟨rule, hrule, hanchor, -⟩ := leadsTo_iff.mp h
  exact List.mem_map.mpr ⟨rule, hrule, hanchor⟩

/-- What actions lead to is named by some line. -/
theorem LeadsTo.mentioned {action other : String} (h : rulebook.LeadsTo action other) :
    other ∈ rulebook.mentioned := by
  obtain ⟨rule, hrule, -, line, hline, rfl⟩ := leadsTo_iff.mp h
  rw [Rulebook.mentioned, List.mem_mergeSort, List.mem_eraseDups]
  refine List.mem_map_of_mem (List.mem_flatMap.mpr ⟨rule, hrule, ?_⟩)
  rw [Rule.lines, Rule.whenLines, List.cons_append]
  exact List.mem_cons_of_mem _ hline

/-! ## Depth -/

variable (rulebook)

/-- No path from an action has more than so many steps. -/
def Shallow : Nat → String → Prop
  | 0, action => ∀ other, ¬rulebook.LeadsTo action other
  | depth + 1, action => ∀ other, rulebook.LeadsTo action other → Shallow depth other

variable {rulebook}

variable (rulebook) in
/-- The actions that a path has left behind on its way to this one, the last of them first. -/
structure LeftBehind (left : List String) (action : String) : Prop where
  nodup : left.Nodup
  anchors : left ⊆ rulebook.rules.map Rule.anchor
  leads : ∀ x ∈ left, Relation.TransGen rulebook.LeadsTo x action

/-- Without cycles, a path leaves another anchor behind with every step. -/
theorem LeftBehind.step {left : List String} {action other : String}
    (h : rulebook.LeftBehind left action) (hacyclic : rulebook.AcyclicFrom action)
    (hother : rulebook.LeadsTo action other) : rulebook.LeftBehind (action :: left) other where
  nodup := List.nodup_cons.mpr ⟨fun hmem => hacyclic action .refl (h.leads action hmem), h.nodup⟩
  anchors := List.cons_subset.mpr ⟨anchor_mem_of_leadsTo hother, h.anchors⟩
  leads := by
    intro x hx
    rcases List.mem_cons.mp hx with rfl | hx
    · exact .single hother
    · exact (h.leads x hx).tail hother

theorem LeftBehind.length_le {left : List String} {action : String}
    (h : rulebook.LeftBehind left action) : left.length ≤ rulebook.rules.length := by
  have hlength := (List.subperm_of_subset h.nodup h.anchors).length_le
  rwa [List.length_map] at hlength

theorem LeftBehind.shallow {depth : Nat} {left : List String} {action : String}
    (h : rulebook.LeftBehind left action) (hacyclic : rulebook.AcyclicFrom action)
    (hdepth : depth + left.length = rulebook.rules.length) :
    rulebook.Shallow depth action := by
  induction depth generalizing action left with
  | zero =>
    intro other hother
    -- All anchors are behind the path already, and a step would leave one more there.
    have hlength := (h.step hacyclic hother).length_le
    rw [List.length_cons] at hlength
    omega
  | succ depth ih =>
    intro other hother
    refine ih (h.step hacyclic hother) (hacyclic.leadsTo hother) ?_
    rw [List.length_cons]
    omega

theorem AcyclicFrom.shallow {action : String} (h : rulebook.AcyclicFrom action) :
    rulebook.Shallow rulebook.rules.length action :=
  LeftBehind.shallow ⟨List.nodup_nil, List.nil_subset _, by simp⟩ h rfl

/-! ## The cost -/

variable (rulebook)

/-- The cost of an action, looked at no deeper than this. -/
def costWithin : Nat → String → Nat
  | 0, _ => 1
  | depth + 1, action => 1 + ((rulebook.leads action).map (costWithin depth)).sum

/-- The cost of an action from which no cycle can be reached: one, and the costs of all it
leads to. -/
def cost (action : String) : Nat :=
  rulebook.costWithin rulebook.rules.length action

def costAll (actions : List String) : Nat :=
  (actions.map rulebook.cost).sum

/-- What several actions lead to, together. -/
def dueAll (actions : List String) : Nat :=
  (actions.map fun action => rulebook.costAll (rulebook.leads action)).sum

variable {rulebook}

theorem cost_pos (action : String) : 1 ≤ rulebook.cost action := by
  rw [cost]
  cases rulebook.rules.length with
  | zero => exact Nat.le_refl 1
  | succ depth => exact Nat.le_add_right 1 _

theorem costWithin_succ_of_shallow {depth : Nat} {action : String}
    (h : rulebook.Shallow depth action) :
    rulebook.costWithin (depth + 1) action = rulebook.costWithin depth action := by
  induction depth generalizing action with
  | zero =>
    have hnone : rulebook.leads action = [] := List.eq_nil_iff_forall_not_mem.mpr h
    rw [costWithin, costWithin, hnone]
    rfl
  | succ depth ih =>
    rw [costWithin, costWithin]
    have hmap : (rulebook.leads action).map (rulebook.costWithin (depth + 1)) =
        (rulebook.leads action).map (rulebook.costWithin depth) :=
      List.map_congr_left fun other hother => ih (h other hother)
    rw [hmap]

/-- **The equation of costs.** -/
theorem cost_eq {action : String} (h : rulebook.AcyclicFrom action) :
    rulebook.cost action = 1 + rulebook.costAll (rulebook.leads action) := by
  rw [cost, ← costWithin_succ_of_shallow h.shallow]
  rfl

@[simp] theorem costAll_append (front back : List String) :
    rulebook.costAll (front ++ back) = rulebook.costAll front + rulebook.costAll back := by
  rw [costAll, List.map_append, List.sum_append]
  rfl

@[simp] theorem costAll_cons (action : String) (rest : List String) :
    rulebook.costAll (action :: rest) = rulebook.cost action + rulebook.costAll rest := by
  rw [costAll, List.map_cons, List.sum_cons]
  rfl

theorem length_le_costAll (actions : List String) :
    actions.length ≤ rulebook.costAll actions := by
  induction actions with
  | nil => exact Nat.zero_le _
  | cons action rest ih =>
    have hpos := rulebook.cost_pos action
    rw [costAll_cons, List.length_cons]
    omega

@[simp] theorem dueAll_nil : rulebook.dueAll [] = 0 := rfl

@[simp] theorem dueAll_append (front back : List String) :
    rulebook.dueAll (front ++ back) = rulebook.dueAll front + rulebook.dueAll back := by
  rw [dueAll, List.map_append, List.sum_append]
  rfl

@[simp] theorem dueAll_cons (action : String) (rest : List String) :
    rulebook.dueAll (action :: rest) =
      rulebook.costAll (rulebook.leads action) + rulebook.dueAll rest := by
  rw [dueAll, List.map_cons, List.sum_cons]
  rfl

theorem costAll_eq {actions : List String}
    (h : ∀ action ∈ actions, rulebook.AcyclicFrom action) :
    rulebook.costAll actions = actions.length + rulebook.dueAll actions := by
  induction actions with
  | nil => rfl
  | cons action rest ih =>
    obtain ⟨haction, hrest⟩ := List.forall_mem_cons.mp h
    rw [costAll_cons, dueAll_cons, cost_eq haction, ih hrest, List.length_cons]
    omega

end Rulebook

end Synchrony
