import Synchrony.Keyed
import Synchrony.Rule.Basic

/-!
# Rulebooks

A run asks again and again which rules a call sets off. A rulebook answers from an index that
files every rule under its anchor, in source order; the anchors stand in order of first appearance.

The index is not free: a rulebook carries the proof that it is the one its rules give rise to, so
that every statement about rules is a statement about rulebooks.
-/

set_option autoImplicit false

namespace Synchrony

/-- File one rule under its anchor, behind the rules already there. -/
def fileRule (index : Keyed (List Rule)) (rule : Rule) : Keyed (List Rule) :=
  index.put rule.anchor ((index.get? rule.anchor).getD [] ++ [rule])

/-- The index of a list of rules. -/
def indexRules (rules : List Rule) : Keyed (List Rule) :=
  rules.foldl fileRule []

/-- Rules, indexed by their anchors. -/
structure Rulebook where
  rules : List Rule
  index : Keyed (List Rule)
  index_eq : index = indexRules rules

namespace Rulebook

/-- The rulebook of a list of rules. -/
def ofRules (rules : List Rule) : Rulebook :=
  ⟨rules, indexRules rules, rfl⟩

/-- The anchors in order of first appearance. -/
def anchors (rulebook : Rulebook) : List String :=
  rulebook.index.keys

/-- The number of anchors. -/
def size (rulebook : Rulebook) : Nat :=
  rulebook.index.length

/-- Whether some rule has this anchor. -/
def contains (rulebook : Rulebook) (action : String) : Bool :=
  rulebook.index.has action

/-- The rules under an anchor, if it has any. -/
def get? (rulebook : Rulebook) (action : String) : Option (List Rule) :=
  rulebook.index.get? action

/-- The rules that a call of this action sets off, in source order. -/
def under (rulebook : Rulebook) (action : String) : List Rule :=
  (rulebook.get? action).getD []

/-- Every action that some line names, each once, in increasing order of code points. -/
def mentioned (rulebook : Rulebook) : List String :=
  ((rulebook.rules.flatMap Rule.lines).map Line.action).eraseDups.mergeSort
    fun a b => !decide (b < a)

/-- Filing a rule puts it behind the rules under its own anchor and touches no other. -/
theorem getD_get?_fileRule (index : Keyed (List Rule)) (rule : Rule) (action : String) :
    ((fileRule index rule).get? action).getD [] =
      (index.get? action).getD [] ++ (if rule.anchor = action then [rule] else []) := by
  by_cases h : rule.anchor = action
  · subst h
    simp [fileRule]
  · simp [fileRule, Keyed.get?_put_of_ne h, h]

/-- Filing rules in order is filing those under each anchor in order. -/
theorem getD_get?_foldl_fileRule (index : Keyed (List Rule)) (rules : List Rule)
    (action : String) :
    ((rules.foldl fileRule index).get? action).getD [] =
      (index.get? action).getD [] ++ rules.filter fun rule => rule.anchor = action := by
  induction rules generalizing index with
  | nil => simp
  | cons rule rules ih =>
    rw [List.foldl_cons, ih, getD_get?_fileRule, List.append_assoc]
    by_cases h : rule.anchor = action <;> simp [h]

/-- The rules under an action are those with that anchor, in source order. -/
theorem under_eq_filter (rulebook : Rulebook) (action : String) :
    rulebook.under action = rulebook.rules.filter fun rule => rule.anchor = action := by
  simp only [under, get?, rulebook.index_eq, indexRules, getD_get?_foldl_fileRule]
  simp [Keyed.get?]

end Rulebook

end Synchrony
