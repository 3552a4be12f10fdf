import Synchrony.Rule.Basic

/-!
# Renaming variables

To rename the variables of a rule is to put another variable in place of each, at every position
where it stands. It has to be told apart from the others there if and only if it is told apart from
them here (`Rule.Renames`).
-/

set_option autoImplicit false

namespace Synchrony

def Pattern.rename (name : Variable → Variable) : Pattern → Pattern
  | .var v => .var (name v)
  | .lit value => .lit value

def Line.rename (name : Variable → Variable) (line : Line) : Line where
  action := line.action
  args := line.args.map (Pattern.rename name)
  returns := line.returns.map (List.map (Pattern.rename name))

/-- The rule `found` is this one with its variables renamed, so that two positions have one variable
there if and only if they have one variable here. -/
structure Rule.Renames (rule found : Rule) (name : Variable → Variable) : Prop where
  trigger : found.trigger = rule.trigger.rename name
  guards : found.guards = rule.guards.map (Line.rename name)
  consequences : found.consequences = rule.consequences.map (Line.rename name)
  injective : ∀ v ∈ rule.vars, ∀ w ∈ rule.vars, name v = name w → v = w

def Rule.rename (name : Variable → Variable) (rule : Rule) : Rule where
  trigger := rule.trigger.rename name
  guards := rule.guards.map (Line.rename name)
  consequences := rule.consequences.map (Line.rename name)
  line := rule.line

theorem Rule.renames_rename {rule : Rule} {name : Variable → Variable}
    (h : ∀ v ∈ rule.vars, ∀ w ∈ rule.vars, name v = name w → v = w) :
    rule.Renames (rule.rename name) name :=
  ⟨rfl, rfl, rfl, h⟩

theorem Pattern.rename_id (pattern : Pattern) : pattern.rename id = pattern := by
  cases pattern <;> rfl

theorem Line.rename_id (line : Line) : line.rename id = line := by
  have hpatterns : Pattern.rename id = id := funext Pattern.rename_id
  rw [rename, hpatterns, List.map_id, List.map_id_fun, Option.map_id, id]

theorem Rule.Renames.anchor {rule found : Rule} {name : Variable → Variable}
    (h : rule.Renames found name) : found.anchor = rule.anchor := by
  rw [Rule.anchor, h.trigger]
  rfl

/-- The variables of a line are among those of its rule. -/
theorem Rule.vars_subset (rule : Rule) {line : Line} (h : line ∈ rule.lines) :
    line.vars ⊆ rule.vars := by
  intro v hv
  rw [Rule.vars, List.mem_eraseDups]
  exact List.mem_flatMap.mpr ⟨line, h, hv⟩

end Synchrony
