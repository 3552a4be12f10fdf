import Synchrony.Proofs.Rule.Graph

/-!
# Scope

The arguments of a call are worked out before the call is made, so its variables need values by
then, and they have them only from the lines before it. This is a question about the text of a rule
alone: a line is **closed** behind earlier lines if each variable among its arguments occurs in one
of them, be it in an argument or in a return clause.

A rule is **scoped** if each line that it performs is closed behind all lines before it, the trigger
included. Otherwise there is a first line that is not (`Rule.scoped_or_openAt`).
-/

set_option autoImplicit false

namespace Synchrony

namespace Line

/-- The variables among the arguments of a line, in order. -/
def argVars (line : Line) : List Variable :=
  line.args.filterMap Pattern.asVariable?

/-- Each variable among the arguments occurs in one of the earlier lines. -/
def ClosedBehind (earlier : List Line) (line : Line) : Prop :=
  ∀ v ∈ line.argVars, v ∈ earlier.flatMap vars

instance (earlier : List Line) (line : Line) : Decidable (line.ClosedBehind earlier) :=
  inferInstanceAs (Decidable (∀ v ∈ line.argVars, v ∈ earlier.flatMap vars))

/-- The first variable among the arguments that occurs in none of the earlier lines. -/
def firstOpen? (earlier : List Line) (line : Line) : Option Variable :=
  line.argVars.find? fun v => decide (v ∉ earlier.flatMap vars)

theorem exists_firstOpen {earlier : List Line} {line : Line} (h : ¬line.ClosedBehind earlier) :
    ∃ v, line.firstOpen? earlier = some v := by
  rw [← Option.isSome_iff_exists, firstOpen?, List.find?_isSome]
  simp only [ClosedBehind, not_forall] at h
  obtain ⟨v, hmem, hopen⟩ := h
  exact ⟨v, hmem, decide_eq_true hopen⟩

/-- Each line is closed behind the earlier lines and the lines before it. -/
def AllClosed (earlier : List Line) : List Line → Prop
  | [] => True
  | line :: lines => line.ClosedBehind earlier ∧ AllClosed (earlier ++ [line]) lines

theorem allClosed_append {earlier front back : List Line} :
    AllClosed earlier (front ++ back) ↔
      AllClosed earlier front ∧ AllClosed (earlier ++ front) back := by
  induction front generalizing earlier with
  | nil => simp [AllClosed]
  | cons line front ih =>
    rw [List.cons_append, AllClosed, AllClosed, ih, and_assoc, List.append_assoc,
      List.singleton_append]

theorem allClosed_or_open (earlier lines : List Line) :
    AllClosed earlier lines ∨ ∃ before line after, lines = before ++ line :: after ∧
      AllClosed earlier before ∧ ¬line.ClosedBehind (earlier ++ before) := by
  induction lines generalizing earlier with
  | nil => exact Or.inl trivial
  | cons first lines ih =>
    by_cases hfirst : first.ClosedBehind earlier
    · rcases ih (earlier ++ [first]) with hall | ⟨before, line, after, rfl, hbefore, hopen⟩
      · exact Or.inl ⟨hfirst, hall⟩
      · rw [List.append_assoc, List.singleton_append] at hopen
        exact Or.inr ⟨first :: before, line, after, rfl, ⟨hfirst, hbefore⟩, hopen⟩
    · refine Or.inr ⟨[], first, lines, rfl, trivial, ?_⟩
      rwa [List.append_nil]

end Line

namespace Rule

variable (rule : Rule)

/-- Every line that the rule performs is closed behind all lines before it. -/
def Scoped : Prop :=
  Line.AllClosed [rule.trigger] rule.ownLines

/-- The first line that is not closed, between the lines before it and those behind it. -/
structure OpenAt (before : List Line) (line : Line) (after : List Line) : Prop where
  lines_eq : rule.ownLines = before ++ line :: after
  closed : Line.AllClosed [rule.trigger] before
  unclosed : ¬line.ClosedBehind (rule.trigger :: before)

theorem scoped_or_openAt : rule.Scoped ∨ ∃ before line after, rule.OpenAt before line after := by
  rcases Line.allClosed_or_open [rule.trigger] rule.ownLines with
    hall | ⟨before, line, after, hlines, hbefore, hopen⟩
  · exact Or.inl hall
  · exact Or.inr ⟨before, line, after, hlines, hbefore, hopen⟩

variable {rule}

/-- The first line that is not closed is a guard or a consequence. -/
theorem OpenAt.guard_or_consequence {before after : List Line} {line : Line}
    (h : rule.OpenAt before line after) : (∃ rest, rule.guards = before ++ line :: rest) ∨
      ∃ middle, before = rule.guards ++ middle ∧ rule.consequences = middle ++ line :: after := by
  have hlines := h.lines_eq
  rw [ownLines] at hlines
  rcases List.append_eq_append_iff.mp hlines with
    ⟨middle, hbefore, hrest⟩ | ⟨rest, hguards, hrest⟩
  · exact Or.inr ⟨middle, hbefore, hrest⟩
  · cases rest with
    | nil => exact Or.inr ⟨[], by simpa using hguards.symm, hrest.symm⟩
    | cons first rest =>
      cases hrest
      exact Or.inl ⟨rest, hguards⟩

end Rule

end Synchrony
