import Mathlib.Algebra.Ring.Nat
import Mathlib.Data.List.Induction
import Mathlib.Tactic.Common

/-!
# Text lines

A text is cut into lines at its line feeds and nowhere else; what stands behind the last line feed
is a line as well, and may be empty. A place in a text has a line and a column, both counted from
one, and they say where it is: no two places have both in common (`OnLine.unique`).
-/

set_option autoImplicit false

namespace Synchrony.Text

/-- The lines of a text. -/
def lines (s : List Char) : List (List Char) :=
  s.splitOn '\n'

/-- So many characters stand in front of the given column of the given line. A line in front takes
up one character more than it has, for the line feed behind it. -/
def OnLine (s : List Char) (line column offset : Nat) : Prop :=
  ∃ before current after, lines s = before ++ current :: after ∧ before.length + 1 = line ∧
    ∃ k ≤ current.length, k + 1 = column ∧
      (before.map fun l => l.length + 1).sum + k = offset

theorem OnLine.unique {s : List Char} {line column p q : Nat} (hp : OnLine s line column p)
    (hq : OnLine s line column q) : p = q := by
  obtain ⟨before, current, after, hlines, hline, k, -, hcolumn, rfl⟩ := hp
  obtain ⟨before', current', after', hlines', hline', k', -, hcolumn', rfl⟩ := hq
  rw [hlines] at hlines'
  obtain ⟨rfl, -⟩ := List.append_inj hlines' (by omega)
  omega

/-- Lines with a line feed behind each. -/
theorem lines_of_breaks {ls : List (List Char)} (h : ∀ l ∈ ls, '\n' ∉ l) :
    lines (ls.flatMap fun l => l ++ ['\n']) = ls ++ [[]] := by
  induction ls with
  | nil => rfl
  | cons l ls ih =>
    obtain ⟨hl, hls⟩ := List.forall_mem_cons.mp h
    have hcut := List.splitOn_append_cons_self_of_not_mem hl (ls.flatMap fun l => l ++ ['\n'])
    rw [List.flatMap_cons, List.append_assoc, List.singleton_append, lines, hcut]
    rw [lines] at ih
    rw [ih hls, List.cons_append]

theorem lines_break (s : List Char) : lines ('\n' :: s) = [] :: lines s := by
  rw [lines, List.splitOn_cons_eq_if_modifyHead]
  rfl

theorem lines_cons {c : Char} {s first : List Char} {more : List (List Char)} (hc : c ≠ '\n')
    (h : lines s = first :: more) : lines (c :: s) = (c :: first) :: more := by
  have hbreak : (c == '\n') = false := beq_eq_false_iff_ne.mpr hc
  rw [lines] at h
  rw [lines, List.splitOn_cons_eq_if_modifyHead, hbreak, h]
  rfl

/-- The line that a text ends with goes on with the first line of what follows. -/
theorem lines_append (x : List Char) : ∃ before,
    (∀ y first more, lines y = first :: more → lines (x ++ y) =
      before ++ ((x.reverse.takeWhile (· != '\n')).reverse ++ first) :: more) ∧
    before.length = x.count '\n' ∧
    (before.map fun l => l.length + 1).sum + (x.reverse.takeWhile (· != '\n')).length =
      x.length := by
  induction x using List.reverseRecOn with
  | nil => exact ⟨[], fun _ _ _ h => h, rfl, rfl⟩
  | append_singleton x c ih =>
    obtain ⟨before, hlines, hcount, hsum⟩ := ih
    rw [List.reverse_append, List.reverse_singleton, List.singleton_append, List.count_append,
      List.length_append, ← hsum, ← hcount]
    by_cases hc : c = '\n'
    · subst hc
      refine ⟨before ++ [(x.reverse.takeWhile (· != '\n')).reverse], ?_, ?_, ?_⟩
      · intro y first more hy
        have hbreak := hlines ('\n' :: y) [] (lines y) (lines_break y)
        rw [hy] at hbreak
        simpa using hbreak
      · simp
      · simp [Nat.add_assoc]
    · refine ⟨before, ?_, ?_, ?_⟩
      · intro y first more hy
        have hcons := hlines (c :: y) _ _ (lines_cons hc hy)
        simpa [hc] using hcons
      · simp [hc]
      · simp [hc, Nat.add_assoc]

theorem onLine_append (x y : List Char) :
    OnLine (x ++ y) (x.count '\n' + 1) ((x.reverse.takeWhile (· != '\n')).length + 1) x.length := by
  obtain ⟨before, hlines, hcount, hsum⟩ := lines_append x
  obtain ⟨first, more, hy⟩ := List.exists_cons_of_ne_nil (List.splitOn_ne_nil '\n' y)
  refine ⟨before, _, more, hlines y first more hy, by rw [hcount], _, ?_, rfl, hsum⟩
  rw [List.length_append, List.length_reverse]
  exact Nat.le_add_right _ _

end Synchrony.Text
