import Synchrony.Proofs.Rule.Scanning
import Synchrony.Text.Encoding

/-!
# Line breaks made alike

Files are read with every line break made a line feed (`Encoding.unifyLineBreaks`). This module says
what that does to runs of characters and to places. A run whose class of characters takes in both
the carriage return and the line feed, or neither, is found in the one text where it is found in the
other.

Places need more. A carriage return by itself starts no line, and becomes a line feed, which does.
Where carriage returns stand only in front of line feeds (`Paired`), every place other than between
the two is on the same line and at the same column in both texts.
-/

set_option autoImplicit false

namespace Synchrony.Encoding

variable {s rest before : List Char} {p : Char → Bool}

/-! ## One character at a time -/

@[simp] theorem unifyLineBreaks_nil : unifyLineBreaks [] = [] := by
  rw [unifyLineBreaks]

@[simp] theorem unifyLineBreaks_crlf (s : List Char) :
    unifyLineBreaks ('\r' :: '\n' :: s) = '\n' :: unifyLineBreaks s := by
  rw [unifyLineBreaks]

theorem unifyLineBreaks_cr (h : s.head? ≠ some '\n') :
    unifyLineBreaks ('\r' :: s) = '\n' :: unifyLineBreaks s := by
  cases s with
  | nil => rfl
  | cons c s =>
    have hc : c ≠ '\n' := fun heq => h (by rw [heq]; rfl)
    simp [unifyLineBreaks, hc]

theorem head_ne_of_not_cons (h : ∀ r, s = '\n' :: r → False) : s.head? ≠ some '\n' := by
  intro hhead
  obtain ⟨r, hr⟩ := List.head?_eq_some_iff.mp hhead
  exact h r hr

theorem unifyLineBreaks_cons {c : Char} (h : c ≠ '\r') (s : List Char) :
    unifyLineBreaks (c :: s) = c :: unifyLineBreaks s := by
  simp [unifyLineBreaks, h]

@[simp] theorem unifyLineBreaks_eq_nil : unifyLineBreaks s = [] ↔ s = [] := by
  fun_cases unifyLineBreaks s <;> simp

/-- What starts with a carriage return starts with a line feed then. -/
theorem head_unifyLineBreaks_cr (s : List Char) :
    ∃ t, unifyLineBreaks ('\r' :: s) = '\n' :: t := by
  by_cases h : s.head? = some '\n'
  · obtain ⟨s', rfl⟩ := List.head?_eq_some_iff.mp h
    exact ⟨_, unifyLineBreaks_crlf s'⟩
  · exact ⟨_, unifyLineBreaks_cr h⟩

/-- Texts may be cut anywhere but in front of a line feed. -/
theorem unifyLineBreaks_append (h : rest.head? ≠ some '\n') (before : List Char) :
    unifyLineBreaks (before ++ rest) = unifyLineBreaks before ++ unifyLineBreaks rest := by
  fun_induction unifyLineBreaks before with
  | case1 => rfl
  | case2 s ih => simp [ih]
  | case3 s hs ih =>
    have hhead : (s ++ rest).head? ≠ some '\n' := by
      cases s with
      | nil => exact h
      | cons c s => simpa using fun heq => hs s (by rw [heq])
    rw [List.cons_append, unifyLineBreaks_cr hhead, ih, List.cons_append]
  | case4 c s _ hcr ih =>
    rw [List.cons_append, unifyLineBreaks_cons hcr, ih, List.cons_append]

/-! ## Runs -/

/-- What is left behind a run, if the run goes over line breaks of both kinds or over neither. -/
theorem dropWhile_unifyLineBreaks (h : p '\r' = p '\n') (s : List Char) :
    (unifyLineBreaks s).dropWhile p = unifyLineBreaks (s.dropWhile p) := by
  fun_induction unifyLineBreaks s with
  | case1 => simp
  | case2 s ih =>
    by_cases hp : p '\n' = true
    · simp [h, hp, ih]
    · simp [h, hp]
  | case3 s hs ih =>
    by_cases hp : p '\n' = true
    · simp [h, hp, ih]
    · simp [h, hp, unifyLineBreaks_cr (head_ne_of_not_cons hs)]
  | case4 c s hcrlf hcr ih =>
    by_cases hp : p c = true
    · simp [hp, ih]
    · simp [hp, unifyLineBreaks_cons hcr]

/-- A run that stops at line breaks stays what it is. -/
theorem takeWhile_unifyLineBreaks (hcr : p '\r' = false) (hlf : p '\n' = false) (s : List Char) :
    (unifyLineBreaks s).takeWhile p = s.takeWhile p := by
  fun_induction unifyLineBreaks s with
  | case1 => rfl
  | case2 s ih => simp [hcr, hlf]
  | case3 s hs ih => simp [hcr, hlf]
  | case4 c s _ _ ih => simp [List.takeWhile_cons, ih]

/-! ## Places -/

/-- Every carriage return stands right in front of a line feed. -/
def Paired (s : List Char) : Prop :=
  ∀ before after, s = before ++ '\r' :: after → after.head? = some '\n'

theorem paired_iff : Paired s ↔ ∀ i < s.length, s[i]? = some '\r' → s[i + 1]? = some '\n' := by
  constructor
  · intro h i hi hcr
    have hcut : s = s.take i ++ '\r' :: s.drop (i + 1) := by
      rw [List.getElem?_eq_getElem hi, Option.some.injEq] at hcr
      rw [← hcr, ← List.drop_eq_getElem_cons hi, List.take_append_drop]
    rw [← List.head?_drop]
    exact h _ _ hcut
  · rintro h before after rfl
    have hafter := h before.length (by simp) (by simp)
    simpa [List.head?_eq_getElem?, List.getElem?_append_right] using hafter

instance (s : List Char) : Decidable (Paired s) :=
  decidable_of_iff _ paired_iff.symm

namespace Paired

theorem of_append_right (h : Paired (before ++ s)) : Paired s := by
  intro front after hs
  refine h (before ++ front) after ?_
  rw [hs, List.append_assoc]

theorem tail {c : Char} (h : Paired (c :: s)) : Paired s := by
  have happend : Paired ([c] ++ s) := h
  exact happend.of_append_right

theorem not_cr (h : Paired ('\r' :: s)) (hs : s.head? ≠ some '\n') : False :=
  hs (h [] s rfl)

theorem of_append_left (h : Paired (before ++ rest)) (hrest : rest.head? ≠ some '\n') :
    Paired before := by
  rintro front after rfl
  have hhead := h front (after ++ rest) (by simp)
  cases after with
  | nil => exact absurd hhead hrest
  | cons c after => exact hhead

/-- Line feeds are as many as before. -/
theorem count (h : Paired s) : (unifyLineBreaks s).count '\n' = s.count '\n' := by
  fun_induction unifyLineBreaks s with
  | case1 => rfl
  | case2 s ih => simp [ih h.tail.tail]
  | case3 s hs ih => exact (h.not_cr (head_ne_of_not_cons hs)).elim
  | case4 c s _ _ ih => simp [List.count_cons, ih h.tail]

end Paired

/-- The last line of a text, read backwards, is that of what follows the first character. -/
theorem lastLine_cons (c : Char) (s : List Char) :
    (c :: s).reverse.takeWhile (· != '\n') =
      s.reverse.takeWhile (· != '\n') ++ if '\n' ∈ c :: s then [] else [c] := by
  rw [List.reverse_cons, List.takeWhile_append]
  by_cases hs : '\n' ∈ s
  · rw [if_neg, if_pos (List.mem_cons_of_mem c hs), List.append_nil]
    intro hlength
    have hall := Source.all_takeWhile (· != '\n') s.reverse
    rw [(List.takeWhile_prefix _).eq_of_length hlength] at hall
    exact absurd (hall '\n' (List.mem_reverse.mpr hs)) (by decide)
  · have hall : s.reverse.takeWhile (· != '\n') = s.reverse := by
      rw [List.takeWhile_eq_self_iff]
      intro d hd
      rw [bne_iff_ne]
      rintro rfl
      exact hs (List.mem_reverse.mp hd)
    rw [hall, if_pos rfl]
    by_cases hc : c = '\n'
    · simp [hc]
    · simp [hs, hc, Ne.symm hc]

/-- What stands behind the last line feed stays what it is. -/
theorem Paired.lastLine (h : Paired s) :
    (unifyLineBreaks s).reverse.takeWhile (· != '\n') = s.reverse.takeWhile (· != '\n') := by
  fun_induction unifyLineBreaks s with
  | case1 => rfl
  | case2 s ih =>
    rw [lastLine_cons, lastLine_cons, lastLine_cons, ih h.tail.tail]
    simp
  | case3 s hs ih => exact (h.not_cr (head_ne_of_not_cons hs)).elim
  | case4 c s _ _ ih =>
    have hmem : '\n' ∈ unifyLineBreaks s ↔ '\n' ∈ s := by
      rw [← List.count_pos_iff, ← List.count_pos_iff, h.tail.count]
    simp only [lastLine_cons, ih h.tail, List.mem_cons, hmem]

/-- What stands in front of the first line feed loses no more than a carriage return at its end. -/
theorem Paired.firstLine (h : Paired s) :
    ∃ blanks : Source.Blanks, s.takeWhile (· != '\n') =
      (unifyLineBreaks s).takeWhile (· != '\n') ++ blanks.chars := by
  fun_induction unifyLineBreaks s with
  | case1 => exact ⟨.none, rfl⟩
  | case2 s ih => exact ⟨⟨['\r'], List.all_eq_true.mp rfl⟩, by simp⟩
  | case3 s hs ih => exact (h.not_cr (head_ne_of_not_cons hs)).elim
  | case4 c s _ _ ih =>
    by_cases hc : c = '\n'
    · exact ⟨.none, by simp [hc, Source.Blanks.none]⟩
    · obtain ⟨blanks, hs⟩ := ih h.tail
      exact ⟨blanks, by simp [hc, hs]⟩

end Synchrony.Encoding

namespace Synchrony.Source

theorem trim_append_blanks (s : List Char) (blanks : Blanks) :
    Text.trim (s ++ blanks.chars) = Text.trim s := by
  have hend (s : List Char) : Text.trimEnd (s ++ blanks.chars) = Text.trimEnd s := by
    rw [Text.trimEnd, List.reverse_append, List.dropWhile_append_of_pos]
    · rfl
    · exact fun c hc => blanks.blank c (List.mem_reverse.mp hc)
  rw [Text.trim, Text.skipBlanks, List.dropWhile_append]
  split
  next hnil =>
    have hblank : blanks.chars.dropWhile Text.isBlank = [] :=
      List.dropWhile_eq_nil_iff.mpr blanks.blank
    rw [hblank, Text.trim, Text.skipBlanks, List.isEmpty_iff.mp hnil]
  next => exact hend _

end Synchrony.Source
