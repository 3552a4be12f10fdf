import Mathlib.Data.List.TakeWhile
import Synchrony.Json.Read
import Synchrony.Json.Write

/-!
# Reading back what was written

A string can hold a character in more than one way. Every character may be written by number, as
one unit of sixteen bits or as two, and most may stand for themselves. A string is read back
whichever way is chosen for each of its characters (`read?_string`), and so is an integer that does
not have too many digits (`read?_ofInt`).

Inside a list or a record more text follows. A string says itself where it ends, an integer does so
only in front of what can stand behind a value (`EndsValue`).
-/

set_option autoImplicit false

namespace Synchrony.Json

/-! ## Whole texts -/

theorem value_of_scalar {c : Char} {r rest : List Char} {v : Value}
    (h : scalar? (c :: r) = some (v, rest)) (hlist : c ≠ '[') (hrecord : c ≠ '\x7b')
    (fuel : Nat) : value (fuel + 1) (c :: r) = some (v, rest) := by
  rw [value]
  · exact h
  · intro r' hr
    exact hlist (List.cons.inj hr).1
  · intro r' hr
    exact hrecord (List.cons.inj hr).1

theorem skipSpace_cons {c : Char} (h : isSpace c = false) (r : List Char) :
    skipSpace (c :: r) = c :: r :=
  List.dropWhile_cons_of_neg (by rw [h]; decide)

theorem read?_of_scalar {c : Char} {r : List Char} {v : Value}
    (h : scalar? (c :: r) = some (v, [])) (hspace : isSpace c = false) (hlist : c ≠ '[')
    (hrecord : c ≠ '\x7b') : read? (c :: r) = some v := by
  rw [read?, skipSpace_cons hspace, value_of_scalar h hlist hrecord]
  rfl

/-! ## Numbers of characters -/

/-- A unit of sixteen bits, written by its number. -/
def unitEscape (n : Nat) : List Char :=
  '\\' :: 'u' :: Text.hexDigits 4 n

/-- A character written by number, as one unit or as two halves. -/
def numberEscape (c : Char) : List Char :=
  if c.toNat < 0x10000 then unitEscape c.toNat
  else unitEscape (0xD800 + (c.toNat - 0x10000) / 0x400) ++
    unitEscape (0xDC00 + (c.toNat - 0x10000) % 0x400)

theorem hexValue?_hexDigit {n : Nat} (h : n < 16) : hexValue? (Text.hexDigit n) = some n := by
  have hall : ∀ d : Fin 16, hexValue? (Text.hexDigit d.val) = some d.val := by decide
  exact hall ⟨n, h⟩

theorem hexUnit?_hexDigits {n : Nat} (h : n < 0x10000) (rest : List Char) :
    hexUnit? (Text.hexDigits 4 n ++ rest) = some (n, rest) := by
  have hdigit (m : Nat) : hexValue? (Text.hexDigit (m % 16)) = some (m % 16) :=
    hexValue?_hexDigit (Nat.mod_lt m (by decide))
  have hsum : ((n / 16 / 16 / 16 % 16 * 16 + n / 16 / 16 % 16) * 16 + n / 16 % 16) * 16 + n % 16 =
      n := by omega
  simp only [Text.hexDigits, List.nil_append, List.cons_append, hexUnit?, hdigit,
    Option.bind_eq_bind, Option.bind_some, hsum]
  rfl

theorem toNat_cases (c : Char) :
    c.toNat < 0xD800 ∨ (0xE000 ≤ c.toNat ∧ c.toNat < 0x110000) := by
  rcases c.valid with h | ⟨h, h'⟩
  · exact Or.inl h
  · exact Or.inr ⟨h, h'⟩

theorem numberedChar?_of_unit {n : Nat} (h : n < 0xD800 ∨ (0xE000 ≤ n ∧ n < 0x10000))
    (rest : List Char) :
    numberedChar? (Text.hexDigits 4 n ++ rest) = some (Char.ofNat n, rest) := by
  have hlead : isLeadUnit n = false := by
    simp only [isLeadUnit, Bool.and_eq_false_iff, decide_eq_false_iff_not]
    omega
  have htrail : isTrailUnit n = false := by
    simp only [isTrailUnit, Bool.and_eq_false_iff, decide_eq_false_iff_not]
    omega
  rw [numberedChar?, hexUnit?_hexDigits (by omega)]
  simp [hlead, htrail]

theorem numberedChar?_of_halves {n : Nat} (h : n < 0x100000) (rest : List Char) :
    numberedChar? (Text.hexDigits 4 (0xD800 + n / 0x400) ++
      (unitEscape (0xDC00 + n % 0x400) ++ rest)) = some (Char.ofNat (0x10000 + n), rest) := by
  have hlead : isLeadUnit (0xD800 + n / 0x400) = true := by
    simp only [isLeadUnit, Bool.and_eq_true, decide_eq_true_eq]
    omega
  have htrail : isTrailUnit (0xDC00 + n % 0x400) = true := by
    simp only [isTrailUnit, Bool.and_eq_true, decide_eq_true_eq]
    omega
  have hsecond : trailUnit? (unitEscape (0xDC00 + n % 0x400) ++ rest) =
      some (0xDC00 + n % 0x400, rest) := by
    rw [unitEscape, List.cons_append, List.cons_append, trailUnit?, hexUnit?_hexDigits (by omega)]
    simp [htrail]
  have hsum : 0x10000 + n / 0x400 * 0x400 + n % 0x400 = 0x10000 + n := by omega
  rw [numberedChar?, hexUnit?_hexDigits (by omega)]
  simp [hlead, hsecond, hsum]

/-! ## Strings -/

/-- These characters stand for one character of a string. -/
structure Stands (chars : List Char) (c : Char) : Prop where
  ne_nil : chars ≠ []
  onto : ∀ fuel done rest, stringOnto (fuel + 1) done (chars ++ rest) =
    stringOnto fuel (c :: done) rest

theorem stands_of_escape {escape : List Char} {c : Char}
    (h : ∀ rest, escape? (escape ++ rest) = some (c, rest)) : Stands ('\\' :: escape) c where
  ne_nil := List.cons_ne_nil _ _
  onto fuel done rest := by
    rw [List.cons_append, stringOnto]
    · rw [h]

theorem numberEscape_stands (c : Char) : Stands (numberEscape c) c := by
  have hvalid := toNat_cases c
  rw [numberEscape]
  split
  next hsmall =>
    refine stands_of_escape fun rest => ?_
    rw [List.cons_append, escape?, numberedChar?_of_unit (by omega), Char.ofNat_toNat]
  next hlarge =>
    -- Two halves in a row, and the reader puts them together again.
    have hsum : 0x10000 + (c.toNat - 0x10000) = c.toNat := by omega
    rw [unitEscape, List.cons_append]
    refine stands_of_escape fun rest => ?_
    rw [List.cons_append, List.cons_append, List.append_assoc, escape?,
      numberedChar?_of_halves (by omega), hsum, Char.ofNat_toNat]

theorem stands_of_plain {c : Char} (hquote : c ≠ '"') (hslash : c ≠ '\\') (h : ¬c.toNat < 32) :
    Stands [c] c where
  ne_nil := List.cons_ne_nil _ _
  onto fuel done rest := by
    rw [List.singleton_append, stringOnto]
    · exact if_neg h
    · exact hquote
    · exact hslash

theorem escapeChar_stands (c : Char) : Stands (escapeChar c) c := by
  have hletter {letter : Char} (hne : letter ≠ 'u') (h : letterChar? letter = some c) :
      Stands ['\\', letter] c := by
    refine stands_of_escape fun rest => ?_
    rw [List.singleton_append, escape?, h]
    · rfl
    · exact hne
  have hof {n : Nat} (h : c.toNat = n) : Char.ofNat n = c := by rw [← h, Char.ofNat_toNat]
  unfold escapeChar
  split
  next h => exact hletter (by decide) (by rw [h]; rfl)
  split
  next h => exact hletter (by decide) (by rw [h]; rfl)
  split
  next h => exact hletter (by decide) (by rw [h]; rfl)
  split
  next h => exact hletter (by decide) (by rw [h]; rfl)
  split
  next h => exact hletter (by decide) (by rw [h]; rfl)
  split
  next h => exact hletter (by decide) (by rw [← hof h]; rfl)
  split
  next h => exact hletter (by decide) (by rw [← hof h]; rfl)
  split
  next h =>
    have hstands := numberEscape_stands c
    rwa [numberEscape, if_pos (by omega)] at hstands
  next hquote hslash _ _ _ _ _ h => exact stands_of_plain hquote hslash h

section Strings

variable {escape : Char → List Char} (h : ∀ c, Stands (escape c) c)

include h

theorem stringOnto_of_stands (cs : List Char) {fuel : Nat} (hfuel : cs.length < fuel)
    (done rest : List Char) :
    stringOnto fuel done (cs.flatMap escape ++ '"' :: rest) = some (done.reverse ++ cs, rest) := by
  induction cs generalizing fuel done with
  | nil =>
    cases fuel with
    | zero => cases hfuel
    | succ fuel => rw [List.flatMap_nil, List.nil_append, stringOnto, List.append_nil]
  | cons c cs ih =>
    cases fuel with
    | zero => cases hfuel
    | succ fuel =>
      rw [List.flatMap_cons, List.append_assoc, (h c).onto, ih (Nat.lt_of_succ_lt_succ hfuel),
        List.reverse_cons, List.append_assoc, List.singleton_append]

theorem length_le_flatMap (cs : List Char) : cs.length ≤ (cs.flatMap escape).length := by
  induction cs with
  | nil => exact Nat.le_refl _
  | cons c cs ih =>
    have hpos := List.length_pos_iff.mpr (h c).ne_nil
    rw [List.flatMap_cons, List.length_append, List.length_cons]
    omega

theorem string?_of_stands (s : String) (rest : List Char) :
    string? (s.toList.flatMap escape ++ '"' :: rest) = some (s, rest) := by
  -- The reader goes on for as many characters as the text has, and none is written by nothing.
  have hlength := length_le_flatMap h s.toList
  rw [string?, stringOnto_of_stands h _ (by rw [List.length_append]; omega)]
  simp

/-- **A string is read back, however its characters are written.** -/
theorem read?_string (s : String) :
    read? ('"' :: s.toList.flatMap escape ++ ['"']) = some (.text s) := by
  refine read?_of_scalar ?_ rfl (by decide) (by decide)
  have hscalar : scalar? ('"' :: (s.toList.flatMap escape ++ ['"'])) = some (.text s, []) := by
    rw [scalar?, string?_of_stands h]
    rfl
  exact hscalar

end Strings

/-! ## Integers -/

/-- What can stand behind a value: nothing, or what goes on in a list or a record. -/
def EndsValue (rest : List Char) : Prop :=
  ∀ c ∈ rest.head?, c = ',' ∨ c = ']' ∨ c = '\x7d'

theorem endsValue_nil : EndsValue [] := by
  intro c hc
  cases hc

theorem endsValue_cons {c : Char} (h : c = ',' ∨ c = ']' ∨ c = '\x7d') (r : List Char) :
    EndsValue (c :: r) := by
  intro d hd
  cases hd
  exact h

theorem spanDigits_of_endsValue {ds rest : List Char}
    (hds : ∀ c ∈ ds, Decimal.isDigit c = true) (h : EndsValue rest) :
    Decimal.spanDigits (ds ++ rest) = (ds, rest) := by
  have hrest : rest.takeWhile Decimal.isDigit = [] ∧ rest.dropWhile Decimal.isDigit = rest := by
    cases rest with
    | nil => exact ⟨rfl, rfl⟩
    | cons c r =>
      have hdigit : Decimal.isDigit c = false := by
        rcases h c rfl with rfl | rfl | rfl <;> rfl
      simp [hdigit]
  rw [Decimal.spanDigits, List.takeWhile_append_of_pos hds, List.dropWhile_append_of_pos hds,
    hrest.1, hrest.2, List.append_nil]

theorem fraction?_of_endsValue {rest : List Char} (h : EndsValue rest) :
    Decimal.fraction? rest = none := by
  unfold Decimal.fraction?
  split
  · rcases h '.' rfl with hdot | hdot | hdot <;> cases hdot
  · rfl

theorem exponent?_of_endsValue {rest : List Char} (h : EndsValue rest) :
    Decimal.exponent? rest = none := by
  cases rest with
  | nil => rfl
  | cons c r => rcases h c rfl with rfl | rfl | rfl <;> rfl

theorem digits_eq_cons (n : Nat) :
    ∃ c t, Decimal.digits n = c :: t ∧ Decimal.isDigit c = true := by
  obtain ⟨c, t, hc⟩ := List.exists_cons_of_ne_nil (Decimal.digits_ne_nil n)
  exact ⟨c, t, hc, Decimal.isDigit_of_mem_digits (hc ▸ List.mem_cons_self)⟩

theorem ofInt_eq_cons (n : Int) :
    ∃ c t, Decimal.ofInt n = c :: t ∧ (c = '-' ∨ Decimal.isDigit c = true) := by
  cases n with
  | ofNat n =>
    obtain ⟨c, t, hc, hdigit⟩ := digits_eq_cons n
    exact ⟨c, t, hc, Or.inr hdigit⟩
  | negSucc n => exact ⟨'-', _, rfl, Or.inl rfl⟩

theorem head?_digits {n : Nat} (h : n ≠ 0) : (Decimal.digits n).head? ≠ some '0' := by
  induction n using Nat.strongRecOn with
  | _ n ih =>
    by_cases hn : n < 10
    · rw [Decimal.digits_of_lt hn]
      intro hzero
      have hchar : Decimal.digitChar n = '0' := Option.some.inj hzero
      have hvalue := Decimal.digitValue_digitChar hn
      rw [hchar] at hvalue
      exact h hvalue.symm
    · have hhead := ih (n / 10) (by omega) (by omega)
      rw [Decimal.digits_of_le (by omega)]
      cases hdigits : Decimal.digits (n / 10) with
      | nil => exact absurd hdigits (Decimal.digits_ne_nil _)
      | cons c t =>
        rw [hdigits] at hhead
        exact hhead

theorem wholeDigits?_digits (n : Nat) {rest : List Char} (hrest : EndsValue rest) :
    wholeDigits? (Decimal.digits n ++ rest) = some (Decimal.digits n, rest) := by
  by_cases h : n = 0
  · subst h
    rw [Decimal.digits_of_lt (by decide)]
    rfl
  · have hspan := spanDigits_of_endsValue (fun _ => Decimal.isDigit_of_mem_digits (n := n)) hrest
    have hzero := head?_digits h
    cases hdigits : Decimal.digits n with
    | nil => exact absurd hdigits (Decimal.digits_ne_nil n)
    | cons c t =>
      rw [hdigits] at hzero hspan
      rw [List.cons_append] at hspan ⊢
      rw [wholeDigits?, hspan]
      intro r hr
      cases hr
      exact hzero rfl

theorem scalar?_of_digit {c : Char} (h : Decimal.isDigit c = true) (r : List Char) :
    scalar? (c :: r) = number? (c :: r) := by
  have hname : name? (c :: r) = none := by
    unfold name?
    split
    case h_7 => rfl
    all_goals
      rename_i hc
      cases hc
      cases h
  unfold scalar?
  split
  case h_1 hc =>
    cases hc
    cases h
  case h_2 => rw [hname]

theorem scalar?_of_minus {c : Char} (h : Decimal.isDigit c = true) (r : List Char) :
    scalar? ('-' :: c :: r) = number? ('-' :: c :: r) := by
  have hname : name? ('-' :: c :: r) = none := by
    unfold name?
    split
    case h_6 hc =>
      cases hc
      cases h
    case h_7 => rfl
    all_goals
      rename_i hc
      cases hc
  unfold scalar?
  split
  case h_1 hc => cases hc
  case h_2 => rw [hname]

theorem numberOf?_digits (negative : Bool) {n : Nat}
    (h : (Decimal.digits n).length ≤ Decimal.digitLimit) :
    numberOf? negative (Decimal.digits n) none none =
      some (.int (if negative then -n else n)) := by
  rw [numberOf?, if_pos h, Decimal.ofDigits_digits]

section Integers

variable {rest : List Char} (hrest : EndsValue rest)

include hrest

theorem number?_digits {n : Nat} (h : (Decimal.digits n).length ≤ Decimal.digitLimit) :
    number? (Decimal.digits n ++ rest) = some (.int n, rest) := by
  unfold number?
  split
  case h_1 negative s hsign =>
    split at hsign
    case h_1 r hminus =>
      obtain ⟨c, t, hc, hdigit⟩ := digits_eq_cons n
      rw [hc] at hminus
      cases hminus
      cases hdigit
    case h_2 =>
      cases hsign
      rw [wholeDigits?_digits n hrest]
      simp only [optionalFraction, optionalExponent, fraction?_of_endsValue hrest,
        exponent?_of_endsValue hrest, numberOf?_digits false h, Option.bind_eq_bind,
        Option.bind_some]
      rfl

theorem number?_minus_digits {n : Nat} (h : (Decimal.digits n).length ≤ Decimal.digitLimit) :
    number? ('-' :: (Decimal.digits n ++ rest)) = some (.int (-n), rest) := by
  simp only [number?, wholeDigits?_digits n hrest, optionalFraction, optionalExponent,
    fraction?_of_endsValue hrest, exponent?_of_endsValue hrest, numberOf?_digits true h,
    Option.bind_eq_bind, Option.bind_some]
  rfl

theorem scalar?_ofInt {n : Int} (h : (Decimal.digits n.natAbs).length ≤ Decimal.digitLimit) :
    scalar? (Decimal.ofInt n ++ rest) = some (.int n, rest) := by
  cases n with
  | ofNat n =>
    have hnumber := number?_digits hrest h
    obtain ⟨c, t, hc, hdigit⟩ := digits_eq_cons n
    simp only [Decimal.ofInt, Int.natAbs, hc, List.cons_append] at hnumber ⊢
    rw [scalar?_of_digit hdigit, hnumber]
    rfl
  | negSucc n =>
    have hnumber := number?_minus_digits hrest h
    obtain ⟨c, t, hc, hdigit⟩ := digits_eq_cons (n + 1)
    simp only [Decimal.ofInt, Int.natAbs, hc, List.cons_append] at hnumber ⊢
    rw [scalar?_of_minus hdigit, hnumber]
    rfl

end Integers

theorem ofInt_head (n : Int) :
    ∃ c t, Decimal.ofInt n = c :: t ∧
      isSpace c = false ∧ c ≠ '[' ∧ c ≠ '\x7b' ∧ c ≠ ']' := by
  obtain ⟨c, t, hc, hsign⟩ := ofInt_eq_cons n
  have hne (d : Char) (hminus : d ≠ '-') (hdigit : Decimal.isDigit d = false) : c ≠ d := by
    rintro rfl
    rcases hsign with rfl | hsign
    · exact hminus rfl
    · rw [hsign] at hdigit
      cases hdigit
  refine ⟨c, t, hc, ?_, hne _ (by decide) rfl, hne _ (by decide) rfl, hne _ (by decide) rfl⟩
  simp [isSpace, hne ' ' (by decide) rfl, hne '\t' (by decide) rfl, hne '\n' (by decide) rfl,
    hne '\r' (by decide) rfl]

/-- **An integer is read back** that does not have too many digits. -/
theorem read?_ofInt {n : Int} (h : (Decimal.digits n.natAbs).length ≤ Decimal.digitLimit) :
    read? (Decimal.ofInt n) = some (.int n) := by
  have hscalar := scalar?_ofInt endsValue_nil h
  obtain ⟨c, t, hc, hspace, hlist, hrecord, -⟩ := ofInt_head n
  rw [List.append_nil] at hscalar
  rw [hc] at hscalar ⊢
  exact read?_of_scalar hscalar hspace hlist hrecord

end Synchrony.Json
