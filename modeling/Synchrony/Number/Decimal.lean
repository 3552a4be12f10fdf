import Synchrony.Number.Power

/-!
# Decimal digits

A natural number and its decimal digits, both ways. The digits of a number never begin with a zero
unless the number is zero, and reading them back gives the number; these two facts are all that
the readers and writers of larger texts need.

Only the ten ASCII digits count as digits here.
-/

set_option autoImplicit false

namespace Synchrony.Decimal

/-- The ten ASCII digits. -/
def isDigit (c : Char) : Bool :=
  48 ≤ c.toNat && c.toNat ≤ 57

/-- The digit for a number below ten. -/
def digitChar (n : Nat) : Char :=
  Char.ofNat (48 + n)

/-- What a digit counts for. -/
def digitValue (c : Char) : Nat :=
  c.toNat - 48

/-- Put the decimal digits of `n` in front of `tail`. Going through a tail keeps the work linear in
the number of digits. -/
def digitsOnto (n : Nat) (tail : List Char) : List Char :=
  if n < 10 then digitChar n :: tail
  else digitsOnto (n / 10) (digitChar (n % 10) :: tail)
termination_by n

/-- The decimal digits of a number, most significant first. -/
def digits (n : Nat) : List Char :=
  digitsOnto n []

/-- The number that a run of digits stands for; an empty run stands for zero. -/
def ofDigits (ds : List Char) : Nat :=
  ds.foldl (fun n d => 10 * n + digitValue d) 0

/-- The decimal text of an integer: a minus sign if it is negative, then its digits. -/
def ofInt : Int → List Char
  | .ofNat n => digits n
  | .negSucc n => '-' :: digits (n + 1)

/-- The decimal text of a natural number, as a text. -/
def natText (n : Nat) : String :=
  String.ofList (digits n)

/-- The decimal text of an integer, as a text. -/
def intText (n : Int) : String :=
  String.ofList (ofInt n)

/-- The decimal text of an integer beyond this many digits is refused by every reader and writer
of numbers. -/
def digitLimit : Nat := 4300

/-- Whether an integer has a decimal text, that is, not too many digits. -/
def hasText (n : Int) : Bool :=
  decide (n.natAbs < tenTo digitLimit)

theorem digitsOnto_eq_append (n : Nat) (tail : List Char) :
    digitsOnto n tail = digits n ++ tail := by
  unfold digits
  induction n using Nat.strongRecOn generalizing tail with
  | _ n ih =>
    rw [digitsOnto.eq_def n tail, digitsOnto.eq_def n []]
    split
    · rfl
    · rename_i h
      have hlt : n / 10 < n := by omega
      rw [ih _ hlt, ih _ hlt [digitChar (n % 10)]]
      simp

theorem digits_of_lt {n : Nat} (h : n < 10) : digits n = [digitChar n] := by
  rw [digits, digitsOnto.eq_def, if_pos h]

theorem digits_of_le {n : Nat} (h : 10 ≤ n) :
    digits n = digits (n / 10) ++ [digitChar (n % 10)] := by
  rw [digits, digitsOnto.eq_def, if_neg (by omega), digitsOnto_eq_append]

theorem digits_ne_nil (n : Nat) : digits n ≠ [] := by
  by_cases h : n < 10
  · rw [digits_of_lt h]
    exact List.cons_ne_nil _ _
  · rw [digits_of_le (by omega)]
    exact List.append_ne_nil_of_right_ne_nil _ (List.cons_ne_nil _ _)

theorem digitChar_toNat {n : Nat} (h : n < 10) : (digitChar n).toNat = 48 + n := by
  have small : ∀ d : Fin 10, (Char.ofNat (48 + d.val)).toNat = 48 + d.val := by decide
  exact small ⟨n, h⟩

theorem digitValue_digitChar {n : Nat} (h : n < 10) : digitValue (digitChar n) = n := by
  rw [digitValue, digitChar_toNat h]; omega

theorem isDigit_digitChar {n : Nat} (h : n < 10) : isDigit (digitChar n) = true := by
  simp [isDigit, digitChar_toNat h]; omega

/-- Reading the digits of a number gives the number. -/
theorem ofDigits_digits (n : Nat) : ofDigits (digits n) = n := by
  induction n using Nat.strongRecOn with
  | _ n ih =>
    by_cases h : n < 10
    · simp [digits_of_lt h, ofDigits, digitValue_digitChar h]
    · have hih := ih (n / 10) (by omega)
      rw [digits_of_le (by omega)]
      simp only [ofDigits, List.foldl_append, List.foldl_cons, List.foldl_nil] at hih ⊢
      rw [hih, digitValue_digitChar (by omega)]
      omega

/-- A number is below the power of ten with as many zeros as it has digits. -/
theorem lt_tenTo_length_digits (n : Nat) : n < tenTo (digits n).length := by
  induction n using Nat.strongRecOn with
  | _ n ih =>
    by_cases h : n < 10
    · rw [digits_of_lt h]
      exact h
    · have hih := ih (n / 10) (by omega)
      have hpow : tenTo ((digits (n / 10)).length + 1) = tenTo (digits (n / 10)).length * 10 := rfl
      rw [digits_of_le (by omega), List.length_append, List.length_singleton, hpow]
      omega

/-- A number below a power of ten has no more digits than that has zeros. -/
theorem length_digits_le {n count : Nat} (h : n < tenTo (count + 1)) :
    (digits n).length ≤ count + 1 := by
  induction count generalizing n with
  | zero =>
    have hlt : n < 10 := h
    rw [digits_of_lt hlt]
    exact Nat.le_refl 1
  | succ count ih =>
    by_cases hn : n < 10
    · rw [digits_of_lt hn, List.length_singleton]
      omega
    · have hpow : tenTo (count + 1 + 1) = tenTo (count + 1) * 10 := rfl
      have hrest := ih (n := n / 10) (by omega)
      rw [digits_of_le (by omega), List.length_append, List.length_singleton]
      omega

/-- Zeros in front of a number count for nothing. -/
theorem ofDigits_zeros (count : Nat) (ds : List Char) :
    ofDigits (List.replicate count '0' ++ ds) = ofDigits ds := by
  induction count with
  | zero => rfl
  | succ count ih => exact ih

theorem hasText_of_length_le {n : Int} (h : (digits n.natAbs).length ≤ digitLimit) :
    hasText n = true := by
  have hmono {m k : Nat} (hle : m ≤ k) : tenTo m ≤ tenTo k := Nat.pow_le_pow_right (by decide) hle
  exact decide_eq_true (Nat.lt_of_lt_of_le (lt_tenTo_length_digits n.natAbs) (hmono h))

/-- The digits of a number are digits. -/
theorem isDigit_of_mem_digits {n : Nat} {c : Char} (h : c ∈ digits n) : isDigit c = true := by
  induction n using Nat.strongRecOn with
  | _ n ih =>
    by_cases hn : n < 10
    · rw [digits_of_lt hn, List.mem_singleton] at h
      exact h ▸ isDigit_digitChar hn
    · rw [digits_of_le (by omega), List.mem_append, List.mem_singleton] at h
      rcases h with h | h
      · exact ih (n / 10) (by omega) h
      · exact h ▸ isDigit_digitChar (by omega)

end Synchrony.Decimal
