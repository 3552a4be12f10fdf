import Synchrony.Number.Decimal

/-!
# Binary floating point numbers

The numbers with a fraction that rules and requests carry are the 64-bit binary floating point
numbers. A finite one is a whole number of **units** of 2^-1074, the smallest positive one, so it
is kept as a sign and a count of units: every comparison is then a comparison of integers, and
rounding is the only operation that needs a rule.

Not every count of units is a floating point number: past 2^53 units only the multiples of a
growing power of two are. `nearest` is the one door through which results pass, and it rounds to
the nearest such number, a tie going to the even one, and to infinity from 2^1024 on.

Not-a-number is equal to nothing, itself included. Yet a list that holds one is equal to a list
that holds the same one, because members are first compared as objects. So a not-a-number carries
a **mark** that says on which occasion it was made; two of them are the same object when their
marks agree.
-/

set_option autoImplicit false

namespace Synchrony

/-- A 64-bit binary floating point number. -/
inductive Binary64 where
  /-- Plus or minus a number of units of 2^-1074. The sign of zero is kept. -/
  | finite (negative : Bool) (units : Nat)
  | infinite (negative : Bool)
  /-- Not a number, made on the occasion that `mark` names. -/
  | nan (mark : Nat)
  deriving DecidableEq, Repr, Inhabited

namespace Binary64

/-- How many units make one. -/
def unitsPerOne : Nat := twoTo 1074

/-- The first count of units past the finite numbers: 2^1024. -/
def overflowUnits : Nat := twoTo 2098

/-- The quotient rounded to a whole number, a half going to the even neighbour. -/
def divideToEven (num den : Nat) : Nat :=
  let quotient := num / den
  let twice := 2 * (num % den)
  if twice < den || (twice == den && quotient % 2 == 0) then quotient else quotient + 1

/-- The distance, in units, between neighbouring numbers of this magnitude: one unit below 2^53
units, and from there on what leaves 53 binary digits. -/
def spacing (units : Nat) : Nat :=
  if units < twoTo 53 then 1 else twoTo (Nat.log2 units - 52)

/-- The floating point number nearest to `num / den` units. -/
def nearest (negative : Bool) (num den : Nat) : Binary64 :=
  let step := spacing (num / den)
  let units := divideToEven num (den * step) * step
  if units < overflowUnits then .finite negative units else .infinite negative

/-- Rounding a quotient is off by half at most. -/
theorem divideToEven_near (num : Nat) {den : Nat} (h : 0 < den) :
    2 * num ≤ 2 * (divideToEven num den * den) + den ∧
      2 * (divideToEven num den * den) ≤ 2 * num + den := by
  have hsplit := Nat.div_add_mod num den
  have hmod := Nat.mod_lt num h
  have hsucc : (num / den + 1) * den = den * (num / den) + den := by
    rw [Nat.add_mul, Nat.one_mul, Nat.mul_comm]
  unfold divideToEven
  simp only [Bool.or_eq_true, Bool.and_eq_true, decide_eq_true_eq, beq_iff_eq]
  split
  next hdown =>
    rw [Nat.mul_comm (num / den)]
    omega
  next hup =>
    rw [hsucc]
    omega

theorem spacing_pos (units : Nat) : 0 < spacing units := by
  unfold spacing
  split
  · exact Nat.one_pos
  · exact twoTo_pos _

theorem spacing_le {units bits : Nat} (h : units < twoTo bits) (hbits : 53 ≤ bits) :
    spacing units ≤ twoTo (bits - 53) := by
  unfold spacing
  split
  · exact twoTo_pos _
  · next hlarge =>
    have hne : units ≠ 0 := by
      rintro rfl
      exact hlarge (twoTo_pos 53)
    have hlog : Nat.log2 units < bits := (Nat.log2_lt hne).mpr h
    exact twoTo_mono (by omega)

/-- A number of so many binary digits is rounded to 53 of them. -/
theorem nearest_near (negative : Bool) {num bits : Nat} (h : num < twoTo bits)
    (hleast : 53 ≤ bits) (hmost : bits < 2098) :
    ∃ units, nearest negative num 1 = .finite negative units ∧
      2 * num ≤ 2 * units + twoTo (bits - 53) ∧ 2 * units ≤ 2 * num + twoTo (bits - 53) := by
  have hstep := spacing_le h hleast
  have hnear := divideToEven_near num (spacing_pos num)
  have hfits : twoTo (bits - 53) ≤ twoTo bits := twoTo_mono (by omega)
  have hdouble := twoTo_succ bits
  have hoverflow : twoTo (bits + 1) ≤ twoTo 2098 := twoTo_mono (by omega)
  refine ⟨divideToEven num (spacing num) * spacing num, ?_, by omega, by omega⟩
  simp only [nearest, Nat.div_one, Nat.one_mul, overflowUnits]
  rw [if_pos (by omega)]

/-- The floating point number nearest to an integer, if the integer is within their range. -/
def ofInt? (n : Int) : Option Binary64 :=
  match nearest (decide (n < 0)) (n.natAbs * unitsPerOne) 1 with
  | .infinite _ => none
  | x => some x

/-- The floating point number nearest to `± mantissa · 10^exponent`. Magnitudes far outside the
range are settled by their order of magnitude alone, so that a text with a huge exponent costs
nothing. -/
def ofDecimal (negative : Bool) (mantissa : Nat) (exponent : Int) : Binary64 :=
  if mantissa = 0 then .finite negative 0
  else
    let order := (Decimal.digits mantissa).length + exponent
    if order > 400 then .infinite negative
    else if order < -400 then .finite negative 0
    else if exponent < 0 then
      nearest negative (mantissa * unitsPerOne) (tenTo exponent.natAbs)
    else nearest negative (mantissa * tenTo exponent.natAbs * unitsPerOne) 1

/-- A count of units with its sign as an integer. The two zeros fall together. -/
def signedUnits (negative : Bool) (units : Nat) : Int :=
  if negative then -(units : Int) else units

/-- Equality of numbers: the two zeros are equal, and nothing equals not-a-number. -/
def equal : Binary64 → Binary64 → Bool
  | .finite m a, .finite n b => signedUnits m a == signedUnits n b
  | .infinite m, .infinite n => m == n
  | _, _ => false

/-- Equality with an integer is exact: the integer is not rounded first. -/
def equalInt : Binary64 → Int → Bool
  | .finite m a, n => signedUnits m a == n * unitsPerOne
  | _, _ => false

/-- The sum, rounded. Two numbers that cancel give plus zero; opposite infinities have no sum. -/
def add : Binary64 → Binary64 → Binary64
  | .nan mark, _ => .nan mark
  | _, .nan mark => .nan mark
  | .infinite m, .infinite n => if m == n then .infinite m else .nan 0
  | .infinite m, _ => .infinite m
  | _, .infinite n => .infinite n
  | .finite m a, .finite n b =>
    let sum := signedUnits m a + signedUnits n b
    if sum = 0 then .finite (m && n) 0 else nearest (decide (sum < 0)) sum.natAbs 1

/-- Greater than zero. -/
def isPositive : Binary64 → Bool
  | .finite negative units => !negative && units != 0
  | .infinite negative => !negative
  | .nan _ => false

/-- Equal to zero. -/
def isZero : Binary64 → Bool
  | .finite _ units => units == 0
  | _ => false

/-- The integer part and whether anything is left behind it, for a finite number. -/
def integerPart? : Binary64 → Option (Int × Bool)
  | .finite negative units =>
    let whole := units / unitsPerOne
    some (if negative then -(whole : Int) else whole, units % unitsPerOne == 0)
  | _ => none

end Binary64

end Synchrony
