import Synchrony.Number.Shortest

/-!
# Decimals of a chosen length

Where `Synchrony.Number.Shortest` picks the number of digits itself, here the caller does: a number
of places behind the point (`fixed`), a number of places behind the first digit (`scientific`), or a
number of significant digits (`general`), which takes whichever of the two layouts is the plainer.
All of them round the exact value once, a half going to the even last digit.

`keepPoint` asks for the point even where nothing follows it, and in `general` for the zeros at the
end as well.
-/

set_option autoImplicit false

namespace Synchrony.Binary64

/-- A point and what follows it. -/
def pointed (keepPoint : Bool) (fraction : List Char) : List Char :=
  if fraction.isEmpty && !keepPoint then [] else '.' :: fraction

/-- Digits, at least `count` of them, zeros in front if need be. -/
def paddedDigits (count n : Nat) : List Char :=
  let ds := Decimal.digits n
  List.replicate (count - ds.length) '0' ++ ds

/-- A magnitude with `places` digits behind the point. -/
def fixed (keepPoint : Bool) (places units : Nat) : List Char :=
  let ds := paddedDigits (places + 1) (divideToEven (units * tenTo places) unitsPerOne)
  let front := ds.length - places
  ds.take front ++ pointed keepPoint (ds.drop front)

/-- A positive magnitude rounded to `places + 1` significant digits: the digits as a number, and the
power of ten that the first of them stands for. -/
def significant (places units : Nat) : Nat × Int :=
  let order := decimalOrder units
  let exponent := order - places
  let rounded :=
    if exponent < 0 then divideToEven (units * tenTo exponent.natAbs) unitsPerOne
    else divideToEven units (unitsPerOne * tenTo exponent.natAbs)
  -- rounding up may have carried into one more digit
  if rounded = tenTo (places + 1) then (tenTo places, order + 1) else (rounded, order)

/-- The digits of a magnitude, `places` of them behind the first, and its power of ten. -/
def leadingDigits (places units : Nat) : List Char × Int :=
  if units = 0 then (List.replicate (places + 1) '0', 0)
  else
    let (n, order) := significant places units
    (paddedDigits (places + 1) n, order)

/-- Digits with the point behind the first of them, and an exponent. -/
def scientificOf (keepPoint : Bool) (ds : List Char) (order : Int) : List Char :=
  ds.take 1 ++ pointed keepPoint (ds.drop 1) ++ exponentMark order

/-- A magnitude with `places` digits behind the first one and an exponent. -/
def scientific (keepPoint : Bool) (places units : Nat) : List Char :=
  let (ds, order) := leadingDigits places units
  scientificOf keepPoint ds order

/-- What is left of a fraction without the zeros at its end. -/
def withoutTrailingZeros (ds : List Char) : List Char :=
  (ds.reverse.dropWhile (· == '0')).reverse

/-- A magnitude with `count` significant digits, positionally from 10^-4 up to 10^`count`. -/
def general (keepPoint : Bool) (count units : Nat) : List Char :=
  let places := max count 1 - 1
  let (ds, order) := leadingDigits places units
  let trim := fun (fraction : List Char) =>
    if keepPoint then fraction else withoutTrailingZeros fraction
  if -4 ≤ order && order ≤ places then
    if order < 0 then
      '0' :: pointed keepPoint (trim (List.replicate (order.natAbs - 1) '0' ++ ds))
    else
      let front := order.natAbs + 1
      ds.take front ++ pointed keepPoint (trim (ds.drop front))
  else scientificOf keepPoint (ds.take 1 ++ trim (ds.drop 1)) order

end Synchrony.Binary64
