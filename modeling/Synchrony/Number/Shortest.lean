import Synchrony.Number.Binary64

/-!
# The shortest decimal of a floating point number

Every decimal that lies close enough to a floating point number reads back as that number. Of
these the text of the number has the fewest digits, and among those of that many digits the one
nearest to the number, an exact tie going to the even last digit.

## 1. The interval

The reals that round to a number reach half way to its neighbours, ends included exactly when its
significand is even. The neighbour below a power of two is half as far as the one above. Four
times a count of units makes both half distances whole.

## 2. The grid

With `n` significant digits, a decimal of the right magnitude is a multiple of one power of ten.
If any multiple lies in the interval, one of the two that enclose the number does, so only these
two are tried, for `n` from 1 on. Seventeen digits always suffice.

## 3. The layout

The digits are written positionally when the first one stands for 10^-4 up to 10^15, and with an
exponent of at least two digits otherwise. A positional text always has a fraction, `.0` if
nothing else, so that it does not read back as an integer.
-/

set_option autoImplicit false

namespace Synchrony.Binary64

/-- Four times the reals, in units, that read back as a number, and whether the ends do too. -/
structure Interval where
  low : Nat
  high : Nat
  closed : Bool

/-- The interval of a positive number of units. -/
def interval (units : Nat) : Interval :=
  let step := spacing units
  let below := if step > 1 && units == step * twoTo 52 then step else 2 * step
  { low := 4 * units - below
    high := 4 * units + 2 * step
    closed := units / step % 2 == 0 }

/-- Whether `scaled / scale`, four times a count of units, lies in the interval. -/
def Interval.holds (i : Interval) (scaled scale : Nat) : Bool :=
  if i.closed then i.low * scale ≤ scaled && scaled ≤ i.high * scale
  else i.low * scale < scaled && scaled < i.high * scale

/-- The power of ten that the first decimal digit of a positive number stands for. The smallest
number exceeds 10^-400, so scaling by 10^400 leaves that digit in front of the point. -/
def decimalOrder (units : Nat) : Int :=
  (Decimal.digits (units * tenTo 400 / unitsPerOne)).length - 401

/-- The decimal with `count` significant digits that reads back as the number, if there is one, as
a multiple of `tenTo exponent`. -/
def decimalOf? (units : Nat) (exponent : Int) : Option Nat :=
  let range := interval units
  -- one step of the grid is `stepNum / stepDen` units
  let stepNum := if exponent < 0 then unitsPerOne else unitsPerOne * tenTo exponent.natAbs
  let stepDen := if exponent < 0 then tenTo exponent.natAbs else 1
  let lower := units * stepDen / stepNum
  let holds := fun multiple => range.holds (4 * multiple * stepNum) stepDen
  let below := units * stepDen - lower * stepNum
  let above := (lower + 1) * stepNum - units * stepDen
  match holds lower, holds (lower + 1) with
  | true, true =>
    if below < above || (below == above && lower % 2 == 0) then some lower else some (lower + 1)
  | true, false => some lower
  | false, true => some (lower + 1)
  | false, false => none

/-- The shortest decimal of a positive number, as a whole number and a power of ten, found among
the grids with `count` digits and more. -/
def shortestFrom (units : Nat) (order : Int) : Nat → Nat → Nat × Int
  | 0, count => (units * tenTo (count - 1) / unitsPerOne, order - (count - 1))
  | fuel + 1, count =>
    let exponent := order - (count - 1)
    match decimalOf? units exponent with
    | some multiple => (multiple, exponent)
    | none => shortestFrom units order fuel (count + 1)

/-- The significant digits of a positive number, no zero at the end, and the power of ten that the
first of them stands for. -/
def shortest (units : Nat) : List Char × Int :=
  let (multiple, exponent) := shortestFrom units (decimalOrder units) 17 1
  let ds := Decimal.digits multiple
  ((ds.reverse.dropWhile (· == '0')).reverse, ds.length - 1 + exponent)

/-- Digits with the point behind the one that stands for 10^0. -/
def positional (ds : List Char) (order : Int) : List Char :=
  if order < 0 then '0' :: '.' :: List.replicate (order.natAbs - 1) '0' ++ ds
  else
    let front := order.natAbs + 1
    let whole := ds.take front ++ List.replicate (front - ds.length) '0'
    let fraction := ds.drop front
    whole ++ '.' :: (if fraction.isEmpty then ['0'] else fraction)

/-- An exponent mark, the sign of the exponent, and at least two digits. -/
def exponentMark (order : Int) : List Char :=
  let ds := Decimal.digits order.natAbs
  'e' :: (if order < 0 then '-' else '+') :: (if ds.length < 2 then '0' :: ds else ds)

/-- Digits with the point behind the first of them, and an exponent. -/
def exponential (ds : List Char) (order : Int) : List Char :=
  match ds with
  | [d] => d :: exponentMark order
  | d :: rest => d :: '.' :: rest ++ exponentMark order
  | [] => exponentMark order

/-- The text of a number of units without its sign. -/
def magnitudeText (units : Nat) : List Char :=
  if units = 0 then ['0', '.', '0']
  else
    let (ds, order) := shortest units
    if -4 ≤ order && order < 16 then positional ds order else exponential ds order

/-- A text with a minus sign in front if `negative`. -/
def signed (negative : Bool) (s : List Char) : List Char :=
  if negative then '-' :: s else s

/-- The text of a number as error texts and histories show it. -/
def text : Binary64 → String
  | .finite negative units => String.ofList (signed negative (magnitudeText units))
  | .infinite negative => String.ofList (signed negative ['i', 'n', 'f'])
  | .nan _ => "nan"

end Synchrony.Binary64
