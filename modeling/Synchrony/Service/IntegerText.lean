import Synchrony.Number.Decimal
import Synchrony.Service.Complaint
import Synchrony.Text.Blank

/-!
# Integers as texts

A setting that is an integer may be written as a text. The plain form of an integer is an optional
minus sign and digits without needless zeros in front. A liberal form has blanks around it, a plus
sign, zeros and underscores in front, a point with zeros behind it, or single underscores between
digits; it stands for the plain form that is left once all of these are gone (`plainForm?`).

The number of digits is bounded as the text was written, before anything is taken off.
-/

set_option autoImplicit false

namespace Synchrony.Settings

/-- The blanks around a number: white space without the information separators. -/
def isMargin (c : Char) : Bool :=
  Text.isBlank c && !(28 ≤ c.toNat && c.toNat ≤ 31)

/-- What is left once the blanks at both ends are gone. -/
def withoutMargins (s : List Char) : List Char :=
  ((s.dropWhile isMargin).reverse.dropWhile isMargin).reverse

/-- An integer in its plain form: an optional minus sign, and digits that do not start with a zero
unless they are a zero alone. -/
def plainInteger? (s : List Char) : Except Complaint Int :=
  let (negative, ds) := match s with
    | '-' :: r => (true, r)
    | r => (false, r)
  if ds.isEmpty || !ds.all Decimal.isDigit then .error .unreadable
  else if ds.head? = some '0' && ds.length > 1 then .error .unreadable
  else if ds.length > Decimal.digitLimit then .error .tooLarge
  else
    let n : Int := Decimal.ofDigits ds
    .ok (if negative then -n else n)

/-- Whether a number can go on with a character behind the zeros in front. -/
def startsNumber (c : Char) : Bool :=
  (Decimal.isDigit c && c != '0') || c = '-'

/-- What is left once more zeros and underscores are gone, behind a last one of them. It stays if
nothing or a point follows. -/
def afterZeros? (last : Char) : List Char → Option (List Char)
  | [] => some [last]
  | c :: r =>
    if c = '0' || c = '_' then afterZeros? c r
    else if startsNumber c then some (c :: r)
    else if c = '.' then some (last :: c :: r)
    else none

/-- What is left once needless zeros in front are gone; nothing if no number starts there. -/
def withoutLeadingZeros? (s : List Char) : Option (List Char) :=
  match s with
  | [] => none
  | c :: r =>
    if c = '0' then afterZeros? c r
    else if startsNumber c then some s
    else none

/-- What is left once a point with zeros and nothing else behind it is gone. -/
def withoutZeroFraction (s : List Char) : List Char :=
  match s.dropWhile (· != '.') with
  | _ :: fraction =>
    if !fraction.isEmpty && fraction.all (· == '0') then s.takeWhile (· != '.') else s
  | [] => s

/-- Whether two underscores stand next to each other. -/
def hasDoubleUnderscore : List Char → Bool
  | '_' :: '_' :: _ => true
  | _ :: r => hasDoubleUnderscore r
  | [] => false

/-- What is left once the underscores are gone, if each stands between two other characters. -/
def withoutUnderscores (s : List Char) : List Char :=
  if s.head? = some '_' || s.getLast? = some '_' || hasDoubleUnderscore s then s
  else s.filter (· != '_')

/-- The plain form behind a liberal one without a sign. -/
def plainMagnitude? (s : List Char) : Option (List Char) := do
  let s ← withoutLeadingZeros? s
  pure (withoutUnderscores (withoutZeroFraction s))

/-- The plain form behind a liberal one. -/
def plainForm? (s : List Char) : Option (List Char) :=
  match withoutMargins s with
  | '+' :: '-' :: _ => none
  | '+' :: r => plainMagnitude? r
  | '-' :: r => (plainMagnitude? r).map ('-' :: ·)
  | r => plainMagnitude? r

/-- The integer that a text stands for. -/
def integerOfText (s : String) : Except Complaint Int :=
  match plainInteger? s.toList with
  | .ok n => .ok n
  | .error .tooLarge => .error .tooLarge
  | .error _ =>
    match plainForm? s.toList with
    | none => .error .unreadable
    | some plain =>
      match plainInteger? plain with
      | .ok n => .ok n
      | .error _ => .error .unreadable

end Synchrony.Settings
