import Synchrony.Number.Binary64
import Synchrony.Text.Blank

/-!
# Reading numbers

Two grammars for numbers share one scanner: an unsigned decimal is a run of digits, a fraction and
an exponent. JSON asks for digits in front of the point and behind it; the liberal grammar of
`Binary64.ofText?` asks for digits on one side only, and lets a single underscore stand between two
digits.
-/

set_option autoImplicit false

namespace Synchrony.Decimal

/-- The digits in front of a text, and the rest. -/
def spanDigits (s : List Char) : List Char × List Char :=
  (s.takeWhile isDigit, s.dropWhile isDigit)

/-- An exponent: its mark, an optional sign, and at least one digit. Anything less is left where
it stands. -/
def exponent? (s : List Char) : Option (Int × List Char) :=
  match s with
  | mark :: r =>
    if mark = 'e' || mark = 'E' then
      let (negative, r) := match r with
        | '-' :: t => (true, t)
        | '+' :: t => (false, t)
        | t => (false, t)
      match spanDigits r with
      | ([], _) => none
      | (ds, rest) => some (if negative then -(ofDigits ds : Int) else ofDigits ds, rest)
    else none
  | [] => none

/-- The digits behind a point, at least one of them. Anything less is left where it stands. -/
def fraction? (s : List Char) : Option (List Char × List Char) :=
  match s with
  | '.' :: r =>
    match spanDigits r with
    | ([], _) => none
    | (ds, rest) => some (ds, rest)
  | _ => none

end Synchrony.Decimal

namespace Synchrony.Binary64

/-- Take the underscores out of a text in which each stands between two digits. -/
def withoutUnderscores? : List Char → Option (List Char)
  | [] => some []
  | '_' :: _ => none
  | c :: '_' :: d :: r =>
    if Decimal.isDigit c && Decimal.isDigit d then (withoutUnderscores? (d :: r)).map (c :: ·)
    else none
  | c :: r => (withoutUnderscores? r).map (c :: ·)

/-- An unsigned decimal that takes up the whole text, with digits on at least one side of the
point. -/
def unsignedDecimal? (negative : Bool) (s : List Char) : Option Binary64 :=
  let (whole, r) := Decimal.spanDigits s
  let (fraction, r) := match r with
    | '.' :: t => Decimal.spanDigits t
    | t => ([], t)
  if whole.isEmpty && fraction.isEmpty then none
  else
    let finish := fun (exponent : Int) =>
      some (ofDecimal negative (Decimal.ofDigits (whole ++ fraction))
        (exponent - fraction.length))
    match r with
    | [] => finish 0
    | r => match Decimal.exponent? r with
      | some (exponent, []) => finish exponent
      | _ => none

/-- Read a number in the liberal grammar: blanks around it, a sign, a decimal or one of the names
of infinity and of not-a-number in any case. A not-a-number gets the mark that is passed in. -/
def ofText? (mark : Nat) (s : List Char) : Option Binary64 := do
  let s ← withoutUnderscores? (Text.trim s)
  let (negative, s) := match s with
    | '-' :: t => (true, t)
    | '+' :: t => (false, t)
    | t => (false, t)
  let word := String.ofList (s.map Char.toLower)
  if word == "inf" || word == "infinity" then some (.infinite negative)
  else if word == "nan" then some (.nan mark)
  else unsignedDecimal? negative s

end Synchrony.Binary64
