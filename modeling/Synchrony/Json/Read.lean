import Synchrony.Number.Reading
import Synchrony.Value.Basic

/-!
# Reading JSON

A reader for JSON as clients send it. Beyond the standard it accepts the three names `NaN`,
`Infinity` and `-Infinity`; it refuses integers with too many digits, control characters inside
strings, and anything behind the value.

Every reader takes the characters still to be read and answers with what it read and what is left,
or with nothing. Which character was at fault is not reported: callers say only that the text is
not JSON.

A number is an integer unless it has a fraction or an exponent. In an object the last of several
members with one name counts, at the place of the first.

## Depth

`value`, `elements` and `members` call each other, so they share one measure. Each passes through
at most one of the others before a character is consumed, hence twice the length of the text is
always enough.
-/

set_option autoImplicit false

namespace Synchrony.Json

/-- The four characters that JSON allows between its tokens. -/
def isSpace (c : Char) : Bool :=
  c = ' ' || c = '\t' || c = '\n' || c = '\r'

/-- What is left once the space in front is gone. -/
def skipSpace (s : List Char) : List Char :=
  s.dropWhile isSpace

/-- What a hexadecimal digit counts for. -/
def hexValue? (c : Char) : Option Nat :=
  let n := c.toNat
  if 48 ≤ n && n ≤ 57 then some (n - 48)
  else if 65 ≤ n && n ≤ 70 then some (n - 55)
  else if 97 ≤ n && n ≤ 102 then some (n - 87)
  else none

/-- Four hexadecimal digits and the rest. -/
def hexUnit? : List Char → Option (Nat × List Char)
  | a :: b :: c :: d :: r => do
    let a ← hexValue? a
    let b ← hexValue? b
    let c ← hexValue? c
    let d ← hexValue? d
    pure (((a * 16 + b) * 16 + c) * 16 + d, r)
  | _ => none

/-- Whether a 16-bit unit is the first half of a character. -/
def isLeadUnit (n : Nat) : Bool :=
  0xD800 ≤ n && n < 0xDC00

/-- Whether a 16-bit unit is the second half of a character. -/
def isTrailUnit (n : Nat) : Bool :=
  0xDC00 ≤ n && n < 0xE000

/-- The second half of a character, written as an escape of its own. -/
def trailUnit? : List Char → Option (Nat × List Char)
  | '\\' :: 'u' :: r => do
    let (n, r) ← hexUnit? r
    if isTrailUnit n then pure (n, r) else none
  | _ => none

/-- The character that an escape by number stands for. Two halves in a row are one character; a
half on its own is no character and reads as the replacement character. -/
def numberedChar? (s : List Char) : Option (Char × List Char) := do
  let (n, r) ← hexUnit? s
  if isLeadUnit n then
    match trailUnit? r with
    | some (m, r) => pure (Char.ofNat (0x10000 + (n - 0xD800) * 0x400 + (m - 0xDC00)), r)
    | none => pure (Char.ofNat 0xFFFD, r)
  else if isTrailUnit n then pure (Char.ofNat 0xFFFD, r)
  else pure (Char.ofNat n, r)

/-- The character that an escape by letter stands for. -/
def letterChar? (c : Char) : Option Char :=
  if c = '"' || c = '\\' || c = '/' then some c
  else if c = 'b' then some (Char.ofNat 8)
  else if c = 'f' then some (Char.ofNat 12)
  else if c = 'n' then some '\n'
  else if c = 'r' then some '\r'
  else if c = 't' then some '\t'
  else none

/-- The escape behind a backslash. -/
def escape? : List Char → Option (Char × List Char)
  | 'u' :: r => numberedChar? r
  | c :: r => (letterChar? c).map fun d => (d, r)
  | [] => none

/-- The characters of a string up to its closing quote, put behind those already read, which stand
in reverse. The first argument bounds the number of characters. -/
def stringOnto : Nat → List Char → List Char → Option (List Char × List Char)
  | 0, _, _ => none
  | fuel + 1, done, s => match s with
    | [] => none
    | '"' :: r => some (done.reverse, r)
    | '\\' :: r => match escape? r with
      | some (c, r) => stringOnto fuel (c :: done) r
      | none => none
    | c :: r => if c.toNat < 32 then none else stringOnto fuel (c :: done) r

/-- The text of a string whose opening quote is already read, and the rest. -/
def string? (s : List Char) : Option (String × List Char) :=
  (stringOnto (s.length + 1) [] s).map fun (cs, r) => (String.ofList cs, r)

/-- The digits in front of the point: a zero alone, or digits that do not start with one. -/
def wholeDigits? : List Char → Option (List Char × List Char)
  | '0' :: r => some (['0'], r)
  | s => match Decimal.spanDigits s with
    | ([], _) => none
    | (ds, r) => some (ds, r)

/-- The fraction behind some digits, or none. -/
def optionalFraction (s : List Char) : Option (List Char) × List Char :=
  match Decimal.fraction? s with
  | some (ds, r) => (some ds, r)
  | none => (none, s)

/-- The exponent behind some digits, or none. -/
def optionalExponent (s : List Char) : Option Int × List Char :=
  match Decimal.exponent? s with
  | some (e, r) => (some e, r)
  | none => (none, s)

/-- The number with these parts. Only one without fraction and exponent is an integer, and only if
it does not have too many digits. -/
def numberOf? (negative : Bool) (whole : List Char) : Option (List Char) → Option Int →
    Option Value
  | none, none =>
    if whole.length ≤ Decimal.digitLimit then
      let n : Int := Decimal.ofDigits whole
      some (.int (if negative then -n else n))
    else none
  | fraction, exponent =>
    let fraction := fraction.getD []
    some (.float (.ofDecimal negative (Decimal.ofDigits (whole ++ fraction))
      (exponent.getD 0 - fraction.length)))

/-- A number and the rest. -/
def number? (s : List Char) : Option (Value × List Char) := do
  let (negative, s) := match s with
    | '-' :: r => (true, r)
    | r => (false, r)
  let (whole, s) ← wholeDigits? s
  let (fraction, s) := optionalFraction s
  let (exponent, s) := optionalExponent s
  let v ← numberOf? negative whole fraction exponent
  pure (v, s)

/-- One of the names that stand for a value, and the rest. -/
def name? : List Char → Option (Value × List Char)
  | 'n' :: 'u' :: 'l' :: 'l' :: r => some (.null, r)
  | 't' :: 'r' :: 'u' :: 'e' :: r => some (.bool true, r)
  | 'f' :: 'a' :: 'l' :: 's' :: 'e' :: r => some (.bool false, r)
  | 'N' :: 'a' :: 'N' :: r => some (.float (.nan 0), r)
  | 'I' :: 'n' :: 'f' :: 'i' :: 'n' :: 'i' :: 't' :: 'y' :: r => some (.float (.infinite false), r)
  | '-' :: 'I' :: 'n' :: 'f' :: 'i' :: 'n' :: 'i' :: 't' :: 'y' :: r =>
    some (.float (.infinite true), r)
  | _ => none

/-- A value without members, and the rest. -/
def scalar? (s : List Char) : Option (Value × List Char) :=
  match s with
  | '"' :: r => (string? r).map fun (t, r) => (.text t, r)
  | s => match name? s with
    | some result => some result
    | none => number? s

mutual

/-- A value at the front of the text, and the rest. -/
def value : Nat → List Char → Option (Value × List Char)
  | 0, _ => none
  | fuel + 1, s => match s with
    | '[' :: r => match skipSpace r with
      | ']' :: r => some (.list [], r)
      | r => (elements fuel r).map fun (vs, r) => (.list vs, r)
    | '\x7b' :: r => match skipSpace r with
      | '\x7d' :: r => some (.record [], r)
      | r => (members fuel r).map fun (fs, r) => (.record (Keyed.ofPairs fs), r)
    | s => scalar? s

/-- The elements of an array up to its closing bracket, and the rest. -/
def elements : Nat → List Char → Option (List Value × List Char)
  | 0, _ => none
  | fuel + 1, s => match value fuel s with
    | none => none
    | some (v, r) => match skipSpace r with
      | ']' :: r => some ([v], r)
      | ',' :: r => (elements fuel (skipSpace r)).map fun (vs, r) => (v :: vs, r)
      | _ => none

/-- The members of an object up to its closing brace, and the rest. -/
def members : Nat → List Char → Option (List (String × Value) × List Char)
  | 0, _ => none
  | fuel + 1, s => match s with
    | '"' :: r => match string? r with
      | none => none
      | some (k, r) => match skipSpace r with
        | ':' :: r => match value fuel (skipSpace r) with
          | none => none
          | some (v, r) => match skipSpace r with
            | '\x7d' :: r => some ([(k, v)], r)
            | ',' :: r => (members fuel (skipSpace r)).map fun (fs, r) => ((k, v) :: fs, r)
            | _ => none
        | _ => none
    | _ => none

end

/-- Read a text that is one JSON value with nothing but space around it. -/
def read? (s : List Char) : Option Value :=
  let s := skipSpace s
  match value (2 * s.length + 2) s with
  | some (v, r) => if (skipSpace r).isEmpty then some v else none
  | none => none

end Synchrony.Json
