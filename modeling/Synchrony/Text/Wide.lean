import Synchrony.Text.Encoding

/-!
# Texts in wide units

A text may be kept in units of two or four bytes, either end first. Units of four bytes are code
points. Units of two bytes are code points too, except that a character above U+FFFF takes a pair of
them: one from the high range U+D800 to U+DBFF and one from the low range U+DC00 to U+DFFF. A unit
of these ranges that stands alone is no character, and reads as the replacement character. Bytes
that do not fill their last unit, and code points beyond Unicode, are refused.
-/

set_option autoImplicit false

namespace Synchrony.Encoding

/-- Which byte of a unit comes first. -/
inductive ByteOrder where
  | littleFirst
  | bigFirst
  deriving DecidableEq, Repr

/-- The units of two bytes. -/
def doubles? (order : ByteOrder) : List Nat → Option (List Nat)
  | [] => some []
  | a :: b :: bytes => do
    let units ← doubles? order bytes
    match order with
    | .littleFirst => some ((256 * b + a) :: units)
    | .bigFirst => some ((256 * a + b) :: units)
  | [_] => none

/-- The units of four bytes. -/
def quads? (order : ByteOrder) : List Nat → Option (List Nat)
  | [] => some []
  | a :: b :: c :: d :: bytes => do
    let units ← quads? order bytes
    match order with
    | .littleFirst => some ((16777216 * d + 65536 * c + 256 * b + a) :: units)
    | .bigFirst => some ((16777216 * a + 65536 * b + 256 * c + d) :: units)
  | _ => none

/-- Whether a unit can be the first of a pair. -/
def isHighUnit (u : Nat) : Bool :=
  0xD800 ≤ u && u ≤ 0xDBFF

/-- Whether a unit can be the second of a pair. -/
def isLowUnit (u : Nat) : Bool :=
  0xDC00 ≤ u && u ≤ 0xDFFF

/-- The character of a unit that stands alone. -/
def unitChar (u : Nat) : Char :=
  if isHighUnit u || isLowUnit u then Char.ofNat 0xFFFD else Char.ofNat u

/-- The characters of units of two bytes. -/
def ofDoubles : List Nat → List Char
  | [] => []
  | [u] => [unitChar u]
  | u :: v :: units =>
    if isHighUnit u && isLowUnit v then
      Char.ofNat (0x10000 + (u - 0xD800) * 0x400 + (v - 0xDC00)) :: ofDoubles units
    else unitChar u :: ofDoubles (v :: units)

/-- The characters of bytes in units of two. -/
def decodeDoubles? (order : ByteOrder) (bytes : List Nat) : Option (List Char) :=
  (doubles? order bytes).map ofDoubles

/-- The characters of bytes in units of four. -/
def decodeQuads? (order : ByteOrder) (bytes : List Nat) : Option (List Char) :=
  (quads? order bytes).bind fun units =>
    if units.all (· ≤ 0x10FFFF) then some (units.map unitChar) else none

end Synchrony.Encoding
