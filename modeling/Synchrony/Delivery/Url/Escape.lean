import Synchrony.Json.Read
import Synchrony.Text.Encoding
import Synchrony.Text.Quoted

/-!
# Percent escapes

Where a character may not stand in a URL, its bytes stand there instead, each as a percent sign and
two hexadecimal digits. Read back, escapes give bytes again, which need not amount to UTF-8.
-/

set_option autoImplicit false

namespace Synchrony.Url

/-- The bytes behind percent escapes. A percent sign that starts no escape stands for itself. -/
def percentDecode : List Char → List Nat
  | [] => []
  | '%' :: a :: b :: r =>
    match Json.hexValue? a, Json.hexValue? b with
    | some x, some y => (16 * x + y) :: percentDecode r
    | _, _ => 37 :: percentDecode (a :: b :: r)
  | c :: r => Encoding.encodeChar c ++ percentDecode r

/-- One byte as an escape. -/
def escape (byte : Nat) : List Char :=
  '%' :: (Text.hexDigits 2 byte).map Char.toUpper

/-- Whether a character may stand in every part of a URL. -/
def isUnreserved (c : Char) : Bool :=
  c.isAlphanum || c = '_' || c = '.' || c = '-' || c = '~'

/-- A text with escapes for all characters but those that may stand in every part, and some more. -/
def percentEncode (also : List Char) (s : List Char) : List Char :=
  s.flatMap fun c =>
    if isUnreserved c || also.contains c then [c] else (Encoding.encodeChar c).flatMap escape

/-- The characters that may stand in a path. -/
def pathChars : List Char :=
  "%!$&'()*+,/:;=@".toList

/-- The characters that may stand in a query. -/
def queryChars : List Char :=
  "%!$&'()*+,/:;=?@".toList

/-- The characters that may stand in the name of a user. -/
def userChars : List Char :=
  "%!$&'()*+,;=".toList

/-- Whether a byte stays escaped where escapes are read for people: a control, a space, or something
that means more than itself around the name of a user. -/
def staysEscaped (byte : Nat) : Bool :=
  byte ≤ 32 || byte = 127 || (byte < 128 && "%:@/?#".toList.contains (Char.ofNat byte))

/-- The bytes behind those percent escapes that do not stay. -/
def partlyDecode : List Char → List Nat
  | [] => []
  | '%' :: a :: b :: r =>
    match Json.hexValue? a, Json.hexValue? b with
    | some x, some y =>
      let byte := 16 * x + y
      (if staysEscaped byte then [37, a.toNat, b.toNat] else [byte]) ++ partlyDecode r
    | _, _ => 37 :: partlyDecode (a :: b :: r)
  | c :: r => Encoding.encodeChar c ++ partlyDecode r

/-- The characters of bytes, where the bytes at fault are escapes. The first argument bounds the
number of characters. -/
def readableWithin : Nat → List Nat → List Char
  | 0, _ => []
  | _ + 1, [] => []
  | fuel + 1, b :: more =>
    match Encoding.character b more with
    | .ok (c, rest) => c :: readableWithin fuel rest
    | .error stop =>
      let count := max stop.count 1
      ((b :: more).take count).flatMap escape ++ readableWithin fuel ((b :: more).drop count)

/-- A text with escapes as people read it. -/
def readable (s : List Char) : List Char :=
  let bytes := partlyDecode s
  readableWithin bytes.length bytes

end Synchrony.Url
