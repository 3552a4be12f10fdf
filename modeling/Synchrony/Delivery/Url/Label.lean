import Synchrony.Delivery.Url.LabelTables
import Synchrony.Delivery.Url.Punycode
import Synchrony.Text.Lower
import Synchrony.Text.Quoted

/-!
# Labels of hosts

A label is what stands between the dots of a host. It has a form in ASCII of 1 to 63 characters. A
label in ASCII is its own form. Any other is prepared first: characters that mean nothing are
dropped, the others are put into lower case and into plain characters, and then none may be left
that no label has. A label with letters that are written from right to left begins and ends with
one, and has none that is written the other way. If the prepared label is still not in ASCII, its
form is its Punycode behind the mark `xn--`.

A label that starts with the mark is read back (`toUnicode`) only if it is the form of what is read.
-/

set_option autoImplicit false

namespace Synchrony.Url.Label

/-- Why a label has no form in ASCII. -/
inductive Fault where
  | length
  | prohibited (n : Nat)
  /-- It is written in both directions. -/
  | mixedDirection
  /-- It is written from right to left but does not begin and end so. -/
  | openDirection
  /-- It looks like a form in ASCII without being in ASCII. -/
  | marked
  deriving DecidableEq, Repr

/-- Whether a code point is half of a pair and no character. -/
def isHalf (n : Nat) : Bool :=
  0xD800 ≤ n && n ≤ 0xDFFF

/-- A code point in quotes. -/
def quotedCode (n : Nat) : String :=
  if isHalf n then "'\\u" ++ String.ofList (Text.hexDigits 4 n) ++ "'"
  else Text.quoted (String.singleton (Char.ofNat n))

/-- The wording of a fault. -/
def Fault.message : Fault → String
  | .length => "label empty or too long"
  | .prohibited n => "Invalid character " ++ quotedCode n
  | .mixedDirection => "Violation of BIDI requirement 2"
  | .openDirection => "Violation of BIDI requirement 3"
  | .marked => "Label starts with ACE prefix"

/-- What a code point becomes when a label is prepared. -/
def preparedCode (n : Nat) : List Nat :=
  if isHalf n then [n]
  else if Text.inRanges ignoredRanges n then []
  else if n < 128 then [(Char.ofNat n).toLower.toNat]
  else match plainForm? n with
    | some plain => plain
    | none => (Text.lower [Char.ofNat n]).map Char.toNat

/-- Whether a code point is a letter that is written from right to left. -/
def isRightToLeft (n : Nat) : Bool :=
  Text.inRanges rightToLeftRanges n

/-- Refuse a prepared label that is not written in one direction. -/
def checkDirection (label : List Nat) : Except Fault Unit :=
  if !label.any isRightToLeft then .ok ()
  else if label.any fun n => Text.inRanges leftToRightRanges n then .error .mixedDirection
  else if label.head?.any isRightToLeft && label.getLast?.any isRightToLeft then .ok ()
  else .error .openDirection

/-- Prepare a label. -/
def prepare (label : List Nat) : Except Fault (List Nat) := do
  let label := label.flatMap preparedCode
  match label.find? fun n => Text.inRanges prohibitedRanges n with
  | some n => .error (.prohibited n)
  | none =>
    checkDirection label
    pure label

/-- Whether a label is in ASCII. -/
def isAscii (label : List Nat) : Bool :=
  label.all (· < 128)

/-- A form in ASCII, if it is not too short or too long for one. -/
def sized (s : List Char) : Except Fault (List Char) :=
  if 0 < s.length && s.length < 64 then .ok s else .error .length

/-- The mark in front of a form in ASCII that stands for something else. -/
def mark : List Char := ['x', 'n', '-', '-']

/-- The form in ASCII of a label. -/
def toAscii (label : List Nat) : Except Fault (List Char) := do
  if isAscii label then sized (label.map Char.ofNat)
  else
    let label ← prepare label
    if isAscii label then sized (label.map Char.ofNat)
    else if (mark.map Char.toNat).isPrefixOf label then .error .marked
    else sized (mark ++ Punycode.encode label)

/-- Why a label in ASCII cannot be read back. -/
inductive ReadFault where
  | code (fault : Punycode.Fault)
  | label (fault : Fault)
  /-- It is not the form of what is read. -/
  | otherForm (label form : List Char)
  deriving DecidableEq, Repr

/-- The label behind its form in ASCII. -/
def toUnicode (s : List Char) : Except ReadFault (List Char) := do
  if !mark.isPrefixOf s then pure s
  else
    let label ← (Punycode.decode (s.drop 4)).mapError .code
    let form ← (toAscii label).mapError .label
    if s.map Char.toLower = form then pure (label.map Char.ofNat)
    else .error (.otherForm s form)

end Synchrony.Url.Label
