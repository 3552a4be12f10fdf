import Synchrony.Delivery.Url.Basic
import Synchrony.Delivery.Url.Label
import Synchrony.Failure

/-!
# Hosts in ASCII and back

A host is a row of labels with dots between them, and perhaps one more dot at the end. Its form in
ASCII has the form of each label. A host that is in ASCII already only has to have labels of the
right length; of those it may lack the last one.
-/

set_option autoImplicit false

namespace Synchrony.Url.Domain

/-- The dot, and the characters that count as one. -/
def isDot (c : Char) : Bool :=
  c = '.' || c.toNat = 0x3002 || c.toNat = 0xFF0E || c.toNat = 0xFF61

/-- The labels of a host, and whether there is one more dot behind them. -/
def labels (host : List Char) : List (List Char) × Bool :=
  let parts := splitAt '.' (host.map fun c => if isDot c then '.' else c)
  if parts.getLast? = some [] then (parts.dropLast, true) else (parts, false)

/-- A host from its labels. -/
def ofLabels (labels : List (List Char)) (hasEnd : Bool) : List Char :=
  (List.intersperse ['.'] labels).flatten ++ if hasEnd then ['.'] else []

/-- The failure of writing a host in ASCII. -/
def unwritable (reason : String) : Failure :=
  .fault .unicode ("encoding with 'idna' codec failed (UnicodeError: " ++ reason ++ ")")

/-- Refuse a host in ASCII with labels of the wrong length. -/
def checkLengths : List (List Char) → Except Failure Unit
  | [] => .ok ()
  | [last] => if last.length < 64 then .ok () else .error (unwritable "label too long")
  | label :: more =>
    if 0 < label.length && label.length < 64 then checkLengths more
    else .error (unwritable Label.Fault.length.message)

/-- A host in ASCII. -/
def toAscii (host : List Char) : Except Failure (List Char) := do
  if host.all (·.toNat < 128) then
    checkLengths (splitAt '.' host)
    pure host
  else
    let (labels, hasEnd) := labels host
    let forms ← labels.mapM fun label =>
      (Label.toAscii (label.map Char.toNat)).mapError fun fault => unwritable fault.message
    pure (ofLabels forms hasEnd)

/-- The failure of reading a host in ASCII. -/
def unreadable (reason : String) : Failure :=
  .fault .unicode ("decoding with 'idna' codec failed (UnicodeError: " ++ reason ++ ")")

/-- The failure of reading a label. -/
def ofReadFault : Label.ReadFault → Failure
  | .code fault => unreadable
    ("decoding with 'punycode' codec failed (UnicodeError: " ++ fault.message ++ ")")
  | .label fault => unreadable fault.message
  | .otherForm label form => .fault .unicode
    ("('IDNA does not round-trip', b" ++ Text.quoted (String.ofList label) ++ ", b" ++
      Text.quoted (String.ofList form) ++ ")")

/-- Whether some text stands anywhere in another. -/
def isWithin (part : List Char) : List Char → Bool
  | [] => part.isEmpty
  | c :: r => part.isPrefixOf (c :: r) || isWithin part r

/-- The host behind its form in ASCII. -/
def toUnicode (host : List Char) : Except Failure (List Char) := do
  if host.all (·.toNat < 128) && isWithin Label.mark host then
    let (labels, hasEnd) := labels host
    let labels ← labels.mapM fun label => (Label.toUnicode label).mapError ofReadFault
    pure (ofLabels labels hasEnd)
  else pure host

end Synchrony.Url.Domain
