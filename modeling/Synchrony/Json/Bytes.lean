import Synchrony.Json.Read
import Synchrony.Text.Wide

/-!
# JSON in bytes

The first characters of a JSON text lie in ASCII, so the zeros among the first four bytes tell how
the text is encoded: in units of four bytes, of two bytes, or in UTF-8 where there are none. A byte
order mark in front of UTF-8 is no part of the text.
-/

set_option autoImplicit false

namespace Synchrony.Json

/-- How the characters of a JSON text are packed into bytes. -/
inductive Packing where
  | narrow
  | double (order : Encoding.ByteOrder)
  | quad (order : Encoding.ByteOrder)
  deriving DecidableEq, Repr

/-- The packing that the first bytes of a JSON text tell. -/
def Packing.ofBytes (bytes : List Nat) : Packing :=
  match bytes with
  | [0, _] => .double .bigFirst
  | [_, 0] => .double .littleFirst
  | 0 :: 0 :: _ :: _ :: _ => .quad .bigFirst
  | 0 :: _ :: _ :: _ :: _ => .double .bigFirst
  | _ :: 0 :: 0 :: 0 :: _ => .quad .littleFirst
  | _ :: 0 :: _ :: _ :: _ => .double .littleFirst
  | _ => .narrow

/-- The characters of a JSON text in a packing. -/
def Packing.decode? (packing : Packing) (bytes : List Nat) : Option (List Char) :=
  match packing with
  | .narrow =>
    match Encoding.characters bytes with
    | .ok cs => some (Encoding.withoutMark cs)
    | .error _ => none
  | .double order => Encoding.decodeDoubles? order bytes
  | .quad order => Encoding.decodeQuads? order bytes

/-- The value that some bytes are the JSON text of. -/
def ofBytes? (bytes : List Nat) : Option Value :=
  ((Packing.ofBytes bytes).decode? bytes).bind read?

end Synchrony.Json
