import Synchrony.Failure

/-!
# Signatures

Whatever is called by position has a signature: the names of the arguments that it needs, and how
many more it takes. A call with too few or too many arguments is a fault, and the fault says which
arguments are missing, or how many there may be. Something that belongs to an object takes that
object as its first argument, which counts where arguments are counted and is never missing.
-/

set_option autoImplicit false

namespace Synchrony

/-- How something is called. -/
structure Signature where
  name : String
  /-- The names of the arguments that have to be given. -/
  required : List String := []
  /-- How many arguments may follow those. -/
  optional : Nat := 0
  /-- Whether it belongs to an object. -/
  isOwned : Bool := false
  deriving Repr

namespace Signature

/-- Names in a row, as they stand in a sentence. -/
def enumerate : List String → String
  | [] => ""
  | [a] => a
  | [a, b] => a ++ " and " ++ b
  | names => ", ".intercalate names.dropLast ++ ", and " ++ names.getLastD ""

/-- The ending of a noun that is counted. -/
def plural (count : Nat) : String :=
  if count = 1 then "" else "s"

/-- What a fault says about missing arguments. -/
def missingText (signature : Signature) (missing : List String) : String :=
  signature.name ++ "() missing " ++ Decimal.natText missing.length ++
    " required positional argument" ++ plural missing.length ++ ": " ++
    enumerate (missing.map Text.quoted)

/-- How many arguments there may be, as it stands in a sentence. -/
def rangeText (signature : Signature) : String :=
  let least := signature.required.length + signature.isOwned.toNat
  if signature.optional = 0 then
    Decimal.natText least ++ " positional argument" ++ plural least
  else
    "from " ++ Decimal.natText least ++ " to " ++
      Decimal.natText (least + signature.optional) ++ " positional arguments"

/-- What a fault says about too many arguments. -/
def excessText (signature : Signature) (given : Nat) : String :=
  let counted := given + signature.isOwned.toNat
  signature.name ++ "() takes " ++ signature.rangeText ++ " but " ++ Decimal.natText counted ++
    (if counted = 1 then " was given" else " were given")

/-- Whether a call may have so many arguments. -/
def accepts (signature : Signature) (given : Nat) : Bool :=
  signature.required.length ≤ given && given ≤ signature.required.length + signature.optional

/-- The fault of a call that has too few or too many arguments. -/
def fault (signature : Signature) (given : Nat) : Failure :=
  .fault .type (if given < signature.required.length then
    signature.missingText (signature.required.drop given)
  else signature.excessText given)

/-- Refuse a call with the wrong number of arguments. -/
def check (signature : Signature) (given : Nat) : Except Failure Unit :=
  if signature.accepts given then .ok () else .error (signature.fault given)

end Signature

end Synchrony
