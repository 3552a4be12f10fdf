import Synchrony.Failure
import Synchrony.Json.Read

/-!
# Addresses in brackets

A host in brackets is an address of eight groups of up to four hexadecimal digits with colons
between them, where two colons in a row stand for as many groups of zeros as are missing, and the
last two groups may be written as an address of four bytes. Behind a percent sign it may name a
zone. An address of some later version starts with a `v` instead. An address of four bytes alone
does not stand in brackets.
-/

set_option autoImplicit false

namespace Synchrony.Url

/-- The parts between the separators of a text. -/
def splitAt (separator : Char) (s : List Char) : List (List Char) :=
  s.foldr (fun c parts =>
    match parts with
    | part :: more => if c = separator then [] :: part :: more else (c :: part) :: more
    | [] => [[c]]) [[]]

/-- What stands in front of the first separator and, if there is one, what stands behind it. -/
def cut (separator : Char) (s : List Char) : List Char × Option (List Char) :=
  match s.dropWhile (· != separator) with
  | [] => (s, none)
  | _ :: behind => (s.takeWhile (· != separator), some behind)

/-- Whether a character is a hexadecimal digit. -/
def isHex (c : Char) : Bool :=
  (Json.hexValue? c).isSome

namespace Address

/-- Whether a text is a byte in decimal without needless zeros. -/
def isByte (s : List Char) : Bool :=
  !s.isEmpty && s.length ≤ 3 && s.all Decimal.isDigit && (s.head? != some '0' || s == ['0']) &&
    Decimal.ofDigits s ≤ 255

/-- Whether a text is an address of four bytes. -/
def isShort (s : List Char) : Bool :=
  let parts := splitAt '.' s
  parts.length == 4 && parts.all isByte

/-- Whether a text is one group of a long address. -/
def isGroup (s : List Char) : Bool :=
  !s.isEmpty && s.length ≤ 4 && s.all isHex

/-- The number of groups on one side of missing ones, where `outer` is the group at the end of the
address and `inner` are the others. The end of the address may be missing too, but then all of its
side is. -/
def sideLength? (outer : List Char) (inner : List (List Char)) : Option Nat :=
  if outer.isEmpty then if inner.isEmpty then some 0 else none
  else if isGroup outer && inner.all isGroup then some (inner.length + 1)
  else none

/-- Whether groups make up a long address: the first one, those between, and the last one. -/
def areGroups (first : List Char) (between : List (List Char)) (last : List Char) : Bool :=
  match between.dropWhile (· != []) with
  | [] => between.length == 6 && (first :: last :: between).all isGroup
  | _ :: behind =>
    match sideLength? first (between.takeWhile (· != [])), sideLength? last behind with
    | some before, some after => before + after ≤ 7
    | _, _ => false

/-- The last part of a long address as groups. -/
def lastGroups (last : List Char) : Option (List (List Char)) :=
  if last.contains '.' then if isShort last then some [['0'], ['0']] else none
  else some [last]

/-- Whether a text is a long address without a zone. -/
def isLongBare (s : List Char) : Bool :=
  match splitAt ':' s with
  | first :: second :: more =>
    match lastGroups ((second :: more).getLastD []) with
    | none => false
    | some groups =>
      let groups := (second :: more).dropLast ++ groups
      !more.isEmpty && areGroups first groups.dropLast (groups.getLastD [])
  | _ => false

/-- Whether a text is a long address. -/
def isLong (s : List Char) : Bool :=
  match cut '%' s with
  | (bare, none) => isLongBare bare
  | (bare, some zone) => isLongBare bare && !zone.isEmpty && !zone.contains '%'

/-- Whether a text that starts with a `v` is an address of some later version. -/
def isLater (s : List Char) : Bool :=
  match cut '.' (s.drop 1) with
  | (version, some rest) => !version.isEmpty && version.all isHex && !rest.isEmpty
  | (_, none) => false

/-- Refuse what is no address for brackets. -/
def checkBracketed (s : List Char) : Except Failure Unit :=
  if s.head? = some 'v' then
    if isLater s then .ok () else .error (.fault .value "IPvFuture address is invalid")
  else if isShort s then
    .error (.fault .value "An IPv4 address cannot be in brackets")
  else if isLong s then .ok ()
  else .error (.fault .value
    (Text.quoted (String.ofList s) ++ " does not appear to be an IPv4 or IPv6 address"))

end Address

end Synchrony.Url
