import Synchrony.Delivery.Url.Basic
import Synchrony.Text.Lower

/-!
# Authorities

An authority names a host, perhaps a port behind a colon, and perhaps a user with a password in
front of an at sign. The host is taken in lower case, but the zone of an address is left alone. An
empty part is the same as none.
-/

set_option autoImplicit false

namespace Synchrony.Url

/-- What stands in front of the last at sign, if there is one, and what stands behind it. -/
def splitUser (authority : List Char) : Option (List Char) × List Char :=
  match cut '@' authority.reverse with
  | (behind, none) => (none, behind.reverse)
  | (behind, some front) => (some front.reverse, behind.reverse)

/-- The host as it is written, and the text of the port. -/
def splitPort (located : List Char) : List Char × List Char :=
  match cut '[' located with
  | (_, some bracketed) =>
    match cut ']' bracketed with
    | (host, rest) => (host, (cut ':' (rest.getD [])).2.getD [])
  | (_, none) =>
    match cut ':' located with
    | (host, port) => (host, port.getD [])

/-- The host in lower case. -/
def host (url : Url) : List Char :=
  match cut '%' (splitPort (splitUser url.authority).2).1 with
  | (name, none) => Text.lower name
  | (name, some zone) => Text.lower name ++ '%' :: zone

/-- The number of a port, unless its text is empty. -/
def portOfText (s : List Char) : Except Failure (Option Nat) :=
  if s.isEmpty then .ok none
  else if !s.all Decimal.isDigit then
    .error (.fault .value
      ("Port could not be cast to integer value as " ++ Text.quoted (String.ofList s)))
  else if s.length > Decimal.digitLimit then
    .error (.fault .value ("Exceeds the limit (4300 digits) for integer string conversion: " ++
      "value has " ++ Decimal.natText s.length ++ " digits; " ++
      "use sys.set_int_max_str_digits() to increase the limit"))
  else if Decimal.ofDigits s > 65535 then
    .error (.fault .value "Port out of range 0-65535")
  else .ok (some (Decimal.ofDigits s))

/-- The port. -/
def port (url : Url) : Except Failure (Option Nat) :=
  portOfText (splitPort (splitUser url.authority).2).2

/-- The user. -/
def user (url : Url) : List Char :=
  (((splitUser url.authority).1.map fun info => (cut ':' info).1)).getD []

/-- The password of the user. -/
def password (url : Url) : List Char :=
  ((splitUser url.authority).1.bind fun info => (cut ':' info).2).getD []

/-- An authority from its parts. A host with a colon in it stands in brackets, port zero is left
out, and a password does not stand without a user. -/
def joinAuthority (host : List Char) (port : Option Nat) (user password : List Char) : List Char :=
  let named := if host.contains ':' then '[' :: host ++ [']'] else host
  let located := match port with
    | none => named
    | some 0 => named
    | some n => named ++ ':' :: Decimal.digits n
  if user.isEmpty then located
  else user ++ behind ':' password ++ '@' :: located

end Synchrony.Url
