import Synchrony.Number.Shortest
import Synchrony.Text.Quoted
import Synchrony.Value.Basic

/-!
# Writing JSON

A value as one line of JSON: a blank behind every comma and colon, members in the order of the
record, and only those characters escaped that a string cannot hold: the quote, the backslash and
the controls. All other characters stand for themselves, so the line has no control character in
it and in particular no line break.

A tuple is written as an array and an identifier as its hex. Numbers that JSON has no notation for
are written by the names under which `Json.read?` accepts them.
-/

set_option autoImplicit false

namespace Synchrony.Json

/-- A control character without a letter of its own. -/
def controlEscape (c : Char) : List Char :=
  '\\' :: 'u' :: Text.hexDigits 4 c.toNat

/-- One character of a string. -/
def escapeChar (c : Char) : List Char :=
  if c = '"' then ['\\', '"']
  else if c = '\\' then ['\\', '\\']
  else if c = '\n' then ['\\', 'n']
  else if c = '\r' then ['\\', 'r']
  else if c = '\t' then ['\\', 't']
  else if c.toNat = 8 then ['\\', 'b']
  else if c.toNat = 12 then ['\\', 'f']
  else if c.toNat < 32 then controlEscape c
  else [c]

/-- A string with its quotes. -/
def string (s : String) : List Char :=
  '"' :: s.toList.flatMap escapeChar ++ ['"']

/-- A floating point number. -/
def float : Binary64 → List Char
  | .finite negative units => Binary64.signed negative (Binary64.magnitudeText units)
  | .infinite negative =>
    Binary64.signed negative ['I', 'n', 'f', 'i', 'n', 'i', 't', 'y']
  | .nan _ => ['N', 'a', 'N']

mutual

/-- A value. -/
def write : Value → List Char
  | .null => ['n', 'u', 'l', 'l']
  | .bool b => if b then ['t', 'r', 'u', 'e'] else ['f', 'a', 'l', 's', 'e']
  | .int n => Decimal.ofInt n
  | .float x => float x
  | .text s => string s
  | .ident i => string i.hex
  | .list items => '[' :: writeItems items ++ [']']
  | .tuple items => '[' :: writeItems items ++ [']']
  | .record fields => '\x7b' :: writeFields fields ++ ['\x7d']
termination_by structural v => v

/-- The members of a list, a comma and a blank between them. -/
def writeItems : List Value → List Char
  | [] => []
  | v :: items => match items with
    | [] => write v
    | _ :: _ => write v ++ ',' :: ' ' :: writeItems items
termination_by structural items => items

/-- The members of a record, a comma and a blank between them. -/
def writeFields : List (String × Value) → List Char
  | [] => []
  | (k, v) :: fields => match fields with
    | [] => string k ++ ':' :: ' ' :: write v
    | _ :: _ => string k ++ ':' :: ' ' :: write v ++ ',' :: ' ' :: writeFields fields
termination_by structural fields => fields

end

/-- A value as a text. -/
def line (v : Value) : String :=
  String.ofList (write v)

end Synchrony.Json
