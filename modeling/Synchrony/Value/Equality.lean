import Synchrony.Value.Basic

/-!
# When two values are the same

There are two notions, and a rule needs both.

`Value.equal` is the equality of data. It compares numbers of all kinds exactly, truth values
among them (`true` equals `1`), and it compares identifiers as objects. Members of lists, tuples
and records are compared as objects first and as data second; the two steps differ only for
not-a-number, which is not equal to itself but is the same object as itself.

`Value.same` is what matching a rule asks. At the top it lets an identifier agree with any
identifier or text that names the same record, and it keeps truth values apart from numbers; below
the top it is `Value.equal`.
-/

set_option autoImplicit false

namespace Synchrony

/-- Whether a value names the record that an identifier names: an identifier or a text with the
same hex. -/
def Ident.names (id : Ident) : Value → Bool
  | .ident other => other.hex == id.hex
  | .text s => s == id.hex
  | _ => false

namespace Value

/-- Whether two values are one not-a-number: the only objects that are not equal to themselves. -/
def sameNan : Value → Value → Bool
  | .float (.nan m), .float (.nan n) => m == n
  | _, _ => false

/-- Equality of two numbers of any kind; anything else is not equal. -/
def equalNumbers (a b : Value) : Bool :=
  match a.numeric?, b.numeric? with
  | some m, some n => m.equal n
  | _, _ => false

mutual

/-- Equality of data. -/
def equal : Value → Value → Bool
  | .null, b => match b with
    | .null => true
    | _ => false
  | .text s, b => match b with
    | .text t => s == t
    | _ => false
  | .ident i, b => match b with
    | .ident j => i.mark == j.mark
    | _ => false
  | .list xs, b => match b with
    | .list ys => equalItems xs ys
    | _ => false
  | .tuple xs, b => match b with
    | .tuple ys => equalItems xs ys
    | _ => false
  | .record fs, b => match b with
    | .record gs => fs.length == gs.length && equalFields fs gs
    | _ => false
  | .bool x, b => equalNumbers (.bool x) b
  | .int n, b => equalNumbers (.int n) b
  | .float x, b => equalNumbers (.float x) b
termination_by structural a => a

/-- Equality member by member, each as an object first. -/
def equalItems : List Value → List Value → Bool
  | [], ys => ys.isEmpty
  | x :: xs, ys => match ys with
    | y :: ys => (sameNan x y || equal x y) && equalItems xs ys
    | [] => false
termination_by structural xs => xs

/-- Every field of the first record has an equal field under its key in the second. -/
def equalFields : List (String × Value) → List (String × Value) → Bool
  | [], _ => true
  | (k, x) :: fs, gs =>
    (match Keyed.get? gs k with
    | some y => sameNan x y || equal x y
    | none => false) && equalFields fs gs
termination_by structural fs => fs

end

/-- Whether a value that was found agrees with the value that was expected. -/
def same (actual expected : Value) : Bool :=
  match expected, actual with
  | .ident id, _ => id.names actual
  | _, .ident id => id.names expected
  | _, _ => if actual.isBool != expected.isBool then false else equal actual expected

end Value

end Synchrony
