import Synchrony.Keyed
import Synchrony.Number.Binary64

/-!
# Values

What an action takes and what it answers: the values of JSON, and besides them tuples, which have
the shape of lists without being equal to one, and identifiers, which name a record.

## Identity

An identifier names a record by its `hex` text. Two identifiers can name the same record and still
be two objects, and inside a list or a record only the same object counts as equal. So every
identifier carries a **mark**, the occasion on which it was made. Passing a value on keeps its
marks; making an identifier takes a new one (`Synchrony.Supply`).
-/

set_option autoImplicit false

namespace Synchrony

/-- An identifier: the record it names, and which object it is. -/
structure Ident where
  hex : String
  mark : Nat
  deriving DecidableEq, Repr, Inhabited

/-- The values that rules, actions and requests carry. -/
inductive Value where
  | null
  | bool (b : Bool)
  | int (n : Int)
  | float (x : Binary64)
  | text (s : String)
  | ident (id : Ident)
  | list (items : List Value)
  | tuple (items : List Value)
  | record (fields : List (String × Value))
  deriving Inhabited, Repr

namespace Value

/-- The name of a value's kind in the texts of faults. -/
def kindName : Value → String
  | .null => "NoneType"
  | .bool _ => "bool"
  | .int _ => "int"
  | .float _ => "float"
  | .text _ => "str"
  | .ident _ => "Id"
  | .list _ => "list"
  | .tuple _ => "tuple"
  | .record _ => "dict"

/-- Whether a value counts as present: not null, false, zero or empty. -/
def isTruthy : Value → Bool
  | .null => false
  | .bool b => b
  | .int n => n != 0
  | .float x => !x.isZero
  | .text s => !s.isEmpty
  | .ident _ => true
  | .list items => !items.isEmpty
  | .tuple items => !items.isEmpty
  | .record fields => !fields.isEmpty

/-- Whether a value is a truth value. -/
def isBool : Value → Bool
  | .bool _ => true
  | _ => false

end Value

/-- Numbers, for the places where arithmetic is done. -/
inductive Numeric where
  | int (n : Int)
  | float (x : Binary64)
  deriving DecidableEq, Repr

namespace Numeric

/-- A number as a value. -/
def toValue : Numeric → Value
  | .int n => .int n
  | .float x => .float x

/-- Equality across the two kinds is exact. -/
def equal : Numeric → Numeric → Bool
  | .int m, .int n => m == n
  | .int m, .float x => x.equalInt m
  | .float x, .int n => x.equalInt n
  | .float x, .float y => x.equal y

/-- Greater than zero. -/
def isPositive : Numeric → Bool
  | .int n => 0 < n
  | .float x => x.isPositive

/-- The sum. An integer added to a floating point number is rounded to one first, and there is no
sum when it is out of their range. -/
def add? : Numeric → Numeric → Option Numeric
  | .int m, .int n => some (.int (m + n))
  | .int m, .float y => (Binary64.ofInt? m).map fun x => .float (x.add y)
  | .float x, .int n => (Binary64.ofInt? n).map fun y => .float (x.add y)
  | .float x, .float y => some (.float (x.add y))

end Numeric

namespace Value

/-- A value as a number: a truth value counts as 0 or 1. -/
def numeric? : Value → Option Numeric
  | .bool b => some (.int (if b then 1 else 0))
  | .int n => some (.int n)
  | .float x => some (.float x)
  | _ => none

end Value

end Synchrony
