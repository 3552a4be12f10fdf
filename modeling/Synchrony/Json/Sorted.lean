import Synchrony.Value.Basic

/-!
# Sorted records

Answers to clients show the fields of every record in increasing order of their keys, at every
depth, whatever order the record has.
-/

set_option autoImplicit false

namespace Synchrony.Value

/-- Fields in increasing order of their keys. -/
def sortFields (fields : List (String × Value)) : List (String × Value) :=
  fields.mergeSort fun a b => !decide (b.1 < a.1)

mutual

/-- The value with the fields of every record in order. -/
def sorted : Value → Value
  | .list items => .list (sortedItems items)
  | .tuple items => .tuple (sortedItems items)
  | .record fields => .record (sortFields (sortedFields fields))
  | .null => .null
  | .bool b => .bool b
  | .int n => .int n
  | .float x => .float x
  | .text s => .text s
  | .ident id => .ident id
termination_by structural v => v

/-- Every member with the fields of its records in order. -/
def sortedItems : List Value → List Value
  | [] => []
  | v :: items => sorted v :: sortedItems items
termination_by structural items => items

/-- Every field with the fields of its records in order. -/
def sortedFields : List (String × Value) → List (String × Value)
  | [] => []
  | (k, v) :: fields => (k, sorted v) :: sortedFields fields
termination_by structural fields => fields

end

end Synchrony.Value
