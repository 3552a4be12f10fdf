import Synchrony.Value.Basic

/-!
# The JSON form of a value

JSON knows neither identifiers nor tuples. The JSON form of a value has the hex text in place of
each identifier and a list in place of each tuple, at every depth, and is otherwise the value: keys,
order and all other members stay.
-/

set_option autoImplicit false

namespace Synchrony.Value

mutual

/-- The value without identifiers and tuples. -/
def jsonForm : Value → Value
  | .null => .null
  | .bool b => .bool b
  | .int n => .int n
  | .float x => .float x
  | .text s => .text s
  | .ident id => .text id.hex
  | .list items => .list (jsonItems items)
  | .tuple items => .list (jsonItems items)
  | .record fields => .record (jsonFields fields)
termination_by structural v => v

/-- Every member in JSON form. -/
def jsonItems : List Value → List Value
  | [] => []
  | v :: items => jsonForm v :: jsonItems items
termination_by structural items => items

/-- Every field in JSON form. -/
def jsonFields : List (String × Value) → List (String × Value)
  | [] => []
  | (k, v) :: fields => (k, jsonForm v) :: jsonFields fields
termination_by structural fields => fields

end

end Synchrony.Value
