import Synchrony.Value.Basic
import Synchrony.Number.Shortest
import Synchrony.Text.Quoted

/-!
# Values as texts

Error texts and histories show values in one notation: `None`, `True`, `False`, numbers, quoted
texts, `[…]` for lists, `(…)` for tuples with a comma after a single member, `{key: …}` for
records, and `Id(…)` for identifiers.

A message that is about a value shows the value alone, and then a text stands for itself and an
identifier for its hex (`Value.plain`).

An integer with too many digits has no text. Whoever needs one asks `Value.hasText` first.
-/

set_option autoImplicit false

namespace Synchrony.Value

mutual

/-- The notation for a value. -/
def shown : Value → String
  | .null => "None"
  | .bool b => if b then "True" else "False"
  | .int n => Decimal.intText n
  | .float x => x.text
  | .text s => Text.quoted s
  | .ident i => "Id(" ++ i.hex ++ ")"
  | .list items => "[" ++ ", ".intercalate (shownItems items) ++ "]"
  | .tuple items => match shownItems items with
    | [item] => "(" ++ item ++ ",)"
    | items => "(" ++ ", ".intercalate items ++ ")"
  | .record fields => "\x7b" ++ ", ".intercalate (shownFields fields) ++ "\x7d"
termination_by structural v => v

/-- The notation for each member. -/
def shownItems : List Value → List String
  | [] => []
  | v :: items => shown v :: shownItems items
termination_by structural items => items

/-- The notation for each field. -/
def shownFields : List (String × Value) → List String
  | [] => []
  | (k, v) :: fields => (Text.quoted k ++ ": " ++ shown v) :: shownFields fields
termination_by structural fields => fields

end

/-- A value on its own: a text as it stands, an identifier by its hex. -/
def plain : Value → String
  | .text s => s
  | .ident i => i.hex
  | v => shown v

mutual

/-- Whether a value has a text: none of its integers has too many digits. -/
def hasText : Value → Bool
  | .int n => Decimal.hasText n
  | .list items => itemsHaveText items
  | .tuple items => itemsHaveText items
  | .record fields => fieldsHaveText fields
  | _ => true
termination_by structural v => v

/-- Whether every member has a text. -/
def itemsHaveText : List Value → Bool
  | [] => true
  | v :: items => hasText v && itemsHaveText items
termination_by structural items => items

/-- Whether every field has a text. -/
def fieldsHaveText : List (String × Value) → Bool
  | [] => true
  | (_, v) :: fields => hasText v && fieldsHaveText fields
termination_by structural fields => fields

end

theorem itemsHaveText_iff {items : List Value} :
    itemsHaveText items = true ↔ ∀ item ∈ items, hasText item = true := by
  induction items with
  | nil => simp [itemsHaveText]
  | cons v items ih => simp [itemsHaveText, ih]

theorem fieldsHaveText_iff {fields : List (String × Value)} :
    fieldsHaveText fields = true ↔ ∀ field ∈ fields, hasText field.2 = true := by
  induction fields with
  | nil => simp [fieldsHaveText]
  | cons field fields ih => simp [fieldsHaveText, ih]

end Synchrony.Value
