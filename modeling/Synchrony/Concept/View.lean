import Synchrony.Concept.Method

/-!
# Views

Two concepts have no store of their own. `Merge` puts the message about a profile together, and
`Mapper` picks the identifiers out of a row of records. Both take whatever values they are given,
so each says what is wrong with a value that has no fields, or no members.
-/

set_option autoImplicit false

namespace Synchrony

namespace Value

/-- The field of a value under a key. -/
def field (value : Value) (key : String) : Except Failure Value :=
  match value with
  | .record fields =>
    match Keyed.get? fields key with
    | some found => .ok found
    | none => .error (.missingKey key)
  | .text _ => .error (.fault .type "string indices must be integers, not 'str'")
  | .list _ => .error (.fault .type "list indices must be integers or slices, not str")
  | .tuple _ => .error (.fault .type "tuple indices must be integers or slices, not str")
  | other => .error (.fault .type (Text.quoted other.kindName ++ " object is not subscriptable"))

/-- The field of a value under a key, or an empty text if there is nothing in it. -/
def fieldOrEmpty (value : Value) (key : String) : Value :=
  match value with
  | .record fields =>
    let found := (Keyed.get? fields key).getD .null
    if found.isTruthy then found else .text ""
  | _ => .text ""

/-- The members of a value: those of a list or tuple, the characters of a text, the keys of a
record. -/
def members (value : Value) : Except Failure (List Value) :=
  match value with
  | .list items => .ok items
  | .tuple items => .ok items
  | .text s => .ok (s.toList.map fun c => .text (String.singleton c))
  | .record fields => .ok (fields.map fun (k, _) => .text k)
  | other => .error (.fault .type (Text.quoted other.kindName ++ " object is not iterable"))

end Value

namespace Merge

/-- The message about a profile, seen by someone who follows it or not. -/
def createProfileMessage (profile following : Value) : Except Failure Value := do
  let username ← profile.field "username"
  pure (.record [("username", username), ("bio", profile.fieldOrEmpty "bio"),
    ("image", profile.fieldOrEmpty "image"), ("following", following)])

/-- What merging offers as actions. -/
def methods : Methods Unit := [
  ("createProfileMessage", fun
    | [profile, following] => liftM (createProfileMessage profile following)
    | args => Method.wrongArity "Merge.createProfileMessage" ["profile", "following"] args)]

end Merge

namespace Mapper

/-- The identifiers of some records. -/
def mapIds (objects : Value) : Except Failure Value := do
  let ids ← (← objects.members).mapM fun object => object.field "_id"
  pure (.list ids)

/-- What mapping offers as actions. -/
def methods : Methods Unit := [
  ("mapIds", fun
    | [objects] => liftM (mapIds objects)
    | args => Method.wrongArity "Mapper.mapIds" ["objects"] args)]

end Mapper

end Synchrony
