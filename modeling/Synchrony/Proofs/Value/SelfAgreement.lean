import Synchrony.Value.Equality

/-!
# Agreeing with oneself

A rule asks again and again whether a value that it has met before is met once more, so it matters
which values are the same as themselves (`Value.same`). All are but one: not-a-number
(`Value.same_self_iff`).

Inside a list, a tuple or a record even not-a-number does no harm, because members are compared as
objects first, and it is the same object as itself. A record is compared by its keys, so this needs
that it holds each of them once. That is how records come to be, and `Value.WellFormed` says it of
all records in a value, however deep they are.
-/

set_option autoImplicit false

namespace Synchrony

namespace Value

/-- The records in a value, at every depth, hold each key once. -/
inductive WellFormed : Value → Prop
  | null : WellFormed .null
  | bool (b : Bool) : WellFormed (.bool b)
  | int (n : Int) : WellFormed (.int n)
  | float (x : Binary64) : WellFormed (.float x)
  | text (s : String) : WellFormed (.text s)
  | ident (id : Ident) : WellFormed (.ident id)
  | list {items : List Value} (members : ∀ item ∈ items, WellFormed item) :
    WellFormed (.list items)
  | tuple {items : List Value} (members : ∀ item ∈ items, WellFormed item) :
    WellFormed (.tuple items)
  | record {fields : List (String × Value)} (nodup : (Keyed.keys fields).Nodup)
    (members : ∀ field ∈ fields, WellFormed field.2) : WellFormed (.record fields)

/-- The value itself is not-a-number. What is in it does not count. -/
def IsNan : Value → Prop
  | .float (.nan _) => True
  | _ => False

theorem equal_self_float {x : Binary64} (h : ∀ mark, x ≠ .nan mark) :
    (Value.float x).equal (.float x) = true := by
  cases x with
  | finite negative units => simp [equal, equalNumbers, numeric?, Numeric.equal, Binary64.equal]
  | infinite negative => simp [equal, equalNumbers, numeric?, Numeric.equal, Binary64.equal]
  | nan mark => exact absurd rfl (h mark)

/-- The same object as itself or equal to itself, which is how members are compared. -/
def Selfsame (value : Value) : Prop :=
  (sameNan value value || equal value value) = true

theorem equalItems_self {items : List Value} (h : ∀ item ∈ items, item.Selfsame) :
    equalItems items items = true := by
  induction items with
  | nil => rfl
  | cons item items ih =>
    obtain ⟨hitem, hitems⟩ := List.forall_mem_cons.mp h
    rw [equalItems, ih hitems, Bool.and_true]
    exact hitem

/-- Fields that are found under their keys in a record are all equal to what is found. -/
theorem equalFields_of_found {fields record : List (String × Value)}
    (hfound : ∀ field ∈ fields, Keyed.get? record field.1 = some field.2)
    (h : ∀ field ∈ fields, field.2.Selfsame) : equalFields fields record = true := by
  induction fields with
  | nil => rfl
  | cons field fields ih =>
    obtain ⟨hfirst, hrest⟩ := List.forall_mem_cons.mp h
    obtain ⟨hget, hgets⟩ := List.forall_mem_cons.mp hfound
    obtain ⟨k, x⟩ := field
    simp only [equalFields, hget, ih hgets hrest, Bool.and_true]
    exact hfirst

/-- Every value is the same object as itself or equal to itself. -/
theorem WellFormed.selfsame {value : Value} (h : value.WellFormed) : value.Selfsame := by
  induction h with
  | null => rfl
  | bool b => cases b <;> rfl
  | int n => simp [Selfsame, sameNan, equal, equalNumbers, numeric?, Numeric.equal]
  | float x =>
    cases x with
    | nan mark => simp [Selfsame, sameNan]
    | _ =>
      rw [Selfsame, equal_self_float, Bool.or_true]
      simp
  | text s => simp [Selfsame, equal]
  | ident id => simp [Selfsame, equal]
  | list _ ih => simp [Selfsame, equal, equalItems_self ih]
  | tuple _ ih => simp [Selfsame, equal, equalItems_self ih]
  | record nodup _ ih =>
    have hfields := equalFields_of_found (fun field hmem => Keyed.get?_of_mem nodup hmem) ih
    simp [Selfsame, equal, hfields]

/-- **A value agrees with itself unless it is not-a-number.** -/
theorem same_self_iff {value : Value} (h : value.WellFormed) :
    value.same value = true ↔ ¬value.IsNan := by
  have hselfsame := h.selfsame
  cases value with
  | ident id => simp [same, Ident.names, IsNan]
  | float x =>
    cases x with
    | nan mark => simp [same, isBool, equal, equalNumbers, numeric?, Numeric.equal, Binary64.equal,
        IsNan]
    | _ => simpa [Selfsame, sameNan, same, IsNan] using hselfsame
  | _ => simpa [Selfsame, sameNan, same, IsNan] using hselfsame

end Value

end Synchrony
