import Mathlib.Data.List.Forall2
import Synchrony.Json.Form
import Synchrony.Proofs.Concept.Methods

/-!
# The JSON form is a normal form

A value goes to clients in its JSON form, which has no identifiers and no tuples in it, however deep
they were (`Value.IsJson`). Everything else of the value is still there: the form is the value member
by member, with a list for each tuple and for each identifier a text that an action makes into an
identifier of the same record again (`Value.Renders`). A value of which there is nothing to be
replaced is its own form, and no other value is, so taking the form twice is taking it once
(`Value.jsonForm_is_normal_form`).

That a text leads back to the record asks for a text that is not empty, since the empty one is made
into an identifier of a new record. No identifier that is ever made has an empty hex
(`Supply.hex_ident_ne_empty`).
-/

set_option autoImplicit false

namespace Synchrony

/-! ## Induction over values -/

/-- What holds of every value, if it holds of a container whenever it holds of its members. -/
@[elab_as_elim]
theorem Value.induction_on_members {motive : Value → Prop} (null : motive .null)
    (bool : ∀ b, motive (.bool b)) (int : ∀ n, motive (.int n)) (float : ∀ x, motive (.float x))
    (text : ∀ s, motive (.text s)) (ident : ∀ id, motive (.ident id))
    (list : ∀ items, (∀ item ∈ items, motive item) → motive (.list items))
    (tuple : ∀ items, (∀ item ∈ items, motive item) → motive (.tuple items))
    (record : ∀ fields, (∀ field ∈ fields, motive field.2) → motive (.record fields))
    (value : Value) : motive value := by
  apply Value.rec (motive_1 := motive) (motive_2 := fun items => ∀ item ∈ items, motive item)
    (motive_3 := fun fields => ∀ field ∈ fields, motive field.2)
    (motive_4 := fun field => motive field.2) null bool int float text ident list tuple record
  · intro item hitem
    cases hitem
  · intro item items hitem hitems
    exact List.forall_mem_cons.mpr ⟨hitem, hitems⟩
  · intro field hfield
    cases hfield
  · intro field fields hfield hfields
    exact List.forall_mem_cons.mpr ⟨hfield, hfields⟩
  · intro key value hvalue
    exact hvalue

/-- Whatever an identifier is made of, its hex is not empty. -/
theorem Supply.hex_ident_ne_empty (hex : String) (u : Supply) :
    ((ident hex).run u).1.hex ≠ "" := by
  cases hempty : hex.isEmpty with
  | false =>
    rw [run_ident_of_named hempty]
    simpa using hempty
  | true =>
    rw [run_ident_of_empty hempty]
    intro hnil
    have hlength := congrArg (fun s => s.toList.length) hnil
    simp [hexText, Text.length_hexDigits] at hlength

namespace Value

/-! ## What is in a value -/

/-- The part is in the value, at some depth, or is the value itself. -/
inductive Within (part : Value) : Value → Prop
  | itself : Within part part
  | list {items : List Value} {item : Value} (mem : item ∈ items) (within : Within part item) :
    Within part (.list items)
  | tuple {items : List Value} {item : Value} (mem : item ∈ items) (within : Within part item) :
    Within part (.tuple items)
  | record {fields : List (String × Value)} {field : String × Value} (mem : field ∈ fields)
    (within : Within part field.2) : Within part (.record fields)

/-- No identifier and no tuple is in the value, at any depth. -/
structure IsJson (value : Value) : Prop where
  no_ident : ∀ id, ¬Within (.ident id) value
  no_tuple : ∀ items, ¬Within (.tuple items) value

theorem isJson_list {items : List Value} (h : ∀ item ∈ items, IsJson item) :
    IsJson (.list items) := by
  constructor
  · intro id hwithin
    cases hwithin with
    | list mem within => exact (h _ mem).no_ident id within
  · intro members hwithin
    cases hwithin with
    | list mem within => exact (h _ mem).no_tuple members within

theorem isJson_record {fields : List (String × Value)} (h : ∀ field ∈ fields, IsJson field.2) :
    IsJson (.record fields) := by
  constructor
  · intro id hwithin
    cases hwithin with
    | record mem within => exact (h _ mem).no_ident id within
  · intro members hwithin
    cases hwithin with
    | record mem within => exact (h _ mem).no_tuple members within

theorem IsJson.of_mem {items : List Value} {item : Value} (h : IsJson (.list items))
    (hmem : item ∈ items) : IsJson item where
  no_ident id hwithin := h.no_ident id (.list hmem hwithin)
  no_tuple members hwithin := h.no_tuple members (.list hmem hwithin)

theorem IsJson.of_field {fields : List (String × Value)} {field : String × Value}
    (h : IsJson (.record fields)) (hmem : field ∈ fields) : IsJson field.2 where
  no_ident id hwithin := h.no_ident id (.record hmem hwithin)
  no_tuple members hwithin := h.no_tuple members (.record hmem hwithin)

/-! ## The form and the value, member by member -/

/-- An action that is given this text for an identifier takes it for one of the same record, whatever
there is in stock for new ones. -/
def LeadsBack (text : String) (id : Ident) : Prop :=
  ∀ {S : Type} (store : S) (u : Supply), ∃ found v,
    (Method.identOf (.text text) : Method S Ident).perform store u = (.ok found, store, v) ∧
      found.hex = id.hex

/-- The second value is the first one without its identifiers and tuples. Containers keep their
members in order and records their keys, and what has no members and is no identifier stays. -/
inductive Renders : Value → Value → Prop
  | null : Renders .null .null
  | bool (b : Bool) : Renders (.bool b) (.bool b)
  | int (n : Int) : Renders (.int n) (.int n)
  | float (x : Binary64) : Renders (.float x) (.float x)
  | text (s : String) : Renders (.text s) (.text s)
  | ident {id : Ident} {text : String} (leads_back : LeadsBack text id) :
    Renders (.ident id) (.text text)
  | list {items items' : List Value} (members : List.Forall₂ Renders items items') :
    Renders (.list items) (.list items')
  | tuple {items items' : List Value} (members : List.Forall₂ Renders items items') :
    Renders (.tuple items) (.list items')
  | record {fields fields' : List (String × Value)}
    (keys_eq : Keyed.keys fields' = Keyed.keys fields)
    (members : List.Forall₂ Renders (fields.map Prod.snd) (fields'.map Prod.snd)) :
    Renders (.record fields) (.record fields')

theorem jsonItems_eq_map (items : List Value) : jsonItems items = items.map jsonForm := by
  induction items with
  | nil => rfl
  | cons item items ih => simp [jsonItems, ih]

theorem jsonFields_eq_mapValues (fields : List (String × Value)) :
    jsonFields fields = Keyed.mapValues jsonForm fields := by
  induction fields with
  | nil => rfl
  | cons field fields ih => simp_all [jsonFields, Keyed.mapValues]

theorem leadsBack_hex {id : Ident} (h : id.hex ≠ "") : LeadsBack id.hex id := by
  intro S store u
  have hrecord : (Value.text id.hex).record? = some id.hex := by
    simp [record?, hasText, plain, h]
  rcases Method.identOf_cases (.text id.hex) store u with ⟨-, hnone⟩ | ⟨found, v, hrun, hfound⟩
  · rw [hrecord] at hnone
    cases hnone
  · exact ⟨found, v, Method.on_eq_ok.mp hrun, hfound.hex_of_record hrecord⟩

/-! ## The normal form -/

theorem isJson_jsonForm (value : Value) : IsJson value.jsonForm := by
  induction value using induction_on_members with
  | list items ih | tuple items ih =>
    simp only [jsonForm, jsonItems_eq_map]
    apply isJson_list
    intro item hitem
    obtain ⟨original, hmem, rfl⟩ := List.mem_map.mp hitem
    exact ih original hmem
  | record fields ih =>
    simp only [jsonForm, jsonFields_eq_mapValues]
    apply isJson_record
    intro field hfield
    obtain ⟨original, hmem, rfl⟩ := List.mem_map.mp hfield
    exact ih original hmem
  | _ =>
    constructor
    · intro id hwithin
      cases hwithin
    · intro items hwithin
      cases hwithin

theorem jsonForm_of_isJson {value : Value} (h : IsJson value) : value.jsonForm = value := by
  induction value using induction_on_members with
  | ident id => exact absurd .itself (h.no_ident id)
  | tuple items ih => exact absurd .itself (h.no_tuple items)
  | list items ih =>
    simp only [jsonForm, jsonItems_eq_map]
    have hitems : items.map jsonForm = items.map id := by
      apply List.map_congr_left
      intro item hitem
      exact ih item hitem (h.of_mem hitem)
    rw [hitems, List.map_id]
  | record fields ih =>
    simp only [jsonForm, jsonFields_eq_mapValues]
    have hfields : Keyed.mapValues jsonForm fields = fields.map id := by
      apply List.map_congr_left
      intro field hfield
      rw [ih field hfield (h.of_field hfield)]
      rfl
    rw [hfields, List.map_id]
  | _ => rfl

theorem renders_jsonForm {value : Value} (h : ∀ id, Within (.ident id) value → id.hex ≠ "") :
    Renders value value.jsonForm := by
  induction value using induction_on_members with
  | null => exact .null
  | bool b => exact .bool b
  | int n => exact .int n
  | float x => exact .float x
  | text s => exact .text s
  | ident id => exact .ident (leadsBack_hex (h id .itself))
  | list items ih =>
    simp only [jsonForm, jsonItems_eq_map]
    apply Renders.list
    rw [List.forall₂_map_right_iff, List.forall₂_same]
    intro item hitem
    exact ih item hitem fun id hwithin => h id (.list hitem hwithin)
  | tuple items ih =>
    simp only [jsonForm, jsonItems_eq_map]
    apply Renders.tuple
    rw [List.forall₂_map_right_iff, List.forall₂_same]
    intro item hitem
    exact ih item hitem fun id hwithin => h id (.tuple hitem hwithin)
  | record fields ih =>
    simp only [jsonForm, jsonFields_eq_mapValues]
    apply Renders.record
    · simp [Keyed.keys, Keyed.mapValues]
    · simp only [Keyed.mapValues, List.map_map, List.forall₂_map_left_iff,
        List.forall₂_map_right_iff, List.forall₂_same]
      intro field hfield
      exact ih field hfield fun id hwithin => h id (.record hfield hwithin)

/-- **The JSON form is a normal form.** It is the value with nothing but its identifiers and tuples
replaced, there is nothing in it to be replaced any more, and the values that are their own form are
those in which there never was. -/
theorem jsonForm_is_normal_form {value : Value}
    (h : ∀ id, Within (.ident id) value → id.hex ≠ "") :
    Renders value value.jsonForm ∧ IsJson value.jsonForm ∧
      value.jsonForm.jsonForm = value.jsonForm ∧ (value.jsonForm = value ↔ IsJson value) := by
  have hform := isJson_jsonForm value
  refine ⟨renders_jsonForm h, hform, jsonForm_of_isJson hform, ?_, jsonForm_of_isJson⟩
  intro heq
  rw [heq] at hform
  exact hform

/-- A user, and two followers of whom one has been made out of nothing. -/
def followed : Value :=
  .record [("user", .ident ((Supply.ident "ann").run {}).1), ("count", .int 2),
    ("followers", .tuple [.list [.ident ((Supply.ident "").run {}).1, .null], .text "bob"])]

theorem jsonForm_is_normal_form_followed :
    (∀ id, Within (.ident id) followed → id.hex ≠ "") ∧ Renders followed followed.jsonForm ∧
      IsJson followed.jsonForm ∧ followed.jsonForm.jsonForm = followed.jsonForm ∧
      (followed.jsonForm = followed ↔ IsJson followed) := by
  have hnamed : ∀ id, Within (.ident id) followed → id.hex ≠ "" := by
    intro id hwithin
    unfold followed at hwithin
    cases hwithin with
    | record mem within =>
      simp only [List.mem_cons, List.not_mem_nil, or_false] at mem
      rcases mem with rfl | rfl | rfl
      · cases within
        exact Supply.hex_ident_ne_empty "ann" {}
      · cases within
      · cases within with
        | tuple mem within =>
          simp only [List.mem_cons, List.not_mem_nil, or_false] at mem
          rcases mem with rfl | rfl
          · cases within with
            | list mem within =>
              simp only [List.mem_cons, List.not_mem_nil, or_false] at mem
              rcases mem with rfl | rfl
              · cases within
                exact Supply.hex_ident_ne_empty "" {}
              · cases within
          · cases within
  exact ⟨hnamed, jsonForm_is_normal_form hnamed⟩

end Value

end Synchrony
