import Synchrony.Json.Form
import Synchrony.Proofs.Society.Likeness

/-!
# Identifiers and their texts

A client that asks for a user holds a text, and inside the service the same user is an identifier.
It makes no difference which of the two a call is given, and the two can be mixed at will
(`Engine.identifiers_and_texts_interchange`).

An action that is given a text makes an identifier of it, so what runs leave and answer are not the
same identifiers, but identifiers of the same records. What they may differ in is taken away before
they are compared: the marks (`Value.unmarked`, `Society.unmarked`). The form in which results are
sent has no marks anyway, and it is the same.

A text has to name a record for that. The empty text does not, as an identifier made of it names a
new record each time, and it is no identifier's text.
-/

set_option autoImplicit false

namespace Synchrony

/-! ## One record, given in two ways -/

/-- Values that are the same, or that name one record as identifiers and as texts. -/
inductive Value.SameRecord : Value → Value → Prop
  | same (value : Value) : SameRecord value value
  | idents {id id' : Ident} (h : id'.hex = id.hex) : SameRecord (.ident id) (.ident id')
  | identText (id : Ident) (h : id.hex.isEmpty = false) : SameRecord (.ident id) (.text id.hex)
  | textIdent (id : Ident) (h : id.hex.isEmpty = false) : SameRecord (.text id.hex) (.ident id)

/-- Calls of one action that are given the same users and are otherwise the same. -/
structure SameUsers (call call' : String × List Value) : Prop where
  action_eq : call'.1 = call.1
  args : UsersAlike Value.SameRecord (userPlaces call.1) call.2 call'.2

/-! ## Without marks -/

def Ident.unmarked (id : Ident) : Ident :=
  { id with mark := 0 }

namespace Value

mutual

/-- The value with identifiers that can be told apart by their records only, at every depth. -/
def unmarked : Value → Value
  | .null => .null
  | .bool b => .bool b
  | .int n => .int n
  | .float x => .float x
  | .text s => .text s
  | .ident id => .ident id.unmarked
  | .list items => .list (unmarkedItems items)
  | .tuple items => .tuple (unmarkedItems items)
  | .record fields => .record (unmarkedFields fields)
termination_by structural v => v

def unmarkedItems : List Value → List Value
  | [] => []
  | v :: items => unmarked v :: unmarkedItems items
termination_by structural items => items

def unmarkedFields : List (String × Value) → List (String × Value)
  | [] => []
  | (k, v) :: fields => (k, unmarked v) :: unmarkedFields fields
termination_by structural fields => fields

end

mutual

/-- The JSON form does not show marks. -/
theorem jsonForm_unmarked : (v : Value) → v.unmarked.jsonForm = v.jsonForm
  | .null | .bool _ | .int _ | .float _ | .text _ | .ident _ => rfl
  | .list items => congrArg Value.list (jsonItems_unmarked items)
  | .tuple items => congrArg Value.list (jsonItems_unmarked items)
  | .record fields => congrArg Value.record (jsonFields_unmarked fields)

theorem jsonItems_unmarked : (items : List Value) → jsonItems (unmarkedItems items) = jsonItems items
  | [] => rfl
  | v :: items => congrArg₂ List.cons (jsonForm_unmarked v) (jsonItems_unmarked items)

theorem jsonFields_unmarked : (fields : List (String × Value)) →
    jsonFields (unmarkedFields fields) = jsonFields fields
  | [] => rfl
  | (k, v) :: fields =>
    congrArg₂ (fun w rest => (k, w) :: rest) (jsonForm_unmarked v) (jsonFields_unmarked fields)

end

theorem unmarkedItems_idents (ids : List Ident) :
    unmarkedItems (ids.map .ident) = (ids.map Ident.unmarked).map .ident := by
  induction ids with
  | nil => rfl
  | cons id ids ih => rw [List.map_cons, unmarkedItems, ih, unmarked, List.map_cons, List.map_cons]

end Value

def Account.unmarked (account : Account) : Account :=
  { account with id := account.id.unmarked }

def Profile.unmarked (profile : Profile) : Profile :=
  { profile with id := profile.id.unmarked }

def Edge.unmarked (edge : Edge) : Edge :=
  ⟨edge.user.unmarked, edge.target.unmarked⟩

/-- A society without the marks of the identifiers that it gave to its users and of those that it
is going to give. -/
def Society.unmarked (s : Society) : Society where
  accounts := s.accounts.map fun entry => (entry.1, entry.2.unmarked)
  profiles := s.profiles.map fun entry => (entry.1, entry.2.unmarked)
  edges := s.edges.map Edge.unmarked
  supply := { s.supply with nextMark := 0 }

/-- Runs that return results which are the same but for marks, and have one JSON form, or fail with
the same failure, and leave societies that are the same but for marks. -/
structure Run.SameButMarks (run run' : Run Society History) : Prop where
  ending : run.ending.Akin (fun history history' =>
    history'.result.unmarked = history.result.unmarked ∧
      history'.result.jsonForm = history.result.jsonForm) Eq run'.ending
  state : run'.state.unmarked = run.state.unmarked

/-! ## The resemblance -/

theorem Ident.unmarked_eq {id id' : Ident} (h : id'.hex = id.hex) : id'.unmarked = id.unmarked := by
  rw [Ident.unmarked, Ident.unmarked, h]

theorem Value.SameRecord.same_self {value value' : Value} (h : value.SameRecord value') :
    value' = value ∨ value.same value = true ∧ value'.same value' = true := by
  cases h with
  | same => exact Or.inl rfl
  | idents h => exact Or.inr ⟨beq_self_eq_true _, beq_self_eq_true _⟩
  | identText id h => exact Or.inr ⟨beq_self_eq_true _, beq_self_eq_true _⟩
  | textIdent id h => exact Or.inr ⟨beq_self_eq_true _, beq_self_eq_true _⟩

/-- Supplies that hand out the same but for marks. -/
structure Supply.SameButMarks (u u' : Supply) : Prop where
  nextHex_eq : u'.nextHex = u.nextHex
  clock_eq : u'.clock = u.clock

theorem Supply.SameButMarks.unmarked_eq {u u' : Supply} (h : u.SameButMarks u') :
    { u' with nextMark := 0 } = { u with nextMark := 0 } := by
  rw [h.nextHex_eq, h.clock_eq]

namespace Method

variable {S : Type} {R : S → S → Prop}

/-- Both identifiers name the record of the text, or both are handed the same new one. -/
theorem take_ident_akin (hex : String) :
    Akin Supply.SameButMarks R (fun id id' => id'.hex = id.hex) (take (Supply.ident hex))
      (take (Supply.ident hex)) := by
  refine .take fun u u' h => ?_
  cases hempty : hex.isEmpty with
  | true =>
    rw [Supply.run_ident_of_empty hempty, Supply.run_ident_of_empty hempty]
    exact ⟨congrArg Supply.hexText h.nextHex_eq, congrArg (· + 1) h.nextHex_eq, h.clock_eq⟩
  | false =>
    rw [Supply.run_ident_of_named hempty, Supply.run_ident_of_named hempty]
    exact ⟨rfl, h.nextHex_eq, h.clock_eq⟩

theorem on_identOf_text {hex : String} (h : hex.isEmpty = false) (store : S) (u : Supply) :
    (identOf (.text hex)).on store u =
      (.ok (⟨hex, u.nextMark⟩, store), { u with nextMark := u.nextMark + 1 }) := by
  have hident : (identOf (.text hex) : Method S Ident) = take (Supply.ident hex) := rfl
  rw [hident, on_take, Supply.run_ident_of_named h]

/-- An identifier is itself, and its text becomes another of the same record. -/
theorem identOf_sameRecord {value value' : Value} (h : value.SameRecord value') :
    Akin Supply.SameButMarks R (fun id id' => id'.hex = id.hex) (identOf value)
      (identOf value') := by
  cases h with
  | same =>
    exact Akin.identOf (I := fun id id' => id'.hex = id.hex) (fun _ => rfl) take_ident_akin value
  | idents h => exact .pure h
  | identText id h =>
    intro store store' hstore u u' hsupply
    rw [on_identOf_text h]
    exact ⟨.ok ⟨rfl, hstore⟩, hsupply.nextHex_eq, hsupply.clock_eq⟩
  | textIdent id h =>
    intro store store' hstore u u' hsupply
    rw [on_identOf_text h]
    exact ⟨.ok ⟨rfl, hstore⟩, hsupply.nextHex_eq, hsupply.clock_eq⟩

theorem now_akin : Akin Supply.SameButMarks R Eq (take Supply.now) (take Supply.now) := by
  refine .take fun u u' h => ?_
  have hnow (u : Supply) : Supply.now.run u =
      (.finite false (u.clock * Binary64.unitsPerOne), { u with clock := u.clock + 1 }) := rfl
  rw [hnow, hnow, h.clock_eq]
  exact ⟨rfl, h.nextHex_eq, rfl⟩

end Method

/-- Identifiers may differ in their marks, and users in how they are given. -/
def Resemblance.records : Resemblance where
  supply := Supply.SameButMarks
  ident id id' := id'.hex = id.hex
  user := Value.SameRecord
  password := Eq
  hex_eq h := h
  user_refl := .same
  user_ident h := .idents h
  user_self h := h.same_self
  password_refl _ := rfl
  truthy_eq h := h ▸ rfl
  identOf := Method.identOf_sameRecord
  fresh := Method.take_ident_akin ""
  now := Method.now_akin

theorem SameUsers.calls {call call' : String × List Value} (h : SameUsers call call') :
    Resemblance.records.Calls call call' :=
  ⟨h.action_eq, .users h.args fun _ _ _ hp => Eq.symm hp⟩

namespace Resemblance

theorem records_shows {value value' : Value} (h : records.Shows value value') :
    value'.unmarked = value.unmarked := by
  cases h with
  | same => rfl
  | ident h => exact congrArg Value.ident (Ident.unmarked_eq h)
  | record h fields =>
    rw [Value.unmarked, Value.unmarked, Value.unmarkedFields, Value.unmarkedFields, Value.unmarked,
      Value.unmarked, Ident.unmarked_eq h]
  | idents h =>
    rw [Value.unmarked, Value.unmarked, Value.unmarkedItems_idents, Value.unmarkedItems_idents,
      List.map_eq_of_forall₂ h fun _ _ => Ident.unmarked_eq]

theorem records_accounts {account account' : Account} (h : records.OfAccounts account account') :
    account'.unmarked = account.unmarked := by
  rcases account with ⟨id, username, password, email, createdAt⟩
  rcases account' with ⟨id', username', password', email', createdAt'⟩
  obtain ⟨hid, ⟨⟩, ⟨⟩, ⟨⟩, ⟨⟩⟩ := h
  rw [Account.unmarked, Account.unmarked, Ident.unmarked_eq hid]

theorem records_profiles {profile profile' : Profile} (h : records.OfProfiles profile profile') :
    profile'.unmarked = profile.unmarked := by
  rcases profile with ⟨id, username, bio, image, followers⟩
  rcases profile' with ⟨id', username', bio', image', followers'⟩
  obtain ⟨hid, ⟨⟩, ⟨⟩, ⟨⟩, ⟨⟩⟩ := h
  rw [Profile.unmarked, Profile.unmarked, Ident.unmarked_eq hid]

theorem records_edges {edge edge' : Edge} (h : records.OfEdges edge edge') :
    edge'.unmarked = edge.unmarked := by
  rw [Edge.unmarked, Edge.unmarked, Ident.unmarked_eq h.user, Ident.unmarked_eq h.target]

theorem records_societies {s s' : Society} (h : records.Societies s s') :
    s'.unmarked = s.unmarked := by
  rw [Society.unmarked, Society.unmarked, h.accounts.map_eq fun _ _ => records_accounts,
    h.profiles.map_eq fun _ _ => records_profiles,
    List.map_eq_of_forall₂ h.edges fun _ _ => records_edges, h.supply.unmarked_eq]

theorem records_runs {run run' : Run Society History}
    (h : run.Akin records.likeness (History.Akin records.Traces) run') : run.SameButMarks run' where
  ending := h.ending.mono fun history history' hhistory => by
    obtain ⟨first, first', hfirst, hresult, hresult'⟩ := hhistory.first
    have hunmarked := records_shows hfirst.result.shows
    have hjson := congrArg Value.jsonForm hunmarked
    rw [Value.jsonForm_unmarked, Value.jsonForm_unmarked] at hjson
    rw [hresult, hresult']
    exact ⟨hunmarked, hjson⟩
  state := records_societies h.state

end Resemblance

/-! ## Series -/

namespace Engine

/-- **A user can be given as an identifier or as its text.** Let two rows of calls differ in nothing
but how the users in them are given: as identifiers of one record, or as its text. From the empty
society, and with the same supply, both come to the end of all their runs. Run by run, the results
have the same JSON form and are the same but for marks, or the failures are the same, and the
societies are the same but for marks afterwards. -/
theorem identifiers_and_texts_interchange {engine : Engine Society} (hengine : engine.IsBuiltIn)
    {calls calls' : List (String × List Value)} (hcalls : List.Forall₂ SameUsers calls calls')
    (u : Supply) :
    ∃ runs runs', engine.Series { supply := u } calls runs ∧
      engine.Series { supply := u } calls' runs' ∧
      List.Forall₂ Run.SameButMarks runs runs' := by
  have hstart : Resemblance.records.Societies { supply := u } { supply := u } :=
    ⟨.nil, .nil, .nil, rfl, rfl⟩
  obtain ⟨runs, runs', hruns, hruns', hakin⟩ := Resemblance.records.series_akin hengine
    (hcalls.imp fun _ _ => SameUsers.calls) hstart
  exact ⟨runs, runs', hruns, hruns', hakin.imp fun _ _ => Resemblance.records_runs⟩

/-- Ann and Bob join, Ann follows Bob and leaves again. -/
def annVisiting (follower followed leaving : Value) : List (String × List Value) :=
  [("Account.create", [.text "ann", .text "secret", .text "ann@"]),
    ("Account.create", [.text "bob", .text "secret", .text "bob@"]),
    ("Follower.follow", [follower, followed]),
    ("Follower.getFollowers", [followed]),
    ("Account.delete", [leaving])]

/-- The identifiers in the second row are those that the first two calls answer with. -/
theorem identifiers_and_texts_interchange_visiting :
    ∃ runs runs', (builtIn none).Series {} (annVisiting (.text (Supply.hexText 1))
        (.text (Supply.hexText 2)) (.text (Supply.hexText 1))) runs ∧
      (builtIn none).Series {} (annVisiting (.ident ⟨Supply.hexText 1, 1⟩)
        (.ident ⟨Supply.hexText 2, 2⟩) (.text (Supply.hexText 1))) runs' ∧
      List.Forall₂ Run.SameButMarks runs runs' := by
  have hann : (Value.text (Supply.hexText 1)).SameRecord (.ident ⟨Supply.hexText 1, 1⟩) :=
    .textIdent ⟨Supply.hexText 1, 1⟩ rfl
  have hbob : (Value.text (Supply.hexText 2)).SameRecord (.ident ⟨Supply.hexText 2, 2⟩) :=
    .textIdent ⟨Supply.hexText 2, 2⟩ rfl
  refine identifiers_and_texts_interchange (builtIn_isBuiltIn none) ?_ {}
  exact .cons ⟨rfl, .rest _⟩ (.cons ⟨rfl, .rest _⟩ (.cons ⟨rfl, .cons hann (.cons hbob (.rest _))⟩
    (.cons ⟨rfl, .cons hbob (.rest _)⟩ (.cons ⟨rfl, .cons (.same _) (.rest _)⟩ .nil))))

end Engine

end Synchrony
