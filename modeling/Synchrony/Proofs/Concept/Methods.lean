import Synchrony.Concept.Method
import Synchrony.Proofs.Concept.Records

/-!
# What methods do

A method takes a store and a supply and leaves both, whether it answers or fails
(`Method.perform`). Mostly it is enough to know what it answers and the store then (`Method.on`).
This module has what every statement about methods rests on: how methods follow each other, what
becomes of a value that has to be an identifier (`Method.identOf_cases`), and what may hold of a
method as a whole: that it never goes back on what the supply handed out (`Method.Advances`), that
it leaves its store as it is (`Method.Keeps`), and that it does so at least if it fails
(`Method.Careful`).

## Careful methods

Nothing takes a write back, so whether a method that fails has changed its store is a matter of the
order in which it does things. It has not if it only reads as long as it can fail
(`Careful.bind_of_keeps`) and cannot fail once it has written (`Careful.bind_of_answers`).
-/

set_option autoImplicit false

namespace Synchrony

namespace Method

variable {S α β : Type}

/-! ## One thing after the other -/

theorem perform_bind (method : Method S α) (next : α → Method S β) (store : S) (u : Supply) :
    (method >>= next).perform store u =
      match method.perform store u with
      | (.ok a, t, v) => (next a).perform t v
      | (.error e, t, v) => (.error e, t, v) := by
  rcases h : (method.run.run store).run u with ⟨⟨e | a, t⟩, v⟩
  · simp only [perform, ExceptT.run_bind, StateT.run_bind, h]
    rfl
  · simp only [perform, ExceptT.run_bind, StateT.run_bind, h]
    rfl

/-- What a method answers, and the store then, or how it fails. -/
def on (method : Method S α) (store : S) (u : Supply) : Except Failure (α × S) × Supply :=
  match method.perform store u with
  | (.ok a, t, v) => (.ok (a, t), v)
  | (.error e, _, v) => (.error e, v)

theorem on_eq_ok {method : Method S α} {store t : S} {u v : Supply} {a : α} :
    method.on store u = (.ok (a, t), v) ↔ method.perform store u = (.ok a, t, v) := by
  rw [on]
  rcases method.perform store u with ⟨e | b, s, w⟩ <;> simp [and_assoc]

theorem on_eq_error {method : Method S α} {store : S} {u v : Supply} {e : Failure} :
    method.on store u = (.error e, v) ↔ ∃ t, method.perform store u = (.error e, t, v) := by
  rw [on]
  rcases method.perform store u with ⟨e' | b, s, w⟩ <;> simp

@[simp] theorem on_pure (a : α) (store : S) (u : Supply) :
    (pure a : Method S α).on store u = (.ok (a, store), u) := rfl

@[simp] theorem on_fail (e : Failure) (store : S) (u : Supply) :
    (fail e : Method S α).on store u = (.error e, u) := rfl

@[simp] theorem on_refuse (refusal : Refusal) (message : String) (store : S) (u : Supply) :
    (refuse refusal message : Method S α).on store u = (.error (.concept refusal message), u) := rfl

@[simp] theorem on_get (store : S) (u : Supply) :
    (get : Method S S).on store u = (.ok (store, store), u) := rfl

@[simp] theorem on_set (t store : S) (u : Supply) :
    (set t : Method S PUnit).on store u = (.ok (⟨⟩, t), u) := rfl

@[simp] theorem on_modify (f : S → S) (store : S) (u : Supply) :
    (modify f : Method S PUnit).on store u = (.ok (⟨⟩, f store), u) := rfl

@[simp] theorem on_take (supplied : StateM Supply α) (store : S) (u : Supply) :
    (take supplied : Method S α).on store u =
      (.ok ((supplied.run u).1, store), (supplied.run u).2) := rfl

theorem on_bind (method : Method S α) (next : α → Method S β) (store : S) (u : Supply) :
    (method >>= next).on store u =
      match method.on store u with
      | (.ok (a, t), v) => (next a).on t v
      | (.error e, v) => (.error e, v) := by
  rw [on, on, perform_bind]
  rcases method.perform store u with ⟨e | a, t, v⟩ <;> rfl

theorem on_bind_returned {method : Method S α} (next : α → Method S β) {store t : S}
    {u v : Supply} {a : α} (h : method.on store u = (.ok (a, t), v)) :
    (method >>= next).on store u = (next a).on t v := by
  rw [on_bind, h]

theorem on_bind_failed {method : Method S α} (next : α → Method S β) {store : S}
    {u v : Supply} {e : Failure} (h : method.on store u = (.error e, v)) :
    (method >>= next).on store u = (.error e, v) := by
  rw [on_bind, h]

/-- What is done with the answer of a method is done if it answers. -/
theorem on_map_ok {method : Method S α} {f : α → β} {store t : S} {u v : Supply} {b : β}
    (h : (method >>= fun a => pure (f a)).on store u = (.ok (b, t), v)) :
    ∃ a, method.on store u = (.ok (a, t), v) ∧ b = f a := by
  rw [on_bind] at h
  rcases hrun : method.on store u with ⟨e | ⟨a, s⟩, w⟩
  · rw [hrun] at h
    cases h
  · rw [hrun] at h
    cases h
    exact ⟨a, rfl, rfl⟩

theorem on_map_returned {method : Method S α} (f : α → β) {store t : S} {u v : Supply} {a : α}
    (h : method.on store u = (.ok (a, t), v)) :
    (method >>= fun a => pure (f a)).on store u = (.ok (f a, t), v) := by
  rw [on_bind_returned _ h, on_pure]

/-- What a method leaves behind, whether it answers or fails. -/
def left (method : Method S α) (store : S) (u : Supply) : S × Supply :=
  (method.perform store u).2

theorem left_of_returned {method : Method S α} {store t : S} {u v : Supply} {a : α}
    (h : method.on store u = (.ok (a, t), v)) : method.left store u = (t, v) := by
  rw [left, on_eq_ok.mp h]

theorem left_supply (method : Method S α) (store : S) (u : Supply) :
    (method.left store u).2 = (method.on store u).2 := by
  rw [left, on]
  rcases method.perform store u with ⟨e | a, t, v⟩ <;> rfl

/-! ## Identifiers -/

/-- The identifier that a value becomes, and the supply then. -/
inductive Identifies (value : Value) (u : Supply) (id : Ident) (v : Supply) : Prop
  | named (record_eq : value.record? = some id.hex) (nextHex_eq : v.nextHex = u.nextHex)
  | fresh (record_eq : value.record? = none) (hex_eq : id.hex = Supply.hexText u.nextHex)
    (nextHex_eq : v.nextHex = u.nextHex + 1)

theorem Identifies.advances {value : Value} {u v : Supply} {id : Ident}
    (h : Identifies value u id v) : u.nextHex ≤ v.nextHex := by
  cases h with
  | named _ nextHex_eq => omega
  | fresh _ _ nextHex_eq => omega

theorem Identifies.hex_of_record {value : Value} {u v : Supply} {id : Ident} {hex : String}
    (h : Identifies value u id v) (hrecord : value.record? = some hex) : id.hex = hex := by
  cases h with
  | named record_eq _ =>
    rw [hrecord] at record_eq
    exact (Option.some.inj record_eq).symm
  | fresh record_eq _ _ =>
    rw [hrecord] at record_eq
    cases record_eq

theorem Identifies.nextHex_of_record {value : Value} {u v : Supply} {id : Ident} {hex : String}
    (h : Identifies value u id v) (hrecord : value.record? = some hex) :
    v.nextHex = u.nextHex := by
  cases h with
  | named _ nextHex_eq => exact nextHex_eq
  | fresh record_eq _ _ =>
    rw [hrecord] at record_eq
    cases record_eq

/-- **Everything that becomes of a value that has to be an identifier.** -/
theorem identOf_cases (value : Value) (store : S) (u : Supply) :
    ((identOf value).on store u = (.error .tooManyDigits, u) ∧ value.record? = none) ∨
    ∃ id v, (identOf value).on store u = (.ok (id, store), v) ∧ Identifies value u id v := by
  have hother (hrecord : value.record? =
        if value.hasText && !value.plain.isEmpty then some value.plain else none)
      (hident : (identOf value : Method S Ident) =
        textOf value >>= fun text => take (Supply.ident text)) :
      ((identOf value).on store u = (.error .tooManyDigits, u) ∧ value.record? = none) ∨
      ∃ id v, (identOf value).on store u = (.ok (id, store), v) ∧ Identifies value u id v := by
    rw [hident, textOf]
    cases htextless : value.hasText with
    | false => exact Or.inl ⟨rfl, by simp [hrecord, htextless]⟩
    | true =>
      have htake : (if (true = true) then pure value.plain else fail .tooManyDigits :
          Method S String) = pure value.plain := if_pos rfl
      rw [htake, pure_bind, on_take]
      cases hempty : value.plain.isEmpty with
      | false =>
        rw [Supply.run_ident_of_named hempty]
        exact Or.inr ⟨_, _, rfl, .named (by simp [hrecord, htextless, hempty]) rfl⟩
      | true =>
        rw [Supply.run_ident_of_empty hempty]
        exact Or.inr ⟨_, _, rfl, .fresh (by simp [hrecord, hempty]) rfl rfl⟩
  cases value with
  | ident id => exact Or.inr ⟨id, u, rfl, .named rfl rfl⟩
  | null => exact hother rfl rfl
  | bool b => exact hother rfl rfl
  | int n => exact hother rfl rfl
  | float x => exact hother rfl rfl
  | text s => exact hother rfl rfl
  | list items => exact hother rfl rfl
  | tuple items => exact hother rfl rfl
  | record fields => exact hother rfl rfl

/-- A value that becomes an identifier names a record, unless it is the empty text. -/
theorem exists_record_of_identOf {value : Value} {store t : S} {u v : Supply} {id : Ident}
    (h : (identOf value).on store u = (.ok (id, t), v)) (hempty : value ≠ .text "") :
    ∃ hex, value.record? = some hex := by
  refine Value.exists_record ?_ hempty
  cases htext : value.hasText with
  | true => rfl
  | false =>
    cases value with
    | ident id => simp [Value.hasText] at htext
    | _ =>
      simp only [identOf, textOf, htext] at h
      cases h

/-! ## What holds of a method as a whole -/

/-- The supply never goes back to a hex that it handed out. -/
def Advances (method : Method S α) : Prop :=
  ∀ store u, u.nextHex ≤ (method.on store u).2.nextHex

theorem Advances.left {method : Method S α} (h : Advances method) (store : S) (u : Supply) :
    u.nextHex ≤ (method.left store u).2.nextHex := by
  rw [left_supply]
  exact h store u

theorem Advances.pure (a : α) : Advances (Pure.pure a : Method S α) :=
  fun _ _ => Nat.le_refl _

theorem Advances.fail (e : Failure) : Advances (fail e : Method S α) :=
  fun _ _ => Nat.le_refl _

theorem Advances.get : Advances (MonadState.get : Method S S) :=
  fun _ _ => Nat.le_refl _

theorem Advances.set (t : S) : Advances (MonadStateOf.set t : Method S PUnit) :=
  fun _ _ => Nat.le_refl _

theorem Advances.modify (f : S → S) : Advances (modify f : Method S PUnit) :=
  fun _ _ => Nat.le_refl _

theorem Advances.take {supplied : StateM Supply α}
    (h : ∀ u : Supply, u.nextHex ≤ (supplied.run u).2.nextHex) :
    Advances (take supplied : Method S α) :=
  fun _ u => h u

theorem Advances.ite {method method' : Method S α} (c : Prop) [Decidable c]
    (h : Advances method) (h' : Advances method') : Advances (if c then method else method') := by
  by_cases hc : c
  · rwa [if_pos hc]
  · rwa [if_neg hc]

theorem Advances.textOf (value : Value) : Advances (textOf value : Method S String) :=
  .ite _ (.pure _) (.fail _)

theorem Advances.identOf (value : Value) : Advances (identOf value : Method S Ident) := by
  intro store u
  rcases identOf_cases value store u with ⟨hrun, -⟩ | ⟨id, v, hrun, hid⟩
  · simp [hrun]
  · simpa [hrun] using hid.advances

theorem Advances.bind {method : Method S α} {next : α → Method S β} (h : Advances method)
    (hnext : ∀ a, Advances (next a)) : Advances (method >>= next) := by
  intro store u
  have hfirst := h store u
  rw [on_bind]
  rcases hrun : method.on store u with ⟨e | ⟨a, t⟩, v⟩
  · rw [hrun] at hfirst
    exact hfirst
  · rw [hrun] at hfirst
    exact Nat.le_trans hfirst (hnext a t v)

/-- The store is left as it is. -/
def Keeps (method : Method S α) : Prop :=
  ∀ store u, (method.perform store u).2.1 = store

theorem Keeps.eq_of_returned {method : Method S α} (h : Keeps method) {store t : S} {u v : Supply}
    {a : α} (hrun : method.on store u = (.ok (a, t), v)) : t = store := by
  have hkept := h store u
  rwa [on_eq_ok.mp hrun] at hkept

theorem Keeps.left {method : Method S α} (h : Keeps method) (store : S) (u : Supply) :
    (method.left store u).1 = store :=
  h store u

theorem Keeps.pure (a : α) : Keeps (Pure.pure a : Method S α) :=
  fun _ _ => rfl

theorem Keeps.fail (e : Failure) : Keeps (fail e : Method S α) :=
  fun _ _ => rfl

theorem Keeps.get : Keeps (MonadState.get : Method S S) :=
  fun _ _ => rfl

theorem Keeps.take (supplied : StateM Supply α) : Keeps (take supplied : Method S α) :=
  fun _ _ => rfl

theorem Keeps.ite {method method' : Method S α} (c : Prop) [Decidable c]
    (h : Keeps method) (h' : Keeps method') : Keeps (if c then method else method') := by
  by_cases hc : c
  · rwa [if_pos hc]
  · rwa [if_neg hc]

theorem Keeps.bind {method : Method S α} {next : α → Method S β} (h : Keeps method)
    (hnext : ∀ a, Keeps (next a)) : Keeps (method >>= next) := by
  intro store u
  have hfirst := h store u
  rw [perform_bind]
  rcases hrun : method.perform store u with ⟨e | a, t, v⟩
  · rwa [hrun] at hfirst
  · rw [hrun] at hfirst
    exact (hnext a t v).trans hfirst

theorem Keeps.textOf (value : Value) : Keeps (textOf value : Method S String) :=
  .ite _ (.pure _) (.fail _)

theorem Keeps.identOf (value : Value) : Keeps (identOf value : Method S Ident) := by
  cases value with
  | ident id => exact .pure id
  | _ => exact .bind (.textOf _) fun _ => .take _

/-- The method answers, whatever it finds. -/
def Answers (method : Method S α) : Prop :=
  ∀ store u, ∃ a, (method.perform store u).1 = .ok a

theorem Answers.pure (a : α) : Answers (Pure.pure a : Method S α) :=
  fun _ _ => ⟨a, rfl⟩

theorem Answers.set (t : S) : Answers (MonadStateOf.set t : Method S PUnit) :=
  fun _ _ => ⟨⟨⟩, rfl⟩

theorem Answers.modify (f : S → S) : Answers (modify f : Method S PUnit) :=
  fun _ _ => ⟨⟨⟩, rfl⟩

theorem Answers.bind {method : Method S α} {next : α → Method S β} (h : Answers method)
    (hnext : ∀ a, Answers (next a)) : Answers (method >>= next) := by
  intro store u
  obtain ⟨a, ha⟩ := h store u
  rw [perform_bind]
  rcases hrun : method.perform store u with ⟨e | b, t, v⟩
  · rw [hrun] at ha
    cases ha
  · exact hnext b t v

/-- If the method fails, the store is left as it is. -/
def Careful (method : Method S α) : Prop :=
  ∀ store u e t v, method.perform store u = (.error e, t, v) → t = store

/-- What writes first and fails then is not careful. -/
example : ¬ Careful (do modify Nat.succ; fail .tooManyDigits : Method Nat Unit) :=
  fun h => absurd (h 0 {} _ _ _ rfl) (by decide)

theorem Careful.perform_of_failed {method : Method S α} (h : Careful method) {store : S}
    {u v : Supply} {e : Failure} (hrun : method.on store u = (.error e, v)) :
    method.perform store u = (.error e, store, v) := by
  obtain ⟨t, hperform⟩ := on_eq_error.mp hrun
  rw [hperform, h store u e t v hperform]

theorem Careful.left_of_failed {method : Method S α} (h : Careful method) {store : S}
    {u v : Supply} {e : Failure} (hrun : method.on store u = (.error e, v)) :
    method.left store u = (store, v) := by
  rw [left, h.perform_of_failed hrun]

theorem Keeps.careful {method : Method S α} (h : Keeps method) : Careful method := by
  intro store u e t v hrun
  have hkept := h store u
  rwa [hrun] at hkept

theorem Answers.careful {method : Method S α} (h : Answers method) : Careful method := by
  intro store u e t v hrun
  obtain ⟨a, ha⟩ := h store u
  rw [hrun] at ha
  cases ha

theorem Careful.ite {method method' : Method S α} (c : Prop) [Decidable c]
    (h : Careful method) (h' : Careful method') : Careful (if c then method else method') := by
  by_cases hc : c
  · rwa [if_pos hc]
  · rwa [if_neg hc]

/-- What only reads may come first. -/
theorem Careful.bind_of_keeps {method : Method S α} {next : α → Method S β} (h : Keeps method)
    (hnext : ∀ a, Careful (next a)) : Careful (method >>= next) := by
  intro store u e t v hrun
  have hfirst := h store u
  rw [perform_bind] at hrun
  rcases hmethod : method.perform store u with ⟨e' | a, s, w⟩
  · rw [hmethod] at hrun hfirst
    cases hrun
    exact hfirst
  · rw [hmethod] at hrun hfirst
    exact (hnext a s w e t v hrun).trans hfirst

/-- What always answers may come last. -/
theorem Careful.bind_of_answers {method : Method S α} {next : α → Method S β} (h : Careful method)
    (hnext : ∀ a, Answers (next a)) : Careful (method >>= next) := by
  intro store u e t v hrun
  rw [perform_bind] at hrun
  rcases hmethod : method.perform store u with ⟨e' | a, s, w⟩
  · rw [hmethod] at hrun
    cases hrun
    exact h store u e t v hmethod
  · rw [hmethod] at hrun
    obtain ⟨b, hb⟩ := hnext a s w
    have hfailed : (next a).perform s w = (.error e, t, v) := hrun
    rw [hfailed] at hb
    cases hb

/-- What is done with the answer of a careful method cannot fail. -/
theorem Careful.map {method : Method S α} (h : Careful method) (f : α → β) :
    Careful (method >>= fun a => Pure.pure (f a)) :=
  h.bind_of_answers fun _ => .pure _

theorem Careful.fail (e : Failure) : Careful (fail e : Method S α) :=
  (Keeps.fail e).careful

/-- A method that only reads. -/
structure Reads (method : Method S α) : Prop where
  keeps : Keeps method
  advances : Advances method

theorem Reads.pure (a : α) : Reads (Pure.pure a : Method S α) :=
  ⟨.pure a, .pure a⟩

theorem Reads.fail (e : Failure) : Reads (fail e : Method S α) :=
  ⟨.fail e, .fail e⟩

theorem Reads.get : Reads (MonadState.get : Method S S) :=
  ⟨.get, .get⟩

theorem Reads.identOf (value : Value) : Reads (identOf value : Method S Ident) :=
  ⟨.identOf value, .identOf value⟩

theorem Reads.bind {method : Method S α} {next : α → Method S β} (h : Reads method)
    (hnext : ∀ a, Reads (next a)) : Reads (method >>= next) :=
  ⟨.bind h.keeps fun a => (hnext a).keeps, .bind h.advances fun a => (hnext a).advances⟩

end Method

end Synchrony
