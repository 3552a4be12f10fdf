import Mathlib.Data.List.Forall2
import Synchrony.Concept.Account
import Synchrony.Concept.Follower
import Synchrony.Concept.Profile
import Synchrony.Proofs.Concept.Methods
import Synchrony.Proofs.Engine.Likeness

/-!
# Methods side by side

Two stores that differ in what a method does not look at are left in the same way by it. So that
this can be said of stores that differ in one thing and of stores that differ in another, the
relation of the stores is a parameter, and so is that of the answers; the failures are the same
(`Method.Akin`). It is kept by everything methods are built with.

## 1. Stores

Accounts and profiles are kept under keys. Two stores are alike if they have the same keys in the
same order and the entries under them are alike (`Keyed.Alike`).

## 2. Identifiers

Methods ask a supply for identifiers and make identifiers of the values that stand for users. A
**resemblance** says which supplies, identifiers and users are taken for alike; what comes of users
that are has the same hex. Under every resemblance the methods of the concepts do the same to stores
that are alike, whatever else is asked of the entries.
-/

set_option autoImplicit false

namespace Synchrony

/-! ## Keyed sequences side by side -/

/-- What members that are alike have in common, the lists have in common. -/
theorem List.map_eq_of_forall₂ {α β γ : Type} {R : α → β → Prop} {f : α → γ} {g : β → γ} {l : List α}
    {l' : List β} (h : List.Forall₂ R l l') (hR : ∀ a b, R a b → g b = f a) : l'.map g = l.map f := by
  induction h with
  | nil => rfl
  | cons hab _ ih => rw [List.map_cons, List.map_cons, ih, hR _ _ hab]

theorem List.eq_of_forall₂ {α : Type} {R : α → α → Prop} {l l' : List α} (h : List.Forall₂ R l l')
    (hR : ∀ a b, R a b → b = a) : l' = l := by
  have hmap := List.map_eq_of_forall₂ (f := id) (g := id) h hR
  rwa [List.map_id, List.map_id] at hmap

namespace Keyed

variable {α β : Type} {R : α → β → Prop} {s : Keyed α} {s' : Keyed β}

/-- The same keys in the same order, and entries under them that are alike. -/
def Alike (R : α → β → Prop) (s : Keyed α) (s' : Keyed β) : Prop :=
  List.Forall₂ (fun entry entry' => entry'.1 = entry.1 ∧ R entry.2 entry'.2) s s'

theorem Alike.get? (h : Alike R s s') (key : String) :
    Option.Rel R (s.get? key) (s'.get? key) := by
  induction h with
  | nil => exact .none
  | @cons entry entry' rest rest' hentry _ ih =>
    obtain ⟨k, a⟩ := entry
    obtain ⟨k', b⟩ := entry'
    obtain ⟨rfl, hab⟩ : k' = k ∧ R a b := hentry
    rw [Keyed.get?, Keyed.get?]
    split
    · exact .some hab
    · exact ih

theorem Alike.mono {R' : α → β → Prop} (h : Alike R s s') (hR : ∀ a b, R a b → R' a b) :
    Alike R' s s' :=
  List.Forall₂.imp (fun _ _ hentry => ⟨hentry.1, hR _ _ hentry.2⟩) h

theorem Alike.map_eq {γ : Type} {f : α → γ} {g : β → γ} (h : Alike R s s')
    (hR : ∀ a b, R a b → g b = f a) :
    s'.map (fun entry => (entry.1, g entry.2)) = s.map fun entry => (entry.1, f entry.2) :=
  List.map_eq_of_forall₂ h fun _ _ hentry => Prod.ext hentry.1 (hR _ _ hentry.2)

theorem Alike.eq {R : α → α → Prop} {s s' : Keyed α} (h : Alike R s s')
    (hR : ∀ a b, R a b → b = a) : s' = s :=
  List.eq_of_forall₂ h fun _ _ hentry => Prod.ext hentry.1 (hR _ _ hentry.2)

theorem Alike.has (h : Alike R s s') (key : String) : s'.has key = s.has key := by
  have hget := h.get? key
  rw [has_eq, has_eq]
  generalize s.get? key = found at hget ⊢
  generalize s'.get? key = found' at hget ⊢
  cases hget <;> rfl

theorem Alike.put (h : Alike R s s') (key : String) {a : α} {b : β} (hab : R a b) :
    Alike R (s.put key a) (s'.put key b) := by
  induction h with
  | nil => exact .cons ⟨rfl, hab⟩ .nil
  | @cons entry entry' rest rest' hentry hrest ih =>
    obtain ⟨k, c⟩ := entry
    obtain ⟨k', d⟩ := entry'
    obtain ⟨rfl, hcd⟩ : k' = k ∧ R c d := hentry
    rw [Keyed.put, Keyed.put]
    split
    · exact .cons ⟨rfl, hab⟩ hrest
    · exact .cons ⟨rfl, hcd⟩ ih

theorem Alike.erase (h : Alike R s s') (key : String) :
    Alike R (s.erase key) (s'.erase key) := by
  refine List.rel_filter ?_ h
  intro entry entry' hentry
  simp only [hentry.1]

theorem Alike.values (h : Alike R s s') :
    List.Forall₂ R (s.map Prod.snd) (s'.map Prod.snd) := by
  rw [List.forall₂_map_left_iff, List.forall₂_map_right_iff]
  exact h.imp fun _ _ hentry => hentry.2

end Keyed

/-- The first members that pass a test stand in the same place, if the test does not tell members
that are alike apart. -/
theorem List.find?_alike {α β : Type} {R : α → β → Prop} {l : List α} {l' : List β}
    {test : α → Bool} {test' : β → Bool} (h : List.Forall₂ R l l')
    (htest : ∀ a b, R a b → test' b = test a) : Option.Rel R (l.find? test) (l'.find? test') := by
  induction h with
  | nil => exact .none
  | @cons a b _ _ hab _ ih =>
    rw [List.find?_cons, List.find?_cons, htest a b hab]
    cases test a with
    | true => exact .some hab
    | false => exact ih

namespace Method

/-! ## Methods side by side -/

variable {S α β γ δ : Type} {U : Supply → Supply → Prop} {R : S → S → Prop} {A : α → β → Prop}
  {B : γ → δ → Prop}

/-- From stores and supplies that are alike, the methods give answers that are alike or fail in the
same way, and what they leave is alike. -/
def Akin (U : Supply → Supply → Prop) (R : S → S → Prop) (A : α → β → Prop)
    (method : Method S α) (method' : Method S β) : Prop :=
  ∀ store store', R store store' → ∀ u u', U u u' →
    Synchrony.Akin (fun r r' => A r.1 r'.1 ∧ R r.2 r'.2) Eq (method.on store u).1
      (method'.on store' u').1 ∧
    U (method.on store u).2 (method'.on store' u').2

variable {method : Method S α} {method' : Method S β}

theorem Akin.pure {a : α} {b : β} (h : A a b) :
    Akin U R A (Pure.pure a : Method S α) (Pure.pure b : Method S β) :=
  fun _ _ hstore _ _ hsupply => ⟨.ok ⟨h, hstore⟩, hsupply⟩

theorem Akin.fail (e : Failure) : Akin U R A (fail e : Method S α) (fail e : Method S β) :=
  fun _ _ _ _ _ hsupply => ⟨.error rfl, hsupply⟩

theorem Akin.refuse (refusal : Refusal) (message : String) :
    Akin U R A (refuse refusal message : Method S α) (refuse refusal message : Method S β) :=
  .fail _

theorem Akin.get : Akin U R R (MonadState.get : Method S S) MonadState.get :=
  fun _ _ hstore _ _ hsupply => ⟨.ok ⟨hstore, hstore⟩, hsupply⟩

theorem Akin.set {t t' : S} (h : R t t') :
    Akin U R Eq (MonadStateOf.set t : Method S PUnit) (MonadStateOf.set t') :=
  fun _ _ _ _ _ hsupply => ⟨.ok ⟨rfl, h⟩, hsupply⟩

theorem Akin.modify {f f' : S → S} (h : ∀ store store', R store store' → R (f store) (f' store')) :
    Akin U R Eq (modify f : Method S PUnit) (modify f') :=
  fun _ _ hstore _ _ hsupply => ⟨.ok ⟨rfl, h _ _ hstore⟩, hsupply⟩

theorem Akin.take {supplied : StateM Supply α} {supplied' : StateM Supply β}
    (h : ∀ u u', U u u' →
      A (supplied.run u).1 (supplied'.run u').1 ∧ U (supplied.run u).2 (supplied'.run u').2) :
    Akin U R A (take supplied : Method S α) (take supplied' : Method S β) :=
  fun _ _ hstore _ _ hsupply => ⟨.ok ⟨(h _ _ hsupply).1, hstore⟩, (h _ _ hsupply).2⟩

theorem Akin.bind {next : α → Method S γ} {next' : β → Method S δ} (h : Akin U R A method method')
    (hnext : ∀ a b, A a b → Akin U R B (next a) (next' b)) :
    Akin U R B (method >>= next) (method' >>= next') := by
  intro store store' hstore u u' hsupply
  obtain ⟨houtcome, hrest⟩ := h _ _ hstore _ _ hsupply
  rw [on_bind, on_bind]
  rcases hrun : method.on store u with ⟨outcome, v⟩
  rcases hrun' : method'.on store' u' with ⟨outcome', v'⟩
  rw [hrun, hrun'] at houtcome hrest
  cases houtcome with
  | ok hanswer => exact hnext _ _ hanswer.1 _ _ hanswer.2 _ _ hrest
  | error he =>
    cases he
    exact ⟨.error rfl, hrest⟩

theorem Akin.mono {A' : α → β → Prop} (h : Akin U R A method method')
    (hA : ∀ a b, A a b → A' a b) : Akin U R A' method method' := by
  intro store store' hstore u u' hsupply
  obtain ⟨houtcome, hrest⟩ := h _ _ hstore _ _ hsupply
  refine ⟨?_, hrest⟩
  generalize (method.on store u).1 = outcome at houtcome ⊢
  generalize (method'.on store' u').1 = outcome' at houtcome ⊢
  cases houtcome with
  | ok hanswer => exact .ok ⟨hA _ _ hanswer.1, hanswer.2⟩
  | error he => exact .error he

/-- What is done with the answers. -/
theorem Akin.map {f : α → γ} {f' : β → δ} (h : Akin U R A method method')
    (hf : ∀ a b, A a b → B (f a) (f' b)) :
    Akin U R B (method >>= fun a => Pure.pure (f a)) (method' >>= fun b => Pure.pure (f' b)) :=
  .bind h fun a b hab => .pure (hf a b hab)

theorem Akin.ite {first second : Method S α} {first' second' : Method S β} {c c' : Prop}
    [Decidable c] [Decidable c'] (hc : c' ↔ c) (h : Akin U R A first first')
    (h' : Akin U R A second second') :
    Akin U R A (if c then first else second) (if c' then first' else second') := by
  by_cases hcase : c
  · rwa [if_pos hcase, if_pos (hc.mpr hcase)]
  · rwa [if_neg hcase, if_neg fun hcase' => hcase (hc.mp hcase')]

theorem Akin.textOf (value : Value) : Akin U R Eq (textOf value : Method S String) (textOf value) :=
  .ite Iff.rfl (.pure rfl) (.fail _)

/-- One value becomes the same identifier, if the supply hands out the same ones. -/
theorem Akin.identOf {I : Ident → Ident → Prop} (hrefl : ∀ id, I id id)
    (htake : ∀ hex, Akin U R I (Method.take (Supply.ident hex)) (Method.take (Supply.ident hex)))
    (value : Value) : Akin U R I (identOf value : Method S Ident) (identOf value) := by
  have hother : Akin U R I (Method.textOf value >>= fun text => Method.take (Supply.ident text))
      (Method.textOf value >>= fun text => Method.take (Supply.ident text)) := by
    refine .bind (.textOf value) ?_
    rintro text _ rfl
    exact htake text
  cases value with
  | ident id => exact .pure (hrefl id)
  | _ => exact hother

theorem Akin.wrongArity (name : String) (params : List String) {args args' : List Value}
    (h : args'.length = args.length) :
    Akin U R A (wrongArity name params args : Method S α)
      (wrongArity name params args' : Method S β) := by
  rw [Method.wrongArity, Method.wrongArity, h]
  exact .fail _

/-- What does not look at the supply or the store does the same with all of them. -/
theorem Akin.liftM (x : Except Failure α) : Akin U R Eq (liftM x : Method S α) (liftM x) := by
  cases x with
  | ok a => exact .pure rfl
  | error e => exact .fail e

end Method

theorem Option.isSome_eq_of_rel {α β : Type} {R : α → β → Prop} {x : Option α} {y : Option β}
    (h : Option.Rel R x y) : y.isSome = x.isSome := by
  cases h <;> rfl

/-! ## Resemblances -/

/-- Which supplies, identifiers, values that stand for users, and passwords are taken for alike. -/
structure Resemblance where
  supply : Supply → Supply → Prop
  ident : Ident → Ident → Prop
  user : Value → Value → Prop
  password : Value → Value → Prop
  hex_eq : ∀ {id id' : Ident}, ident id id' → id'.hex = id.hex
  user_refl : ∀ value, user value value
  user_ident : ∀ {id id' : Ident}, ident id id' → user (.ident id) (.ident id')
  user_self : ∀ {value value' : Value}, user value value' →
    value' = value ∨ value.same value = true ∧ value'.same value' = true
  password_refl : ∀ value, password value value
  truthy_eq : ∀ {value value' : Value}, password value value' → value'.isTruthy = value.isTruthy
  identOf : ∀ {S : Type} {R : S → S → Prop} {value value' : Value}, user value value' →
    Method.Akin supply R ident (Method.identOf value) (Method.identOf value')
  fresh : ∀ {S : Type} {R : S → S → Prop},
    Method.Akin supply R ident (Method.take (Supply.ident "")) (Method.take (Supply.ident ""))
  now : ∀ {S : Type} {R : S → S → Prop},
    Method.Akin supply R Eq (Method.take Supply.now) (Method.take Supply.now)

namespace Resemblance

variable (r : Resemblance)

structure OfAccounts (a a' : Account) : Prop where
  ident : r.ident a.id a'.id
  username_eq : a'.username = a.username
  password : r.password a.password a'.password
  email_eq : a'.email = a.email
  createdAt_eq : a'.createdAt = a.createdAt

structure OfProfiles (p p' : Profile) : Prop where
  ident : r.ident p.id p'.id
  username_eq : p'.username = p.username
  bio_eq : p'.bio = p.bio
  image_eq : p'.image = p.image
  followers_eq : p'.followers = p.followers

structure OfEdges (edge edge' : Edge) : Prop where
  user : r.ident edge.user edge'.user
  target : r.ident edge.target edge'.target

/-- Answers that are the same but for the identifiers in them. These are all the places in which
concepts show identifiers. -/
inductive Shows : Value → Value → Prop
  | same (value : Value) : Shows value value
  | ident {id id' : Ident} (h : r.ident id id') : Shows (.ident id) (.ident id')
  | record {id id' : Ident} (h : r.ident id id') (fields : List (String × Value)) :
    Shows (.record (("_id", .ident id) :: fields)) (.record (("_id", .ident id') :: fields))
  | idents {ids ids' : List Ident} (h : List.Forall₂ r.ident ids ids') :
    Shows (.list (ids.map .ident)) (.list (ids'.map .ident))

end Resemblance

/-! ## Accounts side by side -/

namespace Accounts

variable {r : Resemblance} {accounts accounts' : Accounts} {user user' : Value}

theorem withUsername?_alike (h : Keyed.Alike r.OfAccounts accounts accounts') (username : Value) :
    Option.Rel r.OfAccounts (accounts.withUsername? username)
      (accounts'.withUsername? username) := by
  refine List.find?_alike h.values fun a a' ha => ?_
  rw [ha.username_eq]

theorem refuseTaken_akin (username : Value) :
    Method.Akin r.supply (Keyed.Alike r.OfAccounts) Eq (refuseTaken username)
      (refuseTaken username) := by
  refine .bind .get fun accounts accounts' h => .ite ?_ ?_ (.pure rfl)
  · rw [Option.isSome_eq_of_rel (withUsername?_alike h username)]
  · refine .bind (.textOf username) ?_
    rintro text _ rfl
    exact .refuse _ _

theorem create_akin {password password' : Value} (hpassword : r.password password password')
    (username email : Value) :
    Method.Akin r.supply (Keyed.Alike r.OfAccounts) r.ident (create username password email)
      (create username password' email) := by
  have hfree : Method.Akin r.supply (Keyed.Alike r.OfAccounts) r.ident
      (do
        refuseTaken username
        let id ← Method.take (Supply.ident "")
        let createdAt ← Method.take Supply.now
        modify fun accounts => accounts.put id.hex ⟨id, username, password, email, createdAt⟩
        pure id)
      (do
        refuseTaken username
        let id ← Method.take (Supply.ident "")
        let createdAt ← Method.take Supply.now
        modify fun accounts => accounts.put id.hex ⟨id, username, password', email, createdAt⟩
        pure id) := by
    refine .bind (refuseTaken_akin username) fun _ _ _ => ?_
    refine .bind r.fresh fun id id' hid => .bind r.now ?_
    rintro createdAt _ rfl
    refine .bind (.modify fun accounts accounts' h => ?_) fun _ _ _ => .pure hid
    rw [r.hex_eq hid]
    exact h.put id.hex ⟨hid, rfl, hpassword, rfl, rfl⟩
  have hrefused (message : String) : Method.Akin r.supply (Keyed.Alike r.OfAccounts) Eq
      (Method.refuse .general message : Method Accounts PUnit) (Method.refuse .general message) :=
    .refuse _ _
  refine .ite ?_ (.bind (hrefused _) fun _ _ _ => hfree) hfree
  rw [r.truthy_eq hpassword]

theorem byUser_akin (huser : r.user user user') :
    Method.Akin r.supply (Keyed.Alike r.OfAccounts) r.OfAccounts (byUser user) (byUser user') := by
  refine .bind (r.identOf huser) fun id id' hid => .bind .get fun accounts accounts' h => ?_
  rw [r.hex_eq hid]
  have hget := h.get? id.hex
  generalize accounts.get? id.hex = found at hget ⊢
  generalize accounts'.get? id.hex = found' at hget ⊢
  cases hget with
  | some ha => exact .pure ha
  | none => exact .refuse _ _

/-- What is given away of an account does not show the password. -/
theorem shows_publicView {a a' : Account} (h : r.OfAccounts a a') :
    r.Shows a.publicView a'.publicView := by
  rw [Account.publicView, Account.publicView, h.username_eq, h.email_eq, h.createdAt_eq]
  exact .record h.ident _

theorem getById_akin (huser : r.user user user') :
    Method.Akin r.supply (Keyed.Alike r.OfAccounts) r.Shows (getById user) (getById user') :=
  .map (byUser_akin huser) fun _ _ => shows_publicView

theorem getByUsername_akin (username : Value) :
    Method.Akin r.supply (Keyed.Alike r.OfAccounts) r.ident (getByUsername username)
      (getByUsername username) := by
  refine .bind .get fun accounts accounts' h => ?_
  have hfound := withUsername?_alike h username
  generalize accounts.withUsername? username = found at hfound ⊢
  generalize accounts'.withUsername? username = found' at hfound ⊢
  cases hfound with
  | some ha => exact .pure ha.ident
  | none => exact .refuse _ _

/-- This is the one method that looks at passwords, so they have to be the same. -/
theorem authenticate_akin (hpassword : ∀ {p p'}, r.password p p' → p' = p)
    (email password : Value) :
    Method.Akin r.supply (Keyed.Alike r.OfAccounts) r.ident (authenticate email password)
      (authenticate email password) := by
  refine .bind .get fun accounts accounts' h => ?_
  have hfound : Option.Rel r.OfAccounts
      (accounts.find? fun account => account.email.equal email && account.password.equal password)
      (accounts'.find? fun account =>
        account.email.equal email && account.password.equal password) := by
    refine List.find?_alike h.values fun a a' ha => ?_
    rw [ha.email_eq, hpassword ha.password]
  dsimp only
  generalize accounts.find? _ = found at hfound ⊢
  generalize accounts'.find? _ = found' at hfound ⊢
  cases hfound with
  | some ha => exact .pure ha.ident
  | none => exact .refuse _ _

theorem update_akin (huser : r.user user user') (username : Value) :
    Method.Akin r.supply (Keyed.Alike r.OfAccounts) Eq (update user username)
      (update user' username) := by
  refine .bind (r.identOf huser) fun id id' hid => .bind .get fun accounts accounts' h => ?_
  rw [r.hex_eq hid]
  have hget := h.get? id.hex
  generalize accounts.get? id.hex = found at hget ⊢
  generalize accounts'.get? id.hex = found' at hget ⊢
  cases hget with
  | none => exact .refuse _ _
  | @some a a' ha =>
    have hrenamed : r.OfAccounts { a with username := username } { a' with username := username } :=
      ⟨ha.ident, rfl, ha.password, ha.email_eq, ha.createdAt_eq⟩
    refine .ite (by rw [ha.username_eq]) (.pure rfl) ?_
    refine .bind (refuseTaken_akin username) fun _ _ _ => ?_
    exact .bind (.modify fun _ _ h => h.put id.hex hrenamed) fun _ _ _ => .pure rfl

theorem delete_akin (huser : r.user user user') :
    Method.Akin r.supply (Keyed.Alike r.OfAccounts) Eq (delete user) (delete user') := by
  refine .bind (r.identOf huser) fun id id' hid => .bind .get fun accounts accounts' h => ?_
  rw [r.hex_eq hid]
  refine .bind (.modify fun _ _ h => h.erase id.hex) fun _ _ _ => ?_
  exact .pure (h.has id.hex).symm

end Accounts

/-! ## Profiles side by side -/

namespace Profiles

variable {r : Resemblance} {user user' : Value}

theorem shows_toValue {p p' : Profile} (h : r.OfProfiles p p') : r.Shows p.toValue p'.toValue := by
  rw [Profile.toValue, Profile.toValue, h.username_eq, h.bio_eq, h.image_eq, h.followers_eq]
  exact .record h.ident _

theorem byUser_akin (huser : r.user user user') :
    Method.Akin r.supply (Keyed.Alike r.OfProfiles)
      (fun found found' => found'.1 = found.1 ∧ r.OfProfiles found.2 found'.2)
      (byUser user) (byUser user') := by
  refine .bind (r.identOf huser) fun id id' hid => .bind .get fun profiles profiles' h => ?_
  rw [r.hex_eq hid]
  have hget := h.get? id.hex
  generalize profiles.get? id.hex = found at hget ⊢
  generalize profiles'.get? id.hex = found' at hget ⊢
  cases hget with
  | some hp => exact .pure ⟨rfl, hp⟩
  | none => exact .refuse _ _

theorem create_akin (huser : r.user user user') (username bio image : Value) :
    Method.Akin r.supply (Keyed.Alike r.OfProfiles) r.OfProfiles (create user username bio image)
      (create user' username bio image) := by
  refine .bind (r.identOf huser) fun id id' hid => ?_
  have hopened : r.OfProfiles ⟨id, username, bio, image, .int 0⟩
      ⟨id', username, bio, image, .int 0⟩ := ⟨hid, rfl, rfl, rfl, rfl⟩
  rw [r.hex_eq hid]
  exact .bind (.modify fun _ _ h => h.put id.hex hopened) fun _ _ _ => .pure hopened

theorem getById_akin (huser : r.user user user') :
    Method.Akin r.supply (Keyed.Alike r.OfProfiles) r.OfProfiles (getById user) (getById user') :=
  .bind (byUser_akin huser) fun _ _ h => .pure h.2

theorem getByUsername_akin (username : Value) :
    Method.Akin r.supply (Keyed.Alike r.OfProfiles) r.OfProfiles (getByUsername username)
      (getByUsername username) := by
  refine .bind .get fun profiles profiles' h => ?_
  have hfound : Option.Rel r.OfProfiles
      ((profiles.map Prod.snd).find? fun profile => profile.username.equal username)
      ((profiles'.map Prod.snd).find? fun profile => profile.username.equal username) := by
    refine List.find?_alike h.values fun p p' hp => ?_
    rw [hp.username_eq]
  generalize (profiles.map Prod.snd).find? _ = found at hfound ⊢
  generalize (profiles'.map Prod.snd).find? _ = found' at hfound ⊢
  cases hfound with
  | some hp => exact .pure hp
  | none => exact .refuse _ _

theorem rename_akin (huser : r.user user user') (username : Value) :
    Method.Akin r.supply (Keyed.Alike r.OfProfiles) r.OfProfiles (rename user username)
      (rename user' username) := by
  refine .bind (byUser_akin huser) ?_
  rintro ⟨hex, p⟩ ⟨hex', p'⟩ ⟨hhex, hp⟩
  obtain rfl : hex' = hex := hhex
  have hrenamed : r.OfProfiles { p with username := username } { p' with username := username } :=
    ⟨hp.ident, rfl, hp.bio_eq, hp.image_eq, hp.followers_eq⟩
  exact .bind (.modify fun _ _ h => h.put hex' hrenamed) fun _ _ _ => .pure hrenamed

theorem increased_akin (n : Numeric) (delta : Value) :
    Method.Akin r.supply (Keyed.Alike r.OfProfiles) Eq (increased n delta) (increased n delta) := by
  rw [increased]
  cases delta.numeric? with
  | none => exact .fail _
  | some d =>
    dsimp only
    cases n.add? d with
    | none => exact .fail _
    | some sum => exact .pure rfl

theorem adjustFollowers_akin (huser : r.user user user') (delta : Value) :
    Method.Akin r.supply (Keyed.Alike r.OfProfiles) Eq (adjustFollowers user delta)
      (adjustFollowers user' delta) := by
  refine .bind (byUser_akin huser) ?_
  rintro ⟨hex, p⟩ ⟨hex', p'⟩ ⟨hhex, hp⟩
  obtain rfl : hex' = hex := hhex
  dsimp only at hp ⊢
  rw [hp.followers_eq]
  refine .bind (increased_akin p.followers delta) ?_
  rintro sum _ rfl
  have hadjusted : r.OfProfiles { p with followers := sum.clamp } { p' with followers := sum.clamp } :=
    ⟨hp.ident, hp.username_eq, hp.bio_eq, hp.image_eq, rfl⟩
  exact .bind (.modify fun _ _ h => h.put hex' hadjusted) fun _ _ _ => .pure rfl

theorem delete_akin (huser : r.user user user') :
    Method.Akin r.supply (Keyed.Alike r.OfProfiles) Eq (delete user) (delete user') := by
  refine .bind (r.identOf huser) fun id id' hid => .bind .get fun profiles profiles' h => ?_
  rw [r.hex_eq hid]
  refine .bind (.modify fun _ _ h => h.erase id.hex) fun _ _ _ => ?_
  exact .pure (h.has id.hex).symm

end Profiles

/-! ## Followers side by side -/

namespace Edges

variable {r : Resemblance} {user user' target target' : Value} {a a' b b' : Ident}
  {edges edges' : Edges}

theorem edge_joins_eq {edge edge' : Edge} (ha : r.ident a a') (hb : r.ident b b')
    (h : r.OfEdges edge edge') : Edge.joins a' b' edge' = Edge.joins a b edge := by
  simp only [Edge.joins, Ident.sameRecord, r.hex_eq ha, r.hex_eq hb, r.hex_eq h.user,
    r.hex_eq h.target]

theorem joins_eq (ha : r.ident a a') (hb : r.ident b b') (h : List.Forall₂ r.OfEdges edges edges') :
    edges'.joins a' b' = edges.joins a b := by
  rw [joins, joins]
  induction h with
  | nil => rfl
  | cons hedge _ ih => rw [List.any_cons, List.any_cons, edge_joins_eq ha hb hedge, ih]

theorem eraseP_alike (ha : r.ident a a') (hb : r.ident b b')
    (h : List.Forall₂ r.OfEdges edges edges') :
    List.Forall₂ r.OfEdges (edges.eraseP (Edge.joins a b)) (edges'.eraseP (Edge.joins a' b')) := by
  induction h with
  | nil => exact .nil
  | cons hedge hrest ih =>
    rw [List.eraseP_cons, List.eraseP_cons, edge_joins_eq ha hb hedge]
    cases Edge.joins a b _ with
    | true => exact hrest
    | false => exact .cons hedge ih

theorem follow_akin (huser : r.user user user') (htarget : r.user target target') :
    Method.Akin r.supply (List.Forall₂ r.OfEdges) Eq (follow user target)
      (follow user' target') := by
  refine .bind (r.identOf huser) fun a a' ha => .bind (r.identOf htarget) fun b b' hb => ?_
  have hjoin : Method.Akin r.supply (List.Forall₂ r.OfEdges) Eq
      (do
        if (← get).joins a b then pure false
        else do
          modify fun edges => edges ++ [⟨a, b⟩]
          pure true : Method Edges Bool)
      (do
        if (← get).joins a' b' then pure false
        else do
          modify fun edges => edges ++ [⟨a', b'⟩]
          pure true : Method Edges Bool) := by
    refine .bind .get fun edges edges' h => .ite (by rw [joins_eq ha hb h]) (.pure rfl) ?_
    refine .bind (.modify fun edges edges' h => ?_) fun _ _ _ => .pure rfl
    exact List.rel_append h (.cons ⟨ha, hb⟩ .nil)
  have hrefused (message : String) : Method.Akin r.supply (List.Forall₂ r.OfEdges) Eq
      (Method.refuse .notAllowed message : Method Edges PUnit)
      (Method.refuse .notAllowed message) :=
    .refuse _ _
  refine .ite ?_ (.bind (hrefused _) fun _ _ _ => hjoin) hjoin
  rw [Ident.sameRecord, Ident.sameRecord, r.hex_eq ha, r.hex_eq hb]

theorem unfollow_akin (huser : r.user user user') (htarget : r.user target target') :
    Method.Akin r.supply (List.Forall₂ r.OfEdges) Eq (unfollow user target)
      (unfollow user' target') := by
  refine .bind (r.identOf huser) fun a a' ha => .bind (r.identOf htarget) fun b b' hb => ?_
  refine .bind .get fun edges edges' h => ?_
  refine .bind (.modify fun _ _ h => eraseP_alike ha hb h) fun _ _ _ => ?_
  exact .pure (joins_eq ha hb h).symm

theorem isFollowing_akin (huser : r.user user user') (htarget : r.user target target') :
    Method.Akin r.supply (List.Forall₂ r.OfEdges) Eq (isFollowing user target)
      (isFollowing user' target') := by
  refine .bind (r.identOf huser) fun a a' ha => .bind (r.identOf htarget) fun b b' hb => ?_
  exact .bind .get fun edges edges' h => .pure (joins_eq ha hb h).symm

theorem getFollowers_akin (htarget : r.user target target') :
    Method.Akin r.supply (List.Forall₂ r.OfEdges) (List.Forall₂ r.ident) (getFollowers target)
      (getFollowers target') := by
  refine .bind (r.identOf htarget) fun b b' hb => .bind .get fun edges edges' h => .pure ?_
  rw [List.forall₂_map_left_iff, List.forall₂_map_right_iff]
  refine (List.rel_filter ?_ h).imp fun _ _ hedge => hedge.user
  intro edge edge' hedge
  simp only [Ident.sameRecord, r.hex_eq hedge.target, r.hex_eq hb]

theorem removeUser_akin (huser : r.user user user') :
    Method.Akin r.supply (List.Forall₂ r.OfEdges) Eq (removeUser user) (removeUser user') := by
  refine .bind (r.identOf huser) fun a a' ha => .bind .get fun edges edges' h => ?_
  have hkept : List.Forall₂ r.OfEdges (edges.filter fun edge => !edge.mentions a)
      (edges'.filter fun edge => !edge.mentions a') := by
    refine List.rel_filter ?_ h
    intro edge edge' hedge
    simp only [Edge.mentions, Ident.sameRecord, r.hex_eq hedge.user, r.hex_eq hedge.target,
      r.hex_eq ha]
  refine .bind (.set hkept) fun _ _ _ => .pure ?_
  rw [h.length_eq, hkept.length_eq]

end Edges

end Synchrony
