import Synchrony.Proofs.Society.Likeness

/-!
# Passwords stay hidden

Whoever sees what runs answer, how they fail, and what they leave of profiles and followers, learns
nothing about the passwords that accounts were opened with. This is said of two rows of calls that
differ in such passwords and in nothing else: everything but the passwords comes out the same
(`Engine.passwords_stay_hidden`).

Two things do depend on passwords. An account is not opened without one, so in both rows they have
to be present, or absent, alike. And to authenticate is to be told whether a password is right, so no
call of the rows does.

The statement is about results, failures and states. The trace of a call shows all arguments of it,
passwords included, and so do the events that an engine tells its observers.
-/

set_option autoImplicit false

namespace Synchrony

/-! ## Calls -/

/-- Calls that are the same, or that open accounts of which nothing differs but the password. -/
inductive SameButPassword : String × List Value → String × List Value → Prop
  | same {action : String} (args : List Value) (h : action ≠ "Account.authenticate") :
    SameButPassword (action, args) (action, args)
  | opening (username : Value) {password password' : Value}
    (h : password'.isTruthy = password.isTruthy) (rest : List Value) :
    SameButPassword ("Account.create", username :: password :: rest)
      ("Account.create", username :: password' :: rest)

/-! ## The resemblance -/

/-- Nothing may differ but passwords. -/
def Resemblance.passwords : Resemblance where
  supply := Eq
  ident := Eq
  user := Eq
  password p p' := p'.isTruthy = p.isTruthy
  hex_eq h := h ▸ rfl
  user_refl _ := rfl
  user_ident h := h ▸ rfl
  user_self h := .inl h.symm
  password_refl _ := rfl
  truthy_eq h := h
  identOf := by
    rintro S R value _ rfl
    exact .identOf (fun _ => rfl) (fun _ => .take fun _ _ h => h ▸ ⟨rfl, rfl⟩) value
  fresh := .take fun _ _ h => h ▸ ⟨rfl, rfl⟩
  now := .take fun _ _ h => h ▸ ⟨rfl, rfl⟩

theorem SameButPassword.calls {call call' : String × List Value} (h : SameButPassword call call') :
    Resemblance.passwords.Calls call call' := by
  cases h with
  | same args haction =>
    exact ⟨rfl, .users (.refl (fun _ => rfl) _ args) fun heq => absurd heq haction⟩
  | opening username hpassword rest => exact ⟨rfl, .opening username hpassword rest⟩

/-! ## What is left -/

/-- Societies that are the same but for the passwords in the accounts. -/
structure Society.SameButPasswords (s s' : Society) : Prop where
  accounts : Keyed.Alike (fun account account' =>
    account' = { account with password := account'.password }) s.accounts s'.accounts
  profiles_eq : s'.profiles = s.profiles
  edges_eq : s'.edges = s.edges
  supply_eq : s'.supply = s.supply

/-- Runs that return the same result or fail with the same failure, and leave societies that are the
same but for the passwords. -/
structure Run.SameButPasswords (run run' : Run Society History) : Prop where
  ending : run.ending.Akin (fun history history' => history'.result = history.result) Eq run'.ending
  state : run.state.SameButPasswords run'.state

namespace Resemblance

theorem passwords_shows {value value' : Value} (h : passwords.Shows value value') :
    value' = value := by
  cases h with
  | same => rfl
  | ident h =>
    cases h
    rfl
  | record h fields =>
    cases h
    rfl
  | idents h =>
    rw [List.eq_of_forall₂ h fun _ _ hid => Eq.symm hid]

theorem passwords_accounts {account account' : Account} (h : passwords.OfAccounts account account') :
    account' = { account with password := account'.password } := by
  rcases account with ⟨id, username, password, email, createdAt⟩
  rcases account' with ⟨id', username', password', email', createdAt'⟩
  obtain ⟨⟨⟩, ⟨⟩, -, ⟨⟩, ⟨⟩⟩ := h
  rfl

theorem passwords_profiles {profile profile' : Profile} (h : passwords.OfProfiles profile profile') :
    profile' = profile := by
  rcases profile with ⟨id, username, bio, image, followers⟩
  rcases profile' with ⟨id', username', bio', image', followers'⟩
  obtain ⟨⟨⟩, ⟨⟩, ⟨⟩, ⟨⟩, ⟨⟩⟩ := h
  rfl

theorem passwords_edges {edge edge' : Edge} (h : passwords.OfEdges edge edge') : edge' = edge := by
  rcases edge with ⟨user, target⟩
  rcases edge' with ⟨user', target'⟩
  obtain ⟨⟨⟩, ⟨⟩⟩ := h
  rfl

theorem passwords_societies {s s' : Society} (h : passwords.Societies s s') :
    s.SameButPasswords s' where
  accounts := h.accounts.mono fun _ _ => passwords_accounts
  profiles_eq := h.profiles.eq fun _ _ => passwords_profiles
  edges_eq := List.eq_of_forall₂ h.edges fun _ _ => passwords_edges
  supply_eq := Eq.symm h.supply

theorem passwords_runs {run run' : Run Society History}
    (h : run.Akin passwords.likeness (History.Akin passwords.Traces) run') :
    run.SameButPasswords run' where
  ending := h.ending.mono fun history history' hhistory => by
    obtain ⟨first, first', hfirst, hresult, hresult'⟩ := hhistory.first
    rw [hresult, hresult', passwords_shows hfirst.result.shows]
  state := passwords_societies h.state

end Resemblance

/-! ## Series -/

namespace Engine

/-- **Passwords flow into nothing that can be observed.** Let two rows of calls, none of which
authenticates, differ in nothing but the passwords of the accounts that they open, and let these be
present alike. From the empty society, and with the same supply, both come to the end of all their
runs. Run by run, the results are the same or the failures are, the profiles, the followers and the
supply are the same afterwards, and so are the accounts but for their passwords. -/
theorem passwords_stay_hidden {engine : Engine Society} (hengine : engine.IsBuiltIn)
    {calls calls' : List (String × List Value)} (hcalls : List.Forall₂ SameButPassword calls calls')
    (u : Supply) :
    ∃ runs runs', engine.Series { supply := u } calls runs ∧
      engine.Series { supply := u } calls' runs' ∧
      List.Forall₂ Run.SameButPasswords runs runs' := by
  have hstart : Resemblance.passwords.Societies { supply := u } { supply := u } :=
    ⟨.nil, .nil, .nil, rfl⟩
  obtain ⟨runs, runs', hruns, hruns', hakin⟩ := Resemblance.passwords.series_akin hengine
    (hcalls.imp fun _ _ => SameButPassword.calls) hstart
  exact ⟨runs, runs', hruns, hruns', hakin.imp fun _ _ => Resemblance.passwords_runs⟩

/-- Ann opens an account and looks at it, and somebody else asks for the same user name. -/
def annWatched (password another : String) : List (String × List Value) :=
  [("Account.create", [.text "ann", .text password, .text "ann@"]),
    ("Account.getById", [.text (Supply.hexText 1)]),
    ("Account.create", [.text "ann", .text another, .text "bob@"])]

theorem passwords_stay_hidden_watched :
    ∃ runs runs', (builtIn none).Series {} (annWatched "secret" "secret") runs ∧
      (builtIn none).Series {} (annWatched "rosebud" "12345") runs' ∧
      List.Forall₂ Run.SameButPasswords runs runs' := by
  have hcalls : List.Forall₂ SameButPassword (annWatched "secret" "secret")
      (annWatched "rosebud" "12345") :=
    .cons (.opening _ (by rfl) _) (.cons (.same _ (by decide)) (.cons (.opening _ (by rfl) _) .nil))
  exact passwords_stay_hidden (builtIn_isBuiltIn none) hcalls {}

end Engine

end Synchrony
