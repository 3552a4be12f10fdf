import Synchrony.Proofs.Concept.Likeness
import Synchrony.Proofs.Engine.OwnArguments
import Synchrony.Proofs.Engine.Splitting
import Synchrony.Proofs.Society.Reactions

/-!
# Societies side by side

Under the built-in rules, what is taken for alike stays alike: series of runs whose calls differ in
nothing but what a resemblance lets pass give results that do, fail in the same way, and leave
societies that are alike (`Resemblance.series_akin`). So much is common to all statements that
compare two series; they differ in the resemblance.

## 1. Calls

Two calls are alike if they are calls of one action, and their arguments are the same but for the
users among them and for the password of an account that is opened (`Resemblance.Arguments`). Which
arguments stand for users is a matter of the action (`userPlaces`). One action compares passwords,
and if these may differ, it is no call that can be compared.

## 2. Reactions

The rules pass users on and no passwords. Their triggers ask for nothing but the answer yes, and the
answers to those actions are the same on both sides. What a rule calls is fitted to its own
arguments again, each against itself, and there values that stand for users behave alike.
-/

set_option autoImplicit false

namespace Synchrony

/-! ## What calls may differ in -/

/-- How many of the arguments of an action stand for users. They come first. -/
def userPlaces : String → Nat
  | "Follower.follow" | "Follower.unfollow" | "Follower.isFollowing" => 2
  | "Account.getById" | "Account.update" | "Account.delete" | "Profile.create"
  | "Profile.getById" | "Profile.rename" | "Profile.adjustFollowers" | "Profile.delete"
  | "Follower.getFollowers" | "Follower.removeUser" => 1
  | _ => 0

/-- Arguments that are the same but for so many users in front. -/
inductive UsersAlike (U : Value → Value → Prop) : Nat → List Value → List Value → Prop
  | rest (args : List Value) : UsersAlike U 0 args args
  | nil (n : Nat) : UsersAlike U n [] []
  | cons {n : Nat} {user user' : Value} {args args' : List Value} (user_alike : U user user')
    (more : UsersAlike U n args args') : UsersAlike U (n + 1) (user :: args) (user' :: args')

namespace UsersAlike

variable {U : Value → Value → Prop} {n : Nat} {args args' : List Value}

theorem eq (h : UsersAlike U 0 args args') : args' = args := by
  cases h <;> rfl

theorem refl (hU : ∀ value, U value value) (n : Nat) (args : List Value) :
    UsersAlike U n args args := by
  induction n generalizing args with
  | zero => exact .rest args
  | succ n ih =>
    cases args with
    | nil => exact .nil _
    | cons user args => exact .cons (hU user) (ih args)

theorem length_eq (h : UsersAlike U n args args') : args'.length = args.length := by
  induction h with
  | rest args => rfl
  | nil n => rfl
  | cons _ _ ih => rw [List.length_cons, List.length_cons, ih]

/-- With one user in front. -/
theorem one (h : UsersAlike U 1 args args') : args = [] ∧ args' = [] ∨
    ∃ user user' rest, U user user' ∧ args = user :: rest ∧ args' = user' :: rest := by
  cases h with
  | nil => exact Or.inl ⟨rfl, rfl⟩
  | cons user_alike more => exact Or.inr ⟨_, _, _, user_alike, rfl, by rw [more.eq]⟩

/-- With two users in front. -/
theorem two (h : UsersAlike U 2 args args') : args = [] ∧ args' = [] ∨
    (∃ user user', args = [user] ∧ args' = [user']) ∨
    ∃ user user' target target' rest, U user user' ∧ U target target' ∧
      args = user :: target :: rest ∧ args' = user' :: target' :: rest := by
  cases h with
  | nil => exact Or.inl ⟨rfl, rfl⟩
  | cons user_alike more =>
    rcases more.one with ⟨rfl, rfl⟩ | ⟨target, target', rest, htarget, rfl, rfl⟩
    · exact Or.inr (Or.inl ⟨_, _, rfl, rfl⟩)
    · exact Or.inr (Or.inr ⟨_, _, _, _, _, user_alike, htarget, rfl, rfl⟩)

end UsersAlike

namespace Resemblance

variable (r : Resemblance)

/-- Arguments of an action that are alike. -/
inductive Arguments : String → List Value → List Value → Prop
  | users {action : String} {args args' : List Value}
    (users_alike : UsersAlike r.user (userPlaces action) args args')
    (comparable : action = "Account.authenticate" → ∀ {p p'}, r.password p p' → p' = p) :
    Arguments action args args'
  | opening (username : Value) {password password' : Value} (h : r.password password password')
    (rest : List Value) :
    Arguments "Account.create" (username :: password :: rest) (username :: password' :: rest)

/-- What the answers to an action have in common. An answer that a rule looks at is the same, or it
is the user whose account was opened. -/
structure Answers (action : String) (value value' : Value) : Prop where
  shows : r.Shows value value'
  opened : action = "Account.create" → r.user value value'
  same : action ∈ ["Account.update", "Account.delete", "Follower.follow", "Follower.unfollow"] →
    value' = value

structure Societies (s s' : Society) : Prop where
  accounts : Keyed.Alike r.OfAccounts s.accounts s'.accounts
  profiles : Keyed.Alike r.OfProfiles s.profiles s'.profiles
  edges : List.Forall₂ r.OfEdges s.edges s'.edges
  supply : r.supply s.supply s'.supply

structure Calls (call call' : String × List Value) : Prop where
  action_eq : call'.1 = call.1
  args : r.Arguments call.1 call.2 call'.2

structure Traces (trace trace' : Trace) : Prop where
  action_eq : trace'.action = trace.action
  args : r.Arguments trace.action trace.args trace'.args
  result : r.Answers trace.action trace.result trace'.result

/-- The traces of two calls of one action. -/
inductive Told (action : String) (args args' : List Value) : Trace → Trace → Prop
  | intro {value value' : Value} (h : r.Answers action value value') :
    Told action args args' ⟨action, args, value⟩ ⟨action, args', value'⟩

/-- The likeness of runs in two societies that is meant here. Failures are the same. -/
def likeness : Likeness Society :=
  ⟨r.Societies, r.Calls, Eq⟩

variable {r}

theorem Arguments.length_eq {action : String} {args args' : List Value}
    (h : r.Arguments action args args') : args'.length = args.length := by
  cases h with
  | users users_alike comparable => exact users_alike.length_eq
  | opening username h rest => rfl

/-- Whatever does not open an account and does not compare passwords has users for its only
difference. -/
theorem Arguments.users_alike {action : String} {args args' : List Value}
    (h : r.Arguments action args args') (hcreate : action ≠ "Account.create") :
    UsersAlike r.user (userPlaces action) args args' := by
  cases h with
  | users users_alike comparable => exact users_alike
  | opening username h rest => exact absurd rfl hcreate

theorem Arguments.password_eq {action : String} {args args' : List Value}
    (h : r.Arguments action args args') (haction : action = "Account.authenticate") {p p' : Value}
    (hp : r.password p p') : p' = p := by
  cases h with
  | users users_alike comparable => exact comparable haction hp
  | opening username h rest => exact absurd haction (by decide)

/-- The arguments of an action that opens an account have the password for their only difference. -/
theorem Arguments.opening_cases {args args' : List Value}
    (h : r.Arguments "Account.create" args args') :
    args.length < 2 ∧ args' = args ∨ ∃ username password password' rest,
      r.password password password' ∧ args = username :: password :: rest ∧
        args' = username :: password' :: rest := by
  cases h with
  | opening username h rest => exact Or.inr ⟨username, _, _, rest, h, rfl, rfl⟩
  | users users_alike comparable =>
    have hzero : UsersAlike r.user 0 args args' := users_alike
    obtain rfl := hzero.eq
    rcases args' with _ | ⟨username, _ | ⟨password, rest⟩⟩
    · exact Or.inl ⟨by decide, rfl⟩
    · exact Or.inl ⟨by simp, rfl⟩
    · exact Or.inr ⟨username, password, password, rest, r.password_refl password, rfl, rfl⟩

/-- An answer that no rule looks at. -/
theorem Shows.answers {value value' : Value} (h : r.Shows value value') {action : String}
    (hcreate : action ≠ "Account.create") (hsame : action ∉
      ["Account.update", "Account.delete", "Follower.follow", "Follower.unfollow"]) :
    r.Answers action value value' :=
  ⟨h, fun heq => absurd heq hcreate, fun hmem => absurd hmem hsame⟩

/-- An answer that is the same. -/
theorem Answers.refl (action : String) (value : Value) : r.Answers action value value :=
  ⟨.same value, fun _ => r.user_refl value, fun _ => rfl⟩

end Resemblance

/-! ## The methods -/

open Resemblance

variable {r : Resemblance}

theorem Accounts.methods_akin : ∀ method ∈ methods, ∀ args args',
    r.Arguments ("Account." ++ method.1) args args' →
    Method.Akin r.supply (Keyed.Alike r.OfAccounts) (r.Answers ("Account." ++ method.1))
      (method.2 args) (method.2 args') := by
  intro method hmem args args' hargs
  simp only [methods, List.mem_cons, List.not_mem_nil, or_false] at hmem
  rcases hmem with rfl | rfl | rfl | rfl | rfl | rfl
  case inl =>
    have hopened {id id' : Ident} (h : r.ident id id') :
        r.Answers "Account.create" (.ident id) (.ident id') :=
      ⟨.ident h, fun _ => r.user_ident h, fun hmem => absurd hmem (by decide)⟩
    have hargs : r.Arguments "Account.create" args args' := hargs
    rcases hargs.opening_cases with ⟨hlength, rfl⟩ | ⟨username, p, p', rest, hp, rfl, rfl⟩
    · rcases args' with _ | ⟨username, _ | ⟨password, rest⟩⟩
      · exact .wrongArity _ _ rfl
      · exact .wrongArity _ _ rfl
      · exact absurd hlength (by simp)
    · rcases rest with _ | ⟨email, _ | ⟨more, rest⟩⟩
      · exact .wrongArity _ _ rfl
      · exact .map (create_akin hp username email) fun _ _ => hopened
      · exact .wrongArity _ _ rfl
  case inr.inl =>
    have hzero : UsersAlike r.user 0 args args' := hargs.users_alike (by decide)
    obtain rfl := hzero.eq
    dsimp only
    split
    · exact .map (authenticate_akin (hargs.password_eq rfl) _ _) fun _ _ h =>
        (Shows.ident h).answers (by decide) (by decide)
    · exact .fail _
  case inr.inr.inl =>
    have husers : UsersAlike r.user 1 args args' := hargs.users_alike (by decide)
    rcases husers.one with ⟨rfl, rfl⟩ | ⟨user, user', rest, huser, rfl, rfl⟩
    · exact .wrongArity _ _ rfl
    · rcases rest with _ | ⟨more, rest⟩
      · exact (getById_akin huser).mono fun _ _ h => h.answers (by decide) (by decide)
      · exact .wrongArity _ _ rfl
  case inr.inr.inr.inl =>
    have hzero : UsersAlike r.user 0 args args' := hargs.users_alike (by decide)
    obtain rfl := hzero.eq
    dsimp only
    split
    · exact .map (getByUsername_akin _) fun _ _ h =>
        (Shows.ident h).answers (by decide) (by decide)
    · exact .fail _
  case inr.inr.inr.inr.inl =>
    have husers : UsersAlike r.user 1 args args' := hargs.users_alike (by decide)
    rcases husers.one with ⟨rfl, rfl⟩ | ⟨user, user', rest, huser, rfl, rfl⟩
    · exact .wrongArity _ _ rfl
    · rcases rest with _ | ⟨username, _ | ⟨more, rest⟩⟩
      · exact .wrongArity _ _ rfl
      · exact .map (update_akin huser username) fun _ _ h => h ▸ .refl _ _
      · exact .wrongArity _ _ rfl
  case inr.inr.inr.inr.inr =>
    have husers : UsersAlike r.user 1 args args' := hargs.users_alike (by decide)
    rcases husers.one with ⟨rfl, rfl⟩ | ⟨user, user', rest, huser, rfl, rfl⟩
    · exact .wrongArity _ _ rfl
    · rcases rest with _ | ⟨more, rest⟩
      · exact .map (delete_akin huser) fun _ _ h => h ▸ .refl _ _
      · exact .wrongArity _ _ rfl

theorem Profiles.methods_akin : ∀ method ∈ methods, ∀ args args',
    r.Arguments ("Profile." ++ method.1) args args' →
    Method.Akin r.supply (Keyed.Alike r.OfProfiles) (r.Answers ("Profile." ++ method.1))
      (method.2 args) (method.2 args') := by
  intro method hmem args args' hargs
  simp only [methods, List.mem_cons, List.not_mem_nil, or_false] at hmem
  rcases hmem with rfl | rfl | rfl | rfl | rfl | rfl
  case inl =>
    have husers : UsersAlike r.user 1 args args' := hargs.users_alike (by decide)
    rcases husers.one with ⟨rfl, rfl⟩ | ⟨user, user', rest, huser, rfl, rfl⟩
    · exact .wrongArity _ _ rfl
    · rcases rest with _ | ⟨username, _ | ⟨bio, _ | ⟨image, _ | ⟨more, rest⟩⟩⟩⟩
      case cons.cons.cons.nil =>
        exact .map (create_akin huser username bio image) fun _ _ h =>
          (shows_toValue h).answers (by decide) (by decide)
      all_goals exact .wrongArity _ _ rfl
  case inr.inl =>
    have husers : UsersAlike r.user 1 args args' := hargs.users_alike (by decide)
    rcases husers.one with ⟨rfl, rfl⟩ | ⟨user, user', rest, huser, rfl, rfl⟩
    · exact .wrongArity _ _ rfl
    · rcases rest with _ | ⟨more, rest⟩
      · exact .map (getById_akin huser) fun _ _ h =>
          (shows_toValue h).answers (by decide) (by decide)
      · exact .wrongArity _ _ rfl
  case inr.inr.inl =>
    have hzero : UsersAlike r.user 0 args args' := hargs.users_alike (by decide)
    obtain rfl := hzero.eq
    dsimp only
    split
    · exact .map (getByUsername_akin _) fun _ _ h =>
        (shows_toValue h).answers (by decide) (by decide)
    · exact .fail _
  case inr.inr.inr.inl =>
    have husers : UsersAlike r.user 1 args args' := hargs.users_alike (by decide)
    rcases husers.one with ⟨rfl, rfl⟩ | ⟨user, user', rest, huser, rfl, rfl⟩
    · exact .wrongArity _ _ rfl
    · rcases rest with _ | ⟨username, _ | ⟨more, rest⟩⟩
      · exact .wrongArity _ _ rfl
      · exact .map (rename_akin huser username) fun _ _ h =>
          (shows_toValue h).answers (by decide) (by decide)
      · exact .wrongArity _ _ rfl
  case inr.inr.inr.inr.inl =>
    have husers : UsersAlike r.user 1 args args' := hargs.users_alike (by decide)
    rcases husers.one with ⟨rfl, rfl⟩ | ⟨user, user', rest, huser, rfl, rfl⟩
    · exact .wrongArity _ _ rfl
    · rcases rest with _ | ⟨delta, _ | ⟨more, rest⟩⟩
      · exact .wrongArity _ _ rfl
      · exact .map (adjustFollowers_akin huser delta) fun _ _ h => h ▸ .refl _ _
      · exact .wrongArity _ _ rfl
  case inr.inr.inr.inr.inr =>
    have husers : UsersAlike r.user 1 args args' := hargs.users_alike (by decide)
    rcases husers.one with ⟨rfl, rfl⟩ | ⟨user, user', rest, huser, rfl, rfl⟩
    · exact .wrongArity _ _ rfl
    · rcases rest with _ | ⟨more, rest⟩
      · exact .map (delete_akin huser) fun _ _ h => h ▸ .refl _ _
      · exact .wrongArity _ _ rfl

theorem Edges.methods_akin : ∀ method ∈ methods, ∀ args args',
    r.Arguments ("Follower." ++ method.1) args args' →
    Method.Akin r.supply (List.Forall₂ r.OfEdges) (r.Answers ("Follower." ++ method.1))
      (method.2 args) (method.2 args') := by
  intro method hmem args args' hargs
  simp only [methods, List.mem_cons, List.not_mem_nil, or_false] at hmem
  rcases hmem with rfl | rfl | rfl | rfl | rfl
  case inl =>
    have husers : UsersAlike r.user 2 args args' := hargs.users_alike (by decide)
    rcases husers.two with ⟨rfl, rfl⟩ | ⟨user, user', rfl, rfl⟩ |
      ⟨user, user', target, target', rest, huser, htarget, rfl, rfl⟩
    · exact .wrongArity _ _ rfl
    · exact .wrongArity _ _ rfl
    · rcases rest with _ | ⟨more, rest⟩
      · exact .map (follow_akin huser htarget) fun _ _ h => h ▸ .refl _ _
      · exact .wrongArity _ _ rfl
  case inr.inl =>
    have husers : UsersAlike r.user 2 args args' := hargs.users_alike (by decide)
    rcases husers.two with ⟨rfl, rfl⟩ | ⟨user, user', rfl, rfl⟩ |
      ⟨user, user', target, target', rest, huser, htarget, rfl, rfl⟩
    · exact .wrongArity _ _ rfl
    · exact .wrongArity _ _ rfl
    · rcases rest with _ | ⟨more, rest⟩
      · exact .map (unfollow_akin huser htarget) fun _ _ h => h ▸ .refl _ _
      · exact .wrongArity _ _ rfl
  case inr.inr.inl =>
    have husers : UsersAlike r.user 2 args args' := hargs.users_alike (by decide)
    rcases husers.two with ⟨rfl, rfl⟩ | ⟨user, user', rfl, rfl⟩ |
      ⟨user, user', target, target', rest, huser, htarget, rfl, rfl⟩
    · exact .wrongArity _ _ rfl
    · exact .wrongArity _ _ rfl
    · rcases rest with _ | ⟨more, rest⟩
      · exact .map (isFollowing_akin huser htarget) fun _ _ h => h ▸ .refl _ _
      · exact .wrongArity _ _ rfl
  case inr.inr.inr.inl =>
    have husers : UsersAlike r.user 1 args args' := hargs.users_alike (by decide)
    rcases husers.one with ⟨rfl, rfl⟩ | ⟨user, user', rest, huser, rfl, rfl⟩
    · exact .wrongArity _ _ rfl
    · rcases rest with _ | ⟨more, rest⟩
      · exact .map (getFollowers_akin huser) fun _ _ h =>
          (Shows.idents h).answers (by decide) (by decide)
      · exact .wrongArity _ _ rfl
  case inr.inr.inr.inr =>
    have husers : UsersAlike r.user 1 args args' := hargs.users_alike (by decide)
    rcases husers.one with ⟨rfl, rfl⟩ | ⟨user, user', rest, huser, rfl, rfl⟩
    · exact .wrongArity _ _ rfl
    · rcases rest with _ | ⟨more, rest⟩
      · exact .map (removeUser_akin huser) fun _ _ h => h ▸ .refl _ _
      · exact .wrongArity _ _ rfl

theorem Method.answers_akin_of_args_eq {action : String} {args args' : List Value}
    {body : List Value → Method Unit Value} (hargs : args' = args)
    (hbody : Method.Akin r.supply (fun _ _ => True) Eq (body args) (body args)) :
    Method.Akin r.supply (fun _ _ => True) (r.Answers action) (body args) (body args') := by
  subst hargs
  exact hbody.mono fun _ _ h => h ▸ .refl _ _

/-- Putting messages together shows no more than it is given. -/
theorem Merge.methods_akin : ∀ method ∈ methods, ∀ args args',
    r.Arguments ("Merge." ++ method.1) args args' →
    Method.Akin r.supply (fun _ _ => True) (r.Answers ("Merge." ++ method.1))
      (method.2 args) (method.2 args') := by
  intro method hmem args args' hargs
  obtain rfl := List.mem_singleton.mp hmem
  have hzero : UsersAlike r.user 0 args args' := hargs.users_alike (by decide)
  refine Method.answers_akin_of_args_eq hzero.eq ?_
  dsimp only
  split
  · exact .liftM _
  · exact .fail _

theorem Mapper.methods_akin : ∀ method ∈ methods, ∀ args args',
    r.Arguments ("Mapper." ++ method.1) args args' →
    Method.Akin r.supply (fun _ _ => True) (r.Answers ("Mapper." ++ method.1))
      (method.2 args) (method.2 args') := by
  intro method hmem args args' hargs
  obtain rfl := List.mem_singleton.mp hmem
  have hzero : UsersAlike r.user 0 args args' := hargs.users_alike (by decide)
  refine Method.answers_akin_of_args_eq hzero.eq ?_
  dsimp only
  split
  · exact .liftM _
  · exact .fail _

/-! ## The calls -/

namespace Engine

variable {cap : Option Int} {action : String} {args args' : List Value}

/-- Where methods are akin, the calls are: each changes its own store. -/
theorem call_akin_of_method {S : Type} {R : S → S → Prop} (store : Part Society S)
    {body : List Value → Method S Value}
    (hentry : Keyed.get? Society.actions action =
      some (Method.action store Society.supplyPart body))
    (hput : ∀ s, store.set (store.get s) s = s) (hcareful : ∀ args, (body args).Careful)
    (hget : ∀ s s', r.Societies s s' → R (store.get s) (store.get s'))
    (hset : ∀ s s' t t' u u', r.Societies s s' → R t t' → r.supply u u' →
      r.Societies { store.set t s with supply := u } { store.set t' s' with supply := u' })
    (hbody : Method.Akin r.supply R (r.Answers action) (body args) (body args'))
    (hargs : r.Arguments action args args') :
    Act.Akin r.likeness (r.Told action args args') ((builtIn cap).call action args)
      ((builtIn cap).call action args') := by
  intro s s' hs
  obtain ⟨houtcome, hsupply⟩ := hbody _ _ (hget s s' hs) _ _ hs.supply
  have hcalls : List.Forall₂ r.Calls [(action, args)] [(action, args')] :=
    .cons ⟨rfl, hargs⟩ .nil
  rcases hon : (body args).on (store.get s) s.supply with ⟨outcome, u⟩
  rcases hon' : (body args').on (store.get s') s'.supply with ⟨outcome', u'⟩
  rw [hon, hon'] at houtcome hsupply
  cases houtcome with
  | @ok answer answer' hanswer =>
    rw [call_of_method store hentry hon, call_of_method store hentry hon']
    exact ⟨.returned (.intro hanswer.1), hset _ _ _ _ _ _ hs hanswer.2 hsupply, hcalls⟩
  | error he =>
    cases he
    rw [call_of_method_failed store hentry (hput s) (hcareful args) hon,
      call_of_method_failed store hentry (hput s') (hcareful args') hon']
    exact ⟨.failed rfl, ⟨hs.accounts, hs.profiles, hs.edges, hsupply⟩, hcalls⟩

/-- **Calls that are alike do the same to societies that are alike.** -/
theorem call_akin (cap : Option Int) (hargs : r.Arguments action args args') :
    Act.Akin r.likeness (r.Told action args args') ((builtIn cap).call action args)
      ((builtIn cap).call action args') := by
  rcases hentry : (builtIn cap).actions.get? action with _ | entry
  · intro s s' hs
    rw [call_unknown _ _ _ hentry, call_unknown _ _ _ hentry]
    exact ⟨.failed rfl, hs, .nil⟩
  · cases Society.registered_of_mem (Keyed.mem_of_get? hentry) with
    | account hmethod =>
      exact call_akin_of_method _ hentry (fun _ => rfl) (Accounts.methods_careful _ hmethod)
        (fun _ _ hs => hs.accounts)
        (fun _ _ _ _ _ _ hs h hu => ⟨h, hs.profiles, hs.edges, hu⟩)
        (Accounts.methods_akin _ hmethod args args' hargs) hargs
    | profile hmethod =>
      exact call_akin_of_method _ hentry (fun _ => rfl) (Profiles.methods_careful _ hmethod)
        (fun _ _ hs => hs.profiles)
        (fun _ _ _ _ _ _ hs h hu => ⟨hs.accounts, h, hs.edges, hu⟩)
        (Profiles.methods_akin _ hmethod args args' hargs) hargs
    | follower hmethod =>
      exact call_akin_of_method _ hentry (fun _ => rfl) (Edges.methods_careful _ hmethod)
        (fun _ _ hs => hs.edges)
        (fun _ _ _ _ _ _ hs h hu => ⟨hs.accounts, hs.profiles, h, hu⟩)
        (Edges.methods_akin _ hmethod args args' hargs) hargs
    | merge hmethod =>
      have hreads := Merge.methods_read _ hmethod
      exact call_akin_of_method _ hentry (fun _ => rfl) (fun args => (hreads args).keeps.careful)
        (fun _ _ _ => trivial)
        (fun _ _ _ _ _ _ hs _ hu => ⟨hs.accounts, hs.profiles, hs.edges, hu⟩)
        (Merge.methods_akin _ hmethod args args' hargs) hargs
    | mapper hmethod =>
      have hreads := Mapper.methods_read _ hmethod
      exact call_akin_of_method _ hentry (fun _ => rfl) (fun args => (hreads args).keeps.careful)
        (fun _ _ _ => trivial)
        (fun _ _ _ _ _ _ hs _ hu => ⟨hs.accounts, hs.profiles, hs.edges, hu⟩)
        (Mapper.methods_akin _ hmethod args args' hargs) hargs

end Engine

/-! ## Lines and their own arguments -/

/-- Values that are the same, or each agree with themselves. -/
def Value.SelfAlike (value value' : Value) : Prop :=
  value' = value ∨ value.same value = true ∧ value'.same value' = true

theorem UsersAlike.selfAlike {n : Nat} {args args' : List Value}
    (h : UsersAlike r.user n args args') : List.Forall₂ Value.SelfAlike args args' := by
  induction h with
  | rest args => exact List.forall₂_same.mpr fun _ _ => Or.inl rfl
  | nil n => exact .nil
  | cons user_alike _ ih => exact .cons (r.user_self user_alike) ih

theorem Line.numberedPositions_alike {R : Value → Value → Prop} (place : String)
    {values values' : List Value} (patterns : List Pattern) (h : List.Forall₂ R values values') :
    List.Forall₂ (fun p p' => p'.place = p.place ∧ R p.actual p'.actual)
      (numberedPositions place values patterns) (numberedPositions place values' patterns) := by
  rw [numberedPositions, numberedPositions, List.forall₂_map_left_iff, List.forall₂_map_right_iff]
  -- The numbers do not start at zero behind the first position.
  generalize 0 = start
  induction h generalizing patterns start with
  | nil => exact .nil
  | cons hvalue _ ih =>
    cases patterns with
    | nil => exact .nil
    | cons pattern patterns =>
      rw [List.zip_cons_cons, List.zip_cons_cons, List.zipIdx_cons, List.zipIdx_cons]
      exact .cons ⟨rfl, hvalue⟩ (ih patterns (start + 1))

namespace Bindings

variable {bindings bindings' : Bindings}

/-- Positions that are each fitted to their own value bind nothing, and fail in the same way if the
values behave alike. -/
theorem fitAll_own_alike {positions positions' : List Position}
    (h : List.Forall₂ (fun p p' => p'.place = p.place ∧ p.actual.SelfAlike p'.actual)
      positions positions')
    (hown : ∀ p ∈ positions, bindings.argument p.pattern = .ok p.actual)
    (hown' : ∀ p ∈ positions', bindings'.argument p.pattern = .ok p.actual) :
    ∃ failure, bindings.fitAll positions = (failure, bindings) ∧
      bindings'.fitAll positions' = (failure, bindings') := by
  induction h with
  | nil => exact ⟨none, rfl, rfl⟩
  | @cons p p' more more' hposition _ ih =>
    obtain ⟨hplace, hvalue⟩ := hposition
    obtain ⟨hfirst, hmore⟩ := List.forall_mem_cons.mp hown
    obtain ⟨hfirst', hmore'⟩ := List.forall_mem_cons.mp hown'
    obtain ⟨failure, hfit, hfit'⟩ := ih hmore hmore'
    rw [fitAll, fitAll, fit_own hfirst, fit_own hfirst', require, require, hplace]
    rcases hvalue with heq | ⟨hself, hself'⟩
    · rw [heq]
      cases p.actual.same p.actual with
      | true => exact ⟨failure, hfit, hfit'⟩
      | false => exact ⟨_, rfl, rfl⟩
    · rw [hself, hself']
      exact ⟨failure, hfit, hfit'⟩

end Bindings

namespace Engine

variable {cap : Option Int} {line : Line} {bindings bindings' : Bindings}
  {B : Bindings → Bindings → Prop} {trace trace' : Trace}

/-- The traces of a line that asks nothing of its result fit it in the same way on both sides. -/
theorem fitted_own_akin (hreturns : line.returns = none) (hB : B bindings bindings')
    (hargs : bindings.arguments line = .ok trace.args)
    (hargs' : bindings'.arguments line = .ok trace'.args)
    (hself : List.Forall₂ Value.SelfAlike trace.args trace'.args)
    (haction : trace.action = line.action) (haction' : trace'.action = line.action) :
    Akin B Eq (fitted bindings trace line) (fitted bindings' trace' line) := by
  obtain ⟨hlength, -, hown⟩ := Bindings.argumentPositions_own hargs
  obtain ⟨hlength', -, hown'⟩ := Bindings.argumentPositions_own hargs'
  obtain ⟨failure, hfit, hfit'⟩ := Bindings.fitAll_own_alike
    (Line.numberedPositions_alike _ line.args hself) hown hown'
  rw [← Line.argumentPositions] at hfit hfit'
  rw [fitted, fitted]
  cases failure with
  | none =>
    rw [Bindings.fitTrace_of_arguments haction hlength hfit,
      Bindings.fitTrace_of_arguments haction' hlength' hfit',
      Bindings.fitResult_of_returns_none hreturns, Bindings.fitResult_of_returns_none hreturns]
    exact .ok hB
  | some e =>
    simp only [Bindings.fitTrace, haction, haction', hlength, hlength', ne_eq, not_true_eq_false,
      if_false, hfit, hfit']
    exact .error rfl

/-- **A line that passes users on and asks nothing of its result comes to the same.** -/
theorem mirrors_own (cap : Option Int) (hreturns : line.returns = none)
    (hline : line.action ≠ "Account.authenticate")
    (hB : ∀ bindings bindings', B bindings bindings' → ∃ args args',
      bindings.arguments line = .ok args ∧ bindings'.arguments line = .ok args' ∧
        UsersAlike r.user (userPlaces line.action) args args') :
    Mirrors r.likeness (builtIn cap) (builtIn cap) r.Traces B line line where
  action_eq := rfl
  perform bindings bindings' h := by
    obtain ⟨args, args', hargs, hargs', husers⟩ := hB bindings bindings' h
    have harguments : r.Arguments line.action args args' :=
      .users husers fun heq => absurd heq hline
    have hworkedOut : Akin (fun a a' => a = args ∧ a' = args') Eq (argumentsOf line bindings)
        (argumentsOf line bindings') := by
      rw [argumentsOf, argumentsOf, hargs, hargs']
      exact .ok ⟨rfl, rfl⟩
    have hcall (a a' : List Value) (heq : a = args ∧ a' = args') :
        Act.Akin r.likeness (r.Told line.action a a') ((builtIn cap).call line.action a)
          ((builtIn cap).call line.action a') := by
      rw [heq.1, heq.2]
      exact call_akin cap harguments
    refine perform_akin hworkedOut hcall ?_
    rintro _ _ _ _ ⟨rfl, rfl⟩ ⟨hanswer⟩
    exact ⟨⟨rfl, harguments, hanswer⟩,
      fitted_own_akin hreturns h hargs hargs' husers.selfAlike rfl rfl⟩

/-! ## The reactions -/

section Attempts

variable {σ : Type} {L : Likeness σ} {T : Trace → Trace → Prop} {engine engine' : Engine σ}
  {rule : Rule}

/-- A rule that fits neither of two traces does nothing, for whatever reason. -/
theorem applyRule_akin_of_misfit {e e' : Failure} {after after' : Bindings}
    (hfit : Bindings.empty.fitTrace trace rule.trigger = (some e, after))
    (hfit' : Bindings.empty.fitTrace trace' rule.trigger = (some e', after')) :
    Act.Akin L (List.Forall₂ T) (engine.applyRule rule trace) (engine'.applyRule rule trace') := by
  intro s s' hs
  rw [applyRule_of_misfit hfit, applyRule_of_misfit hfit']
  exact ⟨.returned .nil, hs, .nil⟩

theorem applyRule_akin_of_length {count : Nat} (haction : trace.action = rule.trigger.action)
    (haction' : trace'.action = rule.trigger.action) (hcount : rule.trigger.args.length = count)
    (hlength : trace.args.length ≠ count) (hlength' : trace'.args.length = trace.args.length) :
    Act.Akin L (List.Forall₂ T) (engine.applyRule rule trace) (engine'.applyRule rule trace') := by
  have hmisfit {trace : Trace} (haction : trace.action = rule.trigger.action)
      (hlength : trace.args.length ≠ rule.trigger.args.length) :
      ∃ e, Bindings.empty.fitTrace trace rule.trigger = (some e, .empty) := by
    simp [Bindings.fitTrace, haction, hlength]
  obtain ⟨e, hfit⟩ := hmisfit haction (hcount ▸ hlength)
  obtain ⟨e', hfit'⟩ := hmisfit haction' (by rw [hlength', hcount]; exact hlength)
  exact applyRule_akin_of_misfit hfit hfit'

/-- A rule without guards that fits both traces does what its consequences do from there. -/
theorem applyRule_akin_of_fit (hL : L.Coherent) (hguards : rule.guards = [])
    (hfit : Bindings.empty.fitTrace trace rule.trigger = (none, bindings))
    (hfit' : Bindings.empty.fitTrace trace' rule.trigger = (none, bindings'))
    (hlines : List.Forall₂
      (Mirrors L engine engine' T fun c c' => c = bindings ∧ c' = bindings')
      rule.consequences rule.consequences) :
    Act.Akin L (List.Forall₂ T) (engine.applyRule rule trace) (engine'.applyRule rule trace') := by
  refine applyRule_akin hL rfl (guard_akin ?_ (hguards ▸ .nil)) hlines
  rw [fitted, fitted, hfit, hfit']
  exact .ok ⟨rfl, rfl⟩

end Attempts

theorem coherent_likeness (r : Resemblance) : r.likeness.Coherent :=
  Likeness.coherent_of_eq rfl

open BuiltIn

/-- The password is bound by the trigger and passed on by no line. -/
theorem applyRule_create_akin (cap : Option Int) (h : r.Traces trace trace')
    (haction : trace.action = "Account.create") :
    Act.Akin r.likeness (List.Forall₂ r.Traces) ((builtIn cap).applyRule createRule trace)
      ((builtIn cap).applyRule createRule trace') := by
  obtain ⟨action, args, value⟩ := trace
  obtain ⟨action', args', value'⟩ := trace'
  obtain ⟨haction', hargs, hanswer⟩ := h
  dsimp only at haction haction' hargs hanswer
  subst haction haction'
  by_cases hlength : args.length = 3
  · rcases hargs.opening_cases with ⟨hshort, -⟩ | ⟨username, p, p', rest, -, rfl, rfl⟩
    · omega
    · obtain ⟨email, rfl⟩ := List.length_eq_one_iff.mp (by simpa using hlength)
      refine applyRule_akin_of_fit (coherent_likeness r) rfl rfl rfl (.cons ?_ .nil)
      refine mirrors_own cap rfl (by decide) ?_
      rintro _ _ ⟨rfl, rfl⟩
      exact ⟨_, _, rfl, rfl, .cons (hanswer.opened rfl) (.rest _)⟩
  · exact applyRule_akin_of_length rfl rfl rfl hlength hargs.length_eq

theorem applyRule_follow_akin (cap : Option Int) {action : String} (scope place : Nat) (delta : Int)
    (h : r.Traces trace trace') (haction : trace.action = action)
    (hfollow : action = "Follower.follow" ∨ action = "Follower.unfollow") :
    Act.Akin r.likeness (List.Forall₂ r.Traces)
      ((builtIn cap).applyRule (followRule action scope delta place) trace)
      ((builtIn cap).applyRule (followRule action scope delta place) trace') := by
  obtain ⟨action', args, value⟩ := trace
  obtain ⟨action'', args', value'⟩ := trace'
  obtain ⟨haction', hargs, hanswer⟩ := h
  dsimp only at haction haction' hargs hanswer
  subst haction haction'
  obtain rfl : value' = value := hanswer.same (by rcases hfollow with rfl | rfl <;> decide)
  have husers : UsersAlike r.user 2 args args' := by
    rcases hfollow with rfl | rfl
    · exact hargs.users_alike (by decide)
    · exact hargs.users_alike (by decide)
  by_cases hlength : args.length = 2
  · rcases husers.two with ⟨rfl, rfl⟩ | ⟨user, user', rfl, rfl⟩ |
      ⟨user, user', target, target', rest, huser, htarget, rfl, rfl⟩
    · cases hlength
    · cases hlength
    · obtain rfl : rest = [] := by simpa using hlength
      have hne : (⟨"user", scope⟩ : Variable) ≠ ⟨"target", scope⟩ := by simp
      have hfit := fit_yes_two action'' hne user target value'
      have hfit' := fit_yes_two action'' hne user' target' value'
      cases hyes : value'.same (.bool true) with
      | false =>
        rw [hyes] at hfit hfit'
        exact applyRule_akin_of_misfit hfit hfit'
      | true =>
        rw [hyes] at hfit hfit'
        refine applyRule_akin_of_fit (coherent_likeness r) rfl hfit hfit' (.cons ?_ .nil)
        refine mirrors_own cap rfl (by simp) ?_
        rintro _ _ ⟨rfl, rfl⟩
        exact ⟨_, _, arguments_adjust user target, arguments_adjust user' target',
          .cons htarget (.rest _)⟩
  · exact applyRule_akin_of_length rfl rfl rfl hlength hargs.length_eq

/-- Both consequences pass on the user alone. -/
theorem applyRule_delete_akin (cap : Option Int) (h : r.Traces trace trace')
    (haction : trace.action = "Account.delete") :
    Act.Akin r.likeness (List.Forall₂ r.Traces) ((builtIn cap).applyRule deleteRule trace)
      ((builtIn cap).applyRule deleteRule trace') := by
  obtain ⟨action, args, value⟩ := trace
  obtain ⟨action', args', value'⟩ := trace'
  obtain ⟨haction', hargs, hanswer⟩ := h
  dsimp only at haction haction' hargs hanswer
  subst haction haction'
  obtain rfl : value' = value := hanswer.same (by decide)
  have husers : UsersAlike r.user 1 args args' := hargs.users_alike (by decide)
  by_cases hlength : args.length = 1
  · rcases husers.one with ⟨rfl, rfl⟩ | ⟨user, user', rest, huser, rfl, rfl⟩
    · cases hlength
    · obtain rfl : rest = [] := by simpa using hlength
      have hfit := fit_yes_one "Account.delete" ⟨"user", 4⟩ user value'
      have hfit' := fit_yes_one "Account.delete" ⟨"user", 4⟩ user' value'
      cases hyes : value'.same (.bool true) with
      | false =>
        rw [hyes] at hfit hfit'
        exact applyRule_akin_of_misfit hfit hfit'
      | true =>
        rw [hyes] at hfit hfit'
        refine applyRule_akin_of_fit (coherent_likeness r) rfl hfit hfit'
          (.cons (mirrors_own cap rfl (by decide) ?_)
            (.cons (mirrors_own cap rfl (by decide) ?_) .nil))
        · rintro _ _ ⟨rfl, rfl⟩
          exact ⟨[user], [user'], rfl, rfl, .cons huser (.rest [])⟩
        · rintro _ _ ⟨rfl, rfl⟩
          exact ⟨[user], [user'], rfl, rfl, .cons huser (.rest [])⟩
  · exact applyRule_akin_of_length rfl rfl rfl hlength hargs.length_eq

/-- Bindings behind the guard, each with some profile. -/
def GuardedAlike (user user' username : Value) (bindings bindings' : Bindings) : Prop :=
  ∃ profile profile', bindings = guardedBindings user username profile ∧
    bindings' = guardedBindings user' username profile'

theorem fitted_profileLine (user username profile : Value) :
    fitted (updateBindings user username) ⟨"Profile.getById", [user], profile⟩ profileLine =
      if user.same user then .ok (guardedBindings user username profile)
      else .error (Bindings.misfit ("Profile.getById argument " ++ Decimal.natText 0) user user) := by
  rw [fitted, fit_profileLine]
  cases user.same user <;> rfl

theorem perform_profileLine_akin (cap : Option Int) {user user' : Value} (username : Value)
    (huser : r.user user user') :
    Act.Akin r.likeness
      (fun found found' => GuardedAlike user user' username found.1 found'.1 ∧
        r.Traces found.2 found'.2)
      ((builtIn cap).perform profileLine (updateBindings user username))
      ((builtIn cap).perform profileLine (updateBindings user' username)) := by
  have hargs : r.Arguments "Profile.getById" [user] [user'] :=
    .users (.cons huser (.rest [])) fun heq => absurd heq (by decide)
  have hworkedOut : Akin (fun a a' => a = [user] ∧ a' = [user']) Eq
      (argumentsOf profileLine (updateBindings user username))
      (argumentsOf profileLine (updateBindings user' username)) := .ok ⟨rfl, rfl⟩
  have hcall (a a' : List Value) (heq : a = [user] ∧ a' = [user']) :
      Act.Akin r.likeness (r.Told "Profile.getById" a a')
        ((builtIn cap).call profileLine.action a) ((builtIn cap).call profileLine.action a') := by
    rw [heq.1, heq.2]
    exact call_akin cap hargs
  refine perform_akin hworkedOut hcall ?_
  rintro _ _ _ _ ⟨rfl, rfl⟩ ⟨hanswer⟩
  refine ⟨⟨rfl, hargs, hanswer⟩, ?_⟩
  rw [fitted_profileLine, fitted_profileLine]
  rcases r.user_self huser with rfl | ⟨hself, hself'⟩
  · cases user'.same user' with
    | true => exact .ok ⟨_, _, rfl, rfl⟩
    | false => exact .error rfl
  · rw [hself, hself']
    exact .ok ⟨_, _, rfl, rfl⟩

/-- The guard finds a profile in both societies or in none. -/
theorem guard_update_akin (cap : Option Int) {user user' : Value} (username : Value)
    (huser : r.user user user')
    (hfit : Bindings.empty.fitTrace trace updateRule.trigger =
      (none, updateBindings user username))
    (hfit' : Bindings.empty.fitTrace trace' updateRule.trigger =
      (none, updateBindings user' username)) :
    Act.Akin r.likeness
      (fun found found' => GuardedAlike user user' username found.1 found'.1 ∧
        List.Forall₂ r.Traces found.2 found'.2)
      ((builtIn cap).guard updateRule trace) ((builtIn cap).guard updateRule trace') := by
  refine .bind (A := fun c c' => c = updateBindings user username ∧
    c' = updateBindings user' username) ?_ ?_
  · rw [fitted, fitted, hfit, hfit']
    exact .ofExcept (.ok ⟨rfl, rfl⟩)
  · rintro _ _ ⟨rfl, rfl⟩
    refine .bind (perform_profileLine_akin cap username huser) ?_
    rintro ⟨c, t⟩ ⟨c', t'⟩ ⟨hbound, ht⟩
    exact .pure ⟨hbound, .cons ht .nil⟩

theorem applyRule_update_akin (cap : Option Int) (h : r.Traces trace trace')
    (haction : trace.action = "Account.update") :
    Act.Akin r.likeness (List.Forall₂ r.Traces) ((builtIn cap).applyRule updateRule trace)
      ((builtIn cap).applyRule updateRule trace') := by
  obtain ⟨action, args, value⟩ := trace
  obtain ⟨action', args', value'⟩ := trace'
  obtain ⟨haction', hargs, hanswer⟩ := h
  dsimp only at haction haction' hargs hanswer
  subst haction haction'
  obtain rfl : value' = value := hanswer.same (by decide)
  have husers : UsersAlike r.user 1 args args' := hargs.users_alike (by decide)
  by_cases hlength : args.length = 2
  · rcases husers.one with ⟨rfl, rfl⟩ | ⟨user, user', rest, huser, rfl, rfl⟩
    · cases hlength
    · obtain ⟨username, rfl⟩ := List.length_eq_one_iff.mp (by simpa using hlength)
      have hne : (⟨"user", 1⟩ : Variable) ≠ ⟨"username", 1⟩ := by decide
      have hfit := fit_yes_two "Account.update" hne user username value'
      have hfit' := fit_yes_two "Account.update" hne user' username value'
      cases hyes : value'.same (.bool true) with
      | false =>
        rw [hyes] at hfit hfit'
        exact applyRule_akin_of_misfit hfit hfit'
      | true =>
        rw [hyes] at hfit hfit'
        refine applyRule_akin (coherent_likeness r) rfl
          (guard_update_akin cap username huser hfit hfit') (.cons ?_ .nil)
        refine mirrors_own cap rfl (by decide) ?_
        rintro _ _ ⟨profile, profile', rfl, rfl⟩
        exact ⟨[user, username], [user', username], rfl, rfl, .cons huser (.rest _)⟩
  · exact applyRule_akin_of_length rfl rfl rfl hlength hargs.length_eq

/-- **Reactions to traces that are alike do the same to societies that are alike.** -/
theorem react_akin (cap : Option Int) (h : r.Traces trace trace') :
    Act.Akin r.likeness (List.Forall₂ r.Traces) ((builtIn cap).react trace)
      ((builtIn cap).react trace') := by
  have hakin : ∀ rule ∈ builtInRules, rule.anchor = trace.action →
      Act.Akin r.likeness (List.Forall₂ r.Traces) ((builtIn cap).applyRule rule trace)
        ((builtIn cap).applyRule rule trace') := by
    intro rule hrule hanchor
    simp only [builtInRules, List.mem_cons, List.not_mem_nil, or_false] at hrule
    rcases hrule with rfl | rfl | rfl | rfl | rfl
    · exact applyRule_create_akin cap h hanchor.symm
    · exact applyRule_update_akin cap h hanchor.symm
    · exact applyRule_follow_akin cap 2 13 1 h hanchor.symm (.inl rfl)
    · exact applyRule_follow_akin cap 3 18 (-1) h hanchor.symm (.inr rfl)
    · exact applyRule_delete_akin cap h hanchor.symm
  rw [react, react, h.action_eq, under_builtIn]
  refine applyRules_akin (List.forall₂_same.mpr fun rule hrule => ?_)
  obtain ⟨hmem, hanchor⟩ := List.mem_filter.mp hrule
  exact hakin rule hmem (of_decide_eq_true hanchor)

/-! ## Runs and series -/

theorem run_akin (cap : Option Int) {call call' : String × List Value} (h : r.Calls call call')
    {s s' : Society} (hs : r.Societies s s') (steps : Nat) :
    ((builtIn cap).cascade steps call.1 call.2 s).Akin r.likeness (History.Akin r.Traces)
      ((builtIn cap).cascade steps call'.1 call'.2 s') := by
  have htold : ∀ trace trace', r.Told call.1 call.2 call'.2 trace trace' → r.Traces trace trace' := by
    rintro _ _ ⟨hanswer⟩
    exact ⟨rfl, h.args, hanswer⟩
  rw [h.action_eq]
  exact cascade_akin (coherent_likeness r) rfl ((call_akin cap h.args).mono htold s s' hs)
    (fun _ htrace => react_akin cap htrace) steps

end Engine

/-- **What is taken for alike stays alike.** Under the built-in rules and every cap, two rows of
calls that are alike one by one, made in societies that are alike, each come to the end of all their
runs. These are akin one by one: they end in the same way, with results that are alike or with the
same failure, and leave societies that are alike. -/
theorem Resemblance.series_akin (r : Resemblance) {engine : Engine Society}
    (hengine : engine.IsBuiltIn) {calls calls' : List (String × List Value)}
    (hcalls : List.Forall₂ r.Calls calls calls') {s s' : Society} (hs : r.Societies s s') :
    ∃ runs runs', engine.Series s calls runs ∧ engine.Series s' calls' runs' ∧
      List.Forall₂ (Run.Akin r.likeness (History.Akin r.Traces)) runs runs' := by
  rw [hengine.eq]
  obtain ⟨runs, hseries⟩ := Engine.exists_series
    (Engine.ends_of_flat (Engine.builtIn_flat engine.cap)) s calls
  obtain ⟨runs', hseries', hruns⟩ := hseries.akin
    (fun _ _ _ _ hcall hs => Engine.run_akin engine.cap hcall hs) hcalls hs
  exact ⟨runs, runs', hseries, hseries', hruns⟩

end Synchrony
