import Synchrony.Proofs.Engine.Literals
import Synchrony.Proofs.Engine.OwnArguments
import Synchrony.Proofs.Society.Calls

/-!
# Societies of well-formed values

Clients send well-formed values, and concepts store some of them. What concepts answer is made of
what they were given and of what they have stored, so it is well-formed if all of that is
(`Society.WellFormed`), and what they store is well-formed again. Each method is looked at once
(`Method.Upholds`).

So an engine on the actions of a society supplies well-formed values only, whatever rules it has
read (`Engine.supplies_wellFormed`), the built-in ones for instance (`Engine.builtIn_supplies`).
However its runs end, they call no action with other values and leave none behind
(`Engine.cascade_wellFormed`, `Engine.Session.wellFormed`).
-/

set_option autoImplicit false

namespace Synchrony

/-! ## Methods that uphold something -/

namespace Method

variable {S α β : Type} {I : S → Prop} {Q : α → Prop} {R : β → Prop} {method : Method S α}

/-- If something holds of the store before, it holds of the store however the method ends, and
something holds of the answer if there is one. -/
def Upholds (I : S → Prop) (Q : α → Prop) (method : Method S α) : Prop :=
  ∀ store u, I store → I (method.perform store u).2.1 ∧
    ∀ a, (method.perform store u).1 = .ok a → Q a

theorem Upholds.pure {a : α} (h : Q a) : Upholds I Q (Pure.pure a : Method S α) := by
  intro store u hstore
  refine ⟨hstore, ?_⟩
  rintro _ ⟨⟩
  exact h

theorem Upholds.fail (e : Failure) : Upholds I Q (fail e : Method S α) := by
  intro store u hstore
  refine ⟨hstore, ?_⟩
  rintro _ ⟨⟩

theorem Upholds.get : Upholds I I (MonadState.get : Method S S) := by
  intro store u hstore
  refine ⟨hstore, ?_⟩
  rintro _ ⟨⟩
  exact hstore

theorem Upholds.modify {f : S → S} (h : ∀ store, I store → I (f store)) :
    Upholds I (fun _ => True) (modify f : Method S PUnit) :=
  fun store _ hstore => ⟨h store hstore, fun _ _ => trivial⟩

/-- What leaves the store as it is may answer anything. -/
theorem Upholds.of_keeps (h : method.Keeps) : Upholds I (fun _ => True) method := by
  intro store u hstore
  rw [h store u]
  exact ⟨hstore, fun _ _ => trivial⟩

theorem Upholds.trivial : Upholds (fun _ : S => True) (fun _ => True) method :=
  fun _ _ _ => ⟨True.intro, fun _ _ => True.intro⟩

theorem Upholds.ofExcept {x : Except Failure α} (h : ∀ a, x = .ok a → Q a) :
    Upholds I Q (liftM x : Method S α) := by
  cases x with
  | ok a => exact .pure (h a rfl)
  | error e => exact .fail e

theorem Upholds.ite {method' : Method S α} (c : Prop) [Decidable c] (h : Upholds I Q method)
    (h' : Upholds I Q method') : Upholds I Q (if c then method else method') := by
  by_cases hc : c
  · rwa [if_pos hc]
  · rwa [if_neg hc]

theorem Upholds.bind {next : α → Method S β} (h : Upholds I Q method)
    (hnext : ∀ a, Q a → Upholds I R (next a)) : Upholds I R (method >>= next) := by
  intro store u hstore
  obtain ⟨hkept, hanswer⟩ := h store u hstore
  rw [perform_bind]
  rcases hrun : method.perform store u with ⟨e | a, t, v⟩
  all_goals rw [hrun] at hkept hanswer
  · refine ⟨hkept, ?_⟩
    rintro _ ⟨⟩
  · exact hnext a (hanswer a rfl) t v hkept

theorem Upholds.map (h : Upholds I Q method) {f : α → β} (hf : ∀ a, Q a → R (f a)) :
    Upholds I R (method >>= fun a => Pure.pure (f a)) :=
  h.bind fun a ha => .pure (hf a ha)

end Method

/-! ## Stores -/

namespace Keyed

variable {α : Type} {P : α → Prop} {s : Keyed α}

/-- Something holds of all entries. -/
def All (P : α → Prop) (s : Keyed α) : Prop :=
  ∀ entry ∈ s, P entry.2

theorem All.get? (h : s.All P) {key : String} {a : α} (ha : s.get? key = some a) : P a :=
  h _ (mem_of_get? ha)

theorem All.find? (h : s.All P) {test : α → Bool} {a : α}
    (ha : (s.map Prod.snd).find? test = some a) : P a := by
  obtain ⟨entry, hmem, rfl⟩ := List.mem_map.mp (List.mem_of_find?_eq_some ha)
  exact h entry hmem

theorem All.put (h : s.All P) (key : String) {a : α} (ha : P a) : All P (s.put key a) := by
  intro entry hmem
  rcases mem_put hmem with rfl | hold
  · exact ha
  · exact h entry hold

theorem All.erase (h : s.All P) (key : String) : All P (s.erase key) :=
  fun entry hmem => h entry (List.mem_of_mem_filter hmem)

end Keyed

open Method

/-! ## Accounts -/

/-- What the user chose for an account is well-formed. -/
structure Account.WellFormed (account : Account) : Prop where
  username : account.username.WellFormed
  password : account.password.WellFormed
  email : account.email.WellFormed

theorem Account.WellFormed.publicView {account : Account} (h : account.WellFormed) :
    account.publicView.WellFormed := by
  refine .record (by show List.Nodup ["_id", "username", "email", "createdAt"]; decide) ?_
  simp only [List.forall_mem_cons]
  exact ⟨.ident _, h.username, h.email, .float _, by simp⟩

namespace Accounts

def WellFormed (accounts : Accounts) : Prop :=
  Keyed.All Account.WellFormed accounts

theorem create_upholds {username password email : Value} (husername : username.WellFormed)
    (hpassword : password.WellFormed) (hemail : email.WellFormed) :
    (create username password email).Upholds WellFormed fun _ => True := by
  have hopen : (do
      refuseTaken username
      let id ← Method.take (Supply.ident "")
      let createdAt ← Method.take Supply.now
      modify fun accounts => accounts.put id.hex ⟨id, username, password, email, createdAt⟩
      pure id : Method Accounts Ident).Upholds WellFormed fun _ => True := by
    refine .bind (.of_keeps (refuseTaken_keeps username)) fun _ _ => ?_
    refine .bind (.of_keeps (.take _)) fun id _ => .bind (.of_keeps (.take _)) fun created _ => ?_
    refine .bind (.modify fun accounts h => ?_) fun _ _ => .pure trivial
    exact h.put _ ⟨husername, hpassword, hemail⟩
  exact .ite _ (.bind (Q := fun _ => True) (.fail _) fun _ _ => hopen) hopen

theorem getById_upholds (user : Value) :
    (getById user).Upholds WellFormed Value.WellFormed := by
  refine .bind (Q := Account.WellFormed) ?_ fun account haccount => .pure haccount.publicView
  refine .bind (.of_keeps (.identOf user)) fun id _ => .bind .get fun accounts haccounts => ?_
  split
  next account hfound => exact .pure (haccounts.get? hfound)
  next => exact .fail _

theorem authenticate_keeps (email password : Value) : (authenticate email password).Keeps := by
  refine .bind .get fun accounts => ?_
  dsimp only
  split
  · exact .pure _
  · exact .fail _

theorem getByUsername_keeps (username : Value) : (getByUsername username).Keeps := by
  refine .bind .get fun accounts => ?_
  split
  · exact .pure _
  · exact .fail _

theorem update_upholds (user : Value) {username : Value} (husername : username.WellFormed) :
    (update user username).Upholds WellFormed fun _ => True := by
  refine .bind (.of_keeps (.identOf user)) fun id _ => .bind .get fun accounts haccounts => ?_
  split
  next => exact .fail _
  next account hfound =>
    have haccount := haccounts.get? hfound
    refine .ite _ (.pure trivial) ?_
    refine .bind (.of_keeps (refuseTaken_keeps username)) fun _ _ => ?_
    refine .bind (.modify fun accounts h => ?_) fun _ _ => .pure trivial
    exact h.put _ ⟨husername, haccount.password, haccount.email⟩

theorem delete_upholds (user : Value) : (delete user).Upholds WellFormed fun _ => True := by
  refine .bind (.of_keeps (.identOf user)) fun id _ => .bind .get fun _ _ => ?_
  exact .bind (.modify fun accounts h => h.erase _) fun _ _ => .pure trivial

theorem methods_uphold : ∀ method ∈ methods, ∀ args, (∀ value ∈ args, value.WellFormed) →
    (method.2 args).Upholds WellFormed Value.WellFormed := by
  intro method hmem args hargs
  simp only [methods, List.mem_cons, List.not_mem_nil, or_false] at hmem
  rcases hmem with rfl | rfl | rfl | rfl | rfl | rfl
  case inl =>
    dsimp only
    split
    · simp only [List.forall_mem_cons] at hargs
      obtain ⟨husername, hpassword, hemail, -⟩ := hargs
      exact (create_upholds husername hpassword hemail).map fun id _ => .ident id
    · exact .fail _
  case inr.inl =>
    dsimp only
    split
    · exact (Upholds.of_keeps (authenticate_keeps _ _)).map fun id _ => .ident id
    · exact .fail _
  case inr.inr.inl =>
    dsimp only
    split
    · exact getById_upholds _
    · exact .fail _
  case inr.inr.inr.inl =>
    dsimp only
    split
    · exact (Upholds.of_keeps (getByUsername_keeps _)).map fun id _ => .ident id
    · exact .fail _
  case inr.inr.inr.inr.inl =>
    dsimp only
    split
    · exact (update_upholds _ (hargs _ (by simp))).map fun b _ => .bool b
    · exact .fail _
  case inr.inr.inr.inr.inr =>
    dsimp only
    split
    · exact (delete_upholds _).map fun b _ => .bool b
    · exact .fail _

end Accounts

/-! ## Profiles -/

/-- What is told about the user in a profile is well-formed. -/
structure Profile.WellFormed (profile : Profile) : Prop where
  username : profile.username.WellFormed
  bio : profile.bio.WellFormed
  image : profile.image.WellFormed

theorem Numeric.wellFormed_toValue (n : Numeric) : n.toValue.WellFormed := by
  cases n with
  | int n => exact .int n
  | float x => exact .float x

theorem Profile.WellFormed.toValue {profile : Profile} (h : profile.WellFormed) :
    profile.toValue.WellFormed := by
  refine .record (by show List.Nodup ["_id", "username", "bio", "image", "followers"]; decide) ?_
  simp only [List.forall_mem_cons]
  exact ⟨.ident _, h.username, h.bio, h.image, Numeric.wellFormed_toValue _, by simp⟩

namespace Profiles

def WellFormed (profiles : Profiles) : Prop :=
  Keyed.All Profile.WellFormed profiles

theorem byUser_upholds (user : Value) :
    (byUser user).Upholds WellFormed fun found => found.2.WellFormed := by
  refine .bind (.of_keeps (.identOf user)) fun id _ => .bind .get fun profiles hprofiles => ?_
  split
  next profile hfound => exact .pure (hprofiles.get? hfound)
  next => exact .fail _

theorem getById_upholds (user : Value) :
    (getById user).Upholds WellFormed Profile.WellFormed :=
  (byUser_upholds user).map fun _ h => h

theorem create_upholds (user : Value) {username bio image : Value}
    (husername : username.WellFormed) (hbio : bio.WellFormed) (himage : image.WellFormed) :
    (create user username bio image).Upholds WellFormed Profile.WellFormed := by
  refine .bind (.of_keeps (.identOf user)) fun id _ => ?_
  exact .bind (.modify fun profiles h => h.put _ ⟨husername, hbio, himage⟩) fun _ _ =>
    .pure ⟨husername, hbio, himage⟩

theorem getByUsername_upholds (username : Value) :
    (getByUsername username).Upholds WellFormed Profile.WellFormed := by
  refine .bind .get fun profiles hprofiles => ?_
  split
  next profile hfound => exact .pure (hprofiles.find? hfound)
  next => exact .fail _

theorem rename_upholds (user : Value) {username : Value} (husername : username.WellFormed) :
    (rename user username).Upholds WellFormed Profile.WellFormed := by
  refine .bind (byUser_upholds user) fun found hfound => ?_
  have hrenamed : Profile.WellFormed { found.2 with username := username } :=
    ⟨husername, hfound.bio, hfound.image⟩
  exact .bind (.modify fun profiles h => h.put _ hrenamed) fun _ _ => .pure hrenamed

theorem adjustFollowers_upholds (user delta : Value) :
    (adjustFollowers user delta).Upholds WellFormed fun _ => True := by
  refine .bind (byUser_upholds user) fun found hfound => ?_
  refine .bind (.of_keeps (increased_keeps _ _)) fun sum _ => ?_
  refine .bind (.modify fun profiles h => ?_) fun _ _ => .pure trivial
  exact h.put _ ⟨hfound.username, hfound.bio, hfound.image⟩

theorem delete_upholds (user : Value) : (delete user).Upholds WellFormed fun _ => True := by
  refine .bind (.of_keeps (.identOf user)) fun id _ => .bind .get fun _ _ => ?_
  exact .bind (.modify fun profiles h => h.erase _) fun _ _ => .pure trivial

theorem methods_uphold : ∀ method ∈ methods, ∀ args, (∀ value ∈ args, value.WellFormed) →
    (method.2 args).Upholds WellFormed Value.WellFormed := by
  intro method hmem args hargs
  simp only [methods, List.mem_cons, List.not_mem_nil, or_false] at hmem
  rcases hmem with rfl | rfl | rfl | rfl | rfl | rfl
  case inl =>
    dsimp only
    split
    · simp only [List.forall_mem_cons] at hargs
      obtain ⟨-, husername, hbio, himage, -⟩ := hargs
      exact (create_upholds _ husername hbio himage).map fun profile h => h.toValue
    · exact .fail _
  case inr.inl =>
    dsimp only
    split
    · exact (getById_upholds _).map fun profile h => h.toValue
    · exact .fail _
  case inr.inr.inl =>
    dsimp only
    split
    · exact (getByUsername_upholds _).map fun profile h => h.toValue
    · exact .fail _
  case inr.inr.inr.inl =>
    dsimp only
    split
    · exact (rename_upholds _ (hargs _ (by simp))).map fun profile h => h.toValue
    · exact .fail _
  case inr.inr.inr.inr.inl =>
    dsimp only
    split
    · exact (adjustFollowers_upholds _ _).map fun n _ => n.wellFormed_toValue
    · exact .fail _
  case inr.inr.inr.inr.inr =>
    dsimp only
    split
    · exact (delete_upholds _).map fun b _ => .bool b
    · exact .fail _

end Profiles

/-! ## Followers -/

namespace Edges

/-- Edges hold identifiers only, so nothing has to hold of them. -/
theorem methods_uphold : ∀ method ∈ methods, ∀ args,
    (method.2 args).Upholds (fun _ => True) Value.WellFormed := by
  intro method hmem args
  simp only [methods, List.mem_cons, List.not_mem_nil, or_false] at hmem
  rcases hmem with rfl | rfl | rfl | rfl | rfl
  case inr.inr.inr.inl =>
    dsimp only
    split
    · refine Upholds.trivial.map fun ids _ => .list ?_
      exact List.forall_mem_map.mpr fun id _ => .ident id
    · exact .fail _
  case inr.inr.inr.inr =>
    dsimp only
    split
    · exact Upholds.trivial.map fun n _ => .int n
    · exact .fail _
  all_goals
    dsimp only
    split
    · exact Upholds.trivial.map fun b _ => .bool b
    · exact .fail _

end Edges

/-! ## Views -/

namespace Value

theorem WellFormed.field {value found : Value} (h : value.WellFormed) {key : String}
    (hfound : value.field key = .ok found) : found.WellFormed := by
  cases h with
  | record nodup members =>
    rw [Value.field] at hfound
    split at hfound
    next v hget =>
      cases hfound
      exact members _ (Keyed.mem_of_get? hget)
    next => cases hfound
  | _ => cases hfound

theorem WellFormed.fieldOrEmpty {value : Value} (h : value.WellFormed) (key : String) :
    (value.fieldOrEmpty key).WellFormed := by
  cases h with
  | @record fields nodup members =>
    simp only [Value.fieldOrEmpty]
    split
    · cases hget : Keyed.get? fields key with
      | none => exact .null
      | some v => exact members _ (Keyed.mem_of_get? hget)
    · exact .text _
  | _ => exact .text _

theorem WellFormed.members {value : Value} (h : value.WellFormed) {found : List Value}
    (hfound : value.members = .ok found) : ∀ member ∈ found, member.WellFormed := by
  cases h with
  | list members =>
    cases hfound
    exact members
  | tuple members =>
    cases hfound
    exact members
  | text s =>
    cases hfound
    simp only [List.forall_mem_map]
    exact fun c _ => .text _
  | record nodup members =>
    cases hfound
    simp only [List.forall_mem_map]
    exact fun field _ => .text _
  | _ => cases hfound

end Value

theorem Merge.createProfileMessage_wellFormed {profile following message : Value}
    (hprofile : profile.WellFormed) (hfollowing : following.WellFormed)
    (h : createProfileMessage profile following = .ok message) : message.WellFormed := by
  rw [createProfileMessage] at h
  cases husername : profile.field "username" with
  | error e =>
    rw [husername] at h
    cases h
  | ok username =>
    rw [husername] at h
    cases h
    refine .record (by show List.Nodup ["username", "bio", "image", "following"]; decide) ?_
    simp only [List.forall_mem_cons]
    exact ⟨hprofile.field husername, hprofile.fieldOrEmpty _, hprofile.fieldOrEmpty _,
      hfollowing, by simp⟩

theorem Mapper.mapIds_wellFormed {objects ids : Value} (hobjects : objects.WellFormed)
    (h : mapIds objects = .ok ids) : ids.WellFormed := by
  rw [mapIds] at h
  cases hmembers : objects.members with
  | error e =>
    rw [hmembers] at h
    cases h
  | ok members =>
    rw [hmembers] at h
    cases hfields : members.mapM fun object => object.field "_id" with
    | error e =>
      simp only [bind, Except.bind, hfields] at h
      cases h
    | ok found =>
      simp only [bind, Except.bind, hfields] at h
      cases h
      refine .list fun id hmem => ?_
      obtain ⟨hlength, hpairs⟩ := List.forall₂_iff_zip.mp (Except.forall₂_of_mapM hfields)
      rw [← List.map_fst_zip (Nat.le_of_eq hlength)] at hmem
      obtain ⟨⟨id, object⟩, hpair, rfl⟩ := List.mem_map.mp hmem
      exact (hobjects.members hmembers object (List.of_mem_zip hpair).2).field (hpairs hpair)

theorem Merge.methods_uphold : ∀ method ∈ methods, ∀ args,
    (∀ value ∈ args, value.WellFormed) →
      (method.2 args).Upholds (fun _ => True) Value.WellFormed := by
  intro method hmem args hargs
  obtain rfl := List.mem_singleton.mp hmem
  dsimp only
  split
  · simp only [List.forall_mem_cons] at hargs
    obtain ⟨hprofile, hfollowing, -⟩ := hargs
    exact .ofExcept fun message h => createProfileMessage_wellFormed hprofile hfollowing h
  · exact .fail _

theorem Mapper.methods_uphold : ∀ method ∈ methods, ∀ args,
    (∀ value ∈ args, value.WellFormed) →
      (method.2 args).Upholds (fun _ => True) Value.WellFormed := by
  intro method hmem args hargs
  obtain rfl := List.mem_singleton.mp hmem
  dsimp only
  split
  · exact .ofExcept fun ids h => mapIds_wellFormed (hargs _ (by simp)) h
  · exact .fail _

/-! ## Societies -/

namespace Society

/-- What accounts and profiles hold is well-formed. -/
structure WellFormed (s : Society) : Prop where
  accounts : s.accounts.WellFormed
  profiles : s.profiles.WellFormed

variable {S : Type} {store : Part Society S} {I : S → Prop} {body : List Value → Method S Value}
  {args : List Value} {s : Society}

/-- An action does what its method does to the store of the concept. -/
theorem action_upholds (hbody : (body args).Upholds I Value.WellFormed)
    (hget : I (store.get s)) (hset : ∀ t u, I t → WellFormed (supplyPart.set u (store.set t s))) :
    WellFormed (Method.action store supplyPart body args s).2 ∧
      ∀ value t, Method.action store supplyPart body args s = (.ok value, t) →
        value.WellFormed := by
  obtain ⟨hkept, hanswer⟩ := hbody (store.get s) s.supply hget
  refine ⟨hset _ _ hkept, ?_⟩
  intro value t h
  exact hanswer value (congrArg Prod.fst h)

/-- **Every action keeps a society well-formed and answers with well-formed values.** -/
theorem registered_upholds {name : String} {action : Action Society}
    (h : Registered name action) (hargs : ∀ value ∈ args, value.WellFormed) (hs : s.WellFormed) :
    (action args s).2.WellFormed ∧
      ∀ value t, action args s = (.ok value, t) → value.WellFormed := by
  cases h with
  | account mem =>
    exact action_upholds (Accounts.methods_uphold _ mem args hargs) hs.accounts
      fun t _ ht => ⟨ht, hs.profiles⟩
  | profile mem =>
    exact action_upholds (Profiles.methods_uphold _ mem args hargs) hs.profiles
      fun t _ ht => ⟨hs.accounts, ht⟩
  | follower mem =>
    exact action_upholds (Edges.methods_uphold _ mem args) trivial
      fun _ _ _ => ⟨hs.accounts, hs.profiles⟩
  | merge mem =>
    exact action_upholds (Merge.methods_uphold _ mem args hargs) trivial
      fun _ _ _ => ⟨hs.accounts, hs.profiles⟩
  | mapper mem =>
    exact action_upholds (Mapper.methods_uphold _ mem args hargs) trivial
      fun _ _ _ => ⟨hs.accounts, hs.profiles⟩

end Society

/-! ## Runs -/

namespace Engine

open Society

section Rules

variable {engine : Engine Society} {source : String}
  (hrules : loadRules source = .ok engine.rulebook)
  (hactions : Registry.ofPairs Society.actions = .ok engine.actions)

include hrules hactions

/-- Whatever the rules are, as long as they were read, their literals and the answers of a society
are well-formed. -/
theorem supplies_wellFormed : engine.Supplies Society.WellFormed Value.WellFormed := by
  rw [ofPairs_actions] at hactions
  have hregistered {name : String} {entry : Action Society}
      (hentry : engine.actions.get? name = some entry) : Registered name entry := by
    rw [← Except.ok.inj hactions] at hentry
    exact registered_of_mem (Keyed.mem_of_get? hentry)
  refine ⟨?_, ?_, ?_⟩
  · rw [loadRules] at hrules
    split at hrules
    next rules hread =>
      intro rule hrule line hline value hvalue
      rw [← Except.ok.inj hrules] at hrule
      exact (readRules_literals hread hrule hline value hvalue).1
    next => cases hrules
  · intro name entry hentry args hargs s hs value t hanswer
    exact (registered_upholds (hregistered hentry) hargs hs).2 value t hanswer
  · intro name entry hentry args hargs s hs
    exact (registered_upholds (hregistered hentry) hargs hs).1

/-- **A run that is given well-formed values meets no others**, and it leaves none behind, however
it ends. -/
theorem cascade_wellFormed (steps : Nat) {action : String} {args : List Value} {s : Society}
    (hargs : ∀ value ∈ args, value.WellFormed) (hs : s.WellFormed) :
    (engine.cascade steps action args s).Holds Society.WellFormed (Event.Holds Value.WellFormed)
      fun history => history.result.WellFormed ∧
        ∀ trace ∈ history.traces, trace.Holds Value.WellFormed :=
  cascade_upholds Value.wellFormed_hereditary (supplies_wellFormed hrules hactions) steps hargs s hs

/-- What a session leaves is well-formed if all that was sent was. -/
theorem Session.wellFormed {visits : List (Visit Society)} {t : Society}
    (h : engine.Session {} visits t)
    (hvisits : ∀ visit ∈ visits, ∀ value ∈ visit.args, value.WellFormed) : t.WellFormed := by
  refine h.invariant (I := fun _ s => s.WellFormed) hvisits
    ⟨List.forall_mem_nil _, List.forall_mem_nil _⟩ ?_
  rintro visits visit run hargs hs ⟨-, steps, rfl⟩
  exact (cascade_wellFormed hrules hactions steps hargs hs).state

end Rules

/-- The engine on the built-in rules is one of these. -/
theorem builtIn_supplies (cap : Option Int) :
    (builtIn cap).Supplies Society.WellFormed Value.WellFormed :=
  supplies_wellFormed loadRules_defaultRules ofPairs_actions

end Engine

end Synchrony
