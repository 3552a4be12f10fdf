import Synchrony.Proofs.Society.Reactions

/-!
# Accounts and profiles in step

Nothing in the store of the accounts knows of profiles, and nothing in the store of the profiles
knows of accounts. Three of the built-in rules keep them in step: whoever has an account has a
profile, and it shows the same user name (`Society.InStep`).

## Why a session keeps them in step

Between a call and the reaction to it the two are out of step. An account that was opened, renamed
or closed finds its rule in any case, and the rule finds the profile: the identifier that the caller
gave names the record of an account, so it names the same record again when the rule asks
(`Value.record?`). This is where the supply comes in. A value that names no record becomes a fresh
identifier, and if a fresh one could be that of an account, it would be closed without its profile.
So the invariant also says that the identifiers of accounts have been handed out before
(`Society.Kept`).

What a run does to a society in step is said once (`Society.Turn`), and whatever turns keep,
sessions keep (`Engine.Session.turns`).
-/

set_option autoImplicit false

namespace Synchrony

namespace Society

/-- Accounts and profiles are in step: the same users have both, each is stored under the hex of
its own identifier, and a profile shows the very user name of its account. -/
structure InStep (s : Society) : Prop where
  accounts_nodup : s.accounts.keys.Nodup
  profiles_nodup : s.profiles.keys.Nodup
  same_users : ∀ hex, s.accounts.has hex = s.profiles.has hex
  account_id : ∀ hex account, s.accounts.get? hex = some account → account.id.hex = hex
  profile_id : ∀ hex profile, s.profiles.get? hex = some profile → profile.id.hex = hex
  username : ∀ hex account profile, s.accounts.get? hex = some account →
    s.profiles.get? hex = some profile → profile.username = account.username

/-- The actions that write profiles. Rules may call them, but whoever calls them from outside can
bring profiles about that belong to no account. -/
def profileWriters : List String :=
  ["Profile.create", "Profile.rename", "Profile.adjustFollowers", "Profile.delete"]

/-- Accounts and profiles are in step, and the hexes of the accounts were handed out since the
supply stood at `first`. -/
structure Kept (first : Nat) (s : Society) : Prop extends InStep s where
  issued : ∀ hex account, s.accounts.get? hex = some account →
    Supply.Issued first s.supply.nextHex hex

/-! ## Turns -/

/-- The account that a call closes: the one that the user names, if there is one. -/
def closed? (action : String) (args : List Value) (s : Society) : Option String :=
  if action = "Account.delete" then
    match args with
    | [user] => user.record?.filter fun hex => s.accounts.has hex
    | _ => none
  else none

theorem closed?_of_ne {action : String} {args : List Value} {s : Society}
    (h : action ≠ "Account.delete") : closed? action args s = none := if_neg h

theorem closed?_eq_some_iff {action : String} {args : List Value} {s : Society} {hex : String} :
    closed? action args s = some hex ↔ action = "Account.delete" ∧
      ∃ user, args = [user] ∧ user.record? = some hex ∧ s.accounts.has hex = true := by
  unfold closed?
  constructor
  · intro h
    split at h
    next haction =>
      split at h
      next user =>
        obtain ⟨hrecord, hhas⟩ := Option.filter_eq_some_iff.mp h
        exact ⟨haction, user, rfl, hrecord, hhas⟩
      next => cases h
    next => cases h
  · rintro ⟨haction, user, rfl, hrecord, hhas⟩
    rw [if_pos haction]
    exact Option.filter_eq_some_iff.mpr ⟨hrecord, hhas⟩

open Method in
/-- What a run does to a society: nothing, or the change that its call and the reaction to it make
together. Only the supply is left open. -/
inductive Turn (action : String) (args : List Value) (s : Society) : Society → Prop
  | idle {u : Supply} (closed_eq : closed? action args s = none)
    (next_le : s.supply.nextHex ≤ u.nextHex) : Turn action args s { s with supply := u }
  | opened {username password email : Value} {id : Ident} {createdAt : Binary64} {u : Supply}
    (action_eq : action = "Account.create") (args_eq : args = [username, password, email])
    (hex_eq : id.hex = Supply.hexText s.supply.nextHex)
    (nextHex_eq : u.nextHex = s.supply.nextHex + 1) :
    Turn action args s { s with
      accounts := s.accounts.put id.hex ⟨id, username, password, email, createdAt⟩
      profiles := s.profiles.put id.hex ⟨id, username, .text "", .text "", .int 0⟩
      supply := u }
  | renamed {user username : Value} {hex : String} {account : Account} {profile : Profile}
    {u : Supply} (action_eq : action = "Account.update") (args_eq : args = [user, username])
    (account_eq : s.accounts.get? hex = some account)
    (profile_eq : s.profiles.get? hex = some profile) (next_le : s.supply.nextHex ≤ u.nextHex) :
    Turn action args s { s with
      accounts := s.accounts.put hex { account with username := username }
      profiles := s.profiles.put hex { profile with username := username }
      supply := u }
  | closed {hex : String} {u : Supply} (closed_eq : closed? action args s = some hex)
    (next_le : s.supply.nextHex ≤ u.nextHex) :
    Turn action args s { s with
      accounts := s.accounts.erase hex
      profiles := s.profiles.erase hex
      edges := s.edges.filter fun edge => !edge.touches hex
      supply := u }
  | followed {user target : Value} {a b : Ident} {v w : Supply}
    (action_eq : action = "Follower.follow") (args_eq : args = [user, target])
    (user_id : Identifies user s.supply a v) (target_id : Identifies target v b w) :
    Turn action args s
      (adjusted { s with edges := s.edges ++ [⟨a, b⟩], supply := w } target 1)
  | unfollowed {user target : Value} {a b : Ident} {v w : Supply}
    (action_eq : action = "Follower.unfollow") (args_eq : args = [user, target])
    (user_id : Identifies user s.supply a v) (target_id : Identifies target v b w)
    (joins_eq : s.edges.joins a b = true) :
    Turn action args s
      (adjusted { s with edges := s.edges.eraseP (Edge.joins a b), supply := w } target (-1))
  | removed {edges : Edges} {u : Supply} (action_eq : action = "Follower.removeUser")
    (next_le : s.supply.nextHex ≤ u.nextHex) :
    Turn action args s { s with edges := edges, supply := u }

namespace Kept

variable {first : Nat} {s : Society}

/-- Nothing else matters to it than the two stores. -/
theorem of_eq {t : Society} (h : Kept first s) (haccounts : t.accounts = s.accounts)
    (hprofiles : t.profiles = s.profiles) (hnext : s.supply.nextHex ≤ t.supply.nextHex) :
    Kept first t where
  accounts_nodup := haccounts ▸ h.accounts_nodup
  profiles_nodup := hprofiles ▸ h.profiles_nodup
  same_users := haccounts ▸ hprofiles ▸ h.same_users
  account_id := haccounts ▸ h.account_id
  profile_id := hprofiles ▸ h.profile_id
  username := haccounts ▸ hprofiles ▸ h.username
  issued hex account hget := by
    rw [haccounts] at hget
    exact (h.issued hex account hget).mono hnext

theorem exists_profile (h : Kept first s) {hex : String} {account : Account}
    (hget : s.accounts.get? hex = some account) :
    ∃ profile, s.profiles.get? hex = some profile ∧ profile.username = account.username := by
  have hhas := h.same_users hex
  rw [Keyed.has_eq, Keyed.has_eq, hget] at hhas
  obtain ⟨profile, hprofile⟩ := Option.isSome_iff_exists.mp hhas.symm
  exact ⟨profile, hprofile, h.username hex account profile hget hprofile⟩

/-- The record of an account is not that of a fresh identifier, so whoever names it says so. -/
theorem record_of_get? (h : Kept first s) {user : Value} {id : Ident} {u v : Supply} {last : Nat}
    {account : Account} (hid : Method.Identifies user u id v)
    (hget : s.accounts.get? id.hex = some account) (hle : s.supply.nextHex ≤ u.nextHex)
    (hlast : v.nextHex ≤ last) (hfresh : Supply.NoRepeat first last) :
    user.record? = some id.hex ∧ user.same user = true := by
  have hissued := h.issued _ _ hget
  cases hid with
  | named record_eq _ =>
    obtain ⟨n, -, -, heq⟩ := hissued
    exact ⟨record_eq, Value.same_self (heq ▸ record_eq)⟩
  | fresh _ hex_eq nextHex_eq =>
    exact absurd hex_eq (hfresh.ne_of_issued hissued hle (by omega))

/-- What holds of the stores at one hex, if they are in step there. -/
inductive At (first : Nat) (s : Society) (hex : String) : Prop
  | absent (account_eq : s.accounts.get? hex = none) (profile_eq : s.profiles.get? hex = none)
  | present {account : Account} {profile : Profile}
    (account_eq : s.accounts.get? hex = some account)
    (profile_eq : s.profiles.get? hex = some profile) (account_id : account.id.hex = hex)
    (profile_id : profile.id.hex = hex) (username : profile.username = account.username)
    (issued : Supply.Issued first s.supply.nextHex hex)

theorem at_hex (h : Kept first s) (hex : String) : At first s hex := by
  cases haccount : s.accounts.get? hex with
  | none =>
    have hhas := h.same_users hex
    rw [Keyed.has_eq, Keyed.has_eq, haccount] at hhas
    exact .absent haccount (Option.not_isSome_iff_eq_none.mp (by rw [← hhas]; decide))
  | some account =>
    obtain ⟨profile, hprofile, hname⟩ := h.exists_profile haccount
    exact .present haccount hprofile (h.account_id hex account haccount)
      (h.profile_id hex profile hprofile) hname (h.issued hex account haccount)

theorem of_at (haccounts : s.accounts.keys.Nodup) (hprofiles : s.profiles.keys.Nodup)
    (h : ∀ hex, At first s hex) : Kept first s where
  accounts_nodup := haccounts
  profiles_nodup := hprofiles
  same_users hex := by
    rw [Keyed.has_eq, Keyed.has_eq]
    cases h hex with
    | absent account_eq profile_eq => rw [account_eq, profile_eq]; rfl
    | present account_eq profile_eq => rw [account_eq, profile_eq]; rfl
  account_id hex account hget := by
    cases h hex with
    | absent account_eq profile_eq => cases account_eq.symm.trans hget
    | present account_eq profile_eq account_id => cases account_eq.symm.trans hget; exact account_id
  profile_id hex profile hget := by
    cases h hex with
    | absent account_eq profile_eq => cases profile_eq.symm.trans hget
    | present account_eq profile_eq account_id profile_id =>
      cases profile_eq.symm.trans hget; exact profile_id
  username hex account profile haccount hprofile := by
    cases h hex with
    | absent account_eq profile_eq => cases account_eq.symm.trans haccount
    | present account_eq profile_eq account_id profile_id username =>
      cases account_eq.symm.trans haccount
      cases profile_eq.symm.trans hprofile
      exact username
  issued hex account hget := by
    cases h hex with
    | absent account_eq profile_eq => cases account_eq.symm.trans hget
    | present _ _ _ _ _ issued => exact issued

theorem of_empty (haccounts : s.accounts = []) (hprofiles : s.profiles = []) : Kept first s :=
  of_at (haccounts ▸ List.nodup_nil) (hprofiles ▸ List.nodup_nil) fun hex =>
    .absent (by rw [haccounts]; rfl) (by rw [hprofiles]; rfl)

/-- Stores that change at one hex only have to be in step there. -/
theorem change (h : Kept first s) {t : Society} (hex : String)
    (haccounts : t.accounts.keys.Nodup) (hprofiles : t.profiles.keys.Nodup)
    (hother : ∀ other, other ≠ hex → t.accounts.get? other = s.accounts.get? other ∧
      t.profiles.get? other = s.profiles.get? other)
    (hnext : s.supply.nextHex ≤ t.supply.nextHex) (hat : At first t hex) : Kept first t := by
  refine of_at haccounts hprofiles ?_
  intro other
  by_cases hne : other = hex
  · exact hne ▸ hat
  · obtain ⟨haccount, hprofile⟩ := hother other hne
    cases h.at_hex other with
    | absent account_eq profile_eq =>
      exact .absent (haccount.trans account_eq) (hprofile.trans profile_eq)
    | present account_eq profile_eq account_id profile_id username issued =>
      exact .present (haccount.trans account_eq) (hprofile.trans profile_eq) account_id profile_id
        username (issued.mono hnext)

/-! ### Turns -/

/-- An account is opened, and its profile with it. -/
theorem opened (h : Kept first s) (hfirst : first ≤ s.supply.nextHex) {id : Ident}
    {u : Supply} (hhex : id.hex = Supply.hexText s.supply.nextHex)
    (hnext : u.nextHex = s.supply.nextHex + 1) {account : Account} {profile : Profile}
    (haccount : account.id = id) (hprofile : profile.id = id)
    (hname : profile.username = account.username) :
    Kept first { s with
      accounts := s.accounts.put id.hex account
      profiles := s.profiles.put id.hex profile
      supply := u } := by
  have hlt : s.supply.nextHex < u.nextHex := by omega
  refine h.change id.hex (Keyed.nodup_put h.accounts_nodup _ _)
    (Keyed.nodup_put h.profiles_nodup _ _) ?_
    (Nat.le_of_lt hlt) (.present (Keyed.get?_put_self _ _ _) (Keyed.get?_put_self _ _ _)
      (by rw [haccount]) (by rw [hprofile]) hname ⟨_, hfirst, hlt, hhex⟩)
  intro other hne
  exact ⟨Keyed.get?_put_of_ne (Ne.symm hne), Keyed.get?_put_of_ne (Ne.symm hne)⟩

/-- An account and its profile are given the same other user name. -/
theorem renamed (h : Kept first s) {hex : String} {account : Account} {profile : Profile}
    {u : Supply} (username : Value) (haccount : s.accounts.get? hex = some account)
    (hprofile : s.profiles.get? hex = some profile) (hnext : s.supply.nextHex ≤ u.nextHex) :
    Kept first { s with
      accounts := s.accounts.put hex { account with username := username }
      profiles := s.profiles.put hex { profile with username := username }
      supply := u } := by
  refine h.change hex (Keyed.nodup_put h.accounts_nodup _ _)
    (Keyed.nodup_put h.profiles_nodup _ _) ?_
    hnext (.present (Keyed.get?_put_self _ _ _) (Keyed.get?_put_self _ _ _)
      (h.account_id hex account haccount) (h.profile_id hex profile hprofile) rfl
      ((h.issued hex account haccount).mono hnext))
  intro other hne
  exact ⟨Keyed.get?_put_of_ne (Ne.symm hne), Keyed.get?_put_of_ne (Ne.symm hne)⟩

/-- An account is closed, and its profile goes with it. -/
theorem closed (h : Kept first s) (hex : String) {u : Supply} (edges : Edges)
    (hnext : s.supply.nextHex ≤ u.nextHex) :
    Kept first { s with
      accounts := s.accounts.erase hex
      profiles := s.profiles.erase hex
      edges := edges
      supply := u } := by
  refine h.change hex (Keyed.nodup_erase h.accounts_nodup _)
    (Keyed.nodup_erase h.profiles_nodup _) ?_ hnext
    (.absent (Keyed.get?_erase_self _ _) (Keyed.get?_erase_self _ _))
  intro other hne
  exact ⟨Keyed.get?_erase_of_ne _ hne, Keyed.get?_erase_of_ne _ hne⟩

/-- The number of somebody's followers changes, or the change fails. -/
theorem adjusted (h : Kept first s) (target : Value) (delta : Int) :
    Kept first (s.adjusted target delta) := by
  have hadvances := Profiles.adjustFollowers_advances target (.int delta) s.profiles s.supply
  rw [Society.adjusted]
  rcases Profiles.adjustFollowers_cases s.profiles s.supply target (.int delta) with
    ⟨e, v, hrun⟩ | ⟨id, v, profile, followers, hrun, -, hprofile⟩
  · rw [hrun] at hadvances
    rw [(Profiles.adjustFollowers_careful target (.int delta)).left_of_failed hrun]
    exact h.of_eq rfl rfl hadvances
  · rw [hrun] at hadvances
    rw [Method.left_of_returned hrun]
    refine h.change id.hex h.accounts_nodup (Keyed.nodup_put h.profiles_nodup _ _) ?_ hadvances ?_
    · intro other hne
      exact ⟨rfl, Keyed.get?_put_of_ne (Ne.symm hne)⟩
    · cases h.at_hex id.hex with
      | absent account_eq profile_eq => cases profile_eq.symm.trans hprofile
      | present account_eq profile_eq account_id profile_id username issued =>
        cases profile_eq.symm.trans hprofile
        exact .present account_eq (Keyed.get?_put_self _ _ _) account_id profile_id username
          (issued.mono hadvances)

/-- **A turn keeps accounts and profiles in step.** -/
theorem turn (h : Kept first s) (hfirst : first ≤ s.supply.nextHex) {action : String}
    {args : List Value} {t : Society} (hturn : Turn action args s t) : Kept first t := by
  cases hturn with
  | idle _ next_le => exact h.of_eq rfl rfl next_le
  | opened _ _ hex_eq nextHex_eq => exact h.opened hfirst hex_eq nextHex_eq rfl rfl rfl
  | renamed _ _ account_eq profile_eq next_le => exact h.renamed _ account_eq profile_eq next_le
  | closed _ next_le => exact h.closed _ _ next_le
  | followed _ _ user_id target_id =>
    refine adjusted ?_ _ _
    exact h.of_eq rfl rfl (Nat.le_trans user_id.advances target_id.advances)
  | unfollowed _ _ user_id target_id _ =>
    refine adjusted ?_ _ _
    exact h.of_eq rfl rfl (Nat.le_trans user_id.advances target_id.advances)
  | removed _ next_le => exact h.of_eq rfl rfl next_le

end Kept

/-! ## What a run comes to -/

section Turns

open Engine Method

variable {first : Nat} {s : Society} {cap : Option Int} {action : String} {args : List Value}
  {value : Value} {accounts : Accounts} {edges : Edges} {u : Supply} {last : Nat}

/-- What leaves the stores as they are and sets nothing off is an idle turn. -/
theorem turn_of_unruled {t : Society} (hclosed : closed? action args s = none)
    (haccounts : t.accounts = s.accounts) (hprofiles : t.profiles = s.profiles)
    (hedges : t.edges = s.edges) (hnext : s.supply.nextHex ≤ t.supply.nextHex)
    (hunruled : ∀ rule ∈ builtInRules, rule.anchor ≠ action) :
    Turn action args s ((builtIn cap).react ⟨action, args, value⟩ t).state := by
  rw [react_state_of_unruled _ _ hunruled]
  obtain ⟨accounts, profiles, edges, u⟩ := t
  subst haccounts hprofiles hedges
  exact .idle hclosed hnext

theorem turn_of_create {username password email : Value} {id : Ident}
    (hon : (Accounts.create username password email).on s.accounts s.supply =
      (.ok (id, accounts), u)) :
    Turn "Account.create" [username, password, email] s ((builtIn cap).react
      ⟨"Account.create", [username, password, email], .ident id⟩
      { s with accounts := accounts, supply := u }).state := by
  rcases Accounts.create_cases s.accounts s.supply username password email with
    ⟨e, hrun⟩ | ⟨id', createdAt, v, hrun, hhex, hnext, -⟩
  · cases hrun.symm.trans hon
  · cases hrun.symm.trans hon
    rw [react_create_state]
    exact .opened rfl rfl hhex hnext

/-- An account whose user name changes has a profile, and the guard of the rule finds it. -/
theorem Kept.turn_of_update (h : Kept first s) {user username : Value} {answer : Bool}
    (hon : (Accounts.update user username).on s.accounts s.supply = (.ok (answer, accounts), u))
    (hlast : u.nextHex ≤ last) (hfresh : Supply.NoRepeat first last) :
    Turn "Account.update" [user, username] s
      ((builtIn cap).react ⟨"Account.update", [user, username], .bool answer⟩
        { s with accounts := accounts, supply := u }).state := by
  have hadvances := Accounts.update_advances user username s.accounts s.supply
  rw [hon] at hadvances
  rcases Accounts.update_cases s.accounts s.supply user username with
    ⟨e, v, hrun⟩ | ⟨v, hrun⟩ | ⟨id, v, account, hrun, hid, hget, -⟩
  · cases hrun.symm.trans hon
  · cases hrun.symm.trans hon
    rw [react_update_false]
    exact .idle (closed?_of_ne (by decide)) hadvances
  · cases hrun.symm.trans hon
    obtain ⟨hrecord, hself⟩ := h.record_of_get? hid hget (Nat.le_refl _) hlast hfresh
    obtain ⟨profile, hprofile, -⟩ := h.exists_profile hget
    obtain ⟨w, hstate, hw⟩ := react_update_state cap
      { s with
        accounts := s.accounts.put id.hex { account with username := username }
        supply := u } username hrecord hself hprofile
    rw [hstate]
    exact .renamed rfl rfl hget hprofile (hw ▸ hadvances)

/-- Whoever names an account says which one it is, so this call has nothing to close. -/
theorem Kept.turn_of_delete (h : Kept first s) {user : Value} {answer : Bool}
    (hclosed : closed? "Account.delete" [user] s = none)
    (hon : (Accounts.delete user).on s.accounts s.supply = (.ok (answer, accounts), u))
    (hlast : u.nextHex ≤ last) (hfresh : Supply.NoRepeat first last) :
    Turn "Account.delete" [user] s
      ((builtIn cap).react ⟨"Account.delete", [user], .bool answer⟩
        { s with accounts := accounts, supply := u }).state := by
  have hadvances := Accounts.delete_advances user s.accounts s.supply
  rw [hon] at hadvances
  rcases Accounts.delete_cases s.accounts s.supply user with ⟨e, v, hrun, -⟩ | ⟨id, v, hrun, hid⟩
  · cases hrun.symm.trans hon
  · cases hrun.symm.trans hon
    cases hget : s.accounts.get? id.hex with
    | none =>
      rw [Keyed.has_eq, hget, Option.isSome_none, react_delete_false, Keyed.erase_of_absent hget]
      exact .idle hclosed hadvances
    | some account =>
      obtain ⟨hrecord, -⟩ := h.record_of_get? hid hget (Nat.le_refl _) hlast hfresh
      have hhas : s.accounts.has id.hex = true := by rw [Keyed.has_eq, hget]; rfl
      rw [closed?_eq_some_iff.mpr ⟨rfl, user, rfl, hrecord, hhas⟩] at hclosed
      cases hclosed

theorem turn_of_follow {user target : Value} {answer : Bool}
    (hon : (Edges.follow user target).on s.edges s.supply = (.ok (answer, edges), u)) :
    Turn "Follower.follow" [user, target] s
      ((builtIn cap).react ⟨"Follower.follow", [user, target], .bool answer⟩
        { s with edges := edges, supply := u }).state := by
  have hadvances := Edges.follow_advances user target s.edges s.supply
  rw [hon] at hadvances
  rcases Edges.follow_cases s.edges s.supply user target with
    ⟨e, v, hrun⟩ | ⟨v, hrun⟩ | ⟨a, b, v, w, hrun, ha, hb, -⟩
  · cases hrun.symm.trans hon
  · cases hrun.symm.trans hon
    rw [react_follow_false cap _ (under_follow cap)]
    exact .idle (closed?_of_ne (by decide)) hadvances
  · cases hrun.symm.trans hon
    rw [react_follow_state cap _ (under_follow cap)]
    exact .followed rfl rfl ha hb

theorem turn_of_unfollow {user target : Value} {answer : Bool}
    (hon : (Edges.unfollow user target).on s.edges s.supply = (.ok (answer, edges), u)) :
    Turn "Follower.unfollow" [user, target] s
      ((builtIn cap).react ⟨"Follower.unfollow", [user, target], .bool answer⟩
        { s with edges := edges, supply := u }).state := by
  have hadvances := Edges.unfollow_advances user target s.edges s.supply
  rw [hon] at hadvances
  rcases Edges.unfollow_cases s.edges s.supply user target with
    ⟨e, v, hrun⟩ | ⟨a, b, v, w, hrun, ha, hb⟩
  · cases hrun.symm.trans hon
  · cases hrun.symm.trans hon
    cases hjoins : s.edges.joins a b with
    | false =>
      rw [react_follow_false cap _ (under_unfollow cap), Edges.eraseP_of_joins_false hjoins]
      exact .idle (closed?_of_ne (by decide)) hadvances
    | true =>
      rw [react_follow_state cap _ (under_unfollow cap)]
      exact .unfollowed rfl rfl ha hb hjoins

/-- What closes an account reacts to its own answer. -/
theorem Kept.turn_of_closed? (cap : Option Int) (h : Kept first s) {hex : String}
    (hclosed : closed? action args s = some hex) :
    ∃ trace t events, (builtIn cap).call action args s = ⟨.returned trace, t, events⟩ ∧
      Turn action args s ((builtIn cap).react trace t).state := by
  obtain ⟨rfl, user, rfl, hrecord, hhas⟩ := closed?_eq_some_iff.mp hclosed
  obtain ⟨account, hget⟩ : ∃ account, s.accounts.get? hex = some account :=
    Option.isSome_iff_exists.mp (by rw [← Keyed.has_eq, hhas])
  obtain ⟨n, -, -, hhex⟩ := h.issued hex account hget
  rcases Accounts.delete_cases s.accounts s.supply user with
    ⟨e, v, hrun, hnone⟩ | ⟨id, v, hrun, hid⟩
  · rw [hrecord] at hnone
    cases hnone
  · obtain rfl := hid.hex_of_record hrecord
    rw [hhas] at hrun
    obtain ⟨w, hstate, hw⟩ := react_delete_state cap
      { s with accounts := s.accounts.erase id.hex, supply := v } hrecord
      (Value.same_self (hhex ▸ hrecord))
    refine ⟨_, _, _, call_of_method accountsPart rfl (by exact on_bind_returned _ hrun), ?_⟩
    refine hstate ▸ .closed hclosed ?_
    rw [hw]
    exact hid.advances

/-! ### One concept after the other -/

theorem Kept.turn_of_account (h : Kept first s) {method : String}
    {body : List Value → Method Accounts Value} (hmem : (method, body) ∈ Accounts.methods)
    (hclosed : closed? ("Account." ++ method) args s = none)
    (hon : (body args).on s.accounts s.supply = (.ok (value, accounts), u))
    (hlast : u.nextHex ≤ last) (hfresh : Supply.NoRepeat first last) :
    Turn ("Account." ++ method) args s ((builtIn cap).react ⟨"Account." ++ method, args, value⟩
      { s with accounts := accounts, supply := u }).state := by
  have hadvances := Accounts.methods_advance _ hmem args s.accounts s.supply
  rw [hon] at hadvances
  have hreads (hmethod : method ∉ ["create", "update", "delete"]) : accounts = s.accounts :=
    (Accounts.methods_read _ hmem hmethod args).keeps.eq_of_returned hon
  simp only [Accounts.methods, List.mem_cons, List.not_mem_nil, or_false, Prod.mk.injEq] at hmem
  rcases hmem with ⟨rfl, rfl⟩ | ⟨rfl, rfl⟩ | ⟨rfl, rfl⟩ | ⟨rfl, rfl⟩ | ⟨rfl, rfl⟩ | ⟨rfl, rfl⟩
  case inr.inl | inr.inr.inl | inr.inr.inr.inl =>
    exact turn_of_unruled hclosed (hreads (by decide)) rfl rfl hadvances (by decide)
  case inl =>
    dsimp only at hon
    split at hon
    · obtain ⟨id, hcall, rfl⟩ := on_map_ok hon
      exact turn_of_create hcall
    · cases hon
  case inr.inr.inr.inr.inl =>
    dsimp only at hon
    split at hon
    · obtain ⟨answer, hcall, rfl⟩ := on_map_ok hon
      exact h.turn_of_update hcall hlast hfresh
    · cases hon
  case inr.inr.inr.inr.inr =>
    dsimp only at hon
    split at hon
    · obtain ⟨answer, hcall, rfl⟩ := on_map_ok hon
      exact h.turn_of_delete hclosed hcall hlast hfresh
    · cases hon

/-- The methods that write profiles are ruled out, and the others set nothing off. -/
theorem turn_of_profile {method : String} {body : List Value → Method Profiles Value}
    {profiles : Profiles} (hmem : (method, body) ∈ Profiles.methods)
    (hallowed : "Profile." ++ method ∉ profileWriters)
    (hclosed : closed? ("Profile." ++ method) args s = none)
    (hon : (body args).on s.profiles s.supply = (.ok (value, profiles), u)) :
    Turn ("Profile." ++ method) args s ((builtIn cap).react ⟨"Profile." ++ method, args, value⟩
      { s with profiles := profiles, supply := u }).state := by
  have hadvances := Profiles.methods_advance _ hmem args s.profiles s.supply
  rw [hon] at hadvances
  have hmethod : method ∉ ["create", "rename", "adjustFollowers", "delete"] := by
    intro hmethod
    refine hallowed ?_
    simp only [profileWriters, List.mem_cons, List.not_mem_nil, or_false] at hmethod ⊢
    rcases hmethod with rfl | rfl | rfl | rfl <;> decide
  have hkeeps : profiles = s.profiles :=
    (Profiles.methods_read _ hmem hmethod args).keeps.eq_of_returned hon
  have hunruled : ∀ rule ∈ builtInRules, rule.anchor ≠ "Profile." ++ method := by
    simp only [Profiles.methods, List.mem_cons, List.not_mem_nil, or_false, Prod.mk.injEq] at hmem
    rcases hmem with ⟨rfl, -⟩ | ⟨rfl, -⟩ | ⟨rfl, -⟩ | ⟨rfl, -⟩ | ⟨rfl, -⟩ | ⟨rfl, -⟩ <;> decide
  exact turn_of_unruled hclosed rfl hkeeps rfl hadvances hunruled

theorem turn_of_follower {method : String} {body : List Value → Method Edges Value}
    (hmem : (method, body) ∈ Edges.methods)
    (hclosed : closed? ("Follower." ++ method) args s = none)
    (hon : (body args).on s.edges s.supply = (.ok (value, edges), u)) :
    Turn ("Follower." ++ method) args s ((builtIn cap).react ⟨"Follower." ++ method, args, value⟩
      { s with edges := edges, supply := u }).state := by
  have hadvances := Edges.methods_advance _ hmem args s.edges s.supply
  rw [hon] at hadvances
  have hreads (hmethod : method ∉ ["follow", "unfollow", "removeUser"]) : edges = s.edges :=
    (Edges.methods_read _ hmem hmethod args).keeps.eq_of_returned hon
  simp only [Edges.methods, List.mem_cons, List.not_mem_nil, or_false, Prod.mk.injEq] at hmem
  rcases hmem with ⟨rfl, rfl⟩ | ⟨rfl, rfl⟩ | ⟨rfl, rfl⟩ | ⟨rfl, rfl⟩ | ⟨rfl, rfl⟩
  case inr.inr.inl | inr.inr.inr.inl =>
    exact turn_of_unruled hclosed rfl rfl (hreads (by decide)) hadvances (by decide)
  case inl =>
    dsimp only at hon
    split at hon
    · obtain ⟨answer, hcall, rfl⟩ := on_map_ok hon
      exact turn_of_follow hcall
    · cases hon
  case inr.inl =>
    dsimp only at hon
    split at hon
    · obtain ⟨answer, hcall, rfl⟩ := on_map_ok hon
      exact turn_of_unfollow hcall
    · cases hon
  case inr.inr.inr.inr =>
    -- No rule is set off by this one, so the numbers stay as they are.
    have hunruled : ∀ rule ∈ builtInRules, rule.anchor ≠ "Follower." ++ "removeUser" := by decide
    rw [react_state_of_unruled _ _ hunruled]
    exact .removed rfl hadvances

/-- **What a call answers, and the reaction to it, make a turn.** -/
theorem Kept.turn_of_answers (h : Kept first s) {t : Society}
    (hallowed : action ∉ profileWriters) (hclosed : closed? action args s = none)
    (hanswers : Answers action args s value t) (hlast : t.supply.nextHex ≤ last)
    (hfresh : Supply.NoRepeat first last) :
    Turn action args s ((builtIn cap).react ⟨action, args, value⟩ t).state := by
  have hadvances := hanswers.advances
  cases hanswers with
  | account mem action_eq on_eq =>
    subst action_eq
    exact h.turn_of_account mem hclosed on_eq hlast hfresh
  | profile mem action_eq on_eq =>
    subst action_eq
    exact turn_of_profile mem hallowed hclosed on_eq
  | follower mem action_eq on_eq =>
    subst action_eq
    exact turn_of_follower mem hclosed on_eq
  | merge mem action_eq on_eq =>
    subst action_eq
    obtain ⟨rfl, rfl⟩ := Prod.mk.inj (List.mem_singleton.mp mem)
    exact turn_of_unruled hclosed rfl rfl rfl hadvances (by decide)
  | mapper mem action_eq on_eq =>
    subst action_eq
    obtain ⟨rfl, rfl⟩ := Prod.mk.inj (List.mem_singleton.mp mem)
    exact turn_of_unruled hclosed rfl rfl rfl hadvances (by decide)

/-- **Every run of a society in step is a turn, however it ends.** -/
theorem Kept.turn_of_ends (h : Kept first s) (hallowed : action ∉ profileWriters)
    {run : Run Society History} (hends : (builtIn cap).Ends action args s run)
    (hfresh : Supply.NoRepeat first run.state.supply.nextHex) :
    Turn action args s run.state := by
  rcases hclosed : closed? action args s with _ | hex
  · rcases call_builtIn_cases cap action args s with
      ⟨e, u, events, hcall, hnext⟩ | ⟨value, t, hanswers, hcall⟩
    · rcases hends.flat (builtIn_flat cap) with
        ⟨e', events', hcall', -⟩ | ⟨trace, t', events', hcall', -⟩
      · rw [hcall] at hcall'
        have hstate : run.state = { s with supply := u } := (congrArg Run.state hcall').symm
        rw [hstate]
        exact .idle hclosed hnext
      · rw [hcall] at hcall'
        cases hcall'
    · have hstate := hends.state_of_returned (builtIn_flat cap) hcall
      have hreact := react_advances cap ⟨action, args, value⟩ t
      rw [← hstate] at hreact
      rw [hstate]
      exact h.turn_of_answers hallowed hclosed hanswers hreact hfresh
  · obtain ⟨trace, t, events, hcall, hturn⟩ := h.turn_of_closed? cap hclosed
    rw [hends.state_of_returned (builtIn_flat cap) hcall]
    exact hturn

end Turns

end Society

/-! ## Sessions -/

namespace Engine

/-- What the start has and every turn keeps, a session keeps. Only as much of the invariant is
asked for as does not go beyond what has been handed out. -/
theorem Session.turns {cap : Option Int} {start t : Society} {visits : List (Visit Society)}
    {I : List (Visit Society) → Society → Prop} {Allowed : Visit Society → Prop}
    (h : (builtIn cap).Session start visits t) (hallowed : ∀ visit ∈ visits, Allowed visit)
    (hfresh : Supply.NoRepeat start.supply.nextHex t.supply.nextHex) (hstart : I [] start)
    (hkept : ∀ visits s, I visits s → Society.Kept start.supply.nextHex s)
    (hwriters : ∀ visit, Allowed visit → visit.action ∉ Society.profileWriters)
    (hstep : ∀ (visits : List (Visit Society)) (visit : Visit Society) (t : Society),
      Allowed visit → I visits visit.state → start.supply.nextHex ≤ visit.state.supply.nextHex →
      Supply.NoRepeat start.supply.nextHex t.supply.nextHex →
      Society.Turn visit.action visit.args visit.state t → I (visits ++ [visit]) t) :
    I visits t := by
  have hall : start.supply.nextHex ≤ t.supply.nextHex ∧
      (Supply.NoRepeat start.supply.nextHex t.supply.nextHex → I visits t) := by
    refine h.invariant
      (I := fun visits s => start.supply.nextHex ≤ s.supply.nextHex ∧
        (Supply.NoRepeat start.supply.nextHex s.supply.nextHex → I visits s))
      hallowed ⟨Nat.le_refl _, fun _ => hstart⟩ ?_
    rintro visits visit run hvisit ⟨hfirst, hbefore⟩ hends
    have hadvances := hends.advances
    refine ⟨Nat.le_trans hfirst hadvances, ?_⟩
    intro hrepeat
    have hvisited := hbefore (hrepeat.mono hadvances)
    exact hstep visits visit _ hvisit hvisited hfirst hrepeat
      ((hkept _ _ hvisited).turn_of_ends (hwriters visit hvisit) hends hrepeat)
  exact hall.2 hfresh

/-- **Accounts and profiles stay in step in every session** on the built-in rules, whatever the cap
says and however the runs end, if nobody but the rules writes profiles and no fresh identifier is
handed out twice. And there is such a session for any row of calls. -/
theorem accounts_and_profiles_in_step {engine : Engine Society} (hbuiltIn : engine.IsBuiltIn)
    {start : Society} (haccounts : start.accounts = []) (hprofiles : start.profiles = []) :
    (∀ visits t, engine.Session start visits t →
      (∀ visit ∈ visits, visit.action ∉ Society.profileWriters) →
      Supply.NoRepeat start.supply.nextHex t.supply.nextHex → t.InStep) ∧
    ∀ calls : List (String × List Value), ∃ visits t, engine.Session start visits t ∧
      visits.map (fun visit => (visit.action, visit.args)) = calls := by
  obtain ⟨cap, rfl⟩ : ∃ cap, engine = builtIn cap := ⟨_, hbuiltIn.eq⟩
  refine ⟨?_, exists_session (ends_of_flat (builtIn_flat cap)) start⟩
  intro visits t hsession hallowed hfresh
  have hkept := hsession.turns (I := fun _ s => Society.Kept start.supply.nextHex s) hallowed hfresh
    (.of_empty haccounts hprofiles) (fun _ _ hkept => hkept) (fun _ hvisit => hvisit)
    fun _ _ _ _ hkept hfirst _ hturn => hkept.turn hfirst hturn
  exact hkept.toInStep

/-- A society with one account, which was opened in a run that the cap broke off. -/
def opened : Society :=
  ((builtIn (some 1)).cascade 1 "Account.create" [.text "ann", .text "secret", .text "@"] {}).state

/-- The cap breaks off the run that opens an account and the run that renames it, both of them
behind what they did to the profile. -/
theorem accounts_and_profiles_in_step_cut :
    ∃ visits t, (builtIn (some 1)).Session {} visits t ∧
      visits.map (fun visit => visit.action) = ["Account.create", "Account.update"] ∧
      t.profiles.map (fun entry => entry.2.username) = [.text "bea"] ∧ t.InStep := by
  have hopened : (builtIn (some 1)).Ends "Account.create"
      [.text "ann", .text "secret", .text "@"] {} ⟨.failed (.cascadeLimit 1), opened, _⟩ :=
    ⟨by simp, 1, rfl⟩
  have hrenamed : (builtIn (some 1)).Ends "Account.update"
      [.text (Supply.hexText 1), .text "bea"] opened ⟨.failed (.cascadeLimit 1), _, _⟩ :=
    ⟨by simp, 1, rfl⟩
  have hsession := (Session.nil.snoc hopened).snoc hrenamed
  refine ⟨_, _, hsession, rfl, rfl, ?_⟩
  refine (accounts_and_profiles_in_step (builtIn_isBuiltIn _) rfl rfl).1 _ _ hsession ?_ ?_
  · simp [Society.profileWriters]
  · exact Supply.noRepeat_of_le (by decide)

end Engine

end Synchrony
