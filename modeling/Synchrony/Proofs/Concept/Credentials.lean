import Mathlib.Data.List.Induction
import Mathlib.Data.List.Nodup
import Synchrony.Proofs.Concept.Care
import Synchrony.Proofs.Value.PartialEquivalence

/-!
# Credentials

Three kinds of calls write accounts, and what they write is said once (`Accounts.Writes`): an
account is opened, gets another user name, or is closed. Two invariants follow for every row of
calls.

No two accounts have equal user names (`Accounts.Apart`). Whoever opens an account or renames one is
refused a name that is taken, and it does not matter that the name is looked for on one side of the
comparison only, since equality of data goes both ways (`Value.equal_symm`).

An account is opened with a user name, a password and an email that are all present, and password
and email are never written again. The user name is, and nobody looks at it then: credentials are
complete just as long as no account was given an empty user name (`Accounts.Blanks`).
-/

set_option autoImplicit false

namespace Synchrony

open Method

namespace Accounts

/-! ## What calls write -/

/-- What a call leaves of the accounts. -/
inductive Writes (call : String × List Value) (accounts : Accounts) (u : Supply) : Accounts → Prop
  | nothing : Writes call accounts u accounts
  | opened {username password email : Value} {id : Ident} {createdAt : Binary64}
    (call_eq : call = ("create", [username, password, email]))
    (username_present : username.isTruthy = true) (password_present : password.isTruthy = true)
    (email_present : email.isTruthy = true)
    (username_free : accounts.withUsername? username = none) :
    Writes call accounts u (accounts.put id.hex ⟨id, username, password, email, createdAt⟩)
  | renamed {user username : Value} {hex : String} {account : Account}
    (call_eq : call = ("update", [user, username]))
    (answer_eq : (methods.call call).answer accounts u = .ok (.bool true))
    (account_eq : accounts.get? hex = some account)
    (username_free : accounts.withUsername? username = none) :
    Writes call accounts u (accounts.put hex { account with username := username })
  | closed {user : Value} {hex : String} (call_eq : call = ("delete", [user])) :
    Writes call accounts u (accounts.erase hex)

theorem call_create (username password email : Value) :
    methods.call ("create", [username, password, email]) =
      create username password email >>= fun id => pure (Value.ident id) := rfl

theorem call_update (user username : Value) :
    methods.call ("update", [user, username]) =
      update user username >>= fun renamed => pure (Value.bool renamed) := rfl

theorem call_delete (user : Value) :
    methods.call ("delete", [user]) = delete user >>= fun found => pure (Value.bool found) := rfl

theorem writes_create (username password email : Value) (accounts : Accounts) (u : Supply) :
    Writes ("create", [username, password, email]) accounts u
      ((methods.call ("create", [username, password, email])).left accounts u).1 := by
  rw [call_create]
  rcases create_cases accounts u username password email with
    ⟨e, hrun⟩ | ⟨id, createdAt, v, hrun, -, -, husername, hpassword, hemail, hfree⟩
  · rw [((create_careful username password email).map _).left_of_failed (on_bind_failed _ hrun)]
    exact .nothing
  · rw [left_of_returned (on_map_returned _ hrun)]
    exact .opened rfl husername hpassword hemail hfree

theorem writes_update (user username : Value) (accounts : Accounts) (u : Supply) :
    Writes ("update", [user, username]) accounts u
      ((methods.call ("update", [user, username])).left accounts u).1 := by
  rcases update_cases accounts u user username with
    ⟨e, v, hrun⟩ | ⟨v, hrun⟩ | ⟨id, v, account, hrun, -, hget, -, hfree⟩
  · rw [call_update, ((update_careful user username).map _).left_of_failed (on_bind_failed _ hrun)]
    exact .nothing
  · rw [call_update, left_of_returned (on_map_returned _ hrun)]
    exact .nothing
  · have hcall := on_map_returned Value.bool hrun
    rw [← call_update] at hcall
    rw [left_of_returned hcall]
    exact .renamed rfl (answer_of_returned hcall) hget hfree

theorem writes_delete (user : Value) (accounts : Accounts) (u : Supply) :
    Writes ("delete", [user]) accounts u
      ((methods.call ("delete", [user])).left accounts u).1 := by
  rw [call_delete]
  rcases delete_cases accounts u user with ⟨e, v, hrun, -⟩ | ⟨id, v, hrun, -⟩
  · rw [((delete_careful user).map _).left_of_failed (on_bind_failed _ hrun)]
    exact .nothing
  · rw [left_of_returned (on_map_returned _ hrun)]
    exact .closed rfl

theorem writes_of_keeps {call : String × List Value} (h : (methods.call call).Keeps)
    (accounts : Accounts) (u : Supply) :
    Writes call accounts u ((methods.call call).left accounts u).1 := by
  rw [h.left]
  exact .nothing

/-- **Everything that a call can do to the accounts.** -/
theorem writes (call : String × List Value) (accounts : Accounts) (u : Supply) :
    Writes call accounts u ((methods.call call).left accounts u).1 := by
  obtain ⟨name, args⟩ := call
  rcases methods.call_cases name args with ⟨body, hmem, hcall⟩ | hcall
  · by_cases hreads : name ∉ ["create", "update", "delete"]
    · refine writes_of_keeps ?_ accounts u
      rw [hcall]
      exact (methods_read _ hmem hreads args).keeps
    · simp only [List.mem_cons, List.not_mem_nil, or_false, not_not] at hreads
      rcases hreads with rfl | rfl | rfl
      · match args with
        | [username, password, email] => exact writes_create username password email accounts u
        | [] | [_] | [_, _] | _ :: _ :: _ :: _ :: _ => exact .nothing
      · match args with
        | [user, username] => exact writes_update user username accounts u
        | [] | [_] | _ :: _ :: _ :: _ => exact .nothing
      · match args with
        | [user] => exact writes_delete user accounts u
        | [] | _ :: _ :: _ => exact .nothing
  · refine writes_of_keeps ?_ accounts u
    rw [hcall]
    exact .fail _

/-! ## User names -/

/-- Accounts with user names of their own: each is stored under the hex of its own identifier, and
no two have equal user names. -/
structure Apart (accounts : Accounts) : Prop where
  keys_nodup : accounts.keys.Nodup
  account_id : ∀ hex account, accounts.get? hex = some account → account.id.hex = hex
  wellFormed : ∀ hex account, accounts.get? hex = some account → account.username.WellFormed
  username : ∀ hex hex' account account', accounts.get? hex = some account →
    accounts.get? hex' = some account' → account.username.equal account'.username = true →
      hex = hex'

theorem withUsername?_eq_some {accounts : Accounts} {username : Value} {account : Account}
    (h : accounts.withUsername? username = some account) :
    (∃ hex, (hex, account) ∈ accounts) ∧ account.username.equal username = true := by
  obtain ⟨⟨hex, found⟩, hmem, rfl⟩ := List.mem_map.mp (List.mem_of_find?_eq_some h)
  have hequal := List.find?_some h
  exact ⟨⟨hex, hmem⟩, hequal⟩

theorem equal_of_withUsername?_eq_none {accounts : Accounts} {username : Value}
    (h : accounts.withUsername? username = none) {hex : String} {account : Account}
    (hget : accounts.get? hex = some account) : account.username.equal username = false := by
  have hmem : account ∈ accounts.map Prod.snd := List.mem_map_of_mem (Keyed.mem_of_get? hget)
  exact Bool.eq_false_iff.mpr (List.find?_eq_none.mp h account hmem)

/-- Whatever is written under a name that is free leaves the user names apart. -/
theorem Apart.put {accounts : Accounts} {hex : String} {account : Account} (h : Apart accounts)
    (hid : account.id.hex = hex) (hwell : account.username.WellFormed)
    (hfree : accounts.withUsername? account.username = none) :
    Apart (accounts.put hex account) where
  keys_nodup := Keyed.nodup_put h.keys_nodup hex account
  account_id := by
    intro key other hget
    rw [Keyed.get?_put] at hget
    split at hget
    next hkey =>
      cases hget
      rw [hid, hkey]
    next => exact h.account_id key other hget
  wellFormed := by
    intro key other hget
    rw [Keyed.get?_put] at hget
    split at hget
    next =>
      cases hget
      exact hwell
    next => exact h.wellFormed key other hget
  username := by
    intro key key' other other' hget hget' hequal
    rw [Keyed.get?_put] at hget hget'
    split at hget
    next hkey =>
      cases hget
      split at hget'
      next hkey' => rw [hkey, hkey']
      -- The name was looked for among the accounts, and here it is on the other side.
      next =>
        have hback := Value.equal_symm hwell (h.wellFormed _ _ hget') hequal
        rw [equal_of_withUsername?_eq_none hfree hget'] at hback
        cases hback
    next =>
      split at hget'
      next =>
        cases hget'
        rw [equal_of_withUsername?_eq_none hfree hget] at hequal
        cases hequal
      next => exact h.username key key' other other' hget hget' hequal

theorem Apart.erase {accounts : Accounts} (h : Apart accounts) (hex : String) :
    Apart (accounts.erase hex) := by
  have hkept {key : String} {account : Account}
      (hget : Keyed.get? (accounts.erase hex) key = some account) :
      accounts.get? key = some account := by
    rw [Keyed.get?_erase] at hget
    split at hget
    next => cases hget
    next => exact hget
  refine ⟨Keyed.nodup_erase h.keys_nodup hex, ?_, ?_, ?_⟩
  · exact fun key account hget => h.account_id key account (hkept hget)
  · exact fun key account hget => h.wellFormed key account (hkept hget)
  · exact fun key key' account account' hget hget' =>
      h.username key key' account account' (hkept hget) (hkept hget')

theorem Apart.empty : Apart [] where
  keys_nodup := List.nodup_nil
  account_id := fun _ _ hget => by cases hget
  wellFormed := fun _ _ hget => by cases hget
  username := fun _ _ _ _ hget => by cases hget

theorem Apart.writes {call : String × List Value} {accounts t : Accounts} {u : Supply}
    (h : Apart accounts) (hargs : ∀ arg ∈ call.2, arg.WellFormed)
    (hwrites : Writes call accounts u t) : Apart t := by
  cases hwrites with
  | nothing => exact h
  | opened call_eq _ _ _ username_free =>
    subst call_eq
    exact h.put rfl (hargs _ List.mem_cons_self) username_free
  | @renamed _ _ _ account call_eq _ account_eq username_free =>
    subst call_eq
    have hid := h.account_id _ account account_eq
    refine h.put hid ?_ username_free
    exact hargs _ (List.mem_cons_of_mem _ List.mem_cons_self)
  | closed => exact h.erase _

theorem Apart.pairwise {accounts : Accounts} (h : Apart accounts) :
    accounts.Pairwise fun a b => a.2.username.equal b.2.username = false ∧
      b.2.username.equal a.2.username = false := by
  have hne {a b : String × Account} (ha : a ∈ accounts) (hb : b ∈ accounts) (hab : a ≠ b) :
      a.2.username.equal b.2.username = false := by
    have hget := Keyed.get?_of_mem h.keys_nodup ha
    have hget' := Keyed.get?_of_mem h.keys_nodup hb
    rw [← Bool.not_eq_true]
    intro hequal
    have hkey := h.username _ _ _ _ hget hget' hequal
    rw [hkey, hget'] at hget
    exact hab (Prod.ext hkey (Option.some.inj hget).symm)
  refine List.Nodup.pairwise_of_forall_ne (List.Nodup.of_map Prod.fst h.keys_nodup) ?_
  exact fun a ha b hb hab => ⟨hne ha hb hab, hne hb ha (Ne.symm hab)⟩

/-- An account that is found by a user name is the only one with it. -/
theorem Apart.withUsername?_unique {accounts : Accounts} (h : Apart accounts) {username : Value}
    (husername : username.WellFormed) {account : Account}
    (hfound : accounts.withUsername? username = some account) :
    accounts.get? account.id.hex = some account ∧ ∀ entry ∈ accounts,
      entry.2.username.equal username = true → entry = (account.id.hex, account) := by
  obtain ⟨⟨hex, hmem⟩, hequal⟩ := withUsername?_eq_some hfound
  have hget : accounts.get? hex = some account := Keyed.get?_of_mem h.keys_nodup hmem
  obtain rfl := h.account_id _ _ hget
  refine ⟨hget, ?_⟩
  intro entry hentry hother
  have hentryGet := Keyed.get?_of_mem h.keys_nodup hentry
  have hsymm := Value.equal_symm (h.wellFormed _ _ hget) husername hequal
  have hkey := h.username _ _ _ _ hentryGet hget (Value.equal_trans _ _ _ hother hsymm)
  rw [hkey, hget] at hentryGet
  exact Prod.ext hkey (Option.some.inj hentryGet).symm

theorem withUsername?_of_returned {accounts : Accounts} {u : Supply} {username value : Value}
    (h : (methods.call ("getByUsername", [username])).answer accounts u = .ok value) :
    ∃ account, accounts.withUsername? username = some account ∧ value = .ident account.id := by
  have hcall : methods.call ("getByUsername", [username]) =
      getByUsername username >>= fun id => pure (Value.ident id) := rfl
  rw [hcall, answer, on_bind, getByUsername, on_bind, on_get] at h
  cases hfound : accounts.withUsername? username with
  | none =>
    simp only [hfound] at h
    cases h
  | some account =>
    simp only [hfound] at h
    cases h
    exact ⟨account, rfl, rfl⟩

/-- **User names stay apart.** After any row of calls, each account is stored under the hex of its
own identifier, no two have equal user names, and whoever is found by a user name is the only one
with it. -/
theorem usernames_stay_apart {calls : List (String × List Value)}
    (hargs : ∀ call ∈ calls, ∀ arg ∈ call.2, arg.WellFormed) {u v : Supply} {accounts : Accounts}
    (hafter : methods.after calls ([], u) = (accounts, v)) :
    (∀ entry ∈ accounts, entry.2.id.hex = entry.1) ∧
    (accounts.Pairwise fun a b => a.2.username.equal b.2.username = false ∧
      b.2.username.equal a.2.username = false) ∧
    ∀ username value : Value, username.WellFormed →
      (methods.call ("getByUsername", [username])).answer accounts v = .ok value →
      ∃ account, value = .ident account.id ∧ accounts.get? account.id.hex = some account ∧
        account.username.equal username = true ∧ ∀ entry ∈ accounts,
          entry.2.username.equal username = true → entry = (account.id.hex, account) := by
  have hapart : Apart (methods.after calls ([], u)).1 :=
    methods.after_invariant (I := fun s => Apart s.1) hargs
      (fun call s hcall hs => hs.writes hcall (writes call s.1 s.2)) Apart.empty
  rw [hafter] at hapart
  refine ⟨?_, hapart.pairwise, ?_⟩
  · exact fun entry hmem => hapart.account_id _ _ (Keyed.get?_of_mem hapart.keys_nodup hmem)
  · intro username value husername hanswer
    obtain ⟨account, hfound, rfl⟩ := withUsername?_of_returned hanswer
    obtain ⟨hget, hunique⟩ := hapart.withUsername?_unique husername hfound
    exact ⟨account, rfl, hget, (withUsername?_eq_some hfound).2, hunique⟩

/-- Bob asks for the user name of Ann, and has it once she has given it up. -/
def passingOn : List (String × List Value) := [
  ("create", [.text "ann", .text "secret", .text "ann@"]),
  ("create", [.text "bob", .text "secret", .text "bob@"]),
  ("update", [.text (Supply.hexText 2), .text "ann"]),
  ("update", [.text (Supply.hexText 1), .text "zoe"]),
  ("update", [.text (Supply.hexText 2), .text "ann"])]

/-- In the end the name is found, and with Bob alone. -/
theorem usernames_stay_apart_passing_on :
    ∃ accounts v, methods.after passingOn ([], {}) = (accounts, v) ∧
      accounts.map (fun entry => entry.2.username) = [.text "zoe", .text "ann"] ∧
      ∃ account, account.id.hex = Supply.hexText 2 ∧ ∀ entry ∈ accounts,
        entry.2.username.equal (.text "ann") = true → entry = (account.id.hex, account) := by
  have hargs : ∀ call ∈ passingOn, ∀ arg ∈ call.2, arg.WellFormed := by
    intro call hmem arg harg
    simp only [passingOn, List.mem_cons, List.not_mem_nil, or_false] at hmem
    rcases hmem with rfl | rfl | rfl | rfl | rfl <;>
      simp only [List.mem_cons, List.not_mem_nil, or_false] at harg <;>
      rcases harg with rfl | rfl | rfl <;> exact .text _
  have hafter : methods.after passingOn ([], {}) = (_, _) := rfl
  obtain ⟨-, -, hfound⟩ := usernames_stay_apart hargs hafter
  obtain ⟨account, hid, -, -, hunique⟩ := hfound (.text "ann") _ (.text _) rfl
  have hbob : account.id.hex = Supply.hexText 2 := by
    rw [← Value.ident.inj hid]
    rfl
  exact ⟨_, _, hafter, rfl, account, hbob, hunique⟩

/-! ## Nothing left out -/

/-- The call gives an account an empty user name. -/
def Blanks (call : String × List Value) (s : Accounts × Supply) : Prop :=
  ∃ user username, call = ("update", [user, username]) ∧ username.isTruthy = false ∧
    (methods.call call).answer s.1 s.2 = .ok (.bool true)

theorem Writes.password_and_email {call : String × List Value} {accounts t : Accounts}
    {u : Supply} (hwrites : Writes call accounts u t)
    (h : ∀ entry ∈ accounts, entry.2.password.isTruthy = true ∧ entry.2.email.isTruthy = true) :
    ∀ entry ∈ t, entry.2.password.isTruthy = true ∧ entry.2.email.isTruthy = true := by
  intro entry hmem
  cases hwrites with
  | nothing => exact h entry hmem
  | opened _ _ password_present email_present =>
    rcases Keyed.mem_put hmem with rfl | hmem
    · exact ⟨password_present, email_present⟩
    · exact h entry hmem
  | @renamed _ _ hex account _ _ account_eq =>
    rcases Keyed.mem_put hmem with rfl | hmem
    · exact h (hex, account) (Keyed.mem_of_get? account_eq)
    · exact h entry hmem
  | closed => exact h entry (List.mem_of_mem_filter hmem)

theorem Writes.username {call : String × List Value} {accounts t : Accounts} {u : Supply}
    (hwrites : Writes call accounts u t) (hblanks : ¬Blanks call (accounts, u))
    (h : ∀ entry ∈ accounts, entry.2.username.isTruthy = true) :
    ∀ entry ∈ t, entry.2.username.isTruthy = true := by
  intro entry hmem
  cases hwrites with
  | nothing => exact h entry hmem
  | opened _ username_present =>
    rcases Keyed.mem_put hmem with rfl | hmem
    · exact username_present
    · exact h entry hmem
  | renamed call_eq answer_eq =>
    rcases Keyed.mem_put hmem with rfl | hmem
    · rw [← Bool.not_eq_false]
      exact fun hempty => hblanks ⟨_, _, call_eq, hempty, answer_eq⟩
    · exact h entry hmem
  | closed => exact h entry (List.mem_of_mem_filter hmem)

/-- An empty user name that was given is there from then on. -/
theorem Blanks.leaves {call : String × List Value} {s : Accounts × Supply} (h : Blanks call s) :
    ∃ entry ∈ ((methods.call call).left s.1 s.2).1, entry.2.username.isTruthy = false := by
  obtain ⟨user, username, rfl, hempty, hanswer⟩ := h
  rcases update_cases s.1 s.2 user username with
    ⟨e, v, hrun⟩ | ⟨v, hrun⟩ | ⟨id, v, account, hrun, -, -, -, -⟩
  · rw [call_update, answer_of_failed (on_bind_failed _ hrun)] at hanswer
    cases hanswer
  · rw [call_update, answer_of_returned (on_map_returned _ hrun)] at hanswer
    cases hanswer
  · rw [call_update, left_of_returned (on_map_returned _ hrun)]
    exact ⟨_, Keyed.mem_of_get? (Keyed.get?_put_self _ _ _), hempty⟩

/-- **Passwords and emails are never empty, and user names as long as nobody writes an empty one.**
After any row of calls every account has its password and its email. And all accounts have all of
their credentials all the way just if none of the calls gives an account an empty user name. -/
theorem credentials_complete (calls : List (String × List Value)) (u : Supply) :
    (∀ entry ∈ (methods.after calls ([], u)).1,
      entry.2.password.isTruthy = true ∧ entry.2.email.isTruthy = true) ∧
    ((∀ earlier, earlier <+: calls → ∀ entry ∈ (methods.after earlier ([], u)).1,
        entry.2.username.isTruthy = true ∧ entry.2.password.isTruthy = true ∧
          entry.2.email.isTruthy = true) ↔
      ∀ earlier call, earlier ++ [call] <+: calls →
        ¬Blanks call (methods.after earlier ([], u))) := by
  have hothers (calls : List (String × List Value)) :
      ∀ entry ∈ (methods.after calls ([], u)).1,
        entry.2.password.isTruthy = true ∧ entry.2.email.isTruthy = true :=
    methods.after_invariant
      (I := fun s : Accounts × Supply => ∀ entry ∈ s.1,
        entry.2.password.isTruthy = true ∧ entry.2.email.isTruthy = true)
      (fun _ _ => trivial : ∀ call ∈ calls, True)
      (fun call s _ hs => (writes call s.1 s.2).password_and_email hs)
      (fun _ hmem => absurd hmem List.not_mem_nil)
  refine ⟨hothers calls, ?_, ?_⟩
  · intro hcomplete earlier call hprefix hblanks
    obtain ⟨entry, hmem, hempty⟩ := hblanks.leaves
    have hafter := hcomplete (earlier ++ [call]) hprefix
    rw [methods.after_append] at hafter
    rw [(hafter entry hmem).1] at hempty
    cases hempty
  · intro hnone earlier hprefix entry hmem
    refine ⟨?_, hothers earlier entry hmem⟩
    induction earlier using List.reverseRecOn generalizing entry with
    | nil => cases hmem
    | append_singleton earlier call ih =>
      rw [methods.after_append] at hmem
      have hearlier := ih ((List.prefix_append earlier [call]).trans hprefix)
      exact (writes call _ _).username (hnone earlier call hprefix) hearlier entry hmem

/-- Ann gives herself an empty user name. -/
def namelessAnn : List (String × List Value) := [
  ("create", [.text "ann", .text "secret", .text "ann@"]),
  ("update", [.text (Supply.hexText 1), .text ""])]

/-- An account can lose its user name, though it cannot be opened without one. -/
theorem username_emptied :
    (¬∀ (calls : List (String × List Value)) (u : Supply),
      ∀ entry ∈ (methods.after calls ([], u)).1, entry.2.username.isTruthy = true) ∧
    (methods.after namelessAnn ([], {})).1.map (fun entry => entry.2.username) = [.text ""] ∧
    methods.answers [("create", [.text "", .text "secret", .text "ann@"])] ([], {}) =
      [.error (.concept .general "Username, password, and email must be non-empty!")] := by
  have hnameless : (methods.after namelessAnn ([], {})).1.map (fun entry => entry.2.username) =
      [.text ""] := rfl
  refine ⟨?_, hnameless, rfl⟩
  intro hall
  have hempty : Value.text "" ∈
      (methods.after namelessAnn ([], {})).1.map (fun entry => entry.2.username) := by
    rw [hnameless]
    exact List.mem_singleton_self _
  obtain ⟨entry, hmem, hname⟩ := List.mem_map.mp hempty
  have hpresent := hall namelessAnn {} entry hmem
  rw [hname] at hpresent
  cases hpresent

end Accounts

end Synchrony
