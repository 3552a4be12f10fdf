import Synchrony.Concept.Society
import Synchrony.Proofs.Concept.Methods

/-!
# What methods do to their stores

One statement for each method that writes, and it says everything that the method can do: fail, or
answer so and leave the store so. Whoever uses a method cites its statement and never opens it.

A method that only reads keeps its store, and no method takes the supply back; these two hold of
all methods of a concept alike (`Accounts.methods_read`, `Accounts.methods_advance` and so on).
-/

set_option autoImplicit false

namespace Synchrony

open Method

/-! ## Keyed stores -/

namespace Keyed

variable {α : Type}

theorem get?_erase (s : Keyed α) (key other : String) :
    (s.erase key).get? other = if other = key then none else s.get? other := by
  induction s with
  | nil => simp [erase, get?]
  | cons entry rest ih =>
    obtain ⟨k, a⟩ := entry
    rw [erase] at ih ⊢
    by_cases hk : k = key
    · subst hk
      rw [List.filter_cons_of_neg (by simp), ih]
      by_cases ho : other = k
      · simp [ho]
      · simp [ho, get?, Ne.symm ho]
    · rw [List.filter_cons_of_pos (by simpa using hk)]
      by_cases ho : k = other
      · subst ho
        simp [get?, hk]
      · simpa [get?, ho] using ih

theorem get?_erase_self (s : Keyed α) (key : String) : (s.erase key).get? key = none := by
  rw [get?_erase, if_pos rfl]

theorem get?_erase_of_ne (s : Keyed α) {key other : String} (h : other ≠ key) :
    (s.erase key).get? other = s.get? other := by
  rw [get?_erase, if_neg h]

theorem erase_of_absent {s : Keyed α} {key : String} (h : s.get? key = none) :
    s.erase key = s := by
  induction s with
  | nil => rfl
  | cons entry rest ih =>
    obtain ⟨k, a⟩ := entry
    by_cases hk : k = key
    · simp [get?, hk] at h
    · rw [get?, if_neg hk] at h
      rw [erase, List.filter_cons_of_pos (by simpa using hk)]
      exact congrArg _ (ih h)

theorem get?_put (s : Keyed α) (key other : String) (a : α) :
    (s.put key a).get? other = if other = key then some a else s.get? other := by
  by_cases h : other = key
  · subst h
    simp
  · rw [get?_put_of_ne (Ne.symm h), if_neg h]

theorem has_put (s : Keyed α) (key other : String) (a : α) :
    (s.put key a).has other = (decide (other = key) || s.has other) := by
  rw [has_eq, has_eq, get?_put]
  by_cases h : other = key <;> simp [h]

theorem nodup_erase {s : Keyed α} (h : s.keys.Nodup) (key : String) : (s.erase key).keys.Nodup :=
  List.Nodup.sublist (List.Sublist.map _ List.filter_sublist) h

end Keyed

/-! ## Accounts -/

namespace Accounts

variable (accounts : Accounts) (u : Supply)

theorem refuseTaken_cases (username : Value) :
    (∃ e, (refuseTaken username).on accounts u = (.error e, u)) ∨
    ((refuseTaken username).on accounts u = (.ok ((), accounts), u) ∧
      accounts.withUsername? username = none) := by
  rw [refuseTaken, on_bind, on_get]
  dsimp only
  cases htaken : accounts.withUsername? username with
  | none => exact Or.inr ⟨rfl, rfl⟩
  | some account =>
    simp only [Option.isSome_some, if_true]
    by_cases htext : username.hasText = true
    · simp [textOf, htext]
    · simp [textOf, htext, on_bind]

theorem create_cases (username password email : Value) :
    (∃ e, (create username password email).on accounts u = (.error e, u)) ∨
    ∃ id createdAt v, (create username password email).on accounts u =
        (.ok (id, accounts.put id.hex ⟨id, username, password, email, createdAt⟩), v) ∧
      id.hex = Supply.hexText u.nextHex ∧ v.nextHex = u.nextHex + 1 ∧
      username.isTruthy = true ∧ password.isTruthy = true ∧ email.isTruthy = true ∧
      accounts.withUsername? username = none := by
  rw [create]
  by_cases hempty : (!username.isTruthy || !password.isTruthy || !email.isTruthy) = true
  · exact Or.inl ⟨_, by rw [if_pos hempty]; rfl⟩
  · rw [if_neg hempty]
    simp only [Bool.or_eq_true, Bool.not_eq_true', not_or, Bool.not_eq_false] at hempty
    obtain ⟨⟨husername, hpassword⟩, hemail⟩ := hempty
    rcases refuseTaken_cases accounts u username with ⟨e, hrun⟩ | ⟨hrun, hfree⟩
    · exact Or.inl ⟨e, by rw [on_bind_failed _ hrun]⟩
    · rw [on_bind_returned _ hrun]
      exact Or.inr ⟨_, _, _, rfl, rfl, rfl, husername, hpassword, hemail, hfree⟩

theorem update_cases (user username : Value) :
    (∃ e v, (update user username).on accounts u = (.error e, v)) ∨
    (∃ v, (update user username).on accounts u = (.ok (false, accounts), v)) ∨
    ∃ id v account, (update user username).on accounts u =
        (.ok (true, accounts.put id.hex { account with username := username }), v) ∧
      Identifies user u id v ∧ accounts.get? id.hex = some account ∧
      username.equal account.username = false ∧ accounts.withUsername? username = none := by
  rw [update]
  rcases identOf_cases user accounts u with ⟨hrun, -⟩ | ⟨id, v, hrun, hid⟩
  · exact Or.inl ⟨_, _, by rw [on_bind_failed _ hrun]⟩
  · rw [on_bind_returned _ hrun, on_bind, on_get]
    dsimp only
    cases hget : accounts.get? id.hex with
    | none => exact Or.inl ⟨_, _, rfl⟩
    | some account =>
      dsimp only
      cases hequal : username.equal account.username with
      | true => exact Or.inr (Or.inl ⟨_, rfl⟩)
      | false =>
        rcases refuseTaken_cases accounts v username with ⟨e, hrun⟩ | ⟨hrun, hfree⟩
        · exact Or.inl ⟨_, _, by rw [if_neg (by decide), on_bind_failed _ hrun]⟩
        · rw [if_neg (by decide), on_bind_returned _ hrun]
          exact Or.inr (Or.inr ⟨id, v, account, rfl, hid, hget, hequal, hfree⟩)

theorem delete_cases (user : Value) :
    (∃ e v, (delete user).on accounts u = (.error e, v) ∧ user.record? = none) ∨
    ∃ id v, (delete user).on accounts u =
        (.ok (accounts.has id.hex, accounts.erase id.hex), v) ∧ Identifies user u id v := by
  rw [delete]
  rcases identOf_cases user accounts u with ⟨hrun, hnone⟩ | ⟨id, v, hrun, hid⟩
  · exact Or.inl ⟨_, _, on_bind_failed _ hrun, hnone⟩
  · rw [on_bind_returned _ hrun]
    exact Or.inr ⟨id, v, rfl, hid⟩

end Accounts

/-! ## Profiles -/

namespace Profiles

variable (profiles : Profiles) (u : Supply)

theorem byUser_cases (user : Value) :
    (∃ e v, (byUser user).on profiles u = (.error e, v) ∧
      ∀ hex, user.record? = some hex → profiles.get? hex = none) ∨
    ∃ id v profile, (byUser user).on profiles u = (.ok ((id.hex, profile), profiles), v) ∧
      Identifies user u id v ∧ profiles.get? id.hex = some profile := by
  rw [byUser]
  rcases identOf_cases user profiles u with ⟨hrun, hnone⟩ | ⟨id, v, hrun, hid⟩
  · refine Or.inl ⟨_, _, on_bind_failed _ hrun, ?_⟩
    intro hex hhex
    rw [hnone] at hhex
    cases hhex
  · rw [on_bind_returned _ hrun, on_bind, on_get]
    dsimp only
    cases hget : profiles.get? id.hex with
    | none =>
      refine Or.inl ⟨_, _, rfl, ?_⟩
      intro hex hhex
      rw [hid.hex_of_record hhex] at hget
      exact hget
    | some profile => exact Or.inr ⟨id, v, profile, rfl, hid, hget⟩

/-- A profile that is there is found. -/
theorem byUser_of_get? {user : Value} {hex : String} {profile : Profile}
    (hrecord : user.record? = some hex) (hget : profiles.get? hex = some profile) :
    ∃ v, (byUser user).on profiles u = (.ok ((hex, profile), profiles), v) ∧
      v.nextHex = u.nextHex := by
  rcases byUser_cases profiles u user with ⟨e, v, -, hmissing⟩ | ⟨id, v, found, hrun, hid, hfound⟩
  · rw [hmissing hex hrecord] at hget
    cases hget
  · obtain rfl := hid.hex_of_record hrecord
    rw [hget] at hfound
    cases hfound
    exact ⟨v, hrun, hid.nextHex_of_record hrecord⟩

theorem getById_of_get? {user : Value} {hex : String} {profile : Profile}
    (hrecord : user.record? = some hex) (hget : profiles.get? hex = some profile) :
    ∃ v, (getById user).on profiles u = (.ok (profile, profiles), v) ∧ v.nextHex = u.nextHex := by
  obtain ⟨v, hrun, hnext⟩ := byUser_of_get? profiles u hrecord hget
  refine ⟨v, ?_, hnext⟩
  rw [getById, on_bind_returned _ hrun]
  rfl

/-- A profile that is asked for by an identifier is stored under its hex. -/
theorem create_ident (id : Ident) (username bio image : Value) :
    (create (.ident id) username bio image).on profiles u =
      (.ok (⟨id, username, bio, image, .int 0⟩,
        profiles.put id.hex ⟨id, username, bio, image, .int 0⟩), u) := rfl

theorem rename_of_get? {user : Value} {hex : String} {profile : Profile} (username : Value)
    (hrecord : user.record? = some hex) (hget : profiles.get? hex = some profile) :
    ∃ v, (rename user username).on profiles u =
        (.ok ({ profile with username := username },
          profiles.put hex { profile with username := username }), v) ∧
      v.nextHex = u.nextHex := by
  obtain ⟨v, hrun, hnext⟩ := byUser_of_get? profiles u hrecord hget
  refine ⟨v, ?_, hnext⟩
  rw [rename, on_bind_returned _ hrun]
  rfl

theorem adjustFollowers_cases (user delta : Value) :
    (∃ e v, (adjustFollowers user delta).on profiles u = (.error e, v)) ∨
    ∃ id v profile followers, (adjustFollowers user delta).on profiles u =
        (.ok (followers, profiles.put id.hex { profile with followers := followers }), v) ∧
      Identifies user u id v ∧ profiles.get? id.hex = some profile := by
  rw [adjustFollowers]
  rcases byUser_cases profiles u user with ⟨e, v, hrun, -⟩ | ⟨id, v, profile, hrun, hid, hget⟩
  · exact Or.inl ⟨e, v, on_bind_failed _ hrun⟩
  · rw [on_bind_returned _ hrun]
    simp only [increased]
    cases delta.numeric? with
    | none => exact Or.inl ⟨_, _, rfl⟩
    | some d =>
      dsimp only
      cases profile.followers.add? d with
      | none => exact Or.inl ⟨_, _, rfl⟩
      | some sum => exact Or.inr ⟨id, v, profile, _, rfl, hid, hget⟩

/-- Integers are added without fail. -/
theorem adjustFollowers_of_get? {user : Value} {hex : String} {profile : Profile} {count : Int}
    (delta : Int) (hrecord : user.record? = some hex) (hget : profiles.get? hex = some profile)
    (hcount : profile.followers = .int count) :
    ∃ v, (adjustFollowers user (.int delta)).on profiles u =
        (.ok ((Numeric.int (count + delta)).clamp, profiles.put hex
          { profile with followers := (Numeric.int (count + delta)).clamp }), v) ∧
      v.nextHex = u.nextHex := by
  obtain ⟨v, hrun, hnext⟩ := byUser_of_get? profiles u hrecord hget
  refine ⟨v, ?_, hnext⟩
  rw [adjustFollowers, on_bind_returned _ hrun]
  simp only [increased, Value.numeric?, hcount, Numeric.add?]
  rfl

theorem delete_cases (user : Value) :
    (∃ e v, (delete user).on profiles u = (.error e, v) ∧ user.record? = none) ∨
    ∃ id v, (delete user).on profiles u =
        (.ok (profiles.has id.hex, profiles.erase id.hex), v) ∧ Identifies user u id v := by
  rw [delete]
  rcases identOf_cases user profiles u with ⟨hrun, hnone⟩ | ⟨id, v, hrun, hid⟩
  · exact Or.inl ⟨_, _, on_bind_failed _ hrun, hnone⟩
  · rw [on_bind_returned _ hrun]
    exact Or.inr ⟨id, v, rfl, hid⟩

end Profiles

/-! ## Followers -/

/-- Whether an edge begins or ends at the record of a hex. -/
def Edge.touches (hex : String) (edge : Edge) : Bool :=
  edge.user.hex == hex || edge.target.hex == hex

theorem Edge.mentions_eq (user : Ident) (edge : Edge) :
    edge.mentions user = edge.touches user.hex := rfl

namespace Edges

variable (edges : Edges) (u : Supply)

theorem eraseP_of_joins_false {edges : Edges} {a b : Ident} (h : edges.joins a b = false) :
    edges.eraseP (Edge.joins a b) = edges :=
  List.eraseP_of_forall_not (List.any_eq_false.mp h)

theorem follow_cases (user target : Value) :
    (∃ e v, (follow user target).on edges u = (.error e, v)) ∨
    (∃ v, (follow user target).on edges u = (.ok (false, edges), v)) ∨
    ∃ a b v w, (follow user target).on edges u = (.ok (true, edges ++ [⟨a, b⟩]), w) ∧
      Identifies user u a v ∧ Identifies target v b w ∧ a.sameRecord b = false ∧
      edges.joins a b = false := by
  rw [follow]
  rcases identOf_cases user edges u with ⟨hrun, -⟩ | ⟨a, v, hrun, ha⟩
  · exact Or.inl ⟨_, _, on_bind_failed _ hrun⟩
  rw [on_bind_returned _ hrun]
  rcases identOf_cases target edges v with ⟨hrun, -⟩ | ⟨b, w, hrun, hb⟩
  · exact Or.inl ⟨_, _, on_bind_failed _ hrun⟩
  rw [on_bind_returned _ hrun]
  cases hself : a.sameRecord b with
  | true => exact Or.inl ⟨_, _, rfl⟩
  | false =>
    rw [if_neg (by decide), on_bind, on_get]
    dsimp only
    cases hjoins : edges.joins a b with
    | true => exact Or.inr (Or.inl ⟨_, rfl⟩)
    | false => exact Or.inr (Or.inr ⟨a, b, v, w, rfl, ha, hb, hself, hjoins⟩)

theorem unfollow_cases (user target : Value) :
    (∃ e v, (unfollow user target).on edges u = (.error e, v)) ∨
    ∃ a b v w, (unfollow user target).on edges u =
        (.ok (edges.joins a b, edges.eraseP (Edge.joins a b)), w) ∧
      Identifies user u a v ∧ Identifies target v b w := by
  rw [unfollow]
  rcases identOf_cases user edges u with ⟨hrun, -⟩ | ⟨a, v, hrun, ha⟩
  · exact Or.inl ⟨_, _, on_bind_failed _ hrun⟩
  rw [on_bind_returned _ hrun]
  rcases identOf_cases target edges v with ⟨hrun, -⟩ | ⟨b, w, hrun, hb⟩
  · exact Or.inl ⟨_, _, on_bind_failed _ hrun⟩
  rw [on_bind_returned _ hrun]
  exact Or.inr ⟨a, b, v, w, rfl, ha, hb⟩

theorem removeUser_cases (user : Value) :
    (∃ e v, (removeUser user).on edges u = (.error e, v) ∧ user.record? = none) ∨
    ∃ id v count, (removeUser user).on edges u =
        (.ok (count, edges.filter fun edge => !edge.mentions id), v) ∧ Identifies user u id v := by
  rw [removeUser]
  rcases identOf_cases user edges u with ⟨hrun, hnone⟩ | ⟨id, v, hrun, hid⟩
  · exact Or.inl ⟨_, _, on_bind_failed _ hrun, hnone⟩
  · rw [on_bind_returned _ hrun]
    exact Or.inr ⟨id, v, _, rfl, hid⟩

end Edges

/-! ## All methods of a concept -/

namespace Accounts

theorem refuseTaken_advances (username : Value) : (refuseTaken username).Advances :=
  .bind .get fun _ => .ite _ (.bind (.textOf _) fun _ => .fail _) (.pure _)

theorem create_advances (username password email : Value) :
    (create username password email).Advances := by
  have hopen : (do
      refuseTaken username
      let id ← Method.take (Supply.ident "")
      let createdAt ← Method.take Supply.now
      modify fun accounts => accounts.put id.hex ⟨id, username, password, email, createdAt⟩
      pure id : Method Accounts Ident).Advances := by
    refine .bind (refuseTaken_advances username) fun _ => ?_
    refine .bind (.take (Supply.ident_advances "")) fun id => ?_
    refine .bind (.take fun u => Nat.le_refl u.nextHex) fun createdAt => ?_
    exact .bind (.modify _) fun _ => .pure id
  exact .ite _ (.bind (.fail _) fun _ => hopen) hopen

theorem update_advances (user username : Value) : (update user username).Advances := by
  refine .bind (.identOf user) fun id => .bind .get fun accounts => ?_
  split
  · exact .fail _
  · refine .ite _ (.pure _) ?_
    exact .bind (refuseTaken_advances username) fun _ => .bind (.modify _) fun _ => .pure _

theorem delete_advances (user : Value) : (delete user).Advances :=
  .bind (.identOf user) fun _ => .bind .get fun _ => .bind (.modify _) fun _ => .pure _

/-- Every other method only reads. -/
theorem methods_read : ∀ method ∈ methods, method.1 ∉ ["create", "update", "delete"] →
    ∀ args, (method.2 args).Reads := by
  intro method hmem hreads args
  simp only [methods, List.mem_cons, List.not_mem_nil, or_false] at hmem
  rcases hmem with rfl | rfl | rfl | rfl | rfl | rfl
  case inl | inr.inr.inr.inr.inl | inr.inr.inr.inr.inr => exact absurd (by decide) hreads
  case inr.inl =>
    dsimp only
    split
    · refine .bind (.bind .get fun _ => ?_) fun _ => .pure _
      dsimp only
      split
      · exact .pure _
      · exact .fail _
    · exact .fail _
  case inr.inr.inl =>
    dsimp only
    split
    · refine .bind (.bind (.identOf _) fun _ => .bind .get fun _ => ?_) fun _ => .pure _
      split
      · exact .pure _
      · exact .fail _
    · exact .fail _
  case inr.inr.inr.inl =>
    dsimp only
    split
    · refine .bind (.bind .get fun _ => ?_) fun _ => .pure _
      split
      · exact .pure _
      · exact .fail _
    · exact .fail _

theorem methods_advance : ∀ method ∈ methods, ∀ args, (method.2 args).Advances := by
  intro method hmem args
  by_cases hreads : method.1 ∉ ["create", "update", "delete"]
  · exact (methods_read method hmem hreads args).advances
  · simp only [methods, List.mem_cons, List.not_mem_nil, or_false] at hmem
    rcases hmem with rfl | rfl | rfl | rfl | rfl | rfl
    case inr.inl | inr.inr.inl | inr.inr.inr.inl => exact absurd (by decide) hreads
    case inl =>
      dsimp only
      split
      · exact .bind (create_advances _ _ _) fun _ => .pure _
      · exact .fail _
    case inr.inr.inr.inr.inl =>
      dsimp only
      split
      · exact .bind (update_advances _ _) fun _ => .pure _
      · exact .fail _
    case inr.inr.inr.inr.inr =>
      dsimp only
      split
      · exact .bind (delete_advances _) fun _ => .pure _
      · exact .fail _

end Accounts

namespace Profiles

theorem byUser_reads (user : Value) : (byUser user).Reads := by
  refine .bind (.identOf user) fun id => .bind .get fun profiles => ?_
  split
  · exact .pure _
  · exact .fail _

theorem create_advances (user username bio image : Value) :
    (create user username bio image).Advances :=
  .bind (.identOf user) fun _ => .bind (.modify _) fun _ => .pure _

theorem rename_advances (user username : Value) : (rename user username).Advances :=
  .bind (byUser_reads user).advances fun _ => .bind (.modify _) fun _ => .pure _

theorem adjustFollowers_advances (user delta : Value) : (adjustFollowers user delta).Advances := by
  refine .bind (byUser_reads user).advances fun found => .bind ?_ fun sum => ?_
  · rw [increased]
    split
    · exact .fail _
    · split
      · exact .pure _
      · exact .fail _
  · exact .bind (.modify _) fun _ => .pure _

theorem delete_advances (user : Value) : (delete user).Advances :=
  .bind (.identOf user) fun _ => .bind .get fun _ => .bind (.modify _) fun _ => .pure _

/-- Every other method only reads. -/
theorem methods_read :
    ∀ method ∈ methods, method.1 ∉ ["create", "rename", "adjustFollowers", "delete"] →
      ∀ args, (method.2 args).Reads := by
  intro method hmem hreads args
  simp only [methods, List.mem_cons, List.not_mem_nil, or_false] at hmem
  rcases hmem with rfl | rfl | rfl | rfl | rfl | rfl
  case inl | inr.inr.inr.inl | inr.inr.inr.inr.inl | inr.inr.inr.inr.inr =>
    exact absurd (by decide) hreads
  case inr.inl =>
    dsimp only
    split
    · exact .bind (.bind (byUser_reads _) fun _ => .pure _) fun _ => .pure _
    · exact .fail _
  case inr.inr.inl =>
    dsimp only
    split
    · refine .bind (.bind .get fun _ => ?_) fun _ => .pure _
      split
      · exact .pure _
      · exact .fail _
    · exact .fail _

theorem methods_advance : ∀ method ∈ methods, ∀ args, (method.2 args).Advances := by
  intro method hmem args
  by_cases hreads : method.1 ∉ ["create", "rename", "adjustFollowers", "delete"]
  · exact (methods_read method hmem hreads args).advances
  · simp only [methods, List.mem_cons, List.not_mem_nil, or_false] at hmem
    rcases hmem with rfl | rfl | rfl | rfl | rfl | rfl
    case inr.inl | inr.inr.inl => exact absurd (by decide) hreads
    case inl =>
      dsimp only
      split
      · exact .bind (create_advances _ _ _ _) fun _ => .pure _
      · exact .fail _
    case inr.inr.inr.inl =>
      dsimp only
      split
      · exact .bind (rename_advances _ _) fun _ => .pure _
      · exact .fail _
    case inr.inr.inr.inr.inl =>
      dsimp only
      split
      · exact .bind (adjustFollowers_advances _ _) fun _ => .pure _
      · exact .fail _
    case inr.inr.inr.inr.inr =>
      dsimp only
      split
      · exact .bind (delete_advances _) fun _ => .pure _
      · exact .fail _

end Profiles

namespace Edges

theorem follow_advances (user target : Value) : (follow user target).Advances := by
  refine .bind (.identOf user) fun a => .bind (.identOf target) fun b => ?_
  have hjoin : (do
      if (← get).joins a b then pure false
      else do
        modify fun edges => edges ++ [⟨a, b⟩]
        pure true : Method Edges Bool).Advances :=
    .bind .get fun _ => .ite _ (.pure _) (.bind (.modify _) fun _ => .pure _)
  exact .ite _ (.bind (.fail _) fun _ => hjoin) hjoin

theorem unfollow_advances (user target : Value) : (unfollow user target).Advances := by
  refine .bind (.identOf user) fun a => .bind (.identOf target) fun b => ?_
  exact .bind .get fun _ => .bind (.modify _) fun _ => .pure _

theorem removeUser_advances (user : Value) : (removeUser user).Advances := by
  refine .bind (.identOf user) fun id => .bind .get fun edges => ?_
  exact .bind (.set _) fun _ => .pure _

/-- Every other method only reads. -/
theorem methods_read : ∀ method ∈ methods, method.1 ∉ ["follow", "unfollow", "removeUser"] →
    ∀ args, (method.2 args).Reads := by
  intro method hmem hreads args
  simp only [methods, List.mem_cons, List.not_mem_nil, or_false] at hmem
  rcases hmem with rfl | rfl | rfl | rfl | rfl
  case inl | inr.inl | inr.inr.inr.inr => exact absurd (by decide) hreads
  case inr.inr.inl =>
    dsimp only
    split
    · refine .bind (.bind (.identOf _) fun _ => .bind (.identOf _) fun _ => ?_) fun _ => .pure _
      exact .bind .get fun _ => .pure _
    · exact .fail _
  case inr.inr.inr.inl =>
    dsimp only
    split
    · refine .bind (.bind (.identOf _) fun _ => ?_) fun _ => .pure _
      exact .bind .get fun _ => .pure _
    · exact .fail _

theorem methods_advance : ∀ method ∈ methods, ∀ args, (method.2 args).Advances := by
  intro method hmem args
  by_cases hreads : method.1 ∉ ["follow", "unfollow", "removeUser"]
  · exact (methods_read method hmem hreads args).advances
  · simp only [methods, List.mem_cons, List.not_mem_nil, or_false] at hmem
    rcases hmem with rfl | rfl | rfl | rfl | rfl
    case inr.inr.inl | inr.inr.inr.inl => exact absurd (by decide) hreads
    case inl =>
      dsimp only
      split
      · exact .bind (follow_advances _ _) fun _ => .pure _
      · exact .fail _
    case inr.inl =>
      dsimp only
      split
      · exact .bind (unfollow_advances _ _) fun _ => .pure _
      · exact .fail _
    case inr.inr.inr.inr =>
      dsimp only
      split
      · exact .bind (removeUser_advances _) fun _ => .pure _
      · exact .fail _

end Edges

/-! ## Methods without a store -/

theorem Method.reads_liftM {S α : Type} (x : Except Failure α) :
    (liftM x : Method S α).Reads := by
  cases x with
  | ok a => exact .pure a
  | error e => exact .fail e

theorem Merge.methods_read : ∀ method ∈ methods, ∀ args, (method.2 args).Reads := by
  intro method hmem args
  obtain rfl := List.mem_singleton.mp hmem
  dsimp only
  split
  · exact Method.reads_liftM _
  · exact .fail _

theorem Mapper.methods_read : ∀ method ∈ methods, ∀ args, (method.2 args).Reads := by
  intro method hmem args
  obtain rfl := List.mem_singleton.mp hmem
  dsimp only
  split
  · exact Method.reads_liftM _
  · exact .fail _

end Synchrony
