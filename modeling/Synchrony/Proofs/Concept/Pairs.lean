import Mathlib.Data.List.Nodup
import Synchrony.Proofs.Concept.Care

/-!
# Edges are pairs

Edges are kept in a list, looked up by going through it, and taken away where they are found first.
What a caller sees of this is a set: pairs of hexes, in the order in which they came about, each of
them once and none with two equal sides (`Follows`). Nothing is said there of positions, of the
objects that identifiers are, or of how a user was named. The answers to all that can be asked are
read off the set (`Follows.step`), and edges give the same answers and keep to the same pairs
(`Edges.Models.step`), call by call and so for every row of calls.
-/

set_option autoImplicit false

namespace Synchrony

open Method

/-- Who follows whom: pairs of users in the order in which they came about, no pair twice and nobody
with themselves. -/
structure Follows where
  pairs : List (String × String)
  nodup : pairs.Nodup
  distinct : ∀ pair ∈ pairs, pair.1 ≠ pair.2

/-- What can be asked of those who follow each other, by the hexes of the users. -/
inductive Follows.Ask where
  | follow (user target : String)
  | unfollow (user target : String)
  | isFollowing (user target : String)
  | getFollowers (target : String)
  | removeUser (user : String)

/-- What is answered. -/
inductive Follows.Answer where
  | refused
  | truth (b : Bool)
  | users (hexes : List String)
  | count (n : Nat)
  deriving DecidableEq

namespace Follows

/-- Nobody follows anybody. -/
def nobody : Follows := ⟨[], List.nodup_nil, fun _ hmem => absurd hmem List.not_mem_nil⟩

/-- One more pair, at the end. -/
def insert (s : Follows) (user target : String) (hne : user ≠ target)
    (hnew : (user, target) ∉ s.pairs) : Follows where
  pairs := s.pairs ++ [(user, target)]
  nodup := List.concat_eq_append ▸ s.nodup.concat hnew
  distinct := by
    intro pair hmem
    rcases List.mem_append.mp hmem with hmem | hmem
    · exact s.distinct pair hmem
    · rwa [List.mem_singleton.mp hmem]

/-- The pairs that a test accepts, in the same order. -/
def keep (s : Follows) (test : String × String → Bool) : Follows where
  pairs := s.pairs.filter test
  nodup := s.nodup.filter test
  distinct := fun pair hmem => s.distinct pair (List.mem_of_mem_filter hmem)

/-- Whether a user is on either side of a pair. -/
def touches (user : String) (pair : String × String) : Bool :=
  pair.1 == user || pair.2 == user

/-- The users that follow one, in order. -/
def followers (s : Follows) (target : String) : List String :=
  (s.pairs.filter fun pair => pair.2 == target).map Prod.fst

/-- The answer to what is asked, and who follows whom then. -/
def step (s : Follows) : Ask → Answer × Follows
  | .follow user target =>
    if hself : user = target then (.refused, s)
    else if hpresent : (user, target) ∈ s.pairs then (.truth false, s)
    else (.truth true, s.insert user target hself hpresent)
  | .unfollow user target =>
    (.truth (decide ((user, target) ∈ s.pairs)), s.keep fun pair => pair != (user, target))
  | .isFollowing user target => (.truth (decide ((user, target) ∈ s.pairs)), s)
  | .getFollowers target => (.users (s.followers target), s)
  | .removeUser user =>
    (.count (s.pairs.countP (touches user)), s.keep fun pair => !touches user pair)

/-- Who follows whom after all that was asked. -/
def after (s : Follows) : List Ask → Follows
  | [] => s
  | ask :: asks => (s.step ask).2.after asks

/-- The answers to all that was asked. -/
def answers (s : Follows) : List Ask → List Answer
  | [] => []
  | ask :: asks => (s.step ask).1 :: (s.step ask).2.answers asks

/-- A follower is listed once, since the pairs in question differ on that side only. -/
theorem followers_nodup (s : Follows) (target : String) : (s.followers target).Nodup := by
  refine List.Nodup.map_on ?_ (s.nodup.filter _)
  rintro ⟨user, other⟩ hmem ⟨user', other'⟩ hmem' heq
  have htarget : other = target := by simpa using (List.mem_filter.mp hmem).2
  have htarget' : other' = target := by simpa using (List.mem_filter.mp hmem').2
  exact Prod.ext heq (htarget.trans htarget'.symm)

end Follows

/-- The two sides of an edge. -/
def Edge.pair (edge : Edge) : String × String :=
  (edge.user.hex, edge.target.hex)

namespace Edges

/-- The call asks this: its arguments name the users. An identifier names one, and so does every
text that is not empty. -/
inductive Asks : String × List Value → Follows.Ask → Prop
  | follow {user target : Value} {a b : String} (user_eq : user.record? = some a)
    (target_eq : target.record? = some b) : Asks ("follow", [user, target]) (.follow a b)
  | unfollow {user target : Value} {a b : String} (user_eq : user.record? = some a)
    (target_eq : target.record? = some b) : Asks ("unfollow", [user, target]) (.unfollow a b)
  | isFollowing {user target : Value} {a b : String} (user_eq : user.record? = some a)
    (target_eq : target.record? = some b) : Asks ("isFollowing", [user, target]) (.isFollowing a b)
  | getFollowers {target : Value} {b : String} (target_eq : target.record? = some b) :
    Asks ("getFollowers", [target]) (.getFollowers b)
  | removeUser {user : Value} {a : String} (user_eq : user.record? = some a) :
    Asks ("removeUser", [user]) (.removeUser a)

/-- How an answer is told: a refusal is a failure, and users are told by identifiers. -/
inductive Shows : Except Failure Value → Follows.Answer → Prop
  | refused : Shows (.error (.concept .notAllowed "Cannot follow yourself!")) .refused
  | truth (b : Bool) : Shows (.ok (.bool b)) (.truth b)
  | users (ids : List Ident) : Shows (.ok (.list (ids.map .ident))) (.users (ids.map Ident.hex))
  | count (n : Nat) : Shows (.ok (.int n)) (.count n)

/-- The edges stand for these pairs, in this order. -/
def Models (edges : Edges) (s : Follows) : Prop :=
  edges.map Edge.pair = s.pairs

/-! ## Looking up and taking away -/

variable {edges : Edges} {s : Follows}

theorem joins_iff {a b : Ident} {edge : Edge} :
    edge.joins a b = true ↔ edge.pair = (a.hex, b.hex) := by
  simp [Edge.joins, Ident.sameRecord, Edge.pair]

theorem Models.joins_eq (h : Models edges s) (a b : Ident) :
    edges.joins a b = decide ((a.hex, b.hex) ∈ s.pairs) := by
  rw [Bool.eq_iff_iff, joins, List.any_eq_true, decide_eq_true_iff, ← h, List.mem_map]
  simp only [joins_iff]

/-- What is found first is all there is to find. -/
theorem Models.eraseP (h : Models edges s) (a b : Ident) :
    Models (edges.eraseP (Edge.joins a b)) (s.keep fun pair => pair != (a.hex, b.hex)) := by
  have htest : Edge.joins a b = (fun pair => pair == (a.hex, b.hex)) ∘ Edge.pair := by
    funext edge
    rw [Bool.eq_iff_iff, joins_iff, Function.comp, beq_iff_eq]
  show (edges.eraseP (Edge.joins a b)).map Edge.pair = s.pairs.filter fun pair => pair != _
  rw [htest, ← List.eraseP_map, h, ← List.erase_eq_eraseP', s.nodup.erase_eq_filter]

theorem Models.removed (h : Models edges s) (a : Ident) :
    Models (edges.filter fun edge => !edge.mentions a)
      (s.keep fun pair => !Follows.touches a.hex pair) := by
  show List.map Edge.pair _ = s.pairs.filter _
  rw [← h, List.filter_map]
  rfl

theorem Models.count (h : Models edges s) (a : Ident) :
    edges.length - (edges.filter fun edge => !edge.mentions a).length =
      s.pairs.countP (Follows.touches a.hex) := by
  have hsplit := List.length_eq_length_filter_add (l := edges) (Edge.mentions a)
  have htouches : s.pairs.countP (Follows.touches a.hex) =
      (edges.filter (Edge.mentions a)).length := by
    rw [← h, List.countP_map, List.countP_eq_length_filter]
    rfl
  omega

theorem Models.followers (h : Models edges s) (b : Ident) :
    ((edges.filter fun edge => edge.target.sameRecord b).map Edge.user).map Ident.hex =
      s.followers b.hex := by
  rw [Follows.followers, ← h, List.filter_map, List.map_map, List.map_map]
  rfl

/-! ## One call -/

theorem identOf_of_record {value : Value} {hex : String} (h : value.record? = some hex)
    (edges : Edges) (u : Supply) :
    ∃ id v, (identOf value).on edges u = (.ok (id, edges), v) ∧ id.hex = hex := by
  rcases identOf_cases value edges u with ⟨-, hnone⟩ | ⟨id, v, hrun, hid⟩
  · rw [h] at hnone
    cases hnone
  · exact ⟨id, v, hrun, hid.hex_of_record h⟩

/-- What a method did, beside what was asked. -/
def Agrees (method : Method Edges Value) (edges : Edges) (u : Supply)
    (outcome : Follows.Answer × Follows) : Prop :=
  Shows (method.answer edges u) outcome.1 ∧ Models (method.left edges u).1 outcome.2

theorem agrees_of_returned {method : Method Edges Value} {t : Edges} {u v : Supply} {value : Value}
    {outcome : Follows.Answer × Follows} (hrun : method.on edges u = (.ok (value, t), v))
    (hshows : Shows (.ok value) outcome.1) (hmodels : Models t outcome.2) :
    Agrees method edges u outcome := by
  rw [Agrees, answer_of_returned hrun, left_of_returned hrun]
  exact ⟨hshows, hmodels⟩

theorem agrees_of_failed {method : Method Edges Value} (hcareful : method.Careful) {u v : Supply}
    {e : Failure} {outcome : Follows.Answer × Follows} (hrun : method.on edges u = (.error e, v))
    (hshows : Shows (.error e) outcome.1) (hmodels : Models edges outcome.2) :
    Agrees method edges u outcome := by
  rw [Agrees, answer_of_failed hrun, hcareful.left_of_failed hrun]
  exact ⟨hshows, hmodels⟩

theorem call_follow (user target : Value) :
    methods.call ("follow", [user, target]) =
      follow user target >>= fun new => pure (Value.bool new) := rfl

theorem call_unfollow (user target : Value) :
    methods.call ("unfollow", [user, target]) =
      unfollow user target >>= fun found => pure (Value.bool found) := rfl

theorem call_isFollowing (user target : Value) :
    methods.call ("isFollowing", [user, target]) =
      isFollowing user target >>= fun found => pure (Value.bool found) := rfl

/-- What follows once both users are known. -/
theorem follow_on {user target : Value} {i j : Ident} {u v w : Supply}
    (hi : (identOf user).on edges u = (.ok (i, edges), v))
    (hj : (identOf target).on edges v = (.ok (j, edges), w)) :
    (follow user target).on edges u =
      if i.hex = j.hex then (.error (.concept .notAllowed "Cannot follow yourself!"), w)
      else if edges.joins i j then (.ok (false, edges), w)
      else (.ok (true, edges ++ [⟨i, j⟩]), w) := by
  rw [follow, on_bind_returned _ hi, on_bind_returned _ hj, Ident.sameRecord]
  by_cases hself : i.hex = j.hex
  · rw [if_pos hself, if_pos (beq_iff_eq.mpr hself)]
    rfl
  · rw [if_neg hself, if_neg (mt beq_iff_eq.mp hself), on_bind, on_get]
    cases hjoins : edges.joins i j <;> simp only [hjoins] <;> rfl

theorem unfollow_on {user target : Value} {i j : Ident} {u v w : Supply}
    (hi : (identOf user).on edges u = (.ok (i, edges), v))
    (hj : (identOf target).on edges v = (.ok (j, edges), w)) :
    (unfollow user target).on edges u =
      (.ok (edges.joins i j, edges.eraseP (Edge.joins i j)), w) := by
  rw [unfollow, on_bind_returned _ hi, on_bind_returned _ hj]
  rfl

theorem isFollowing_on {user target : Value} {i j : Ident} {u v w : Supply}
    (hi : (identOf user).on edges u = (.ok (i, edges), v))
    (hj : (identOf target).on edges v = (.ok (j, edges), w)) :
    (isFollowing user target).on edges u = (.ok (edges.joins i j, edges), w) := by
  rw [isFollowing, on_bind_returned _ hi, on_bind_returned _ hj]
  rfl

theorem agrees_follow (h : Models edges s) {user target : Value} {a b : String}
    (ha : user.record? = some a) (hb : target.record? = some b) (u : Supply) :
    Agrees (methods.call ("follow", [user, target])) edges u (s.step (.follow a b)) := by
  obtain ⟨i, v, hi, rfl⟩ := identOf_of_record ha edges u
  obtain ⟨j, w, hj, rfl⟩ := identOf_of_record hb edges v
  have hrun := follow_on hi hj
  rw [call_follow, Follows.step]
  by_cases hself : i.hex = j.hex
  · rw [if_pos hself] at hrun
    rw [dif_pos hself]
    exact agrees_of_failed ((follow_careful user target).map _) (on_bind_failed _ hrun) .refused h
  · rw [if_neg hself] at hrun
    rw [dif_neg hself]
    by_cases hpresent : (i.hex, j.hex) ∈ s.pairs
    · rw [if_pos (by simpa [h.joins_eq])] at hrun
      rw [dif_pos hpresent]
      exact agrees_of_returned (on_map_returned _ hrun) (.truth _) h
    · rw [if_neg (by simpa [h.joins_eq])] at hrun
      rw [dif_neg hpresent]
      refine agrees_of_returned (on_map_returned _ hrun) (.truth _) ?_
      show List.map Edge.pair _ = s.pairs ++ [(i.hex, j.hex)]
      rw [List.map_append, h]
      rfl

theorem agrees_unfollow (h : Models edges s) {user target : Value} {a b : String}
    (ha : user.record? = some a) (hb : target.record? = some b) (u : Supply) :
    Agrees (methods.call ("unfollow", [user, target])) edges u (s.step (.unfollow a b)) := by
  obtain ⟨i, v, hi, rfl⟩ := identOf_of_record ha edges u
  obtain ⟨j, w, hj, rfl⟩ := identOf_of_record hb edges v
  rw [call_unfollow]
  refine agrees_of_returned (on_map_returned _ (unfollow_on hi hj)) ?_ (h.eraseP i j)
  rw [h.joins_eq]
  exact .truth _

theorem agrees_isFollowing (h : Models edges s) {user target : Value} {a b : String}
    (ha : user.record? = some a) (hb : target.record? = some b) (u : Supply) :
    Agrees (methods.call ("isFollowing", [user, target])) edges u (s.step (.isFollowing a b)) := by
  obtain ⟨i, v, hi, rfl⟩ := identOf_of_record ha edges u
  obtain ⟨j, w, hj, rfl⟩ := identOf_of_record hb edges v
  rw [call_isFollowing]
  refine agrees_of_returned (on_map_returned _ (isFollowing_on hi hj)) ?_ h
  rw [h.joins_eq]
  exact .truth _

theorem agrees_getFollowers (h : Models edges s) {target : Value} {b : String}
    (hb : target.record? = some b) (u : Supply) :
    Agrees (methods.call ("getFollowers", [target])) edges u (s.step (.getFollowers b)) := by
  have hcall : methods.call ("getFollowers", [target]) =
      getFollowers target >>= fun ids => pure (Value.list (ids.map Value.ident)) := rfl
  obtain ⟨j, w, hj, rfl⟩ := identOf_of_record hb edges u
  have hrun : (getFollowers target).on edges u =
      (.ok ((edges.filter fun edge => edge.target.sameRecord j).map Edge.user, edges), w) := by
    rw [getFollowers, on_bind_returned _ hj]
    rfl
  rw [hcall]
  refine agrees_of_returned (on_map_returned _ hrun) ?_ h
  rw [Follows.step, ← h.followers]
  exact .users _

theorem agrees_removeUser (h : Models edges s) {user : Value} {a : String}
    (ha : user.record? = some a) (u : Supply) :
    Agrees (methods.call ("removeUser", [user])) edges u (s.step (.removeUser a)) := by
  have hcall : methods.call ("removeUser", [user]) =
      removeUser user >>= fun count : Nat => pure (Value.int count) := rfl
  obtain ⟨i, v, hi, rfl⟩ := identOf_of_record ha edges u
  have hrun : (removeUser user).on edges u =
      (.ok (s.pairs.countP (Follows.touches i.hex),
        edges.filter fun edge => !edge.mentions i), v) := by
    rw [removeUser, on_bind_returned _ hi, ← h.count]
    rfl
  rw [hcall]
  exact agrees_of_returned (on_map_returned _ hrun) (.count _) (h.removed i)

/-- **Whatever a call asks, edges answer and do as the pairs say.** -/
theorem Models.step (h : Models edges s) {call : String × List Value} {ask : Follows.Ask}
    (hasks : Asks call ask) (u : Supply) : Agrees (methods.call call) edges u (s.step ask) := by
  cases hasks with
  | follow user_eq target_eq => exact agrees_follow h user_eq target_eq u
  | unfollow user_eq target_eq => exact agrees_unfollow h user_eq target_eq u
  | isFollowing user_eq target_eq => exact agrees_isFollowing h user_eq target_eq u
  | getFollowers target_eq => exact agrees_getFollowers h target_eq u
  | removeUser user_eq => exact agrees_removeUser h user_eq u

/-! ## Rows of calls -/

theorem Models.row {calls : List (String × List Value)} {asks : List Follows.Ask}
    (hasks : List.Forall₂ Asks calls asks) (h : Models edges s) (u : Supply) :
    List.Forall₂ Shows (methods.answers calls (edges, u)) (s.answers asks) ∧
      Models (methods.after calls (edges, u)).1 (s.after asks) := by
  induction hasks generalizing edges s u with
  | nil => exact ⟨.nil, h⟩
  | cons hask _ ih =>
    obtain ⟨hshows, hmodels⟩ := h.step hask u
    obtain ⟨hrest, hafter⟩ := ih hmodels _
    exact ⟨.cons hshows hrest, hafter⟩

end Edges

/-- No follower is listed twice in an answer. -/
theorem Follows.users_nodup {s : Follows} {asks : List Follows.Ask} {hexes : List String}
    (h : .users hexes ∈ s.answers asks) : hexes.Nodup := by
  induction asks generalizing s with
  | nil => cases h
  | cons ask asks ih =>
    rcases List.mem_cons.mp h with hstep | hrest
    · cases ask with
      | getFollowers target =>
        cases hstep
        exact s.followers_nodup target
      | follow user target =>
        rw [step] at hstep
        split at hstep
        · cases hstep
        · split at hstep <;> cases hstep
      | _ => cases hstep
    · exact ih hrest

/-- **Edges are a set of pairs.** After any row of calls from the beginning, whose arguments name
users, the edges stand for the pairs that the same row makes of an empty set, in the same order, so
that no two of them are equal and none leads from a user to itself; and every answer was the one
that the set gives, where nobody is listed twice. -/
theorem Edges.agree_with_pairs {calls : List (String × List Value)} {asks : List Follows.Ask}
    (hasks : List.Forall₂ Edges.Asks calls asks) (u : Supply) :
    List.Forall₂ Edges.Shows (Edges.methods.answers calls ([], u)) (Follows.nobody.answers asks) ∧
    (Edges.methods.after calls ([], u)).1.map Edge.pair = (Follows.nobody.after asks).pairs ∧
    ((Edges.methods.after calls ([], u)).1.map Edge.pair).Nodup ∧
    (∀ edge ∈ (Edges.methods.after calls ([], u)).1, edge.user.hex ≠ edge.target.hex) ∧
    ∀ hexes, .users hexes ∈ Follows.nobody.answers asks → hexes.Nodup := by
  have hnobody : Edges.Models [] Follows.nobody := rfl
  obtain ⟨hshows, hmodels⟩ := hnobody.row hasks u
  refine ⟨hshows, hmodels, ?_, ?_, fun hexes => Follows.users_nodup⟩
  · rw [hmodels]
    exact (Follows.nobody.after asks).nodup
  · intro edge hmem
    refine (Follows.nobody.after asks).distinct edge.pair ?_
    rw [← hmodels]
    exact List.mem_map_of_mem hmem

/-- Ann and Bob, named by texts and by identifiers: one edge begun twice, one refused, one counted
and taken away. -/
def namedBothWays : List (String × List Value) := [
  ("follow", [.ident ⟨"ann", 1⟩, .text "bob"]),
  ("follow", [.text "ann", .ident ⟨"bob", 2⟩]),
  ("follow", [.text "ann", .ident ⟨"ann", 3⟩]),
  ("follow", [.text "zoe", .text "bob"]),
  ("getFollowers", [.text "bob"]),
  ("unfollow", [.text "zoe", .text "bob"]),
  ("isFollowing", [.text "zoe", .text "bob"]),
  ("removeUser", [.ident ⟨"bob", 4⟩])]

/-- The answers are those of the pairs. -/
theorem Edges.agree_with_pairs_named_both_ways :
    ∃ answers, List.Forall₂ Edges.Shows (Edges.methods.answers namedBothWays ([], {})) answers ∧
      answers = [.truth true, .truth false, .refused, .truth true, .users ["ann", "zoe"],
        .truth true, .truth false, .count 1] ∧
      (Edges.methods.after namedBothWays ([], {})).1.map Edge.pair = [] := by
  have hasks : List.Forall₂ Edges.Asks namedBothWays
      [.follow "ann" "bob", .follow "ann" "bob", .follow "ann" "ann", .follow "zoe" "bob",
        .getFollowers "bob", .unfollow "zoe" "bob", .isFollowing "zoe" "bob", .removeUser "bob"] :=
    .cons (.follow rfl rfl) <| .cons (.follow rfl rfl) <| .cons (.follow rfl rfl) <|
    .cons (.follow rfl rfl) <| .cons (.getFollowers rfl) <| .cons (.unfollow rfl rfl) <|
    .cons (.isFollowing rfl rfl) <| .cons (.removeUser rfl) .nil
  obtain ⟨hshows, hpairs, -⟩ := Edges.agree_with_pairs hasks {}
  exact ⟨_, hshows, by decide, hpairs⟩

end Synchrony
