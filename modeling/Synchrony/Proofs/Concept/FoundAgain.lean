import Synchrony.Proofs.Concept.Pairs

/-!
# What is stored under a value is found under it

A user is named by any value at all, and every call makes an identifier of it anew. A value that
names a record names the same one each time, so what one call has stored under it the next one
finds: a profile that was given is there until it is taken away, and it is taken away once; an edge
that was begun is there, is not begun again, and can be ended (`found_again`).

The empty text is the one value that has a text and names no record. Each call makes an identifier
of it that is new, so what is stored under the empty text is never found under it again
(`lost_under_empty_text`). It is found by the identifier that the stored record carries, as
everything is.
-/

set_option autoImplicit false

namespace Synchrony

open Method

namespace Profiles

/-- Whoever names a user gives them a profile, asks for it, and takes it away twice. -/
def storing (user name username bio image : Value) : List (String × List Value) := [
  ("create", [user, username, bio, image]), ("getById", [name]), ("delete", [name]),
  ("delete", [name])]

variable {profiles : Profiles}

theorem delete_of_record {user : Value} {hex : String} (hrecord : user.record? = some hex)
    (profiles : Profiles) (u : Supply) :
    ∃ v, (methods.call ("delete", [user])).on profiles u =
      (.ok (.bool (profiles.has hex), profiles.erase hex), v) := by
  rcases delete_cases profiles u user with ⟨e, v, -, hnone⟩ | ⟨id, v, hrun, hid⟩
  · rw [hrecord] at hnone
    cases hnone
  · obtain rfl := hid.hex_of_record hrecord
    exact ⟨v, on_map_returned Value.bool hrun⟩

/-- Whatever value names its record, a profile that is there is found, and is taken away once. -/
theorem answers_of_get? {user : Value} {hex : String} {profile : Profile}
    (hrecord : user.record? = some hex) (hget : profiles.get? hex = some profile) (u : Supply) :
    methods.answers [("getById", [user]), ("delete", [user]), ("delete", [user])] (profiles, u) =
      [.ok profile.toValue, .ok (.bool true), .ok (.bool false)] := by
  obtain ⟨v, hfound, -⟩ := getById_of_get? profiles u hrecord hget
  have hgetById : (methods.call ("getById", [user])).on profiles u =
      (.ok (profile.toValue, profiles), v) := on_map_returned Profile.toValue hfound
  obtain ⟨w, hdelete⟩ := delete_of_record hrecord profiles v
  obtain ⟨x, hagain⟩ := delete_of_record hrecord (profiles.erase hex) w
  have hhas : profiles.has hex = true := by rw [Keyed.has_eq, hget]; rfl
  have hgone : (profiles.erase hex).has hex = false := by
    rw [Keyed.has_eq, Keyed.get?_erase_self]
    rfl
  rw [hhas] at hdelete
  rw [hgone] at hagain
  rw [methods.answers_cons_of_returned _ hgetById, methods.answers_cons_of_returned _ hdelete,
    methods.answers_cons_of_returned _ hagain]
  rfl

/-- A profile that was given is stored under the identifier that the user became. -/
theorem create_of_identOf {user username bio image : Value} {id : Ident} {u v : Supply}
    (hrun : (identOf user).on profiles u = (.ok (id, profiles), v)) :
    (methods.call ("create", [user, username, bio, image])).on profiles u =
      (.ok (Profile.toValue ⟨id, username, bio, image, .int 0⟩,
        profiles.put id.hex ⟨id, username, bio, image, .int 0⟩), v) := by
  have hcreate : (create user username bio image).on profiles u =
      (.ok (⟨id, username, bio, image, .int 0⟩,
        profiles.put id.hex ⟨id, username, bio, image, .int 0⟩), v) := by
    rw [create, on_bind_returned _ hrun]
    rfl
  exact on_map_returned Profile.toValue hcreate

/-- A profile is found by every value that names its record. -/
theorem answers_storing {user name username bio image : Value} {id : Ident} {u v : Supply}
    (hrun : (identOf user).on profiles u = (.ok (id, profiles), v))
    (hname : name.record? = some id.hex) :
    methods.answers (storing user name username bio image) (profiles, u) =
      [.ok (Profile.toValue ⟨id, username, bio, image, .int 0⟩),
        .ok (Profile.toValue ⟨id, username, bio, image, .int 0⟩),
        .ok (.bool true), .ok (.bool false)] := by
  rw [storing, methods.answers_cons_of_returned _ (create_of_identOf hrun),
    answers_of_get? hname (Keyed.get?_put_self _ _ _)]

end Profiles

namespace Edges

/-- A user follows another, asks about it, tries once more, and ceases to. -/
def following (user target : Value) : List (String × List Value) := [
  ("follow", [user, target]), ("isFollowing", [user, target]), ("follow", [user, target]),
  ("unfollow", [user, target])]

variable {edges : Edges}

theorem joins_of_hex_eq {a b i j : Ident} (ha : a.hex = i.hex) (hb : b.hex = j.hex) :
    edges.joins a b = edges.joins i j := by
  have hedge : Edge.joins a b = Edge.joins i j := by
    funext edge
    rw [Edge.joins, Edge.joins, Ident.sameRecord, Ident.sameRecord, Ident.sameRecord,
      Ident.sameRecord, ha, hb]
  rw [joins, joins, hedge]

/-- Whatever values name its sides, an edge that is there is found, not begun again, and ended. -/
theorem answers_of_joins {user target : Value} {i j : Ident} (hi : user.record? = some i.hex)
    (hj : target.record? = some j.hex) (hne : i.hex ≠ j.hex) (hjoins : edges.joins i j = true)
    (u : Supply) :
    methods.answers [("isFollowing", [user, target]), ("follow", [user, target]),
        ("unfollow", [user, target])] (edges, u) =
      [.ok (.bool true), .ok (.bool false), .ok (.bool true)] := by
  -- Each call makes identifiers of its own, of the same two records.
  have hsides (u : Supply) : ∃ a b v w, (identOf user).on edges u = (.ok (a, edges), v) ∧
      (identOf target).on edges v = (.ok (b, edges), w) ∧ a.hex ≠ b.hex ∧
      edges.joins a b = true := by
    obtain ⟨a, v, ha, hahex⟩ := identOf_of_record hi edges u
    obtain ⟨b, w, hb, hbhex⟩ := identOf_of_record hj edges v
    refine ⟨a, b, v, w, ha, hb, ?_, ?_⟩
    · rwa [hahex, hbhex]
    · rwa [joins_of_hex_eq hahex hbhex]
  obtain ⟨a, b, _, w, ha, hb, -, hthere⟩ := hsides u
  have hasked : (methods.call ("isFollowing", [user, target])).on edges u =
      (.ok (.bool true, edges), w) := by
    rw [call_isFollowing, on_map_returned Value.bool (isFollowing_on ha hb), hthere]
  obtain ⟨c, d, _, x, hc, hd, hne', hthere'⟩ := hsides w
  have hagain : (methods.call ("follow", [user, target])).on edges w =
      (.ok (.bool false, edges), x) := by
    have hrun := follow_on hc hd
    rw [if_neg hne', if_pos hthere'] at hrun
    rw [call_follow, on_map_returned Value.bool hrun]
  obtain ⟨e, f, _, y, he, hf, -, hthere''⟩ := hsides x
  have hended : (methods.call ("unfollow", [user, target])).on edges x =
      (.ok (.bool true, edges.eraseP (Edge.joins e f)), y) := by
    rw [call_unfollow, on_map_returned Value.bool (unfollow_on he hf), hthere'']
  rw [methods.answers_cons_of_returned _ hasked, methods.answers_cons_of_returned _ hagain,
    methods.answers_cons_of_returned _ hended]
  rfl

/-- What a new edge joins, if the values that it was begun with name users. -/
theorem exists_of_followed {user target : Value} {u : Supply} (huser : user ≠ .text "")
    (htarget : target ≠ .text "")
    (h : (methods.call ("follow", [user, target])).answer edges u = .ok (.bool true)) :
    ∃ i j w, user.record? = some i.hex ∧ target.record? = some j.hex ∧ i.hex ≠ j.hex ∧
      (methods.call ("follow", [user, target])).on edges u =
        (.ok (.bool true, edges ++ [⟨i, j⟩]), w) := by
  rw [call_follow] at h ⊢
  rcases identOf_cases user edges u with ⟨hrun, -⟩ | ⟨i, v, hi, hid⟩
  · rw [follow, answer_of_failed (on_bind_failed _ (on_bind_failed _ hrun))] at h
    cases h
  rcases identOf_cases target edges v with ⟨hrun, -⟩ | ⟨j, w, hj, hid'⟩
  · have hfailed : (follow user target).on edges u = (.error .tooManyDigits, v) := by
      rw [follow, on_bind_returned _ hi, on_bind_failed _ hrun]
    rw [answer_of_failed (on_bind_failed _ hfailed)] at h
    cases h
  obtain ⟨a, ha⟩ := exists_record_of_identOf hi huser
  obtain ⟨b, hb⟩ := exists_record_of_identOf hj htarget
  obtain rfl := hid.hex_of_record ha
  obtain rfl := hid'.hex_of_record hb
  have hfollow := follow_on hi hj
  by_cases hself : i.hex = j.hex
  · rw [if_pos hself] at hfollow
    rw [answer_of_failed (on_bind_failed _ hfollow)] at h
    cases h
  rw [if_neg hself] at hfollow
  by_cases hjoins : edges.joins i j = true
  · rw [if_pos hjoins] at hfollow
    rw [answer_of_returned (on_map_returned Value.bool hfollow)] at h
    cases h
  · rw [if_neg hjoins] at hfollow
    exact ⟨i, j, w, ha, hb, hself, on_map_returned Value.bool hfollow⟩

/-- An edge that was begun is found by the values that it was begun with. -/
theorem answers_following {user target : Value} {u : Supply} (huser : user ≠ .text "")
    (htarget : target ≠ .text "")
    (h : (methods.call ("follow", [user, target])).answer edges u = .ok (.bool true)) :
    methods.answers (following user target) (edges, u) =
      [.ok (.bool true), .ok (.bool true), .ok (.bool false), .ok (.bool true)] := by
  obtain ⟨i, j, w, hi, hj, hne, hbegun⟩ := exists_of_followed huser htarget h
  have hnew : Edges.joins (edges ++ [⟨i, j⟩]) i j = true := by
    simp [joins, Edge.joins, Ident.sameRecord]
  rw [following, methods.answers_cons_of_returned _ hbegun, answers_of_joins hi hj hne hnew]

end Edges

/-! ## All that is stored -/

/-- **What is stored under a value is found again under it**, unless it is the empty text, and the
record of a profile is found again by the identifier in it, whatever it was stored under. -/
theorem found_again (user target : Value) :
    (∀ (profiles : Profiles) (u : Supply) (username bio image record : Value),
      (Profiles.methods.call ("create", [user, username, bio, image])).answer profiles u =
          .ok record →
        (user ≠ .text "" →
          Profiles.methods.answers (Profiles.storing user user username bio image) (profiles, u) =
            [.ok record, .ok record, .ok (.bool true), .ok (.bool false)]) ∧
        ∃ id, record = Profile.toValue ⟨id, username, bio, image, .int 0⟩ ∧
          Profiles.methods.answers (Profiles.storing user (.ident id) username bio image)
              (profiles, u) =
            [.ok record, .ok record, .ok (.bool true), .ok (.bool false)]) ∧
    ∀ (edges : Edges) (u : Supply), user ≠ .text "" → target ≠ .text "" →
      (Edges.methods.call ("follow", [user, target])).answer edges u = .ok (.bool true) →
        Edges.methods.answers (Edges.following user target) (edges, u) =
          [.ok (.bool true), .ok (.bool true), .ok (.bool false), .ok (.bool true)] := by
  refine ⟨?_, fun edges u huser htarget h => Edges.answers_following huser htarget h⟩
  intro profiles u username bio image record h
  rcases identOf_cases user profiles u with ⟨hrun, -⟩ | ⟨id, v, hrun, hid⟩
  · have hfailed : (Profiles.methods.call ("create", [user, username, bio, image])).on profiles u =
        (.error .tooManyDigits, u) := on_bind_failed _ (on_bind_failed _ hrun)
    rw [answer_of_failed hfailed] at h
    cases h
  · rw [answer_of_returned (Profiles.create_of_identOf hrun)] at h
    cases h
    refine ⟨fun hempty => ?_, id, rfl, Profiles.answers_storing hrun rfl⟩
    obtain ⟨hex, hrecord⟩ := exists_record_of_identOf hrun hempty
    obtain rfl := hid.hex_of_record hrecord
    exact Profiles.answers_storing hrun hrecord

/-- A profile for nothing at all, and a truth value that follows it. -/
theorem found_again_null :
    ∃ record,
      Profiles.methods.answers
          (Profiles.storing .null .null (.text "nobody") (.text "") (.text "")) ([], {}) =
        [.ok record, .ok record, .ok (.bool true), .ok (.bool false)] ∧
      Edges.methods.answers (Edges.following (.bool true) .null) ([], {}) =
        [.ok (.bool true), .ok (.bool true), .ok (.bool false), .ok (.bool true)] := by
  have hcreates : (Profiles.methods.call
      ("create", [.null, .text "nobody", .text "", .text ""])).answer [] {} = .ok _ := rfl
  have hfollows : (Edges.methods.call ("follow", [.bool true, .null])).answer [] {} =
      .ok (.bool true) := rfl
  obtain ⟨hstored, -⟩ := (found_again .null .null).1 [] {} _ _ _ _ hcreates
  have hfollowed := (found_again (.bool true) .null).2 [] {} (by simp) (by simp) hfollows
  exact ⟨_, hstored (by simp), hfollowed⟩

/-- **What is stored under the empty text is lost**: it is not found under it, cannot be taken away,
and is stored once more. -/
theorem lost_under_empty_text :
    (¬∀ (calls : List (String × List Value)) (user username bio image record : Value),
      (Profiles.methods.call ("create", [user, username, bio, image])).answer
          (Profiles.methods.after calls ([], {})).1 (Profiles.methods.after calls ([], {})).2 =
        .ok record →
      Profiles.methods.answers (Profiles.storing user user username bio image)
          (Profiles.methods.after calls ([], {})) =
        [.ok record, .ok record, .ok (.bool true), .ok (.bool false)]) ∧
    (∃ record, Profiles.methods.answers
        (Profiles.storing (.text "") (.text "") (.text "ann") (.text "") (.text "")) ([], {}) =
      [.ok record, .error (.concept .notFound "Profile not found!"), .ok (.bool false),
        .ok (.bool false)]) ∧
    Edges.methods.answers (Edges.following (.text "") (.text "ann")) ([], {}) =
      [.ok (.bool true), .ok (.bool false), .ok (.bool true), .ok (.bool false)] := by
  have hlost : Profiles.methods.answers
      (Profiles.storing (.text "") (.text "") (.text "ann") (.text "") (.text "")) ([], {}) =
        [.ok _, .error (.concept .notFound "Profile not found!"), .ok (.bool false),
          .ok (.bool false)] := rfl
  refine ⟨?_, ⟨_, hlost⟩, rfl⟩
  intro hall
  have hcreates : (Profiles.methods.call
      ("create", [.text "", .text "ann", .text "", .text ""])).answer [] {} = .ok _ := rfl
  have hfound : Profiles.methods.answers
      (Profiles.storing (.text "") (.text "") (.text "ann") (.text "") (.text "")) ([], {}) = _ :=
    hall [] _ _ _ _ _ hcreates
  rw [hlost] at hfound
  cases hfound

end Synchrony
