import Synchrony.Proofs.Society.InStep

/-!
# Numbers of followers

A profile shows how many followers its user has. The number is not read off the edges: two of the
built-in rules add one to it when an edge comes into being and take one away when the edge is ended.
As long as only these two change edges, the number is right.

Closing an account changes edges too, and no rule speaks of the numbers then. The edges to the user
are gone together with the profile that counted them, but those from the user were counted by the
profiles at their other ends, and these go on counting them. So the number of followers is that of
the edges, and in addition to them of all that were lost in this way (`Society.Tallied`).
-/

set_option autoImplicit false

namespace Synchrony

/-! ## Counting edges -/

namespace Edges

/-- How many edges lead to a user. -/
def followersOf (edges : Edges) (hex : String) : Nat :=
  edges.countP fun edge => edge.target.hex == hex

/-- How many edges lead from one user to another. -/
def between (edges : Edges) (user target : String) : Nat :=
  edges.countP fun edge => edge.user.hex == user && edge.target.hex == target

theorem followersOf_append (edges : Edges) (edge : Edge) (hex : String) :
    followersOf (edges ++ [edge]) hex =
      edges.followersOf hex + if edge.target.hex = hex then 1 else 0 := by
  by_cases h : edge.target.hex = hex <;> simp [followersOf, h]

theorem exists_of_joins {edges : Edges} {a b : Ident} (h : edges.joins a b = true) :
    ∃ edge ∈ edges, edge.target.hex = b.hex := by
  obtain ⟨edge, hmem, hjoins⟩ := List.any_eq_true.mp h
  simp only [Edge.joins, Ident.sameRecord, Bool.and_eq_true, beq_iff_eq] at hjoins
  exact ⟨edge, hmem, hjoins.2⟩

theorem followersOf_eraseP {edges : Edges} {a b : Ident} (h : edges.joins a b = true)
    (hex : String) : edges.followersOf hex =
      followersOf (edges.eraseP (Edge.joins a b)) hex + if b.hex = hex then 1 else 0 := by
  obtain ⟨edge, hmem, hjoins⟩ := List.any_eq_true.mp h
  obtain ⟨found, front, back, -, hfound, rfl, herase⟩ := List.exists_of_eraseP hmem hjoins
  rw [herase]
  simp only [Edge.joins, Ident.sameRecord, Bool.and_eq_true, beq_iff_eq] at hfound
  by_cases hhex : b.hex = hex
  · simp [followersOf, hfound.2, hhex]
    omega
  · simp [followersOf, hfound.2, hhex]

/-- What leads to another user is left, except for what came from the user who is gone. -/
theorem followersOf_filter (edges : Edges) {hex other : String} (h : other ≠ hex) :
    edges.followersOf other =
      followersOf (edges.filter fun edge => !edge.touches hex) other + edges.between hex other := by
  induction edges with
  | nil => rfl
  | cons edge edges ih =>
    simp only [followersOf, between] at ih ⊢
    by_cases htarget : edge.target.hex = other
    · by_cases huser : edge.user.hex = hex
      · simp [Edge.touches, huser, htarget, ih]
        omega
      · simp [Edge.touches, huser, htarget, h, ih]
        omega
    · by_cases htouches : edge.touches hex = true <;> simp [htarget, htouches, ih]

end Edges

/-! ## What is lost -/

/-- How many edges to somebody a visit removes because the account at their beginning is closed. -/
def Visit.lost (visit : Visit Society) (hex : String) : Nat :=
  match Society.closed? visit.action visit.args visit.state with
  | some closed => visit.state.edges.between closed hex
  | none => 0

namespace Society

/-- How many edges to somebody the visits of a session lost. -/
def lost (visits : List (Visit Society)) (hex : String) : Nat :=
  (visits.map fun visit => visit.lost hex).sum

theorem lost_append (visits : List (Visit Society)) (visit : Visit Society) (hex : String) :
    lost (visits ++ [visit]) hex = lost visits hex + visit.lost hex := by
  simp [lost]

theorem lost_of_kept {visits : List (Visit Society)} {visit : Visit Society}
    (h : closed? visit.action visit.args visit.state = none) (hex : String) :
    lost (visits ++ [visit]) hex = lost visits hex := by
  rw [lost_append, Visit.lost, h]
  rfl

/-! ## The tally -/

/-- Every profile counts the edges that lead to it, and those that the visits lost. -/
structure Counted (first : Nat) (visits : List (Visit Society)) (s : Society) : Prop where
  target_has : ∀ edge ∈ s.edges, s.profiles.has edge.target.hex = true
  issued_of_lost : ∀ hex, lost visits hex ≠ 0 → Supply.Issued first s.supply.nextHex hex
  followers : ∀ hex profile, s.profiles.get? hex = some profile →
    profile.followers = .int (s.edges.followersOf hex + lost visits hex : Nat)

/-- Accounts and profiles are in step, and the profiles count their followers. -/
structure Tallied (first : Nat) (visits : List (Visit Society)) (s : Society) : Prop
    extends Kept first s, Counted first visits s

/-- A visit that opens, renames or closes accounts, or changes who follows whom. Whoever is followed
has a profile. -/
structure Social (visit : Visit Society) : Prop where
  action_mem : visit.action ∈ ["Account.create", "Account.update", "Account.delete",
    "Follower.follow", "Follower.unfollow"]
  target_has : ∀ user target, visit.action = "Follower.follow" → visit.args = [user, target] →
    ∃ hex, target.record? = some hex ∧ visit.state.profiles.has hex = true

theorem clamp_int {n : Int} (h : 0 ≤ n) : (Numeric.int n).clamp = .int n := by
  rw [Numeric.clamp]
  split
  next => rfl
  next hpositive =>
    simp only [Numeric.isPositive, decide_eq_true_eq] at hpositive
    exact congrArg Numeric.int (by omega)

/-- A number of followers that stays above zero is changed by just so much. -/
theorem adjusted_of_get? (s : Society) (delta : Int) {target : Value} {hex : String}
    {profile : Profile} {count : Int} (hrecord : target.record? = some hex)
    (hget : s.profiles.get? hex = some profile) (hcount : profile.followers = .int count)
    (hnonneg : 0 ≤ count + delta) :
    ∃ u, s.adjusted target delta = { s with
        profiles := s.profiles.put hex { profile with followers := .int (count + delta) }
        supply := u } ∧
      u.nextHex = s.supply.nextHex := by
  obtain ⟨u, hon, hnext⟩ :=
    Profiles.adjustFollowers_of_get? s.profiles s.supply delta hrecord hget hcount
  rw [clamp_int hnonneg] at hon
  exact ⟨u, by rw [adjusted, Method.left_of_returned hon], hnext⟩

theorem Social.not_mem_writers {visit : Visit Society} (h : Social visit) :
    visit.action ∉ profileWriters := by
  have hactions : ∀ action ∈ ["Account.create", "Account.update", "Account.delete",
      "Follower.follow", "Follower.unfollow"], action ∉ profileWriters := by decide
  exact hactions _ h.action_mem

namespace Tallied

variable {first : Nat} {visits : List (Visit Society)} {visit : Visit Society} {t : Society}

theorem of_empty {s : Society} (haccounts : s.accounts = []) (hprofiles : s.profiles = [])
    (hedges : s.edges = []) : Tallied first [] s where
  toKept := .of_empty haccounts hprofiles
  toCounted := {
    target_has := by simp [hedges]
    issued_of_lost := fun hex hlost => absurd rfl hlost
    followers := by simp [hprofiles, Keyed.get?] }

/-- Whoever is followed has an account. -/
theorem exists_account (h : Tallied first visits visit.state) {edge : Edge}
    (hmem : edge ∈ visit.state.edges) :
    ∃ account, visit.state.accounts.get? edge.target.hex = some account := by
  have hhas := h.target_has edge hmem
  rw [← h.same_users, Keyed.has_eq] at hhas
  exact Option.isSome_iff_exists.mp hhas

theorem issued_of_mem (h : Tallied first visits visit.state) {edge : Edge}
    (hmem : edge ∈ visit.state.edges) :
    Supply.Issued first visit.state.supply.nextHex edge.target.hex := by
  obtain ⟨account, hget⟩ := h.exists_account hmem
  exact h.issued _ account hget

theorem issued_of_kept (h : Tallied first visits visit.state)
    (hclosed : closed? visit.action visit.args visit.state = none) {next : Nat}
    (hnext : visit.state.supply.nextHex ≤ next) (hex : String)
    (hlost : lost (visits ++ [visit]) hex ≠ 0) : Supply.Issued first next hex := by
  rw [lost_of_kept hclosed] at hlost
  exact (h.issued_of_lost hex hlost).mono hnext

/-- A turn that leaves edges and numbers alone. -/
theorem unchanged (h : Tallied first visits visit.state)
    (hclosed : closed? visit.action visit.args visit.state = none)
    (hnext : visit.state.supply.nextHex ≤ t.supply.nextHex)
    (hedges : t.edges = visit.state.edges)
    (hprofiles : ∀ hex, (t.profiles.get? hex).map Profile.followers =
      (visit.state.profiles.get? hex).map Profile.followers) :
    Counted first (visits ++ [visit]) t where
  target_has edge hmem := by
    have hsome := congrArg Option.isSome (hprofiles edge.target.hex)
    simp only [Option.isSome_map, ← Keyed.has_eq] at hsome
    rw [hsome]
    exact h.target_has edge (hedges ▸ hmem)
  issued_of_lost := h.issued_of_kept hclosed hnext
  followers hex profile hget := by
    have hsame := hprofiles hex
    rw [hget] at hsame
    obtain ⟨before, hbefore, heq⟩ := Option.map_eq_some_iff.mp hsame.symm
    rw [← heq, h.followers hex before hbefore, hedges, lost_of_kept hclosed]

/-- A new account has no followers yet, and nobody has lost any there. -/
theorem opened (h : Tallied first visits visit.state)
    (hclosed : closed? visit.action visit.args visit.state = none) {id : Ident} {u : Supply}
    {accounts : Accounts} {profile : Profile} {last : Nat}
    (hhex : id.hex = Supply.hexText visit.state.supply.nextHex)
    (hnext : u.nextHex = visit.state.supply.nextHex + 1) (hlast : u.nextHex ≤ last)
    (hfresh : Supply.NoRepeat first last) (hzero : profile.followers = .int 0) :
    Counted first (visits ++ [visit]) { visit.state with
      accounts := accounts
      profiles := visit.state.profiles.put id.hex profile
      supply := u } := by
  -- Edges and losses speak of users that were issued before, and this one was not.
  have hnew {hex : String} (hissued : Supply.Issued first visit.state.supply.nextHex hex) :
      hex ≠ id.hex := by
    rw [hhex]
    exact hfresh.ne_of_issued hissued (Nat.le_refl _) (by omega)
  have hnone : visit.state.edges.followersOf id.hex = 0 := by
    rw [Edges.followersOf, List.countP_eq_zero]
    intro edge hmem htarget
    exact hnew (h.issued_of_mem hmem) (beq_iff_eq.mp htarget)
  have hunlost : lost visits id.hex = 0 := by
    by_contra hlost
    exact hnew (h.issued_of_lost id.hex hlost) rfl
  refine ⟨?_, h.issued_of_kept hclosed (by dsimp only; omega), ?_⟩
  · intro edge hmem
    rw [Keyed.has_put, h.target_has edge hmem, Bool.or_true]
  · intro hex found hget
    rw [lost_of_kept hclosed]
    rw [Keyed.get?_put] at hget
    split at hget
    next heq =>
      cases hget
      rw [heq, hnone, hunlost]
      exact hzero
    next => exact h.followers hex found hget

/-- What goes with an account is lost by those who were followed from there. -/
theorem closed (h : Tallied first visits visit.state) {hex : String} {accounts : Accounts}
    {u : Supply} (hclosed : closed? visit.action visit.args visit.state = some hex)
    (hnext : visit.state.supply.nextHex ≤ u.nextHex) :
    Counted first (visits ++ [visit]) { visit.state with
      accounts := accounts
      profiles := visit.state.profiles.erase hex
      edges := visit.state.edges.filter fun edge => !edge.touches hex
      supply := u } := by
  have hlosing (other : String) : lost (visits ++ [visit]) other =
      lost visits other + visit.state.edges.between hex other := by
    rw [lost_append, Visit.lost, hclosed]
  refine ⟨?_, ?_, ?_⟩
  · intro edge hmem
    obtain ⟨hmem, htouches⟩ := List.mem_filter.mp hmem
    have htarget : edge.target.hex ≠ hex := by
      intro htarget
      simp [Edge.touches, htarget] at htouches
    have hhas := h.target_has edge hmem
    rw [Keyed.has_eq] at hhas ⊢
    rwa [Keyed.get?_erase_of_ne _ htarget]
  · intro other hlost
    rw [hlosing] at hlost
    by_cases hbefore : lost visits other = 0
    · have hbetween : 0 < visit.state.edges.between hex other := by omega
      obtain ⟨edge, hmem, hends⟩ := List.countP_pos_iff.mp hbetween
      simp only [Bool.and_eq_true, beq_iff_eq] at hends
      exact hends.2 ▸ (h.issued_of_mem hmem).mono hnext
    · exact (h.issued_of_lost other hbefore).mono hnext
  · intro other profile hget
    rw [Keyed.get?_erase] at hget
    split at hget
    next => cases hget
    next hother =>
      -- The edges that go are counted as lost, so the two counts together stay the same.
      have hsplit := visit.state.edges.followersOf_filter hother
      rw [h.followers other profile hget, hlosing]
      refine congrArg Numeric.int ?_
      dsimp only
      omega

/-- An edge that comes or goes changes the number of one profile. -/
theorem recounted (h : Tallied first visits visit.state)
    (hclosed : closed? visit.action visit.args visit.state = none) {hex : String}
    {profile : Profile} {count : Int} {edges : Edges} {u : Supply}
    (hnext : visit.state.supply.nextHex ≤ u.nextHex)
    (htarget : ∀ edge ∈ edges, edge.target.hex = hex ∨ edge ∈ visit.state.edges)
    (hcount : count = (edges.followersOf hex + lost visits hex : Nat))
    (hothers : ∀ other, other ≠ hex →
      edges.followersOf other = visit.state.edges.followersOf other) :
    Counted first (visits ++ [visit]) { visit.state with
      profiles := visit.state.profiles.put hex { profile with followers := .int count }
      edges := edges
      supply := u } := by
  refine ⟨?_, h.issued_of_kept hclosed hnext, ?_⟩
  · intro edge hmem
    rw [Keyed.has_put]
    rcases htarget edge hmem with hself | hbefore
    · simp [hself]
    · rw [h.target_has edge hbefore, Bool.or_true]
  · intro other found hget
    rw [lost_of_kept hclosed]
    rw [Keyed.get?_put] at hget
    split at hget
    next heq =>
      cases hget
      rw [heq]
      exact congrArg Numeric.int hcount
    next hne =>
      rw [h.followers other found hget]
      dsimp only
      rw [hothers other hne]

theorem renamed (h : Tallied first visits visit.state)
    (hclosed : closed? visit.action visit.args visit.state = none) {hex : String}
    {accounts : Accounts} {profile : Profile} {u : Supply} (username : Value)
    (hprofile : visit.state.profiles.get? hex = some profile)
    (hnext : visit.state.supply.nextHex ≤ u.nextHex) :
    Counted first (visits ++ [visit]) { visit.state with
      accounts := accounts
      profiles := visit.state.profiles.put hex { profile with username := username }
      supply := u } := by
  refine h.unchanged hclosed hnext rfl ?_
  intro other
  rw [Keyed.get?_put]
  split
  next heq => rw [heq, hprofile]; rfl
  next => rfl

theorem followed (h : Tallied first visits visit.state)
    (hclosed : closed? visit.action visit.args visit.state = none) {target : Value} {a b : Ident}
    {v w : Supply} (htarget : Method.Identifies target v b w)
    (hnext : visit.state.supply.nextHex ≤ w.nextHex)
    (hhas : ∃ hex, target.record? = some hex ∧ visit.state.profiles.has hex = true) :
    Counted first (visits ++ [visit])
      (adjusted { visit.state with edges := visit.state.edges ++ [⟨a, b⟩], supply := w }
        target 1) := by
  obtain ⟨hex, hrecord, hhas⟩ := hhas
  have hhex := htarget.hex_of_record hrecord
  obtain ⟨profile, hprofile⟩ := Option.isSome_iff_exists.mp (Keyed.has_eq _ _ ▸ hhas)
  obtain ⟨u, hadjusted, hu⟩ := adjusted_of_get?
    { visit.state with edges := visit.state.edges ++ [⟨a, b⟩], supply := w } 1 hrecord hprofile
    (h.followers hex profile hprofile) (by omega)
  rw [hadjusted]
  refine h.recounted hclosed (hu ▸ hnext) ?_ ?_ ?_
  · intro edge hmem
    rcases List.mem_append.mp hmem with hmem | hnew
    · exact Or.inr hmem
    · rw [List.mem_singleton.mp hnew]
      exact Or.inl hhex
  · rw [Edges.followersOf_append, if_pos hhex]
    omega
  · intro other hother
    rw [Edges.followersOf_append, if_neg (by rw [hhex]; exact Ne.symm hother)]
    rfl

/-- Where an edge is ended, its target had a number that counted it. -/
theorem exists_counted (h : Tallied first visits visit.state) {target : Value} {a b : Ident}
    {v w : Supply} {last : Nat} (htarget : Method.Identifies target v b w)
    (hle : visit.state.supply.nextHex ≤ v.nextHex)
    (hjoins : visit.state.edges.joins a b = true) (hlast : w.nextHex ≤ last)
    (hfresh : Supply.NoRepeat first last) :
    ∃ profile, target.record? = some b.hex ∧ visit.state.profiles.get? b.hex = some profile ∧
      profile.followers =
        .int (visit.state.edges.followersOf b.hex + lost visits b.hex : Nat) ∧
      0 < visit.state.edges.followersOf b.hex := by
  obtain ⟨edge, hmem, hends⟩ := Edges.exists_of_joins hjoins
  have hhas := h.target_has edge hmem
  obtain ⟨account, haccount⟩ := h.exists_account hmem
  rw [hends] at hhas haccount
  obtain ⟨hrecord, -⟩ := h.record_of_get? htarget haccount hle hlast hfresh
  obtain ⟨profile, hprofile⟩ := Option.isSome_iff_exists.mp (Keyed.has_eq _ _ ▸ hhas)
  refine ⟨profile, hrecord, hprofile, h.followers b.hex profile hprofile, ?_⟩
  exact List.countP_pos_iff.mpr ⟨edge, hmem, beq_iff_eq.mpr hends⟩

theorem unfollowed (h : Tallied first visits visit.state)
    (hclosed : closed? visit.action visit.args visit.state = none) {target : Value} {a b : Ident}
    {v w : Supply} (htarget : Method.Identifies target v b w)
    (hle : visit.state.supply.nextHex ≤ v.nextHex)
    (hjoins : visit.state.edges.joins a b = true)
    (hfresh : Supply.NoRepeat first (adjusted { visit.state with
      edges := visit.state.edges.eraseP (Edge.joins a b)
      supply := w } target (-1)).supply.nextHex) :
    Counted first (visits ++ [visit])
      (adjusted { visit.state with
        edges := visit.state.edges.eraseP (Edge.joins a b), supply := w } target (-1)) := by
  have hlast := adjusted_advances { visit.state with
    edges := visit.state.edges.eraseP (Edge.joins a b), supply := w } target (-1)
  -- The edge that goes has been counted, so the number can go down by one.
  obtain ⟨profile, hrecord, hprofile, hfollowers, hpos⟩ :=
    h.exists_counted htarget hle hjoins hlast hfresh
  have hcount := Edges.followersOf_eraseP hjoins
  have hself := hcount b.hex
  rw [if_pos rfl] at hself
  obtain ⟨u, hadjusted, hu⟩ := adjusted_of_get?
    { visit.state with edges := visit.state.edges.eraseP (Edge.joins a b), supply := w } (-1)
    hrecord hprofile hfollowers (by omega)
  rw [hadjusted]
  refine h.recounted hclosed (hu ▸ Nat.le_trans hle htarget.advances) ?_ ?_ ?_
  · exact fun edge hmem => Or.inr (List.mem_of_mem_eraseP hmem)
  · dsimp only
    omega
  · intro other hother
    rw [hcount other, if_neg (Ne.symm hother)]
    rfl

/-- **A turn of a social visit keeps the tally.** -/
theorem turn (h : Tallied first visits visit.state)
    (hfirst : first ≤ visit.state.supply.nextHex) (hsocial : Social visit)
    (hfresh : Supply.NoRepeat first t.supply.nextHex)
    (hturn : Turn visit.action visit.args visit.state t) : Tallied first (visits ++ [visit]) t := by
  refine ⟨h.toKept.turn hfirst hturn, ?_⟩
  have hnone (hne : visit.action ≠ "Account.delete") :
      closed? visit.action visit.args visit.state = none := closed?_of_ne hne
  cases hturn with
  | idle closed_eq next_le => exact h.unchanged closed_eq next_le rfl fun _ => rfl
  | opened action_eq _ hex_eq nextHex_eq =>
    exact h.opened (hnone (by rw [action_eq]; decide)) hex_eq nextHex_eq (Nat.le_refl _) hfresh rfl
  | renamed action_eq _ _ profile_eq next_le =>
    exact h.renamed (hnone (by rw [action_eq]; decide)) _ profile_eq next_le
  | closed closed_eq next_le => exact h.closed closed_eq next_le
  | followed action_eq args_eq user_id target_id =>
    refine h.followed (hnone (by rw [action_eq]; decide)) target_id ?_
      (hsocial.target_has _ _ action_eq args_eq)
    exact Nat.le_trans user_id.advances target_id.advances
  | unfollowed action_eq _ user_id target_id joins_eq =>
    exact h.unfollowed (hnone (by rw [action_eq]; decide)) target_id user_id.advances joins_eq
      hfresh
  | removed action_eq =>
    have hmem := hsocial.action_mem
    rw [action_eq] at hmem
    exact absurd hmem (by decide)

end Tallied

/-- An account, a profile or an edge belongs to a user. -/
def Mentions (s : Society) (hex : String) : Prop :=
  s.accounts.has hex = true ∨ s.profiles.has hex = true ∨ ∃ edge ∈ s.edges, edge.touches hex = true

/-- Where an account is closed, the user is gone. -/
theorem Turn.not_mentions {action : String} {args : List Value} {s t : Society} {hex : String}
    (h : Turn action args s t) (hclosed : closed? action args s = some hex) : ¬t.Mentions hex := by
  have haction := (closed?_eq_some_iff.mp hclosed).1
  cases h with
  | idle closed_eq => cases closed_eq.symm.trans hclosed
  | closed closed_eq =>
    cases closed_eq.symm.trans hclosed
    rintro (haccount | hprofile | ⟨edge, hmem, htouches⟩)
    · rw [Keyed.has_eq, Keyed.get?_erase_self] at haccount
      cases haccount
    · rw [Keyed.has_eq, Keyed.get?_erase_self] at hprofile
      cases hprofile
    · have hnot := (List.mem_filter.mp hmem).2
      rw [htouches] at hnot
      cases hnot
  | opened action_eq | renamed action_eq | followed action_eq | unfollowed action_eq
  | removed action_eq => exact absurd (haction.symm.trans action_eq) (by decide)

end Society

/-! ## Sessions -/

namespace Engine

open Society

/-- **In every session of social visits the profiles count their followers.** -/
theorem Session.tallied {cap : Option Int} {start s : Society} {visits : List (Visit Society)}
    (h : (builtIn cap).Session start visits s) (haccounts : start.accounts = [])
    (hprofiles : start.profiles = []) (hedges : start.edges = [])
    (hsocial : ∀ visit ∈ visits, Social visit)
    (hfresh : Supply.NoRepeat start.supply.nextHex s.supply.nextHex) :
    Tallied start.supply.nextHex visits s :=
  h.turns (I := Tallied start.supply.nextHex) hsocial hfresh
    (.of_empty haccounts hprofiles hedges) (fun _ _ htallied => htallied.toKept)
    (fun _ hvisit => hvisit.not_mem_writers)
    fun _ _ _ hvisit htallied hfirst hrepeat hturn => htallied.turn hfirst hvisit hrepeat hturn

/-- A run that says that it closed an account closed the one that the user names. -/
theorem closed?_of_returned {cap : Option Int} {first : Nat} {s : Society} {user : Value}
    {run : Run Society History} {history : History} (hkept : Kept first s)
    (hends : (builtIn cap).Ends "Account.delete" [user] s run)
    (hreturned : run.ending = .returned history) (hresult : history.result = .bool true)
    (hfresh : Supply.NoRepeat first run.state.supply.nextHex) :
    ∃ hex, closed? "Account.delete" [user] s = some hex := by
  rcases hends.flat (builtIn_flat cap) with
    ⟨e, events, -, hfailed⟩ | ⟨trace, t, events, hcall, hstate, hhistory⟩
  · cases hreturned.symm.trans hfailed
  rcases Accounts.delete_cases s.accounts s.supply user with ⟨e, v, hrun, -⟩ | ⟨id, v, hrun, hid⟩
  · have hfails : (builtIn cap).call "Account.delete" [user] s = _ :=
      call_of_method_failed accountsPart rfl rfl ((Accounts.delete_careful user).map _)
        (by exact Method.on_bind_failed _ hrun)
    cases hfails.symm.trans hcall
  · have hanswers : (builtIn cap).call "Account.delete" [user] s = _ :=
      call_of_method accountsPart rfl (by exact Method.on_bind_returned _ hrun)
    have hreact := react_advances cap trace t
    rw [← hstate] at hreact
    cases hanswers.symm.trans hcall
    have hhas : s.accounts.has id.hex = true :=
      Value.bool.inj ((hhistory history hreturned).1.symm.trans hresult)
    obtain ⟨account, hget⟩ := Option.isSome_iff_exists.mp (Keyed.has_eq _ _ ▸ hhas)
    obtain ⟨hrecord, -⟩ := hkept.record_of_get? hid hget (Nat.le_refl _) hreact hfresh
    exact ⟨id.hex, closed?_eq_some_iff.mpr ⟨rfl, user, rfl, hrecord, hhas⟩⟩

/-- **What closing an account leaves behind**, in a society whose visits were social so far. The
user is gone from all stores. The profiles of the others count the edges that are left, and go on
counting those that closing accounts, this one included, took away from them. -/
theorem closing_an_account {engine : Engine Society} (hbuiltIn : engine.IsBuiltIn)
    {start s : Society} (haccounts : start.accounts = []) (hprofiles : start.profiles = [])
    (hedges : start.edges = []) {visits : List (Visit Society)}
    (hsession : engine.Session start visits s) (hsocial : ∀ visit ∈ visits, Social visit)
    {user : Value} {run : Run Society History} {history : History}
    (hends : engine.Ends "Account.delete" [user] s run)
    (hreturned : run.ending = .returned history) (hresult : history.result = .bool true)
    (hfresh : Supply.NoRepeat start.supply.nextHex run.state.supply.nextHex) :
    ∃ hex, user.record? = some hex ∧ ¬run.state.Mentions hex ∧
      ∀ other profile, run.state.profiles.get? other = some profile →
        profile.followers = .int (run.state.edges.followersOf other +
          lost (visits ++ [⟨"Account.delete", [user], s⟩]) other : Nat) := by
  obtain ⟨cap, rfl⟩ : ∃ cap, engine = builtIn cap := ⟨_, hbuiltIn.eq⟩
  have hclosing : Social ⟨"Account.delete", [user], s⟩ :=
    ⟨by simp, fun _ _ haction => by simp at haction⟩
  have hall : ∀ visit ∈ visits ++ [⟨"Account.delete", [user], s⟩], Social visit := by
    intro visit hmem
    rcases List.mem_append.mp hmem with hmem | hlast
    · exact hsocial visit hmem
    · exact List.mem_singleton.mp hlast ▸ hclosing
  have hbefore := hsession.tallied haccounts hprofiles hedges hsocial
    (hfresh.mono hends.advances)
  have hafter := (hsession.snoc hends).tallied haccounts hprofiles hedges hall hfresh
  have hturn := hbefore.toKept.turn_of_ends hclosing.not_mem_writers hends hfresh
  obtain ⟨hex, hclosed⟩ := closed?_of_returned hbefore.toKept hends hreturned hresult hfresh
  obtain ⟨-, named, hargs, hrecord, -⟩ := closed?_eq_some_iff.mp hclosed
  cases hargs
  exact ⟨hex, hrecord, hturn.not_mentions hclosed, hafter.followers⟩

/-! ### A follower who leaves -/

/-- The run of a call without a cap. -/
def uncappedRun (action : String) (args : List Value) (s : Society) : Run Society History :=
  (builtIn none).cascade 4 action args s

theorem ends_uncappedRun {action : String} {args : List Value} {s : Society} {history : History}
    (h : (uncappedRun action args s).ending = .returned history) :
    (builtIn none).Ends action args s (uncappedRun action args s) :=
  ⟨by rw [h]; simp, 4, rfl⟩

def annJoined : Society :=
  (uncappedRun "Account.create" [.text "ann", .text "secret", .text "ann@"] {}).state

def bobJoined : Society :=
  (uncappedRun "Account.create" [.text "bob", .text "secret", .text "bob@"] annJoined).state

def annFollows : Society :=
  (uncappedRun "Follower.follow" [.text (Supply.hexText 1), .text (Supply.hexText 2)]
    bobJoined).state

/-- Ann follows Bob and then closes her account. -/
def annLeaves : Run Society History :=
  uncappedRun "Account.delete" [.text (Supply.hexText 1)] annFollows

def annVisits : List (Visit Society) :=
  [⟨"Account.create", [.text "ann", .text "secret", .text "ann@"], {}⟩,
    ⟨"Account.create", [.text "bob", .text "secret", .text "bob@"], annJoined⟩,
    ⟨"Follower.follow", [.text (Supply.hexText 1), .text (Supply.hexText 2)], bobJoined⟩]

theorem annVisits_session : (builtIn none).Session {} annVisits annFollows :=
  ((Session.nil.snoc (ends_uncappedRun rfl)).snoc (ends_uncappedRun rfl)).snoc
    (ends_uncappedRun rfl)

theorem annVisits_social : ∀ visit ∈ annVisits, Social visit := by
  intro visit hmem
  simp only [annVisits, List.mem_cons, List.not_mem_nil, or_false] at hmem
  rcases hmem with rfl | rfl | rfl
  · exact ⟨by simp, fun _ _ haction => by simp at haction⟩
  · exact ⟨by simp, fun _ _ haction => by simp at haction⟩
  · refine ⟨by simp, ?_⟩
    rintro user target - hargs
    cases hargs
    exact ⟨Supply.hexText 2, rfl, rfl⟩

/-- Bob counts the follower who is gone. -/
theorem closing_an_account_of_a_follower :
    annLeaves.state.edges = [] ∧
      (annLeaves.state.profiles.get? (Supply.hexText 2)).map Profile.followers =
        some (.int 1) := by
  have hreturned : annLeaves.ending = .returned ⟨.bool true, _⟩ := rfl
  have hfresh : Supply.NoRepeat 1 annLeaves.state.supply.nextHex :=
    Supply.noRepeat_of_le (by decide)
  obtain ⟨hex, -, -, hfollowers⟩ := closing_an_account (builtIn_isBuiltIn none) rfl rfl rfl
    annVisits_session annVisits_social (ends_uncappedRun hreturned) hreturned rfl hfresh
  have hprofile : annLeaves.state.profiles.get? (Supply.hexText 2) = some _ := rfl
  refine ⟨rfl, ?_⟩
  rw [hprofile]
  exact congrArg some (hfollowers _ _ hprofile)

theorem numbers_not_restored :
    ¬∀ (visits : List (Visit Society)) (s : Society), (builtIn none).Session {} visits s →
      (∀ visit ∈ visits, Social visit) →
      ∀ (user : Value) (run : Run Society History) (history : History),
        (builtIn none).Ends "Account.delete" [user] s run → run.ending = .returned history →
        history.result = .bool true →
        Supply.NoRepeat 1 run.state.supply.nextHex →
        ∀ hex profile, run.state.profiles.get? hex = some profile →
          profile.followers = .int (run.state.edges.followersOf hex : Nat) := by
  intro hclaim
  have hreturned : annLeaves.ending = .returned ⟨.bool true, _⟩ := rfl
  have hfresh : Supply.NoRepeat 1 annLeaves.state.supply.nextHex :=
    Supply.noRepeat_of_le (by decide)
  have hzero := hclaim annVisits annFollows annVisits_session annVisits_social
    (.text (Supply.hexText 1)) annLeaves _ (ends_uncappedRun hreturned) hreturned rfl hfresh
    (Supply.hexText 2) _ rfl
  cases hzero

end Engine

end Synchrony
