import Synchrony.Proofs.Engine.Agreement
import Synchrony.Proofs.Society.Followings

/-!
# Numbers of followers without a lower bound

A number of followers never falls below zero, because `Profiles.adjustFollowers` does not let it. A
bound like that can hide mistakes: a number that was too low would be raised in silence.

On the built-in rules it hides none. Where the profiles count their followers, the number that is
lowered counts the very edge that has been ended, so it is one at least. An engine that leaves the
bound out (`Engine.unclamped`) therefore makes the same runs, and the numbers are those of the edges
as long as no account is closed.
-/

set_option autoImplicit false

namespace Synchrony

/-- Register something under a name, in place of what may be there. -/
def Registry.put {α : Type} (registry : Registry α) (name : String) (a : α) : Registry α :=
  ⟨registry.entries.put name a, Keyed.nodup_put registry.nodup name a⟩

namespace Profiles

/-- Change the number of a user's followers by `delta` and bring it within bounds. -/
def changeFollowers (bound : Numeric → Numeric) (user delta : Value) :
    Method Profiles Numeric := do
  let (hex, profile) ← byUser user
  let sum ← increased profile.followers delta
  let adjusted := { profile with followers := bound sum }
  modify fun profiles => profiles.put hex adjusted
  pure adjusted.followers

/-- The action that changes a number of followers, with bounds of its own. -/
def adjustment (bound : Numeric → Numeric) : List Value → Method Profiles Value
  | [user, delta] => return (← changeFollowers bound user delta).toValue
  | args => Method.wrongArity "Profile.adjustFollowers" ["user", "delta"] args

/-- Bounds that let a number pass make no difference to it. -/
theorem adjustment_congr {bound bound' : Numeric → Numeric} {profiles : Profiles} (u : Supply)
    {user : Value} {hex : String} {profile : Profile} {count delta : Int}
    (hrecord : user.record? = some hex) (hget : profiles.get? hex = some profile)
    (hcount : profile.followers = .int count)
    (hbound : bound' (.int (count + delta)) = bound (.int (count + delta))) :
    (adjustment bound' [user, .int delta]).perform profiles u =
      (adjustment bound [user, .int delta]).perform profiles u := by
  obtain ⟨v, hon, -⟩ := byUser_of_get? profiles u hrecord hget
  have hfound := Method.on_eq_ok.mp hon
  have hsum : increased profile.followers (.int delta) = pure (.int (count + delta)) := by
    rw [hcount]
    rfl
  have hchange : (changeFollowers bound' user (.int delta)).perform profiles u =
      (changeFollowers bound user (.int delta)).perform profiles u := by
    rw [changeFollowers, changeFollowers, Method.perform_bind, Method.perform_bind, hfound]
    dsimp only
    rw [hsum, pure_bind, pure_bind, hbound]
  rw [adjustment, adjustment, Method.perform_bind, Method.perform_bind, hchange]

end Profiles

/-- Where no account is closed, no edge is lost. -/
theorem Society.lost_of_all_kept {visits : List (Visit Society)}
    (h : ∀ visit ∈ visits, visit.action ≠ "Account.delete") (hex : String) :
    lost visits hex = 0 := by
  rw [lost, List.sum_eq_zero_iff]
  intro n hmem
  obtain ⟨visit, hvisit, rfl⟩ := List.mem_map.mp hmem
  rw [Visit.lost, closed?_of_ne (h visit hvisit)]

namespace Engine

open BuiltIn Society

/-- The engine that lets numbers of followers fall as low as they may. -/
def unclamped (engine : Engine Society) : Engine Society :=
  { engine with
    actions := engine.actions.put "Profile.adjustFollowers"
      (Method.action profilesPart supplyPart (Profiles.adjustment id)) }

/-- The action that is registered keeps the number from falling below zero. -/
theorem get?_adjustFollowers (cap : Option Int) :
    (builtIn cap).actions.get? "Profile.adjustFollowers" =
      some (Method.action profilesPart supplyPart (Profiles.adjustment Numeric.clamp)) := rfl

theorem unclamped_rulebook (engine : Engine Society) :
    engine.unclamped.rulebook = engine.rulebook := rfl

theorem unclamped_cap (engine : Engine Society) : engine.unclamped.cap = engine.cap := rfl

/-! ## Calls without the bound -/

theorem call_unclamped_of_ne (engine : Engine Society) {action : String}
    (h : action ≠ "Profile.adjustFollowers") :
    engine.unclamped.call action = engine.call action := by
  funext args
  simp only [call, unclamped, Registry.put, Registry.get, Registry.get?,
    Keyed.get?_put_of_ne (Ne.symm h)]

theorem call_unclamped_of_get? (cap : Option Int) {s : Society} {target : Value} {hex : String}
    {profile : Profile} {count delta : Int} (hrecord : target.record? = some hex)
    (hget : s.profiles.get? hex = some profile) (hcount : profile.followers = .int count)
    (hnonneg : 0 ≤ count + delta) :
    (builtIn cap).unclamped.call "Profile.adjustFollowers" [target, .int delta] s =
      (builtIn cap).call "Profile.adjustFollowers" [target, .int delta] s := by
  have hentry : (builtIn cap).unclamped.actions.get? "Profile.adjustFollowers" =
      some (Method.action profilesPart supplyPart (Profiles.adjustment id)) :=
    Keyed.get?_put_self _ _ _
  refine call_congr (get?_adjustFollowers cap) hentry ?_
  have hbound : id (Numeric.int (count + delta)) = (Numeric.int (count + delta)).clamp :=
    (clamp_int hnonneg).symm
  have hperform := Profiles.adjustment_congr s.supply hrecord hget hcount hbound
  simp only [Method.action, profilesPart, supplyPart, hperform]

/-! ## Reactions without the bound -/

/-- The rules about following are the only ones that change numbers of followers. -/
theorem react_unclamped_of_ne (cap : Option Int) {trace : Trace}
    (hfollow : trace.action ≠ "Follower.follow") (hunfollow : trace.action ≠ "Follower.unfollow") :
    (builtIn cap).unclamped.react trace = (builtIn cap).react trace := by
  refine react_congr_of_calls (unclamped_rulebook _) ?_
  intro rule hunder line hline
  refine call_unclamped_of_ne _ ?_
  rw [under_builtIn, List.mem_filter] at hunder
  obtain ⟨hrule, hanchor⟩ := hunder
  have hall : ∀ rule ∈ builtInRules, rule.anchor ≠ "Follower.follow" →
      rule.anchor ≠ "Follower.unfollow" → ∀ line ∈ rule.ownLines,
      line.action ≠ "Profile.adjustFollowers" := by
    simp [builtInRules, createRule, updateRule, followRule, deleteRule, Rule.ownLines, Rule.anchor]
  have hanchor := of_decide_eq_true hanchor
  exact hall rule hrule (hanchor ▸ hfollow) (hanchor ▸ hunfollow) line hline

/-- The rules about following call nothing unless the answer is yes, and then they change the number
of the target. -/
theorem react_follow_unclamped (cap : Option Int) {action : String} {scope line : Nat} {delta : Int}
    (hunder : (builtIn cap).rulebook.under action = [followRule action scope delta line])
    (user target : Value) {answer : Bool} {t : Society}
    (h : answer = true →
      (builtIn cap).unclamped.call "Profile.adjustFollowers" [target, .int delta] t =
        (builtIn cap).call "Profile.adjustFollowers" [target, .int delta] t) :
    (builtIn cap).unclamped.react ⟨action, [user, target], .bool answer⟩ t =
      (builtIn cap).react ⟨action, [user, target], .bool answer⟩ t := by
  refine react_congr_of_single (unclamped_rulebook _) hunder
    (applyRule_congr (guard_congr (by simp [followRule]) _) ?_)
  intro bindings guards u events hguard
  obtain ⟨failure?, hfit, hnone⟩ : ∃ failure?, Bindings.empty.fitTrace
      ⟨action, [user, target], .bool answer⟩ (followRule action scope delta line).trigger =
      (failure?, ⟨[(⟨"user", scope⟩, user), (⟨"target", scope⟩, target)]⟩) ∧
      (failure? = none ↔ answer = true) := fit_follow user target answer
  cases failure? with
  | some e => cases (guard_of_misfit (builtIn cap) t hfit).symm.trans hguard
  | none =>
    cases (guard_of_fit (builtIn cap) t hfit).symm.trans hguard
    refine enforceAll_single_congr _ (perform_congr ?_)
    intro args hargs
    cases (arguments_adjust user target).symm.trans hargs
    exact h (hnone.mp rfl)

section Tally

variable {cap : Option Int} {first last : Nat} {visits : List (Visit Society)}
  {visit : Visit Society} {t : Society} {trace : Trace} {events : List Event}

theorem args_of_call_follow {action : String} {args : List Value} {s : Society}
    (haction : action = "Follower.follow" ∨ action = "Follower.unfollow")
    (hcall : (builtIn cap).call action args s = ⟨.returned trace, t, events⟩) :
    ∃ user target, args = [user, target] := by
  have hfails {e : Failure} {u : Supply} {more : List Event}
      (h : (builtIn cap).call action args s = ⟨.failed e, { s with supply := u }, more⟩) :
      False := by
    cases h.symm.trans hcall
  match args with
  | [user, target] => exact ⟨user, target, rfl⟩
  | [] | [_] | _ :: _ :: _ :: _ =>
    rcases haction with rfl | rfl
    · exact (hfails (call_of_method_failed edgesPart rfl rfl (.fail _) rfl)).elim
    · exact (hfails (call_of_method_failed edgesPart rfl rfl (.fail _) rfl)).elim

/-- Whoever is followed has a number that can go up. -/
theorem call_unclamped_of_follow (h : Tallied first visits visit.state) {target : Value}
    (hhas : ∃ hex, target.record? = some hex ∧ visit.state.profiles.has hex = true)
    (ht : t.profiles = visit.state.profiles) :
    (builtIn cap).unclamped.call "Profile.adjustFollowers" [target, .int 1] t =
      (builtIn cap).call "Profile.adjustFollowers" [target, .int 1] t := by
  obtain ⟨hex, hrecord, hhas⟩ := hhas
  obtain ⟨profile, hprofile⟩ := Option.isSome_iff_exists.mp (Keyed.has_eq _ _ ▸ hhas)
  have hcount := h.followers hex profile hprofile
  exact call_unclamped_of_get? cap hrecord (ht ▸ hprofile) hcount (by omega)

/-- Whoever is followed no longer has a number that counts the edge that was ended. -/
theorem call_unclamped_of_unfollow (h : Tallied first visits visit.state) {target : Value}
    {a b : Ident} {v w : Supply} (htarget : Method.Identifies target v b w)
    (hle : visit.state.supply.nextHex ≤ v.nextHex)
    (hjoins : visit.state.edges.joins a b = true) (hlast : w.nextHex ≤ last)
    (hfresh : Supply.NoRepeat first last) (ht : t.profiles = visit.state.profiles) :
    (builtIn cap).unclamped.call "Profile.adjustFollowers" [target, .int (-1)] t =
      (builtIn cap).call "Profile.adjustFollowers" [target, .int (-1)] t := by
  obtain ⟨profile, hrecord, hprofile, hcount, hpos⟩ :=
    h.exists_counted htarget hle hjoins hlast hfresh
  exact call_unclamped_of_get? cap hrecord (ht ▸ hprofile) hcount (by omega)

/-- The reaction to a social call is the same without the bound. -/
theorem react_unclamped (h : Tallied first visits visit.state) (hsocial : Social visit)
    (hcall : (builtIn cap).call visit.action visit.args visit.state =
      ⟨.returned trace, t, events⟩)
    (hlast : t.supply.nextHex ≤ last) (hfresh : Supply.NoRepeat first last) :
    (builtIn cap).unclamped.react trace t = (builtIn cap).react trace t := by
  obtain ⟨action, args, s⟩ := visit
  obtain ⟨haction, -, -⟩ := call_returned hcall
  by_cases hfollow : action = "Follower.follow"
  · obtain ⟨user, target, rfl⟩ := args_of_call_follow (Or.inl hfollow) hcall
    subst hfollow
    rcases Edges.follow_cases s.edges s.supply user target with
      ⟨e, v, hon⟩ | ⟨v, hon⟩ | ⟨a, b, v, w, hon, -⟩
    · cases (call_of_method_failed edgesPart rfl rfl ((Edges.follow_careful user target).map _)
        (Method.on_bind_failed _ hon)).symm.trans hcall
    · -- Whoever is followed already is not followed once more, and the answer is no.
      cases (call_of_method edgesPart rfl (Method.on_bind_returned _ hon)).symm.trans hcall
      exact react_follow_unclamped cap (under_follow cap) user target fun hyes => by cases hyes
    · cases (call_of_method edgesPart rfl (Method.on_bind_returned _ hon)).symm.trans hcall
      refine react_follow_unclamped cap (under_follow cap) user target fun _ => ?_
      exact call_unclamped_of_follow h (hsocial.target_has user target rfl rfl) rfl
  by_cases hunfollow : action = "Follower.unfollow"
  · obtain ⟨user, target, rfl⟩ := args_of_call_follow (Or.inr hunfollow) hcall
    subst hunfollow
    rcases Edges.unfollow_cases s.edges s.supply user target with
      ⟨e, v, hon⟩ | ⟨a, b, v, w, hon, ha, hb⟩
    · cases (call_of_method_failed edgesPart rfl rfl ((Edges.unfollow_careful user target).map _)
        (Method.on_bind_failed _ hon)).symm.trans hcall
    · cases (call_of_method edgesPart rfl (Method.on_bind_returned _ hon)).symm.trans hcall
      refine react_follow_unclamped cap (under_unfollow cap) user target fun hjoins => ?_
      exact call_unclamped_of_unfollow h hb ha.advances hjoins hlast hfresh rfl
  · rw [react_unclamped_of_ne cap (haction ▸ hfollow) (haction ▸ hunfollow)]

/-- **A social run is the same without the bound.** -/
theorem cascade_unclamped (h : Tallied first visits visit.state) (hsocial : Social visit)
    {run : Run Society History}
    (hends : (builtIn cap).Ends visit.action visit.args visit.state run)
    (hfresh : Supply.NoRepeat first run.state.supply.nextHex) (steps : Nat) :
    (builtIn cap).unclamped.cascade steps visit.action visit.args visit.state =
      (builtIn cap).cascade steps visit.action visit.args visit.state := by
  have hwriters := hsocial.not_mem_writers
  have hne : visit.action ≠ "Profile.adjustFollowers" := by
    intro hadjust
    rw [hadjust] at hwriters
    exact hwriters (by simp [profileWriters])
  refine cascade_congr_of_flat (builtIn_flat cap) (unclamped_rulebook _) (unclamped_cap _)
    ?_ ?_ steps
  · rw [call_unclamped_of_ne _ hne]
  · intro trace t events hcall
    have hreact := react_advances cap trace t
    rw [← hends.state_of_returned (builtIn_flat cap) hcall] at hreact
    exact react_unclamped h hsocial hcall hreact hfresh

end Tally

/-! ## Sessions -/

/-- **A session of social visits goes the same way without the bound.** -/
theorem Session.unclamped {cap : Option Int} {start s : Society} {visits : List (Visit Society)}
    (h : (builtIn cap).Session start visits s) (haccounts : start.accounts = [])
    (hprofiles : start.profiles = []) (hedges : start.edges = [])
    (hsocial : ∀ visit ∈ visits, Social visit)
    (hfresh : Supply.NoRepeat start.supply.nextHex s.supply.nextHex) :
    (builtIn cap).unclamped.Session start visits s ∧
      ∀ visit ∈ visits, ∀ steps,
        (builtIn cap).unclamped.cascade steps visit.action visit.args visit.state =
          (builtIn cap).cascade steps visit.action visit.args visit.state := by
  induction h with
  | nil => exact ⟨.nil, fun visit hmem => absurd hmem List.not_mem_nil⟩
  | @snoc visits s action args run before ends ih =>
    have hbefore : ∀ visit ∈ visits, Social visit :=
      fun visit hmem => hsocial visit (List.mem_append_left _ hmem)
    have hrepeat := hfresh.mono ends.advances
    obtain ⟨hsession, hsame⟩ := ih hbefore hrepeat
    have htallied := before.tallied haccounts hprofiles hedges hbefore hrepeat
    have hlast := cascade_unclamped htallied (hsocial ⟨action, args, s⟩ (by simp)) ends hfresh
    refine ⟨hsession.snoc ?_, ?_⟩
    · obtain ⟨hne, steps, hrun⟩ := ends
      exact ⟨hne, steps, (hlast steps).trans hrun⟩
    · intro visit hmem
      rcases List.mem_append.mp hmem with hmem | hmem
      · exact hsame visit hmem
      · obtain rfl := List.mem_singleton.mp hmem
        exact hlast

/-- **The numbers of followers are those of the edges** as long as no account is closed, and no
number is ever kept from falling below zero: leaving the bound out changes no run. Every call can
be made next, and its run comes to an end. -/
theorem profiles_count_their_followers {engine : Engine Society} (hbuiltIn : engine.IsBuiltIn)
    {start s : Society} (haccounts : start.accounts = []) (hprofiles : start.profiles = [])
    (hedges : start.edges = []) {visits : List (Visit Society)}
    (hsession : engine.Session start visits s) (hsocial : ∀ visit ∈ visits, Social visit)
    (hkept : ∀ visit ∈ visits, visit.action ≠ "Account.delete")
    (hfresh : Supply.NoRepeat start.supply.nextHex s.supply.nextHex) :
    (∀ hex profile, s.profiles.get? hex = some profile →
      profile.id.hex = hex ∧ profile.followers = .int (s.edges.followersOf hex : Nat)) ∧
    engine.unclamped.Session start visits s ∧
    (∀ visit ∈ visits, ∀ steps,
      engine.unclamped.cascade steps visit.action visit.args visit.state =
        engine.cascade steps visit.action visit.args visit.state) ∧
    ∀ action args, ∃ run, engine.Ends action args s run := by
  obtain ⟨cap, rfl⟩ : ∃ cap, engine = builtIn cap := ⟨_, hbuiltIn.eq⟩
  have htallied := hsession.tallied haccounts hprofiles hedges hsocial hfresh
  obtain ⟨hunclamped, hsame⟩ := hsession.unclamped haccounts hprofiles hedges hsocial hfresh
  refine ⟨?_, hunclamped, hsame, fun action args => ends_of_flat (builtIn_flat cap) action args s⟩
  intro hex profile hget
  refine ⟨htallied.profile_id hex profile hget, ?_⟩
  rw [htallied.followers hex profile hget, lost_of_all_kept hkept, Nat.add_zero]

/-- Ann, who follows Bob, asks once more to follow him. -/
def annInsists : Society :=
  (uncappedRun "Follower.follow" [.text (Supply.hexText 1), .text (Supply.hexText 2)]
    annFollows).state

def annUnfollows : Society :=
  (uncappedRun "Follower.unfollow" [.text (Supply.hexText 1), .text (Supply.hexText 2)]
    annInsists).state

/-- Asking twice counts once, and what was counted once is taken back. -/
theorem profiles_count_their_followers_insisting :
    (annInsists.profiles.get? (Supply.hexText 2)).map Profile.followers = some (.int 1) ∧
    (annUnfollows.profiles.get? (Supply.hexText 2)).map Profile.followers = some (.int 0) ∧
    ∃ visits, visits.length = 5 ∧ (builtIn none).unclamped.Session {} visits annUnfollows := by
  have hinsists : (builtIn none).Session {} _ annInsists :=
    annVisits_session.snoc (ends_uncappedRun rfl)
  have hsession : (builtIn none).Session {} _ annUnfollows :=
    hinsists.snoc (ends_uncappedRun rfl)
  have hsocial : ∀ visit ∈ annVisits ++ [⟨"Follower.follow", [.text (Supply.hexText 1),
      .text (Supply.hexText 2)], annFollows⟩] ++ [⟨"Follower.unfollow", [.text (Supply.hexText 1),
      .text (Supply.hexText 2)], annInsists⟩], Social visit ∧ visit.action ≠ "Account.delete" := by
    intro visit hmem
    rw [List.mem_append, List.mem_append, List.mem_singleton, List.mem_singleton] at hmem
    rcases hmem with (hmem | rfl) | rfl
    · refine ⟨annVisits_social visit hmem, ?_⟩
      simp only [annVisits, List.mem_cons, List.not_mem_nil, or_false] at hmem
      rcases hmem with rfl | rfl | rfl <;> simp
    · refine ⟨⟨by simp, ?_⟩, by simp⟩
      rintro user target - hargs
      cases hargs
      exact ⟨Supply.hexText 2, rfl, rfl⟩
    · exact ⟨⟨by simp, fun _ _ haction => by simp at haction⟩, by simp⟩
  obtain ⟨hcounts, hunclamped, -⟩ := profiles_count_their_followers (builtIn_isBuiltIn none)
    rfl rfl rfl hsession (fun visit hmem => (hsocial visit hmem).1)
    (fun visit hmem => (hsocial visit hmem).2) (Supply.noRepeat_of_le (by decide))
  have hprofile : annUnfollows.profiles.get? (Supply.hexText 2) = some _ := rfl
  refine ⟨rfl, ?_, _, ?_, hunclamped⟩
  · rw [hprofile]
    exact congrArg some (hcounts _ _ hprofile).2
  · rfl

end Engine

end Synchrony
