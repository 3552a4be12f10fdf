import Synchrony.Proofs.Society.Calls

/-!
# Reactions of the built-in rules

What a reaction does to a society, rule by rule. Calls of five actions set off a rule, and an answer
that is not the one the rule asks for sets off nothing either.

A rule that fires has its effect before it is asked whether its calls fit its lines. So an opened
account gets its profile even if the run fails behind that, and the same goes for the other rules
with one consequence. Of the two consequences of closing an account, the second is reached if the
user agrees with itself, which holds of whatever names a record (`Value.same_self`).
-/

set_option autoImplicit false

namespace Synchrony

namespace Engine

open BuiltIn Society

variable (cap : Option Int) (s : Society)

/-- A trace that its only rule does not fit leaves the society as it is. -/
theorem react_state_of_misfit {rule : Rule} {trace : Trace} {e : Failure} {after : Bindings}
    (hunder : (builtIn cap).rulebook.under trace.action = [rule])
    (hfit : Bindings.empty.fitTrace trace rule.trigger = (some e, after)) :
    ((builtIn cap).react trace s).state = s := by
  rw [react_single_state _ hunder]
  have hguard := guard_of_misfit (builtIn cap) s hfit
  rcases (builtIn cap).applyRule_state rule trace s with
    ⟨e', t, events, hguard', hstate⟩ | ⟨bindings, guards, t, events, hguard', -⟩
  · rw [hguard] at hguard'
    cases hguard'
    exact hstate
  · rw [hguard] at hguard'
    cases hguard'

/-- A trace whose only rule fires leaves the society that the consequences leave. -/
theorem react_state_of_guard {rule : Rule} {trace : Trace} {bindings : Bindings}
    {guards : List Trace} {t : Society} {events : List Event}
    (hunder : (builtIn cap).rulebook.under trace.action = [rule])
    (hguard : (builtIn cap).guard rule trace s = ⟨.returned (bindings, guards), t, events⟩) :
    ((builtIn cap).react trace s).state =
      ((builtIn cap).performAll rule.consequences bindings t).state := by
  rw [react_single_state _ hunder]
  rcases (builtIn cap).applyRule_state rule trace s with
    ⟨e', u, events', hguard', -⟩ | ⟨bindings', guards', u, events', hguard', hstate⟩
  · rw [hguard] at hguard'
    cases hguard'
  · rw [hguard] at hguard'
    cases hguard'
    exact hstate

theorem react_state_of_fit {rule : Rule} {trace : Trace} {bindings : Bindings}
    (hunder : (builtIn cap).rulebook.under trace.action = [rule]) (hguards : rule.guards = [])
    (hfit : Bindings.empty.fitTrace trace rule.trigger = (none, bindings)) :
    ((builtIn cap).react trace s).state =
      ((builtIn cap).performAll rule.consequences bindings s).state := by
  have hguard : (builtIn cap).guard rule trace s = ⟨.returned (bindings, []), s, []⟩ := by
    rw [guard_of_fit _ s hfit, hguards]
    rfl
  exact react_state_of_guard cap s hunder hguard

/-! ## Triggers that wait for the answer yes -/

/-- A trigger that takes one argument, whatever it is, and waits for the answer yes. -/
theorem fit_yes_one (action : String) (x : Variable) (a value : Value) :
    Bindings.empty.fitTrace ⟨action, [a], value⟩
        ⟨action, [.var x], some [.lit (.bool true)]⟩ =
      (if value.same (.bool true) then none
        else some (Bindings.misfit (action ++ " return") (.bool true) value), ⟨[(x, a)]⟩) := by
  cases h : value.same (.bool true) <;>
    simp [Bindings.fitTrace, Line.argumentPositions, Line.resultPositions, Line.numberedPositions,
      Bindings.fitAll, Bindings.fit, Bindings.empty, Bindings.get?, Bindings.lookup,
      Bindings.require, Bindings.set, Bindings.assign, h]

/-- A trigger that takes two arguments and waits for the answer yes. -/
theorem fit_yes_two (action : String) {x y : Variable} (hne : x ≠ y) (a b value : Value) :
    Bindings.empty.fitTrace ⟨action, [a, b], value⟩
        ⟨action, [.var x, .var y], some [.lit (.bool true)]⟩ =
      (if value.same (.bool true) then none
        else some (Bindings.misfit (action ++ " return") (.bool true) value),
        ⟨[(x, a), (y, b)]⟩) := by
  cases h : value.same (.bool true) <;>
    simp [Bindings.fitTrace, Line.argumentPositions, Line.resultPositions, Line.numberedPositions,
      Bindings.fitAll, Bindings.fit, Bindings.empty, Bindings.get?, Bindings.lookup,
      Bindings.require, Bindings.set, Bindings.assign, h, hne]

/-! ## No rule -/

theorem react_state_of_unruled {trace : Trace}
    (h : ∀ rule ∈ builtInRules, rule.anchor ≠ trace.action) :
    ((builtIn cap).react trace s).state = s := by
  rw [react_of_under_nil]
  rw [under_builtIn, List.filter_eq_nil_iff]
  intro rule hrule hanchor
  exact h rule hrule (of_decide_eq_true hanchor)

/-! ## Opening an account -/

theorem react_create_state (username password email : Value) (id : Ident) :
    ((builtIn cap).react ⟨"Account.create", [username, password, email], .ident id⟩ s).state =
      { s with
        profiles := s.profiles.put id.hex ⟨id, username, .text "", .text "", .int 0⟩ } := by
  have hunder : (builtIn cap).rulebook.under "Account.create" = [createRule] := by
    rw [under_builtIn]
    rfl
  rw [react_state_of_fit cap s hunder rfl rfl, createRule, performAll_single_state,
    perform_state _ s (by rfl)]
  dsimp only
  rw [call_of_method profilesPart rfl
    (by exact Method.on_bind_returned _ (Profiles.create_ident _ _ _ _ _ _))]
  rfl

/-! ## Another user name -/

theorem react_update_false (user username : Value) :
    ((builtIn cap).react ⟨"Account.update", [user, username], .bool false⟩ s).state = s := by
  have hunder : (builtIn cap).rulebook.under "Account.update" = [updateRule] := by
    rw [under_builtIn]
    rfl
  exact react_state_of_misfit cap s hunder rfl

/-- What the rule about user names knows behind its trigger, and behind its guard. -/
def updateBindings (user username : Value) : Bindings :=
  ⟨[(⟨"user", 1⟩, user), (⟨"username", 1⟩, username)]⟩

def guardedBindings (user username profile : Value) : Bindings :=
  ⟨[(⟨"user", 1⟩, user), (⟨"username", 1⟩, username), (⟨"profile", 1⟩, profile)]⟩

/-- The one guard of the built-in rules. -/
def profileLine : Line :=
  ⟨"Profile.getById", [.var ⟨"user", 1⟩], some [.var ⟨"profile", 1⟩]⟩

/-- The guard binds the profile that it gets, whatever it is, if the user agrees with itself. -/
theorem fit_profileLine (user username profile : Value) :
    (updateBindings user username).fitTrace ⟨"Profile.getById", [user], profile⟩ profileLine =
      if user.same user then (none, guardedBindings user username profile)
      else (some (Bindings.misfit ("Profile.getById argument " ++ Decimal.natText 0) user user),
        updateBindings user username) := by
  cases h : user.same user <;>
    simp [Bindings.fitTrace, Line.argumentPositions, Line.resultPositions, Line.numberedPositions,
      Bindings.fitAll, Bindings.fit, Bindings.get?, Bindings.lookup, Bindings.require,
      Bindings.set, Bindings.assign, updateBindings, guardedBindings, profileLine, h]

/-- The guard finds the profile, and the profile is renamed. -/
theorem react_update_state {user : Value} {hex : String} {profile : Profile} (username : Value)
    (hrecord : user.record? = some hex) (hself : user.same user = true)
    (hget : s.profiles.get? hex = some profile) :
    ∃ u, ((builtIn cap).react ⟨"Account.update", [user, username], .bool true⟩ s).state =
        { s with
          profiles := s.profiles.put hex { profile with username := username }
          supply := u } ∧
      u.nextHex = s.supply.nextHex := by
  have hunder : (builtIn cap).rulebook.under "Account.update" = [updateRule] := by
    rw [under_builtIn]
    rfl
  obtain ⟨v, hfound, hv⟩ := Profiles.getById_of_get? s.profiles s.supply hrecord hget
  have hread : (builtIn cap).call "Profile.getById" [user] s =
      ⟨.returned ⟨"Profile.getById", [user], profile.toValue⟩, { s with supply := v },
        [.called "Profile.getById" [user]]⟩ :=
    call_of_method profilesPart rfl (by exact Method.on_bind_returned _ hfound)
  have hfit := fit_profileLine user username profile.toValue
  rw [hself, if_pos rfl] at hfit
  have hguard := performAll_single (builtIn cap) (perform_answered (builtIn cap) rfl hread hfit)
  obtain ⟨w, hrename, hw⟩ := Profiles.rename_of_get? s.profiles v username hrecord hget
  have hcall : (builtIn cap).call "Profile.rename" [user, username] { s with supply := v } = _ :=
    call_of_method profilesPart rfl (by exact Method.on_bind_returned _ hrename)
  refine ⟨w, ?_, hw.trans hv⟩
  rw [react_state_of_guard cap s hunder ((guard_of_fit _ s rfl).trans hguard), updateRule,
    performAll_single_state, perform_state _ _ (by rfl)]
  exact congrArg Run.state hcall

/-! ## Following and ceasing to follow -/

section Follow

variable {action : String} {scope line : Nat} {delta : Int}

/-- The rules about following bind the user and the target, and fire if the answer is yes. -/
theorem fit_follow (user target : Value) (answer : Bool) :
    ∃ failure?, Bindings.empty.fitTrace ⟨action, [user, target], .bool answer⟩
        (followRule action scope delta line).trigger =
        (failure?, ⟨[(⟨"user", scope⟩, user), (⟨"target", scope⟩, target)]⟩) ∧
      (failure? = none ↔ answer = true) := by
  have hne : (⟨"user", scope⟩ : Variable) ≠ ⟨"target", scope⟩ := by simp
  have hsame : (Value.bool answer).same (.bool true) = answer := by cases answer <;> rfl
  refine ⟨_, fit_yes_two action hne user target (.bool answer), ?_⟩
  rw [hsame]
  cases answer <;> simp

theorem arguments_adjust (user target : Value) :
    Bindings.arguments ⟨[(⟨"user", scope⟩, user), (⟨"target", scope⟩, target)]⟩
      ⟨"Profile.adjustFollowers", [.var ⟨"target", scope⟩, .lit (.int delta)], none⟩ =
      .ok [target, .int delta] := by
  simp [Bindings.arguments, Bindings.argument, Bindings.value, Bindings.get?, Bindings.lookup]
  rfl

variable (hunder : (builtIn cap).rulebook.under action = [followRule action scope delta line])

include hunder

theorem react_follow_false (user target : Value) :
    ((builtIn cap).react ⟨action, [user, target], .bool false⟩ s).state = s := by
  obtain ⟨failure?, hfit, hnone⟩ := fit_follow user target false
  cases failure? with
  | none => cases hnone.mp rfl
  | some e => exact react_state_of_misfit cap s hunder hfit

/-- The number of followers of the target changes. -/
theorem react_follow_state (user target : Value) :
    ((builtIn cap).react ⟨action, [user, target], .bool true⟩ s).state =
      s.adjusted target delta := by
  obtain ⟨failure?, hfit, hnone⟩ := fit_follow user target true
  obtain rfl := hnone.mpr rfl
  rw [react_state_of_fit cap s hunder rfl hfit, followRule, performAll_single_state,
    perform_state _ s (arguments_adjust user target), call_adjustFollowers_state]

end Follow

theorem under_follow :
    (builtIn cap).rulebook.under "Follower.follow" = [followRule "Follower.follow" 2 1 13] := by
  rw [under_builtIn]
  rfl

theorem under_unfollow : (builtIn cap).rulebook.under "Follower.unfollow" =
    [followRule "Follower.unfollow" 3 (-1) 18] := by
  rw [under_builtIn]
  rfl

/-! ## Closing an account -/

theorem under_delete :
    (builtIn cap).rulebook.under "Account.delete" = [deleteRule] := by
  rw [under_builtIn]
  rfl

theorem react_delete_false (user : Value) :
    ((builtIn cap).react ⟨"Account.delete", [user], .bool false⟩ s).state = s :=
  react_state_of_misfit cap s (under_delete cap) rfl

/-- The profile and every edge that mentions the user are removed. -/
theorem react_delete_state {user : Value} {hex : String} (hrecord : user.record? = some hex)
    (hself : user.same user = true) :
    ∃ u, ((builtIn cap).react ⟨"Account.delete", [user], .bool true⟩ s).state =
        { s with
          profiles := s.profiles.erase hex
          edges := s.edges.filter fun edge => !edge.touches hex
          supply := u } ∧
      u.nextHex = s.supply.nextHex := by
  rcases Profiles.delete_cases s.profiles s.supply user with
    ⟨e, v, -, hnone⟩ | ⟨id, v, hprofile, hid⟩
  · rw [hrecord] at hnone
    cases hnone
  rcases Edges.removeUser_cases s.edges v user with ⟨e, w, -, hnone⟩ | ⟨id', w, count, hedges, hid'⟩
  · rw [hrecord] at hnone
    cases hnone
  -- Both calls take the user for the same one.
  obtain rfl := hid.hex_of_record hrecord
  have hhex := hid'.hex_of_record hrecord
  have hcall : (builtIn cap).call "Profile.delete" [user] s = _ :=
    call_of_method profilesPart rfl (by exact Method.on_bind_returned _ hprofile)
  have hcall' : (builtIn cap).call "Follower.removeUser" [user]
      { s with profiles := s.profiles.erase id.hex, supply := v } = _ :=
    call_of_method edgesPart rfl (by exact Method.on_bind_returned _ hedges)
  have hfit : Bindings.fitTrace ⟨[(⟨"user", 4⟩, user)]⟩
      ⟨"Profile.delete", [user], .bool (s.profiles.has id.hex)⟩
      ⟨"Profile.delete", [.var ⟨"user", 4⟩], none⟩ = (none, ⟨[(⟨"user", 4⟩, user)]⟩) := by
    simp [Bindings.fitTrace, Line.argumentPositions, Line.resultPositions, Line.numberedPositions,
      Bindings.fitAll, Bindings.fit, Bindings.get?, Bindings.lookup, Bindings.require, hself]
  have hfirst := perform_answered (builtIn cap) rfl hcall hfit
  have hnext := (hid'.nextHex_of_record hrecord).trans (hid.nextHex_of_record hrecord)
  refine ⟨w, ?_, hnext⟩
  rw [react_state_of_fit cap s (under_delete cap) rfl rfl, deleteRule]
  rcases (builtIn cap).performAll_cons_state
      ⟨"Profile.delete", [.var ⟨"user", 4⟩], none⟩
      [⟨"Follower.removeUser", [.var ⟨"user", 4⟩], none⟩] ⟨[(⟨"user", 4⟩, user)]⟩ s with
    ⟨e, t, events, hline, -⟩ | ⟨after, trace, t, events, hline, hstate⟩
  · rw [hfirst] at hline
    cases hline
  · rw [hfirst] at hline
    cases hline
    refine hstate.trans ?_
    rw [performAll_single_state, perform_state _ _ (by rfl)]
    refine (congrArg Run.state hcall').trans ?_
    have htouches : (fun edge : Edge => !edge.mentions id') =
        fun edge => !edge.touches id.hex := by
      funext edge
      rw [Edge.mentions_eq, hhex]
    rw [htouches]
    rfl

end Engine

end Synchrony
