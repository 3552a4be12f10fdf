import Synchrony.Proofs.Concept.Care
import Synchrony.Proofs.Engine.Supplies
import Synchrony.Proofs.Society.BuiltIn

/-!
# Calls in a society

A call that answers changes the store of one concept, and it changes it in the way in which the
method of that concept does (`Society.Answers`). **A call that fails changes no store**
(`Society.failed_call_changes_nothing`), since no method writes anything before it has come past
everything that may fail. `Engine.call_builtIn_cases` says both of the engine with the built-in
rules. In either case the supply goes on and not back.
-/

set_option autoImplicit false

namespace Synchrony

namespace Society

/-- The names that are registered and what stands under them: the methods of one concept each. -/
inductive Registered : String → Action Society → Prop
  | account {method : String} {body : List Value → Method Accounts Value}
    (mem : (method, body) ∈ Accounts.methods) :
    Registered ("Account." ++ method) (Method.action accountsPart supplyPart body)
  | profile {method : String} {body : List Value → Method Profiles Value}
    (mem : (method, body) ∈ Profiles.methods) :
    Registered ("Profile." ++ method) (Method.action profilesPart supplyPart body)
  | follower {method : String} {body : List Value → Method Edges Value}
    (mem : (method, body) ∈ Edges.methods) :
    Registered ("Follower." ++ method) (Method.action edgesPart supplyPart body)
  | merge {method : String} {body : List Value → Method Unit Value}
    (mem : (method, body) ∈ Merge.methods) :
    Registered ("Merge." ++ method) (Method.action .nothing supplyPart body)
  | mapper {method : String} {body : List Value → Method Unit Value}
    (mem : (method, body) ∈ Mapper.methods) :
    Registered ("Mapper." ++ method) (Method.action .nothing supplyPart body)

theorem registered_of_mem {name : String} {action : Action Society}
    (h : (name, action) ∈ actions) : Registered name action := by
  simp only [actions, List.mem_append, Methods.actions, List.mem_map, Prod.exists,
    Prod.mk.injEq] at h
  rcases h with (((⟨_, _, hmem, rfl, rfl⟩ | ⟨_, _, hmem, rfl, rfl⟩) | ⟨_, _, hmem, rfl, rfl⟩) |
    ⟨_, _, hmem, rfl, rfl⟩) | ⟨_, _, hmem, rfl, rfl⟩
  · exact .account hmem
  · exact .profile hmem
  · exact .follower hmem
  · exact .merge hmem
  · exact .mapper hmem

/-- A careful method that fails leaves every store as it is. -/
theorem action_of_failed {S : Type} {store : Part Society S}
    {body : List Value → Method S Value} {args : List Value} {s : Society} {e : Failure}
    {u : Supply} (hset : store.set (store.get s) s = s) (hcareful : (body args).Careful)
    (hon : (body args).on (store.get s) s.supply = (.error e, u)) :
    Method.action store supplyPart body args s = (.error e, { s with supply := u }) := by
  have hperform : (body args).perform (store.get s) s.supply = (.error e, store.get s, u) :=
    hcareful.perform_of_failed hon
  simp only [Method.action, supplyPart, hperform, hset]

/-- If the action of a careful method fails, at most the supply is another one. -/
theorem eq_of_action_failed {S : Type} {store : Part Society S}
    {body : List Value → Method S Value} {args : List Value} {s t : Society} {e : Failure}
    (hset : store.set (store.get s) s = s) (hcareful : (body args).Careful)
    (h : Method.action store supplyPart body args s = (.error e, t)) :
    ∃ u, t = { s with supply := u } := by
  have hending : ((body args).perform (store.get s) s.supply).1 = .error e :=
    congrArg Prod.fst h
  rcases hon : (body args).on (store.get s) s.supply with ⟨e' | ⟨value, t'⟩, u⟩
  · rw [action_of_failed hset hcareful hon] at h
    cases h
    exact ⟨u, rfl⟩
  · rw [Method.on_eq_ok.mp hon] at hending
    cases hending

/-- **A call that fails changes nothing.** Whatever the concepts hold and whatever a registered
action is called with, if it fails then all accounts, profiles and edges are what they were. At most
the supply has handed something out. -/
theorem failed_call_changes_nothing {name : String} {action : Action Society}
    (hentry : (name, action) ∈ actions) {args : List Value} {s t : Society} {e : Failure}
    (h : action args s = (.error e, t)) :
    t.accounts = s.accounts ∧ t.profiles = s.profiles ∧ t.edges = s.edges := by
  have hsupply : ∃ u, t = { s with supply := u } := by
    cases registered_of_mem hentry with
    | account hmethod => exact eq_of_action_failed rfl (Accounts.methods_careful _ hmethod args) h
    | profile hmethod => exact eq_of_action_failed rfl (Profiles.methods_careful _ hmethod args) h
    | follower hmethod => exact eq_of_action_failed rfl (Edges.methods_careful _ hmethod args) h
    | merge hmethod =>
      exact eq_of_action_failed rfl (Merge.methods_read _ hmethod args).keeps.careful h
    | mapper hmethod =>
      exact eq_of_action_failed rfl (Mapper.methods_read _ hmethod args).keeps.careful h
  obtain ⟨u, rfl⟩ := hsupply
  exact ⟨rfl, rfl, rfl⟩

/-- A society in which Ann follows Bob. -/
def annFollowsBob : Society where
  profiles := [("bob", ⟨⟨"bob", 1⟩, .text "Bob", .text "", .text "", .int 1⟩)]
  edges := [⟨⟨"ann", 0⟩, ⟨"bob", 1⟩⟩]

/-- A text cannot be added to a number of followers. -/
theorem failed_call_changes_nothing_unsummable :
    ∃ action e t, ("Profile.adjustFollowers", action) ∈ actions ∧
      action [.text "bob", .text "one"] annFollowsBob = (.error e, t) ∧
      t.accounts = annFollowsBob.accounts ∧ t.profiles = annFollowsBob.profiles ∧
      t.edges = annFollowsBob.edges := by
  obtain ⟨action, t, hmem, hfails⟩ :
      ∃ action t, ("Profile.adjustFollowers", action) ∈ actions ∧
        action [.text "bob", .text "one"] annFollowsBob =
          (.error (.fault .type "unsupported operand type(s) for +: 'int' and 'str'"), t) :=
    ⟨_, _, Keyed.mem_of_get? rfl, rfl⟩
  exact ⟨action, _, t, hmem, hfails, failed_call_changes_nothing hmem hfails⟩

/-- What an action can answer, and the society then. -/
inductive Answers (action : String) (args : List Value) (s : Society) : Value → Society → Prop
  | account {method : String} {body : List Value → Method Accounts Value} {value : Value}
    {accounts : Accounts} {u : Supply} (mem : (method, body) ∈ Accounts.methods)
    (action_eq : action = "Account." ++ method)
    (on_eq : (body args).on s.accounts s.supply = (.ok (value, accounts), u)) :
    Answers action args s value { s with accounts := accounts, supply := u }
  | profile {method : String} {body : List Value → Method Profiles Value} {value : Value}
    {profiles : Profiles} {u : Supply} (mem : (method, body) ∈ Profiles.methods)
    (action_eq : action = "Profile." ++ method)
    (on_eq : (body args).on s.profiles s.supply = (.ok (value, profiles), u)) :
    Answers action args s value { s with profiles := profiles, supply := u }
  | follower {method : String} {body : List Value → Method Edges Value} {value : Value}
    {edges : Edges} {u : Supply} (mem : (method, body) ∈ Edges.methods)
    (action_eq : action = "Follower." ++ method)
    (on_eq : (body args).on s.edges s.supply = (.ok (value, edges), u)) :
    Answers action args s value { s with edges := edges, supply := u }
  | merge {method : String} {body : List Value → Method Unit Value} {value : Value} {u : Supply}
    (mem : (method, body) ∈ Merge.methods) (action_eq : action = "Merge." ++ method)
    (on_eq : (body args).on () s.supply = (.ok (value, ()), u)) :
    Answers action args s value { s with supply := u }
  | mapper {method : String} {body : List Value → Method Unit Value} {value : Value} {u : Supply}
    (mem : (method, body) ∈ Mapper.methods) (action_eq : action = "Mapper." ++ method)
    (on_eq : (body args).on () s.supply = (.ok (value, ()), u)) :
    Answers action args s value { s with supply := u }

/-- The supply never goes back. -/
theorem Answers.advances {action : String} {args : List Value} {s t : Society} {value : Value}
    (h : Answers action args s value t) : s.supply.nextHex ≤ t.supply.nextHex := by
  cases h with
  | account mem action_eq on_eq =>
    simpa [on_eq] using Accounts.methods_advance _ mem args s.accounts s.supply
  | profile mem action_eq on_eq =>
    simpa [on_eq] using Profiles.methods_advance _ mem args s.profiles s.supply
  | follower mem action_eq on_eq =>
    simpa [on_eq] using Edges.methods_advance _ mem args s.edges s.supply
  | merge mem action_eq on_eq =>
    simpa [on_eq] using (Merge.methods_read _ mem args).advances () s.supply
  | mapper mem action_eq on_eq =>
    simpa [on_eq] using (Mapper.methods_read _ mem args).advances () s.supply

/-- A society after somebody's number of followers was changed, or could not be. -/
def adjusted (s : Society) (target : Value) (delta : Int) : Society :=
  let (profiles, u) := (Profiles.adjustFollowers target (.int delta)).left s.profiles s.supply
  { s with profiles := profiles, supply := u }

theorem adjusted_advances (s : Society) (target : Value) (delta : Int) :
    s.supply.nextHex ≤ (s.adjusted target delta).supply.nextHex :=
  (Profiles.adjustFollowers_advances target (.int delta)).left s.profiles s.supply

end Society

namespace Engine

open Society

/-- A method that answers is a call that returns. -/
theorem call_of_method {S : Type} {cap : Option Int} {action : String} {args : List Value}
    (store : Part Society S) {body : List Value → Method S Value} {s : Society} {value : Value}
    {t : S} {u : Supply}
    (hentry : Keyed.get? Society.actions action = some (Method.action store supplyPart body))
    (hon : (body args).on (store.get s) s.supply = (.ok (value, t), u)) :
    (builtIn cap).call action args s =
      ⟨.returned ⟨action, args, value⟩, { store.set t s with supply := u },
        [.called action args]⟩ := by
  refine call_answered (builtIn cap) hentry ?_
  have hperform : (body args).perform (store.get s) s.supply = (.ok value, t, u) :=
    Method.on_eq_ok.mp hon
  simp only [Method.action, Society.supplyPart, hperform]

/-- A careful method that fails is a call that fails and leaves every store as it is. -/
theorem call_of_method_failed {S : Type} {cap : Option Int} {action : String}
    {args : List Value} (store : Part Society S) {body : List Value → Method S Value}
    {s : Society} {e : Failure} {u : Supply}
    (hentry : Keyed.get? Society.actions action = some (Method.action store supplyPart body))
    (hset : store.set (store.get s) s = s) (hcareful : (body args).Careful)
    (hon : (body args).on (store.get s) s.supply = (.error e, u)) :
    (builtIn cap).call action args s =
      ⟨.failed e, { s with supply := u }, [.called action args]⟩ :=
  call_raised (builtIn cap) hentry (action_of_failed hset hcareful hon)

/-- A method that fails or answers is a call that fails or returns. -/
theorem call_of_method_cases {S : Type} (cap : Option Int) {action : String}
    (args : List Value) {store : Part Society S} {body : List Value → Method S Value}
    (s : Society)
    (hentry : Keyed.get? Society.actions action = some (Method.action store supplyPart body))
    (hset : store.set (store.get s) s = s) (hcareful : (body args).Careful)
    (hadvances : (body args).Advances) :
    (∃ e u events, (builtIn cap).call action args s =
        ⟨.failed e, { s with supply := u }, events⟩ ∧ s.supply.nextHex ≤ u.nextHex) ∨
    ∃ value t u, (body args).on (store.get s) s.supply = (.ok (value, t), u) ∧
      (builtIn cap).call action args s =
        ⟨.returned ⟨action, args, value⟩, { store.set t s with supply := u },
          [.called action args]⟩ := by
  have hnext := hadvances (store.get s) s.supply
  rcases hon : (body args).on (store.get s) s.supply with ⟨e | ⟨value, t⟩, u⟩
  · rw [hon] at hnext
    exact Or.inl ⟨e, u, _, call_of_method_failed store hentry hset hcareful hon, hnext⟩
  · exact Or.inr ⟨value, t, u, rfl, call_of_method store hentry hon⟩

/-- **Everything that a call in a society can do.** -/
theorem call_builtIn_cases (cap : Option Int) (action : String) (args : List Value)
    (s : Society) :
    (∃ e u events, (builtIn cap).call action args s =
        ⟨.failed e, { s with supply := u }, events⟩ ∧ s.supply.nextHex ≤ u.nextHex) ∨
    ∃ value t, Answers action args s value t ∧
      (builtIn cap).call action args s =
        ⟨.returned ⟨action, args, value⟩, t, [.called action args]⟩ := by
  rcases hentry : (builtIn cap).actions.get? action with _ | entry
  · exact Or.inl ⟨_, s.supply, _, (builtIn cap).call_unknown args s hentry, Nat.le_refl _⟩
  · cases registered_of_mem (Keyed.mem_of_get? hentry) with
    | account hmethod =>
      rcases call_of_method_cases cap args s hentry rfl (Accounts.methods_careful _ hmethod args)
          (Accounts.methods_advance _ hmethod args) with h | ⟨value, t, u, hon, hcall⟩
      · exact Or.inl h
      · exact Or.inr ⟨value, _, .account hmethod rfl hon, hcall⟩
    | profile hmethod =>
      rcases call_of_method_cases cap args s hentry rfl (Profiles.methods_careful _ hmethod args)
          (Profiles.methods_advance _ hmethod args) with h | ⟨value, t, u, hon, hcall⟩
      · exact Or.inl h
      · exact Or.inr ⟨value, _, .profile hmethod rfl hon, hcall⟩
    | follower hmethod =>
      rcases call_of_method_cases cap args s hentry rfl (Edges.methods_careful _ hmethod args)
          (Edges.methods_advance _ hmethod args) with h | ⟨value, t, u, hon, hcall⟩
      · exact Or.inl h
      · exact Or.inr ⟨value, _, .follower hmethod rfl hon, hcall⟩
    | merge hmethod =>
      have hreads := Merge.methods_read _ hmethod args
      rcases call_of_method_cases cap args s hentry rfl hreads.keeps.careful hreads.advances with
        h | ⟨value, t, u, hon, hcall⟩
      · exact Or.inl h
      · exact Or.inr ⟨value, _, .merge hmethod rfl hon, hcall⟩
    | mapper hmethod =>
      have hreads := Mapper.methods_read _ hmethod args
      rcases call_of_method_cases cap args s hentry rfl hreads.keeps.careful hreads.advances with
        h | ⟨value, t, u, hon, hcall⟩
      · exact Or.inl h
      · exact Or.inr ⟨value, _, .mapper hmethod rfl hon, hcall⟩

theorem call_adjustFollowers_state (cap : Option Int) (target : Value) (delta : Int)
    (s : Society) :
    ((builtIn cap).call "Profile.adjustFollowers" [target, .int delta] s).state =
      s.adjusted target delta := by
  rcases hon : (Profiles.adjustFollowers target (.int delta)).on s.profiles s.supply with
    ⟨e | ⟨followers, profiles⟩, u⟩
  · have hcareful := Profiles.adjustFollowers_careful target (.int delta)
    rw [call_of_method_failed profilesPart rfl rfl (hcareful.map _)
      (by exact Method.on_bind_failed _ hon), adjusted, hcareful.left_of_failed hon]
  · rw [call_of_method profilesPart rfl (by exact Method.on_bind_returned _ hon), adjusted,
      Method.left_of_returned hon]
    rfl

/-! ## The supply -/

theorem call_advances (cap : Option Int) (action : String) (args : List Value) (s : Society) :
    s.supply.nextHex ≤ ((builtIn cap).call action args s).state.supply.nextHex := by
  rcases call_builtIn_cases cap action args s with
    ⟨e, u, events, hcall, hnext⟩ | ⟨value, t, hanswers, hcall⟩
  · rw [hcall]
    exact hnext
  · rw [hcall]
    exact hanswers.advances

theorem react_advances (cap : Option Int) (trace : Trace) (s : Society) :
    s.supply.nextHex ≤ ((builtIn cap).react trace s).state.supply.nextHex := by
  refine react_keeps (I := fun t : Society => s.supply.nextHex ≤ t.supply.nextHex) ?_
    (Nat.le_refl _)
  intro rule hrule line hline args t ht
  exact Nat.le_trans ht (call_advances cap line.action args t)

/-- However a run ends, the supply has not gone back. -/
theorem Ends.advances {cap : Option Int} {action : String} {args : List Value} {s : Society}
    {run : Run Society History} (h : (builtIn cap).Ends action args s run) :
    s.supply.nextHex ≤ run.state.supply.nextHex := by
  have hcalls := call_advances cap action args s
  rcases h.flat (builtIn_flat cap) with
    ⟨e, events, hcall, -⟩ | ⟨first, t, events, hcall, hstate, -⟩
  · rwa [hcall] at hcalls
  · rw [hcall] at hcalls
    rw [hstate]
    exact Nat.le_trans hcalls (react_advances cap first t)

end Engine

end Synchrony
