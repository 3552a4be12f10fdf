import Synchrony.Proofs.Concept.Methods

/-!
# Rows of calls

A concept is called by the name of a method and with any arguments, again and again, and each call
finds what the one before it left (`Methods.after`), whether that one answered or failed. The
answers of a row of calls are told in order, failures included (`Methods.answers`).

What the start has and every call keeps, a row of calls keeps (`Methods.after_invariant`).
-/

set_option autoImplicit false

namespace Synchrony

/-- What a method answers. -/
def Method.answer {S α : Type} (method : Method S α) (store : S) (u : Supply) : Except Failure α :=
  (method.on store u).1.map Prod.fst

theorem Method.answer_of_returned {S α : Type} {method : Method S α} {store t : S} {u v : Supply}
    {a : α} (h : method.on store u = (.ok (a, t), v)) : method.answer store u = .ok a := by
  rw [answer, h]
  rfl

theorem Method.answer_of_failed {S α : Type} {method : Method S α} {store : S} {u v : Supply}
    {e : Failure} (h : method.on store u = (.error e, v)) : method.answer store u = .error e := by
  rw [answer, h]
  rfl

namespace Methods

variable {S : Type} {methods : Methods S}

/-- What a concept does when it is called: what the method of that name does. -/
def call (methods : Methods S) (call : String × List Value) : Method S Value :=
  match Keyed.get? methods call.1 with
  | some body => body call.2
  | none => Method.fail (.unknownAction call.1)

/-- What a row of calls leaves of a store and a supply. -/
def after (methods : Methods S) : List (String × List Value) → S × Supply → S × Supply
  | [], s => s
  | call :: calls, s => methods.after calls ((methods.call call).left s.1 s.2)

/-- The answers of a row of calls. -/
def answers (methods : Methods S) : List (String × List Value) → S × Supply →
    List (Except Failure Value)
  | [], _ => []
  | call :: calls, s =>
    (methods.call call).answer s.1 s.2 ::
      methods.answers calls ((methods.call call).left s.1 s.2)

theorem call_of_get? {name : String} {body : List Value → Method S Value}
    (h : Keyed.get? methods name = some body) (args : List Value) :
    methods.call (name, args) = body args := by
  rw [call, h]

/-- A call is one of a method, or it fails. -/
theorem call_cases (methods : Methods S) (name : String) (args : List Value) :
    (∃ body, (name, body) ∈ methods ∧ methods.call (name, args) = body args) ∨
      methods.call (name, args) = Method.fail (.unknownAction name) := by
  cases h : Keyed.get? methods name with
  | some body => exact Or.inl ⟨body, Keyed.mem_of_get? h, call_of_get? h args⟩
  | none =>
    refine Or.inr ?_
    rw [call, h]

theorem answers_cons_of_returned {call : String × List Value} (calls : List (String × List Value))
    {store t : S} {u v : Supply} {value : Value}
    (h : (methods.call call).on store u = (.ok (value, t), v)) :
    methods.answers (call :: calls) (store, u) = .ok value :: methods.answers calls (t, v) := by
  rw [answers, Method.answer_of_returned h, Method.left_of_returned h]

theorem after_append (calls more : List (String × List Value)) (s : S × Supply) :
    methods.after (calls ++ more) s = methods.after more (methods.after calls s) := by
  induction calls generalizing s with
  | nil => rfl
  | cons call calls ih => exact ih _

/-- **What the start has and every call keeps, a row of calls keeps.** -/
theorem after_invariant {I : S × Supply → Prop} {Allowed : String × List Value → Prop}
    {calls : List (String × List Value)} (hallowed : ∀ call ∈ calls, Allowed call)
    (hstep : ∀ call s, Allowed call → I s → I ((methods.call call).left s.1 s.2))
    {s : S × Supply} (hstart : I s) : I (methods.after calls s) := by
  induction calls generalizing s with
  | nil => exact hstart
  | cons call calls ih =>
    obtain ⟨hcall, hcalls⟩ := List.forall_mem_cons.mp hallowed
    exact ih hcalls (hstep call s hcall hstart)

end Methods

end Synchrony
