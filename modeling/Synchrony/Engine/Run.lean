import Synchrony.Engine.Event

/-!
# Runs

An action is an ordinary function of its arguments and a state: it answers or fails, and leaves a
state in either case. What the engine does between the calls is written in `Act`, which threads
that state, collects the events, and ends in one of three ways.

The third way to end is neither an answer nor a failure: `unfinished` says that a bound on the
number of steps, which the caller chose, was used up. An uncapped cascade may go on for ever, and
then every bound is used up. Nothing catches `unfinished`.
-/

set_option autoImplicit false

namespace Synchrony

/-- An action over a state of type `σ`. -/
abbrev Action (σ : Type) := List Value → σ → Except Failure Value × σ

/-- How a run ends. -/
inductive Ending (α : Type) where
  | returned (a : α)
  | failed (e : Failure)
  | unfinished
  deriving Repr, Inhabited

/-- What a run leaves behind. -/
structure Run (σ α : Type) where
  ending : Ending α
  state : σ
  events : List Event

/-- Something the engine does to a state of type `σ`. -/
def Act (σ α : Type) := σ → Run σ α

namespace Act

variable {σ α β : Type}

/-- Events and then more events. Where nothing more happens, nothing is copied. -/
def joinEvents (events : List Event) : List Event → List Event
  | [] => events
  | more => events ++ more

@[simp] theorem joinEvents_eq (events more : List Event) :
    joinEvents events more = events ++ more := by
  cases more <;> simp [joinEvents]

/-- Answer and do nothing. -/
def pure (a : α) : Act σ α :=
  fun s => ⟨.returned a, s, []⟩

/-- Do one thing and go on with its answer. -/
def bind (act : Act σ α) (next : α → Act σ β) : Act σ β :=
  fun s =>
    match act s with
    | ⟨.returned a, s, events⟩ =>
      let rest := next a s
      ⟨rest.ending, rest.state, joinEvents events rest.events⟩
    | ⟨.failed e, s, events⟩ => ⟨.failed e, s, events⟩
    | ⟨.unfinished, s, events⟩ => ⟨.unfinished, s, events⟩

instance : Monad (Act σ) where
  pure := pure
  bind := bind

/-- Fail. -/
def fail (e : Failure) : Act σ α :=
  fun s => ⟨.failed e, s, []⟩

/-- Stop because a bound is used up. -/
def unfinished : Act σ α :=
  fun s => ⟨.unfinished, s, []⟩

/-- Let an event happen. -/
def emit (event : Event) : Act σ Unit :=
  fun s => ⟨.returned (), s, [event]⟩

/-- Answer or fail, as is already known. -/
def ofExcept : Except Failure α → Act σ α
  | .ok a => pure a
  | .error e => fail e

/-- Call an action. -/
def call (action : Action σ) (args : List Value) : Act σ Value :=
  fun s =>
    match action args s with
    | (.ok value, s) => ⟨.returned value, s, []⟩
    | (.error e, s) => ⟨.failed e, s, []⟩

/-- Do something and answer with how it went. -/
def attempt (act : Act σ α) : Act σ (Except Failure α) :=
  fun s =>
    match act s with
    | ⟨.returned a, s, events⟩ => ⟨.returned (.ok a), s, events⟩
    | ⟨.failed e, s, events⟩ => ⟨.returned (.error e), s, events⟩
    | ⟨.unfinished, s, events⟩ => ⟨.unfinished, s, events⟩

theorem pure_bind (a : α) (next : α → Act σ β) : bind (pure a) next = next a := by
  funext s
  simp [bind, pure]

theorem bind_pure (act : Act σ α) : bind act pure = act := by
  funext s
  rcases h : act s with ⟨_ | _ | _, _, _⟩ <;> simp [bind, pure, h]

theorem bind_assoc {γ : Type} (act : Act σ α) (next : α → Act σ β) (last : β → Act σ γ) :
    bind (bind act next) last = bind act fun a => bind (next a) last := by
  funext s
  rcases h : act s with ⟨a | _ | _, t, _⟩
  · rcases hn : next a t with ⟨b | _ | _, u, _⟩ <;> simp [bind, h, hn]
  · simp [bind, h]
  · simp [bind, h]

end Act

end Synchrony
