import Synchrony.Engine.Run
import Synchrony.Signature
import Synchrony.Value.Supply

/-!
# Methods

A concept is a store together with methods on it. A method takes values and answers with one, and
it may need a new identifier or the time. It reads and writes its store step by step. What it has
written stays written and what the supply handed out stays handed out, also if the method fails
later on: the failure stands outside the store in `Method`, and nothing is ever taken back.

## Actions

A method becomes an action of the engine once it is said where in the state of a run its store and
the supply are kept (`Part`). Calling a method with the wrong number of arguments is a fault, and
its text counts the concept itself as one of the arguments.
-/

set_option autoImplicit false

namespace Synchrony

/-- A method over a store of type `S`. -/
abbrev Method (S : Type) := ExceptT Failure (StateT S (StateM Supply))

/-- A part of a state: how to look at it and how to replace it. -/
structure Part (σ τ : Type) where
  get : σ → τ
  set : τ → σ → σ

namespace Method

variable {S α σ : Type}

/-- Fail. -/
def fail (e : Failure) : Method S α :=
  throw e

/-- Refuse the call. -/
def refuse (refusal : Refusal) (message : String) : Method S α :=
  fail (.concept refusal message)

/-- Take something from the supply. -/
def take (supplied : StateM Supply α) : Method S α :=
  ExceptT.lift (StateT.lift supplied)

/-- The text of a value, as it stands in messages and in identifiers. -/
def textOf (value : Value) : Method S String :=
  if value.hasText then pure value.plain else fail .tooManyDigits

/-- The identifier that a value stands for: itself if it is one, and otherwise a new one that names
the record of the value's text. An empty text names no record yet, so it becomes a fresh one. -/
def identOf : Value → Method S Ident
  | .ident id => pure id
  | value => do
    let text ← textOf value
    take (Supply.ident text)

/-- Fail because of the wrong number of arguments. -/
def wrongArity (name : String) (params : List String) (args : List Value) : Method S α :=
  fail ((Signature.mk name params 0 true).fault args.length)

/-- What a method does to a store, with a supply at hand: how it ends, and what it leaves of
both. -/
def perform (method : Method S α) (store : S) (u : Supply) : Except Failure α × S × Supply :=
  let ((ending, t), v) := (method.run.run store).run u
  (ending, t, v)

/-- A method as an action over a state that holds its store and the supply. -/
def action (store : Part σ S) (supply : Part σ Supply) (method : List Value → Method S Value) :
    Action σ :=
  fun args s =>
    let (ending, t, u) := (method args).perform (store.get s) (supply.get s)
    (ending, supply.set u (store.set t s))

end Method

/-- The methods that a concept offers as actions, in the order in which they are registered. -/
abbrev Methods (S : Type) := List (String × (List Value → Method S Value))

/-- The actions of a concept under the name it is registered with. -/
def Methods.actions {S σ : Type} (methods : Methods S) (name : String) (store : Part σ S)
    (supply : Part σ Supply) : List (String × Action σ) :=
  methods.map fun (method, body) => (name ++ "." ++ method, Method.action store supply body)

end Synchrony
