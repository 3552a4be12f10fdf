import Synchrony.Failure
import Synchrony.Keyed

/-!
# Registries

A registry maps the qualified names of actions to what is registered under them, and is fixed once
it is built. A name can be registered only once, so the registry carries the proof that its names
differ; a look-up that fails is a failure of its own kind, which no rule may swallow.
-/

set_option autoImplicit false

namespace Synchrony

/-- Named entries, each name once, in order of registration. -/
structure Registry (α : Type) where
  entries : Keyed α
  nodup : entries.keys.Nodup

namespace Registry

variable {α : Type}

/-- The registry with nothing in it. -/
def empty : Registry α := ⟨[], List.nodup_nil⟩

/-- The registered names in order. -/
def names (registry : Registry α) : List String :=
  registry.entries.keys

/-- The number of registered names. -/
def size (registry : Registry α) : Nat :=
  registry.entries.length

/-- Whether a name is registered. -/
def contains (registry : Registry α) (name : String) : Bool :=
  registry.entries.has name

/-- What is registered under a name, if anything. -/
def get? (registry : Registry α) (name : String) : Option α :=
  registry.entries.get? name

/-- What is registered under a name. -/
def get (registry : Registry α) (name : String) : Except Failure α :=
  match registry.get? name with
  | some a => .ok a
  | none => .error (.unknownAction name)

theorem contains_iff {registry : Registry α} {name : String} :
    registry.contains name = true ↔ ∃ a, registry.get? name = some a := by
  rw [contains, Keyed.has_eq, Option.isSome_iff_exists]
  rfl

/-- Register one more name. -/
def register (registry : Registry α) (name : String) (a : α) : Except Failure (Registry α) :=
  if h : name ∈ registry.entries.keys then .error (.duplicateAction name)
  else .ok {
    entries := registry.entries ++ [(name, a)]
    nodup := by
      have hn := registry.nodup
      simp only [Keyed.keys, List.map_append, List.map_cons, List.map_nil] at h hn ⊢
      rw [List.nodup_append]
      refine ⟨hn, by simp, ?_⟩
      intro x hx y hy
      rw [List.mem_singleton] at hy
      exact fun e => h (hy ▸ e ▸ hx) }

/-- Register names in order, on top of those already registered. -/
def registerAll (registry : Registry α) : List (String × α) → Except Failure (Registry α)
  | [] => .ok registry
  | (name, a) :: more =>
    match registry.register name a with
    | .ok registry => registry.registerAll more
    | .error e => .error e

/-- A registry of named entries. -/
def ofPairs (pairs : List (String × α)) : Except Failure (Registry α) :=
  empty.registerAll pairs

end Registry

end Synchrony
