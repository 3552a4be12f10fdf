import Synchrony.Proofs.Engine.Likeness

/-!
# Runs that tell nothing apart

Whoever looks at a run from outside sees how it ended, which state it left, and which calls it made.
Which rule fired or was declined is not among these. Two runs are **alike** if they are the same in
all that can be seen from outside (`Run.Alike`). They are akin then, with nothing that may differ
(`Run.alike_iff`), so all that is shown of runs side by side is at hand.

Two engines with the same actions and the same cap are alike if their reactions to every single
trace are, because the loop looks at nothing else (`Engine.cascade_alike`).
-/

set_option autoImplicit false

namespace Synchrony

variable {σ α β : Type}

/-- The same ending, the same state, and the same calls in the same order. -/
structure Run.Alike (run run' : Run σ α) : Prop where
  ending : run'.ending = run.ending
  state : run'.state = run.state
  calls : Event.calls run'.events = Event.calls run.events

/-- To be alike is to be akin with nothing that may differ. -/
theorem Run.alike_iff {run run' : Run σ α} :
    run.Alike run' ↔ run.Akin (Likeness.exact σ) Eq run' := by
  constructor
  · rintro ⟨hending, hstate, hcalls⟩
    have hrefl := Run.Akin.refl (L := Likeness.exact σ) (fun _ => rfl) (fun _ => rfl)
      (fun _ => rfl) run
    refine ⟨?_, hstate.symm, List.forall₂_eq_eq_eq ▸ hcalls.symm⟩
    rw [hending]
    exact hrefl.ending
  · intro h
    obtain ⟨hending, hstate, hcalls⟩ := h.same
    exact ⟨hending, hstate, hcalls⟩

theorem Run.Alike.refl (run : Run σ α) : run.Alike run :=
  ⟨rfl, rfl, rfl⟩

theorem Run.Alike.behind {run run' : Run σ α} {front front' : List Event} (h : run.Alike run')
    (hfront : Event.calls front' = Event.calls front) :
    (run.behind front).Alike (run'.behind front') :=
  Run.alike_iff.mpr ((Run.alike_iff.mp h).behind (List.forall₂_eq_eq_eq ▸ hfront.symm))

namespace Act

/-- Alike from every state. -/
def Alike (act act' : Act σ α) : Prop :=
  ∀ s, (act s).Alike (act' s)

theorem alike_iff {act act' : Act σ α} :
    Alike act act' ↔ Akin (Likeness.exact σ) Eq act act' := by
  constructor
  · rintro h s _ rfl
    exact Run.alike_iff.mp (h s)
  · exact fun h s => Run.alike_iff.mpr (h s s rfl)

theorem Alike.refl (act : Act σ α) : Alike act act :=
  fun s => .refl (act s)

theorem Alike.bind {act act' : Act σ α} {next next' : α → Act σ β} (h : Alike act act')
    (hnext : ∀ a, Alike (next a) (next' a)) : Alike (act >>= next) (act' >>= next') := by
  refine alike_iff.mpr (.bind (alike_iff.mp h) ?_)
  rintro a _ rfl
  exact alike_iff.mp (hnext a)

end Act

namespace Engine

variable {engine engine' : Engine σ}

/-- **Engines whose reactions are alike have runs that are alike.** -/
theorem cascade_alike (hactions : engine'.actions = engine.actions)
    (hcap : engine'.cap = engine.cap)
    (hreact : ∀ trace, Act.Alike (engine.react trace) (engine'.react trace))
    (steps : Nat) (action : String) (args : List Value) :
    Act.Alike (engine.cascade steps action args) (engine'.cascade steps action args) := by
  intro s
  have hcall : (engine.call action args s).Akin (Likeness.exact σ) Eq
      (engine'.call action args s) := by
    rw [call_of_actions_eq hactions]
    exact Act.Akin.refl_exact _ s s rfl
  have hreacts {trace trace' : Trace} (htrace : trace = trace') :
      Act.Akin (Likeness.exact σ) (List.Forall₂ Eq) (engine.react trace) (engine'.react trace') := by
    subst htrace
    rw [List.forall₂_eq_eq_eq]
    exact Act.alike_iff.mp (hreact trace)
  have hakin := cascade_akin (Likeness.coherent_of_eq rfl) hcap hcall
    (fun _ htrace => hreacts htrace) steps
  exact Run.alike_iff.mpr (hakin.mono fun _ _ hhistory => hhistory.eq.symm)

end Engine

end Synchrony
