import Synchrony.Engine.Run

/-!
# Taking a sequence of acts apart

Whatever the engine does is one act bound behind another, so a fact about a run is had by taking a
bind apart: either the first act returned and the second ran from where it left off, or the first
act did not return and the second never happened. `Act.bind_cases` says so once, for all three ways
to end, and the lemmas behind it are its cases.

## 1. Acts that finish

`unfinished` comes from a bound on the number of steps and from nowhere else. An act that looks at
no bound **finishes** (`Act.Finishes`), and finishing is kept by everything acts are built with.

## 2. Acts that uphold something

What holds of the state before an act may hold of the state behind it as well, however it ends, and
something may hold of every event and of the answer too (`Act.Upholds`). This is also kept by
everything acts are built with, so for a whole run it is enough to look at single calls.
-/

set_option autoImplicit false

namespace Synchrony

/-- A run with the events that came before it put in front. -/
def Run.behind {σ α : Type} (front : List Event) (run : Run σ α) : Run σ α :=
  ⟨run.ending, run.state, front ++ run.events⟩

@[simp] theorem Run.behind_mk {σ α : Type} (front : List Event) (ending : Ending α) (s : σ)
    (events : List Event) :
    (⟨ending, s, events⟩ : Run σ α).behind front = ⟨ending, s, front ++ events⟩ := rfl

theorem Run.behind_behind {σ α : Type} (front back : List Event) (run : Run σ α) :
    (run.behind back).behind front = run.behind (front ++ back) := by
  rw [behind, behind, behind, List.append_assoc]

/-- What holds of a run: of the state in the end, of all events, and of the answer if there is
one. -/
structure Run.Holds {σ α : Type} (I : σ → Prop) (E : Event → Prop) (Q : α → Prop)
    (run : Run σ α) : Prop where
  state : I run.state
  events : ∀ event ∈ run.events, E event
  answer : ∀ a, run.ending = .returned a → Q a

namespace Act

variable {σ α β : Type}

/-! ## Binds -/

/-- **Everything a bind can do.** -/
theorem bind_cases {act : Act σ α} {next : α → Act σ β} {s t : σ} {ending : Ending β}
    {events : List Event} (h : (act >>= next) s = ⟨ending, t, events⟩) :
    (∃ a u front back, act s = ⟨.returned a, u, front⟩ ∧ next a u = ⟨ending, t, back⟩ ∧
      events = front ++ back) ∨
    (∃ e, act s = ⟨.failed e, t, events⟩ ∧ ending = .failed e) ∨
    (act s = ⟨.unfinished, t, events⟩ ∧ ending = .unfinished) := by
  change bind act next s = _ at h
  rcases hact : act s with ⟨a | e | _, u, front⟩
  · rcases hnext : next a u with ⟨last, v, back⟩
    simp only [bind, hact, hnext, joinEvents_eq, Run.mk.injEq] at h
    obtain ⟨rfl, rfl, rfl⟩ := h
    exact Or.inl ⟨a, u, front, back, rfl, hnext, rfl⟩
  · simp only [bind, hact, Run.mk.injEq] at h
    obtain ⟨rfl, rfl, rfl⟩ := h
    exact Or.inr (Or.inl ⟨e, rfl, rfl⟩)
  · simp only [bind, hact, Run.mk.injEq] at h
    obtain ⟨rfl, rfl, rfl⟩ := h
    exact Or.inr (Or.inr ⟨rfl, rfl⟩)

theorem bind_returned {act : Act σ α} {next : α → Act σ β} {s t : σ} {b : β}
    {events : List Event} (h : (act >>= next) s = ⟨.returned b, t, events⟩) :
    ∃ a u front back, act s = ⟨.returned a, u, front⟩ ∧ next a u = ⟨.returned b, t, back⟩ ∧
      events = front ++ back := by
  rcases bind_cases h with h | ⟨e, -, he⟩ | ⟨-, hu⟩
  · exact h
  · cases he
  · cases hu

theorem bind_failed {act : Act σ α} {next : α → Act σ β} {s t : σ} {e : Failure}
    {events : List Event} (h : (act >>= next) s = ⟨.failed e, t, events⟩) :
    (∃ a u front back, act s = ⟨.returned a, u, front⟩ ∧ next a u = ⟨.failed e, t, back⟩ ∧
      events = front ++ back) ∨ act s = ⟨.failed e, t, events⟩ := by
  rcases bind_cases h with h | ⟨e', hact, he⟩ | ⟨-, hu⟩
  · exact Or.inl h
  · cases he
    exact Or.inr hact
  · cases hu

theorem bind_run_returned {act : Act σ α} (next : α → Act σ β) {s t : σ} {a : α}
    {events : List Event} (h : act s = ⟨.returned a, t, events⟩) :
    (act >>= next) s = (next a t).behind events := by
  change bind act next s = _
  simp [bind, h, Run.behind]

theorem bind_run_failed {act : Act σ α} (next : α → Act σ β) {s t : σ} {e : Failure}
    {events : List Event} (h : act s = ⟨.failed e, t, events⟩) :
    (act >>= next) s = ⟨.failed e, t, events⟩ := by
  change bind act next s = _
  simp [bind, h]

theorem bind_run_unfinished {act : Act σ α} (next : α → Act σ β) {s t : σ}
    {events : List Event} (h : act s = ⟨.unfinished, t, events⟩) :
    (act >>= next) s = ⟨.unfinished, t, events⟩ := by
  change bind act next s = _
  simp [bind, h]

/-- What is bound behind an act that does as another does, with events before it. -/
theorem bind_behind {act act' : Act σ α} (next : α → Act σ β) {s t : σ} {events : List Event}
    (h : act s = (act' t).behind events) :
    (act >>= next) s = ((act' >>= next) t).behind events := by
  rcases hrun : act' t with ⟨a | e | _, u, more⟩
  all_goals rw [hrun, Run.behind_mk] at h
  · rw [bind_run_returned _ h, bind_run_returned _ hrun, Run.behind_behind]
  · rw [bind_run_failed _ h, bind_run_failed _ hrun, Run.behind_mk]
  · rw [bind_run_unfinished _ h, bind_run_unfinished _ hrun, Run.behind_mk]

instance : LawfulMonad (Act σ) :=
  LawfulMonad.mk' (Act σ) (fun act => bind_pure act) (fun a next => pure_bind a next)
    (fun act next last => bind_assoc act next last)

/-! ## The other acts -/

@[simp] theorem pure_apply (a : α) (s : σ) :
    (Pure.pure a : Act σ α) s = ⟨.returned a, s, []⟩ := rfl

@[simp] theorem fail_apply (e : Failure) (s : σ) :
    (fail e : Act σ α) s = ⟨.failed e, s, []⟩ := rfl

@[simp] theorem emit_apply (event : Event) (s : σ) :
    emit event s = ⟨.returned (), s, [event]⟩ := rfl

@[simp] theorem ofExcept_ok (a : α) : (ofExcept (.ok a) : Act σ α) = Pure.pure a := rfl

@[simp] theorem ofExcept_error (e : Failure) : (ofExcept (.error e) : Act σ α) = fail e := rfl

theorem pure_run {a : α} {s t : σ} {ending : Ending α} {events : List Event}
    (h : (Pure.pure a : Act σ α) s = ⟨ending, t, events⟩) :
    ending = .returned a ∧ t = s ∧ events = [] := by
  change (⟨.returned a, s, []⟩ : Run σ α) = _ at h
  cases h
  exact ⟨rfl, rfl, rfl⟩

theorem ofExcept_returned {x : Except Failure α} {s t : σ} {a : α} {events : List Event}
    (h : ofExcept x s = ⟨.returned a, t, events⟩) : x = .ok a ∧ t = s ∧ events = [] := by
  cases x with
  | ok b =>
    cases h
    exact ⟨rfl, rfl, rfl⟩
  | error e => cases h

theorem attempt_of_returned {act : Act σ α} {s t : σ} {a : α} {events : List Event}
    (h : act s = ⟨.returned a, t, events⟩) :
    attempt act s = ⟨.returned (.ok a), t, events⟩ := by
  simp only [attempt, h]

theorem attempt_of_failed {act : Act σ α} {s t : σ} {e : Failure} {events : List Event}
    (h : act s = ⟨.failed e, t, events⟩) :
    attempt act s = ⟨.returned (.error e), t, events⟩ := by
  simp only [attempt, h]

@[simp] theorem fail_bind (e : Failure) (next : α → Act σ β) :
    ((fail e : Act σ α) >>= next) = fail e := rfl

/-! ## Acts that finish -/

/-- An act that uses up no bound, from whatever state it starts. -/
def Finishes (act : Act σ α) : Prop :=
  ∀ s, (act s).ending ≠ .unfinished

theorem Finishes.cases {act : Act σ α} (h : Finishes act) (s : σ) :
    (∃ a t events, act s = ⟨.returned a, t, events⟩) ∨
      ∃ e t events, act s = ⟨.failed e, t, events⟩ := by
  rcases hact : act s with ⟨a | e | _, t, events⟩
  · exact Or.inl ⟨a, t, events, rfl⟩
  · exact Or.inr ⟨e, t, events, rfl⟩
  · exact absurd (by rw [hact]) (h s)

theorem Finishes.pure (a : α) : Finishes (Pure.pure a : Act σ α) :=
  fun _ h => by cases h

theorem Finishes.fail (e : Failure) : Finishes (fail e : Act σ α) :=
  fun _ h => by cases h

theorem Finishes.emit (event : Event) : Finishes (emit event : Act σ Unit) :=
  fun _ h => by cases h

theorem Finishes.ofExcept (x : Except Failure α) : Finishes (ofExcept x : Act σ α) := by
  cases x with
  | ok a => exact Finishes.pure a
  | error e => exact Finishes.fail e

theorem Finishes.call (action : Action σ) (args : List Value) : Finishes (call action args) := by
  intro s
  rcases hrun : action args s with ⟨e | value, t⟩ <;> simp [Act.call, hrun]

theorem Finishes.bind {act : Act σ α} {next : α → Act σ β} (hact : Finishes act)
    (hnext : ∀ a, Finishes (next a)) : Finishes (act >>= next) := by
  intro s h
  rcases hrun : (act >>= next) s with ⟨ending, t, events⟩
  rw [hrun] at h
  rcases bind_cases hrun with ⟨a, u, front, back, -, hback, -⟩ | ⟨e, -, he⟩ | ⟨hu, -⟩
  · exact hnext a u (by rw [hback]; exact h)
  · rw [he] at h
    cases h
  · exact hact s (by rw [hu])

/-! ## Acts that uphold something -/

variable {I : σ → Prop} {E : Event → Prop} {Q : α → Prop} {R : β → Prop} {act : Act σ α}

/-- Whenever the first holds of the state before, all three hold of the run. -/
def Upholds (I : σ → Prop) (E : Event → Prop) (Q : α → Prop) (act : Act σ α) : Prop :=
  ∀ s, I s → (act s).Holds I E Q

theorem Upholds.of_returned (h : Upholds I E Q act) {s t : σ} {a : α} {events : List Event}
    (hs : I s) (hrun : act s = ⟨.returned a, t, events⟩) : I t ∧ Q a := by
  have hholds := h s hs
  rw [hrun] at hholds
  exact ⟨hholds.state, hholds.answer a rfl⟩

theorem Upholds.pure {a : α} (h : Q a) : Upholds I E Q (Pure.pure a : Act σ α) := by
  intro s hs
  refine ⟨hs, by simp, ?_⟩
  rintro _ ⟨⟩
  exact h

theorem Upholds.fail (e : Failure) : Upholds I E Q (fail e : Act σ α) := by
  intro s hs
  refine ⟨hs, by simp, ?_⟩
  rintro _ ⟨⟩

theorem Upholds.unfinished : Upholds I E Q (unfinished : Act σ α) := by
  intro s hs
  refine ⟨hs, by simp [Act.unfinished], ?_⟩
  rintro _ ⟨⟩

theorem Upholds.emit {event : Event} (h : E event) :
    Upholds I E (fun _ => True) (emit event : Act σ Unit) := by
  intro s hs
  refine ⟨hs, ?_, fun _ _ => trivial⟩
  intro event' hmem
  rwa [List.mem_singleton.mp hmem]

theorem Upholds.ofExcept {x : Except Failure α} (h : ∀ a, x = .ok a → Q a) :
    Upholds I E Q (ofExcept x : Act σ α) := by
  cases x with
  | ok a => exact .pure (h a rfl)
  | error e => exact .fail e

theorem Upholds.bind {next : α → Act σ β} (hact : Upholds I E Q act)
    (hnext : ∀ a, Q a → Upholds I E R (next a)) : Upholds I E R (act >>= next) := by
  intro s hs
  obtain ⟨hstate, hevents, hanswer⟩ := hact s hs
  rcases hrun : act s with ⟨a | e | _, t, events⟩
  all_goals rw [hrun] at hstate hevents hanswer
  · obtain ⟨hlast, hmore, hresult⟩ := hnext a (hanswer a rfl) t hstate
    rw [bind_run_returned _ hrun]
    exact ⟨hlast, List.forall_mem_append.mpr ⟨hevents, hmore⟩, hresult⟩
  · rw [bind_run_failed _ hrun]
    exact ⟨hstate, hevents, fun b h => by cases h⟩
  · rw [bind_run_unfinished _ hrun]
    exact ⟨hstate, hevents, fun b h => by cases h⟩

theorem Upholds.attempt (h : Upholds I E Q act) :
    Upholds I E (fun outcome => ∀ a, outcome = .ok a → Q a) (attempt act) := by
  intro s hs
  obtain ⟨hstate, hevents, hanswer⟩ := h s hs
  rcases hrun : act s with ⟨a | e | _, t, events⟩
  all_goals rw [hrun] at hstate hevents hanswer
  · rw [attempt_of_returned hrun]
    refine ⟨hstate, hevents, ?_⟩
    rintro _ ⟨⟩ b ⟨⟩
    exact hanswer a rfl
  · rw [attempt_of_failed hrun]
    refine ⟨hstate, hevents, ?_⟩
    rintro _ ⟨⟩ b ⟨⟩
  · simp only [Act.attempt, hrun]
    exact ⟨hstate, hevents, fun b h => by cases h⟩

end Act

end Synchrony
