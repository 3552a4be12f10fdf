import Mathlib.Data.List.Forall2
import Synchrony.Proofs.Engine.Stages

/-!
# Runs side by side

Many a statement about runs compares two of them: the rules were written in another way, or the
arguments were, or the states differ in what nobody looks at. All of these are shown in one way. The
two runs go in lockstep, and what they have come to is alike at every step.

## 1. Likeness

What counts as alike is a matter of the statement. A **likeness** says it of states, of calls and of
failures (`Likeness`), and everything else follows the structure of runs: two runs are **akin** if
they end in the same way, leave states that are alike, and make calls that are alike one by one
(`Run.Akin`). Two acts are akin if they make such runs from all states that are alike, and that is
kept by everything acts are built with.

## 2. From lines to runs

The lemmas follow the engine from the line outwards, with one relation for bindings and one for
traces. Of failures the engine asks a little (`Likeness.Coherent`): it tells an unknown action from
all others, and it turns a mismatch into a violation.

The loop looks at nothing but the reactions (`Engine.cascade_akin`), and only at the reactions to
traces that the first of the two runs comes to (`Engine.Processes`).
-/

set_option autoImplicit false

namespace Synchrony

variable {σ α β γ δ : Type}

/-- What two runs may differ in: which states, which calls and which failures are taken for
alike. -/
structure Likeness (σ : Type) where
  state : σ → σ → Prop
  call : String × List Value → String × List Value → Prop
  failure : Failure → Failure → Prop

/-- The likeness that lets nothing differ. -/
def Likeness.exact (σ : Type) : Likeness σ := ⟨Eq, Eq, Eq⟩

/-- Two outcomes that are both answers, or both failures, and alike as such. -/
inductive Akin (A : α → β → Prop) (F : Failure → Failure → Prop) :
    Except Failure α → Except Failure β → Prop
  | ok {a : α} {b : β} (h : A a b) : Akin A F (.ok a) (.ok b)
  | error {e e' : Failure} (h : F e e') : Akin A F (.error e) (.error e')

inductive Ending.Akin (A : α → β → Prop) (F : Failure → Failure → Prop) :
    Ending α → Ending β → Prop
  | returned {a : α} {b : β} (h : A a b) : Akin A F (.returned a) (.returned b)
  | failed {e e' : Failure} (h : F e e') : Akin A F (.failed e) (.failed e')
  | unfinished : Akin A F .unfinished .unfinished

/-- The same kind of ending, and states and calls that are alike. -/
structure Run.Akin (L : Likeness σ) (A : α → β → Prop) (run : Run σ α) (run' : Run σ β) :
    Prop where
  ending : run.ending.Akin A L.failure run'.ending
  state : L.state run.state run'.state
  calls : List.Forall₂ L.call (Event.calls run.events) (Event.calls run'.events)

variable {L : Likeness σ} {A : α → β → Prop} {B : γ → δ → Prop}

theorem Ending.Akin.mono {A A' : α → β → Prop} {F : Failure → Failure → Prop} {ending : Ending α}
    {ending' : Ending β} (h : ending.Akin A F ending') (hA : ∀ a b, A a b → A' a b) :
    ending.Akin A' F ending' := by
  cases h with
  | returned h => exact .returned (hA _ _ h)
  | failed h => exact .failed h
  | unfinished => exact .unfinished

theorem Run.Akin.mono {A' : α → β → Prop} {run : Run σ α} {run' : Run σ β} (h : run.Akin L A run')
    (hA : ∀ a b, A a b → A' a b) : run.Akin L A' run' :=
  ⟨h.ending.mono hA, h.state, h.calls⟩

theorem Run.Akin.behind {run : Run σ α} {run' : Run σ β} {front front' : List Event}
    (h : run.Akin L A run') (hfront : List.Forall₂ L.call (Event.calls front) (Event.calls front')) :
    (run.behind front).Akin L A (run'.behind front') where
  ending := h.ending
  state := h.state
  calls := by
    simp only [Run.behind, Event.calls_append]
    exact List.rel_append hfront h.calls

/-- Runs that are the same are akin under every likeness that lets the same pass for alike. -/
theorem Run.Akin.refl (hstate : ∀ s, L.state s s) (hcall : ∀ call, L.call call call)
    (hfailure : ∀ e, L.failure e e) (run : Run σ α) : run.Akin L Eq run where
  ending := by
    cases run.ending with
    | returned a => exact .returned rfl
    | failed e => exact .failed (hfailure e)
    | unfinished => exact .unfinished
  state := hstate _
  calls := List.forall₂_same.mpr fun call _ => hcall call

/-- Where nothing may differ, the runs show the same to whoever looks at them. -/
theorem Run.Akin.same {run run' : Run σ α} (h : run.Akin (Likeness.exact σ) Eq run') :
    run'.ending = run.ending ∧ run'.state = run.state ∧
      Event.calls run'.events = Event.calls run.events := by
  obtain ⟨ending, s, events⟩ := run
  obtain ⟨ending', s', events'⟩ := run'
  obtain ⟨hending, hstate, hcalls⟩ := h
  refine ⟨?_, Eq.symm hstate, ?_⟩
  · cases hending with
    | returned ha => exact congrArg Ending.returned (Eq.symm ha)
    | failed he => exact congrArg Ending.failed (Eq.symm he)
    | unfinished => rfl
  · exact (List.forall₂_eq_eq_eq ▸ hcalls : Event.calls events = Event.calls events').symm

namespace Act

/-! ## Acts side by side -/

/-- Akin from all states that are alike. -/
def Akin (L : Likeness σ) (A : α → β → Prop) (act : Act σ α) (act' : Act σ β) : Prop :=
  ∀ s s', L.state s s' → (act s).Akin L A (act' s')

variable {act : Act σ α} {act' : Act σ β}

theorem Akin.mono {A' : α → β → Prop} (h : Akin L A act act') (hA : ∀ a b, A a b → A' a b) :
    Akin L A' act act' :=
  fun s s' hs => (h s s' hs).mono hA

/-- Where nothing may differ, an act is akin to itself. -/
theorem Akin.refl_exact (act : Act σ α) : Akin (Likeness.exact σ) Eq act act := by
  rintro s _ rfl
  exact .refl (fun _ => rfl) (fun _ => rfl) (fun _ => rfl) _

theorem Akin.pure {a : α} {b : β} (h : A a b) :
    Akin L A (Pure.pure a : Act σ α) (Pure.pure b : Act σ β) :=
  fun _ _ hs => ⟨.returned h, hs, .nil⟩

theorem Akin.fail {e e' : Failure} (h : L.failure e e') :
    Akin L A (fail e : Act σ α) (fail e' : Act σ β) :=
  fun _ _ hs => ⟨.failed h, hs, .nil⟩

/-- Events that are no calls are not compared. -/
theorem Akin.emit {event event' : Event} (h : event.call? = none) (h' : event'.call? = none) :
    Akin L Eq (emit event : Act σ Unit) (emit event' : Act σ Unit) := by
  refine fun _ _ hs => ⟨.returned rfl, hs, ?_⟩
  simp [Event.calls, h, h']

theorem Akin.ofExcept {x : Except Failure α} {y : Except Failure β}
    (h : Synchrony.Akin A L.failure x y) : Akin L A (ofExcept x) (ofExcept y) := by
  cases h with
  | ok h => exact .pure h
  | error h => exact .fail h

/-- Runs that are akin go on to runs that are akin, if what is bound behind them is. -/
theorem bind_akin {next : α → Act σ γ} {next' : β → Act σ δ} {s s' : σ}
    (h : (act s).Akin L A (act' s')) (hnext : ∀ a b, A a b → Akin L B (next a) (next' b)) :
    ((act >>= next) s).Akin L B ((act' >>= next') s') := by
  rcases hrun : act s with ⟨ending, t, events⟩
  rcases hrun' : act' s' with ⟨ending', t', events'⟩
  rw [hrun, hrun'] at h
  obtain ⟨hending, hstate, hcalls⟩ := h
  cases hending with
  | returned hab =>
    rw [bind_run_returned _ hrun, bind_run_returned _ hrun']
    exact (hnext _ _ hab t t' hstate).behind hcalls
  | failed he =>
    rw [bind_run_failed _ hrun, bind_run_failed _ hrun']
    exact ⟨.failed he, hstate, hcalls⟩
  | unfinished =>
    rw [bind_run_unfinished _ hrun, bind_run_unfinished _ hrun']
    exact ⟨.unfinished, hstate, hcalls⟩

theorem Akin.bind {next : α → Act σ γ} {next' : β → Act σ δ} (h : Akin L A act act')
    (hnext : ∀ a b, A a b → Akin L B (next a) (next' b)) :
    Akin L B (act >>= next) (act' >>= next') :=
  fun s s' hs => bind_akin (h s s' hs) hnext

theorem Akin.attempt (h : Akin L A act act') :
    Akin L (Synchrony.Akin A L.failure) (attempt act) (attempt act') := by
  intro s s' hs
  have hrun := h s s' hs
  rw [Act.attempt, Act.attempt]
  generalize act s = run at hrun ⊢
  generalize act' s' = run' at hrun ⊢
  obtain ⟨ending, t, events⟩ := run
  obtain ⟨ending', t', events'⟩ := run'
  obtain ⟨hending, hstate, hcalls⟩ := hrun
  cases hending with
  | returned hab => exact ⟨.returned (.ok hab), hstate, hcalls⟩
  | failed he => exact ⟨.returned (.error he), hstate, hcalls⟩
  | unfinished => exact ⟨.unfinished, hstate, hcalls⟩

end Act

/-! ## Lines and rules -/

/-- What the engine asks of failures that are taken for alike. -/
structure Likeness.Coherent (L : Likeness σ) : Prop where
  unknown : ∀ {e e' : Failure}, L.failure e e' → e'.isUnknownAction = e.isUnknownAction
  verdict : ∀ {rule rule' : Rule} {line line' : Line} {e e' : Failure}, L.failure e e' →
    rule'.anchor = rule.anchor → line'.action = line.action →
    L.failure (rule.verdict line e) (rule'.verdict line' e')
  limit : ∀ limit, L.failure (.cascadeLimit limit) (.cascadeLimit limit)

/-- Failures that are the same are treated the same. -/
theorem Likeness.coherent_of_eq (h : L.failure = Eq) : L.Coherent where
  unknown he := by
    rw [h] at he
    rw [he]
  verdict he hanchor haction := by
    rw [h] at he ⊢
    subst he
    rename_i e
    cases e <;> simp [Rule.verdict, hanchor, haction]
  limit _ := by rw [h]

namespace Engine

variable {engine engine' : Engine σ} {T : Trace → Trace → Prop}
  {B : Bindings → Bindings → Prop}

/-- What comes of a line is told by its arguments, by the call, and by how the trace fits then. -/
theorem perform_akin {R : List Value → List Value → Prop}
    {C : List Value → List Value → Trace → Trace → Prop} {line line' : Line}
    {bindings bindings' : Bindings}
    (hargs : Akin R L.failure (argumentsOf line bindings) (argumentsOf line' bindings'))
    (hcall : ∀ args args', R args args' →
      Act.Akin L (C args args') (engine.call line.action args) (engine'.call line'.action args'))
    (hfit : ∀ args args' trace trace', R args args' → C args args' trace trace' →
      T trace trace' ∧
        Akin B L.failure (fitted bindings trace line) (fitted bindings' trace' line')) :
    Act.Akin L (fun r r' => B r.1 r'.1 ∧ T r.2 r'.2) (engine.perform line bindings)
      (engine'.perform line' bindings') := by
  refine .bind (.ofExcept hargs) fun args args' hargs => ?_
  refine .bind (hcall args args' hargs) fun trace trace' htrace => ?_
  obtain ⟨hT, hafter⟩ := hfit args args' trace trace' hargs htrace
  refine .bind (.ofExcept hafter) fun after after' hafter => ?_
  exact .pure ⟨hafter, hT⟩

variable (engine engine' L T B) in
/-- Two lines of one action that come to the same under bindings that are alike, and leave the
bindings alike. -/
structure Mirrors (line line' : Line) : Prop where
  action_eq : line'.action = line.action
  perform : ∀ bindings bindings', B bindings bindings' →
    Act.Akin L (fun r r' => B r.1 r'.1 ∧ T r.2 r'.2) (engine.perform line bindings)
      (engine'.perform line' bindings')

theorem performAll_akin {lines lines' : List Line}
    (h : List.Forall₂ (Mirrors L engine engine' T B) lines lines') {bindings bindings' : Bindings}
    (hbindings : B bindings bindings') :
    Act.Akin L (fun r r' => B r.1 r'.1 ∧ List.Forall₂ T r.2 r'.2)
      (engine.performAll lines bindings) (engine'.performAll lines' bindings') := by
  induction h generalizing bindings bindings' with
  | nil => exact .pure ⟨hbindings, .nil⟩
  | cons hline _ ih =>
    rw [performAll, performAll]
    refine .bind (hline.perform _ _ hbindings) ?_
    rintro ⟨after, trace⟩ ⟨after', trace'⟩ ⟨hafter, htrace⟩
    refine .bind (ih hafter) ?_
    rintro ⟨last, traces⟩ ⟨last', traces'⟩ ⟨hlast, htraces⟩
    exact .pure ⟨hlast, .cons htrace htraces⟩

theorem enforce_akin (hL : L.Coherent) {rule rule' : Rule} (hanchor : rule'.anchor = rule.anchor)
    {line line' : Line} (hline : Mirrors L engine engine' T B line line')
    {bindings bindings' : Bindings} (hbindings : B bindings bindings') :
    Act.Akin L (fun r r' => B r.1 r'.1 ∧ T r.2 r'.2) (engine.enforce rule line bindings)
      (engine'.enforce rule' line' bindings') := by
  intro s s' hs
  have hrun := hline.perform _ _ hbindings s s' hs
  rcases hperform : engine.perform line bindings s with ⟨ending, t, events⟩
  rcases hperform' : engine'.perform line' bindings' s' with ⟨ending', t', events'⟩
  rw [hperform, hperform'] at hrun
  obtain ⟨hending, hstate, hcalls⟩ := hrun
  cases hending with
  | returned hanswer =>
    rw [enforce_of_returned rule hperform, enforce_of_returned rule' hperform']
    exact ⟨.returned hanswer, hstate, hcalls⟩
  | failed he =>
    rw [enforce_of_failed rule hperform, enforce_of_failed rule' hperform']
    refine ⟨.failed (hL.verdict he hanchor hline.action_eq), hstate, ?_⟩
    simpa [Rule.calls_complaints] using hcalls
  | unfinished => exact absurd (by rw [hperform]) (engine.perform_finishes line bindings s)

theorem enforceAll_akin (hL : L.Coherent) {rule rule' : Rule} (hanchor : rule'.anchor = rule.anchor)
    {lines lines' : List Line} (h : List.Forall₂ (Mirrors L engine engine' T B) lines lines')
    {bindings bindings' : Bindings} (hbindings : B bindings bindings') :
    Act.Akin L (List.Forall₂ T) (engine.enforceAll rule lines bindings)
      (engine'.enforceAll rule' lines' bindings') := by
  induction h generalizing bindings bindings' with
  | nil => exact .pure .nil
  | cons hline _ ih =>
    rw [enforceAll, enforceAll]
    refine .bind (enforce_akin hL hanchor hline hbindings) ?_
    rintro ⟨after, trace⟩ ⟨after', trace'⟩ ⟨hafter, htrace⟩
    refine .bind (ih hafter) fun traces traces' htraces => ?_
    exact .pure (.cons htrace htraces)

variable {trace trace' : Trace}

theorem guard_akin {rule rule' : Rule}
    (hfit : Akin B L.failure (fitted .empty trace rule.trigger) (fitted .empty trace' rule'.trigger))
    (h : List.Forall₂ (Mirrors L engine engine' T B) rule.guards rule'.guards) :
    Act.Akin L (fun r r' => B r.1 r'.1 ∧ List.Forall₂ T r.2 r'.2) (engine.guard rule trace)
      (engine'.guard rule' trace') :=
  .bind (.ofExcept hfit) fun _ _ hmatched => performAll_akin h hmatched

/-- **An attempt comes to the same if the guards do and the consequences mirror each other.** -/
theorem applyRule_akin (hL : L.Coherent) {rule rule' : Rule} (hanchor : rule'.anchor = rule.anchor)
    (hguard : Act.Akin L (fun r r' => B r.1 r'.1 ∧ List.Forall₂ T r.2 r'.2)
      (engine.guard rule trace) (engine'.guard rule' trace'))
    (h : List.Forall₂ (Mirrors L engine engine' T B) rule.consequences rule'.consequences) :
    Act.Akin L (List.Forall₂ T) (engine.applyRule rule trace) (engine'.applyRule rule' trace') := by
  refine .bind hguard.attempt ?_
  intro outcome outcome' houtcome
  cases houtcome with
  | ok hanswer =>
    obtain ⟨hbindings, hguards⟩ := hanswer
    refine .bind (.emit rfl rfl) fun _ _ _ => ?_
    refine .bind (enforceAll_akin hL hanchor h hbindings) fun more more' hmore => ?_
    exact .pure (List.rel_append hguards hmore)
  | @error e e' he =>
    have hunknown := hL.unknown he
    dsimp only
    cases hcase : e.isUnknownAction with
    | true =>
      rw [hcase] at hunknown
      rw [if_pos rfl, if_pos hunknown]
      exact .fail he
    | false =>
      rw [hcase] at hunknown
      rw [if_neg (by decide), hunknown, if_neg (by decide)]
      exact .bind (.emit rfl rfl) fun _ _ _ => .pure .nil

theorem applyRules_akin {rules rules' : List Rule}
    (h : List.Forall₂ (fun rule rule' => Act.Akin L (List.Forall₂ T) (engine.applyRule rule trace)
      (engine'.applyRule rule' trace')) rules rules') :
    Act.Akin L (List.Forall₂ T) (engine.applyRules trace rules)
      (engine'.applyRules trace' rules') := by
  induction h with
  | nil => exact .pure .nil
  | cons hrule _ ih =>
    rw [applyRules, applyRules]
    refine .bind hrule fun traces traces' htraces => ?_
    refine .bind ih fun more more' hmore => ?_
    exact .pure (List.rel_append htraces hmore)

/-! ## The loop -/

variable {action action' : String} {args args' : List Value} {s s' : σ}

variable (engine) in
/-- A run comes to a trace and reacts to it. -/
inductive Processes (action : String) (args : List Value) (s : σ) : Trace → Prop
  | intro {opening stage : Stage σ} {trace : Trace} {pending : List Trace}
    (opens : engine.Opens action args s opening)
    (path : Relation.ReflTransGen engine.Passes opening stage)
    (pending_eq : stage.pending = trace :: pending) : Processes action args s trace

/-- What a run that returned has reacted to is part of its history. -/
theorem Processes.mem_of_returned {trace : Trace} (h : engine.Processes action args s trace)
    {steps : Nat} {history : History} {t : σ} {events : List Event}
    (hrun : engine.cascade steps action args s = ⟨.returned history, t, events⟩) :
    trace ∈ history.traces := by
  obtain ⟨first, u, front, last, hcall, hpath, hpending, rfl, -, -⟩ := cascade_returned hrun
  obtain ⟨opens, path, pending_eq⟩ := h
  rename_i stage pending
  rw [opens.unique (.intro hcall)] at path
  have hrest := reacts_to_final (reacts_of_passes path) (reacts_of_passes hpath) hpending
  refine (reacts_grows hrest).1.subset (List.mem_append_right _ ?_)
  rw [pending_eq]
  exact List.mem_cons_self

end Engine

/-- Traces, states and calls that are alike. -/
structure Stage.Akin (L : Likeness σ) (T : Trace → Trace → Prop) (stage stage' : Stage σ) :
    Prop where
  settled : List.Forall₂ T stage.settled stage'.settled
  pending : List.Forall₂ T stage.pending stage'.pending
  state : L.state stage.state stage'.state
  calls : List.Forall₂ L.call (Event.calls stage.events) (Event.calls stage'.events)

theorem Stage.Akin.traces {T : Trace → Trace → Prop} {stage stage' : Stage σ}
    (h : stage.Akin L T stage') : List.Forall₂ T stage.traces stage'.traces :=
  List.rel_append h.settled h.pending

/-- Traces that are alike, and the results of two first traces that are. -/
structure History.Akin (T : Trace → Trace → Prop) (history history' : History) : Prop where
  traces : List.Forall₂ T history.traces history'.traces
  first : ∃ first first', T first first' ∧ history.result = first.result ∧
    history'.result = first'.result

/-- Histories whose traces may not differ are the same. -/
theorem History.Akin.eq {history history' : History} (h : History.Akin Eq history history') :
    history' = history := by
  obtain ⟨result, traces⟩ := history
  obtain ⟨result', traces'⟩ := history'
  obtain ⟨htraces, first, _, rfl, hresult, hresult'⟩ := h
  rw [List.forall₂_eq_eq_eq] at htraces
  rw [History.mk.injEq]
  exact ⟨hresult'.trans hresult.symm, htraces.symm⟩

namespace Engine

variable {engine engine' : Engine σ} {T : Trace → Trace → Prop} {action action' : String}
  {args args' : List Value} {s s' : σ}

/-- One reaction in each of the two runs. The cap is looked at behind the whole reaction, and the
counts are the same by then. -/
theorem resume_akin_of_reacts (hL : L.Coherent) (hcap : engine'.cap = engine.cap) {steps : Nat}
    {stage stage' next next' : Stage σ} (hreacts : engine.Reacts stage next)
    (hreacts' : engine'.Reacts stage' next') (h : next.Akin L T next')
    (hrest : next.Akin L T next' → engine.Admits next.traces.length →
      (engine.resume steps next).Akin L (List.Forall₂ T) (engine'.resume steps next')) :
    (engine.resume (steps + 1) stage).Akin L (List.Forall₂ T)
      (engine'.resume (steps + 1) stage') := by
  have hcount := h.traces.length_eq
  rcases engine.admits_or_exceeds next.traces.length with hadmits | ⟨limit, hlimit, hexceeds⟩
  · have hadmits' : engine'.Admits next'.traces.length := by
      rwa [Admits, hcap, ← hcount]
    rw [resume_of_admits _ hreacts hadmits, resume_of_admits _ hreacts' hadmits']
    exact hrest h hadmits
  · rw [resume_of_exceeds _ hreacts hlimit hexceeds,
      resume_of_exceeds _ hreacts' (hcap.trans hlimit) (by rwa [← hcount])]
    exact ⟨.failed (hL.limit limit), h.state, h.calls⟩

/-- **The loop in lockstep.** From stages that are alike, the loop comes to the same if the reactions
to the traces that it reacts to do. -/
theorem resume_akin (hL : L.Coherent) (hcap : engine'.cap = engine.cap) (steps : Nat)
    {stage stage' : Stage σ} (h : stage.Akin L T stage')
    (hreact : ∀ {last : Stage σ} {trace trace' : Trace} {pending : List Trace},
      Relation.ReflTransGen engine.Passes stage last → last.pending = trace :: pending →
      T trace trace' →
      Act.Akin L (List.Forall₂ T) (engine.react trace) (engine'.react trace')) :
    (engine.resume steps stage).Akin L (List.Forall₂ T) (engine'.resume steps stage') := by
  induction steps generalizing stage stage' with
  | zero =>
    obtain ⟨settled, pending, s, events⟩ := stage
    obtain ⟨settled', pending', s', events'⟩ := stage'
    cases h.pending with
    | nil =>
      rw [resume_of_pending_nil _ rfl, resume_of_pending_nil _ rfl]
      exact ⟨.returned h.traces, h.state, h.calls⟩
    | cons htrace hpending =>
      rw [resume_zero (by simp), resume_zero (by simp)]
      exact ⟨.unfinished, h.state, h.calls⟩
  | succ steps ih =>
    obtain ⟨settled, pending, s, events⟩ := stage
    obtain ⟨settled', pending', s', events'⟩ := stage'
    obtain ⟨hsettled, hpending, hstate, hcalls⟩ := h
    cases hpending with
    | nil =>
      rw [resume_of_pending_nil _ rfl, resume_of_pending_nil _ rfl]
      exact ⟨.returned (List.rel_append hsettled .nil), hstate, hcalls⟩
    | @cons trace trace' pending pending' htrace hpending =>
      have hrun := hreact .refl rfl htrace s s' hstate
      rcases hr : engine.react trace s with ⟨ending, t, more⟩
      rcases hr' : engine'.react trace' s' with ⟨ending', t', more'⟩
      rw [hr, hr'] at hrun
      obtain ⟨hending, hnext, hmore⟩ := hrun
      have hevents : List.Forall₂ L.call (Event.calls (events ++ more))
          (Event.calls (events' ++ more')) := by
        rw [Event.calls_append, Event.calls_append]
        exact List.rel_append hcalls hmore
      cases hending with
      | @returned batch batch' hbatch =>
        have hreacts : engine.Reacts ⟨settled, trace :: pending, s, events⟩
            ⟨settled ++ [trace], pending ++ batch, t, events ++ more⟩ := .intro hr
        have hreacts' : engine'.Reacts ⟨settled', trace' :: pending', s', events'⟩
            ⟨settled' ++ [trace'], pending' ++ batch', t', events' ++ more'⟩ := .intro hr'
        refine resume_akin_of_reacts hL hcap hreacts hreacts' ⟨?_, ?_, hnext, hevents⟩
          fun hakin hadmits => ih hakin fun hpath => hreact (hpath.head ⟨hreacts, hadmits⟩)
        · exact List.rel_append hsettled (.cons htrace .nil)
        · exact List.rel_append hpending hbatch
      | failed he =>
        rw [resume_of_halts _ (.intro hr), resume_of_halts _ (.intro hr')]
        exact ⟨.failed he, hnext, hevents⟩
      | unfinished => exact absurd (by rw [hr]) (engine.react_finishes trace s)

/-- **Runs are akin if their first calls are, and the reactions to the traces that the first run
comes to.** -/
theorem cascade_akin (hL : L.Coherent) (hcap : engine'.cap = engine.cap)
    (hcall : (engine.call action args s).Akin L T (engine'.call action' args' s'))
    (hreact : ∀ {trace trace' : Trace}, engine.Processes action args s trace → T trace trace' →
      Act.Akin L (List.Forall₂ T) (engine.react trace) (engine'.react trace')) (steps : Nat) :
    (engine.cascade steps action args s).Akin L (History.Akin T)
      (engine'.cascade steps action' args' s') := by
  rcases hrun : engine.call action args s with ⟨ending, t, events⟩
  rcases hrun' : engine'.call action' args' s' with ⟨ending', t', events'⟩
  rw [hrun, hrun'] at hcall
  obtain ⟨hending, hstate, hcalls⟩ := hcall
  cases hending with
  | @returned first first' hfirst =>
    have hopening : Stage.Akin L T ⟨[], [first], t, events⟩ ⟨[], [first'], t', events'⟩ :=
      ⟨.nil, .cons hfirst .nil, hstate, hcalls⟩
    have hresume := resume_akin hL hcap steps hopening fun hpath hpending =>
      hreact (.intro (.intro hrun) hpath hpending)
    rw [cascade_of_call_returned _ hrun, cascade_of_call_returned _ hrun']
    have hafter := calls_concluded action first (engine.resume steps ⟨[], [first], t, events⟩)
    have hafter' := calls_concluded action' first'
      (engine'.resume steps ⟨[], [first'], t', events'⟩)
    generalize engine.resume steps ⟨[], [first], t, events⟩ = run at hresume hafter ⊢
    generalize engine'.resume steps ⟨[], [first'], t', events'⟩ = run' at hresume hafter' ⊢
    obtain ⟨ending, u, more⟩ := run
    obtain ⟨ending', u', more'⟩ := run'
    obtain ⟨hending, hlast, hmore⟩ := hresume
    rw [← hafter, ← hafter'] at hmore
    cases hending with
    | returned htraces => exact ⟨.returned ⟨htraces, first, first', hfirst, rfl, rfl⟩, hlast, hmore⟩
    | failed he => exact ⟨.failed he, hlast, hmore⟩
    | unfinished => exact ⟨.unfinished, hlast, hmore⟩
  | failed he =>
    rw [cascade_of_call_failed _ hrun, cascade_of_call_failed _ hrun']
    exact ⟨.failed he, hstate, hcalls⟩
  | unfinished => exact absurd (by rw [hrun]) (engine.call_finishes action args s)

/-- If runs are akin however far they go, one ends if the other does. -/
theorem Ends.akin {A : History → History → Prop}
    (h : ∀ steps, (engine.cascade steps action args s).Akin L A
      (engine'.cascade steps action' args' s'))
    {run : Run σ History} (hends : engine.Ends action args s run) :
    ∃ run', engine'.Ends action' args' s' run' ∧ run.Akin L A run' := by
  obtain ⟨hfinished, steps, rfl⟩ := hends
  refine ⟨_, ⟨?_, steps, rfl⟩, h steps⟩
  have hending := (h steps).ending
  intro hunfinished
  rw [hunfinished] at hending
  generalize (engine.cascade steps action args s).ending = ending at hfinished hending
  cases hending
  exact hfinished rfl

end Engine

end Synchrony
