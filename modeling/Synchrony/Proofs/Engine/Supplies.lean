import Mathlib.Data.List.Forall2
import Synchrony.Proofs.Engine.Scoping

/-!
# Where the values of a run come from

The engine makes no values. Every value that a run passes on has come into it in one of three ways:
as an argument of the first call, as a literal of a rule, or as the answer of an action; or it is a
member of such a value, since several return patterns take a list or tuple apart.

So whatever holds of the values that come in, and of the members of lists and tuples of which it
holds (`Value.Hereditary`), holds of all values in the run, if the actions answer with such values
when they are asked with such values (`Engine.Supplies`). It is carried along the run by the traces
that are still pending and, within the attempt at a rule, by its bindings.

Most actions answer with values that they keep in the state, so what they answer depends on what
holds of the state. That has to be something that every call keeps, whether it answers or fails,
since a rule whose guards fail leaves what they did behind. Then it also holds in the end
(`Engine.cascade_upholds`).

All of this is proved line by line (`Engine.Serves`). If nothing is asked of the values, what is left
is that a reaction keeps whatever the calls of its rules keep (`Engine.react_keeps`).
-/

set_option autoImplicit false

namespace Synchrony

variable {P : Value → Prop}

/-- What is worked out for each of several things comes out one by one. -/
theorem Except.forall₂_of_mapM {α β ε : Type} {f : α → Except ε β} {as : List α} {bs : List β}
    (h : as.mapM f = .ok bs) : List.Forall₂ (fun b a => f a = .ok b) bs as := by
  induction as generalizing bs with
  | nil =>
    cases h
    exact .nil
  | cons a as ih =>
    rw [List.mapM_cons] at h
    cases hfirst : f a with
    | error e =>
      rw [hfirst] at h
      cases h
    | ok b =>
      cases hrest : as.mapM f with
      | error e =>
        rw [hfirst, hrest] at h
        cases h
      | ok rest =>
        rw [hfirst, hrest] at h
        cases h
        exact .cons hfirst (ih hrest)

/-- What holds of a list or tuple holds of its members. -/
structure Value.Hereditary (P : Value → Prop) : Prop where
  list : ∀ items, P (.list items) → ∀ item ∈ items, P item
  tuple : ∀ items, P (.tuple items) → ∀ item ∈ items, P item

/-- It holds of the literals among the arguments of a line. -/
def Line.LiteralsHold (P : Value → Prop) (line : Line) : Prop :=
  ∀ value, .lit value ∈ line.args → P value

structure Trace.Holds (P : Value → Prop) (trace : Trace) : Prop where
  args : ∀ value ∈ trace.args, P value
  result : P trace.result

def Bindings.Holds (P : Value → Prop) (bindings : Bindings) : Prop :=
  ∀ v value, bindings.get? v = some value → P value

namespace Line

theorem actual_mem_of_numbered {place : String} {values : List Value} {patterns : List Pattern}
    {position : Position} (h : position ∈ numberedPositions place values patterns) :
    position.actual ∈ values := by
  have hpair : (position.actual, position.pattern) ∈ values.zip patterns := by
    rw [← numberedPositions_pairs place]
    exact List.mem_map_of_mem h
  exact (List.of_mem_zip hpair).1

/-- The positions of a result have the result itself or its members. -/
theorem resultPositions_hold (hP : Value.Hereditary P) {line : Line} {result : Value}
    {positions : List Position} (hresult : P result)
    (h : line.resultPositions result = .ok positions) :
    ∀ position ∈ positions, P position.actual := by
  unfold resultPositions at h
  split at h
  next =>
    cases h
    simp
  next =>
    cases h
    simp
  next =>
    cases h
    intro position hmem
    rwa [List.mem_singleton.mp hmem]
  next =>
    cases result with
    | list members =>
      dsimp only at h
      split at h
      · cases h
        intro position hmem
        exact hP.list _ hresult _ (actual_mem_of_numbered hmem)
      · cases h
    | tuple members =>
      dsimp only at h
      split at h
      · cases h
        intro position hmem
        exact hP.tuple _ hresult _ (actual_mem_of_numbered hmem)
      · cases h
    | _ => cases h

end Line

namespace Bindings

variable {bindings : Bindings}

/-! ## Fitting -/

theorem Holds.empty : Bindings.empty.Holds P := by
  intro v value h
  simp [Bindings.empty, get?, lookup] at h

theorem Holds.fit (h : bindings.Holds P) {position : Position} (hactual : P position.actual) :
    (bindings.fit position).2.Holds P := by
  unfold Bindings.fit
  split
  next v _ =>
    split
    · intro w value hw
      by_cases hvw : v = w
      · subst hvw
        rw [get?_set_self] at hw
        cases hw
        exact hactual
      · rw [get?_set_of_ne _ _ hvw] at hw
        exact h w value hw
    · exact h
  next => exact h

theorem Holds.fitAll (h : bindings.Holds P) {positions : List Position}
    (hactual : ∀ position ∈ positions, P position.actual) :
    (bindings.fitAll positions).2.Holds P := by
  induction positions generalizing bindings with
  | nil => exact h
  | cons position more ih =>
    obtain ⟨hposition, hmore⟩ := List.forall_mem_cons.mp hactual
    have hfit := h.fit hposition
    rcases hrun : bindings.fit position with ⟨_ | e, after⟩
    · rw [hrun] at hfit
      simpa only [Bindings.fitAll, hrun] using ih hfit hmore
    · rw [hrun] at hfit
      simpa only [Bindings.fitAll, hrun] using hfit

theorem Holds.fitTrace (hP : Value.Hereditary P) (h : bindings.Holds P) {trace : Trace}
    (htrace : trace.Holds P) (line : Line) : (bindings.fitTrace trace line).2.Holds P := by
  rw [Bindings.fitTrace]
  split
  · exact h
  · split
    · exact h
    · have hargs : (bindings.fitAll (line.argumentPositions trace.args)).2.Holds P :=
        h.fitAll fun position hmem => htrace.args _ (Line.actual_mem_of_numbered hmem)
      rcases hrun : bindings.fitAll (line.argumentPositions trace.args) with ⟨_ | e, after⟩
      · rw [hrun] at hargs
        cases hresult : line.resultPositions trace.result with
        | error mismatch => exact hargs
        | ok positions =>
          exact hargs.fitAll (Line.resultPositions_hold hP htrace.result hresult)
      · rw [hrun] at hargs
        exact hargs

/-! ## Arguments -/

theorem Holds.arguments (h : bindings.Holds P) {line : Line} (hliterals : line.LiteralsHold P)
    {values : List Value} (hvalues : bindings.arguments line = .ok values) :
    ∀ value ∈ values, P value := by
  obtain ⟨hlength, hpairs⟩ := List.forall₂_iff_zip.mp (Except.forall₂_of_mapM hvalues)
  intro value hmem
  rw [← List.map_fst_zip (Nat.le_of_eq hlength)] at hmem
  obtain ⟨⟨value, pattern⟩, hpair, rfl⟩ := List.mem_map.mp hmem
  have hargument := hpairs hpair
  cases pattern with
  | lit literal =>
    cases hargument
    exact hliterals value (List.of_mem_zip hpair).2
  | var v =>
    rw [argument, Bindings.value] at hargument
    split at hargument
    next known hknown =>
      cases hargument
      exact h v value hknown
    next => cases hargument

end Bindings

/-- An event is a call with such values, or no call. -/
def Event.Holds (P : Value → Prop) (event : Event) : Prop :=
  ∀ call, event.call? = some call → ∀ value ∈ call.2, P value

namespace Engine

variable {σ : Type}

/-- What comes into a run by literals and by answers: it holds of the literals of all rules, and of
every answer to arguments of which it holds, as long as something holds of the state that every call
with such arguments keeps. -/
structure Supplies (engine : Engine σ) (I : σ → Prop) (P : Value → Prop) : Prop where
  literals : ∀ rule ∈ engine.rulebook.rules, ∀ line ∈ rule.ownLines, line.LiteralsHold P
  answers : ∀ action entry, engine.actions.get? action = some entry →
    ∀ args, (∀ value ∈ args, P value) → ∀ s, I s →
      ∀ value t, entry args s = (.ok value, t) → P value
  keeps : ∀ action entry, engine.actions.get? action = some entry →
    ∀ args, (∀ value ∈ args, P value) → ∀ s, I s → I (entry args s).2

variable {engine : Engine σ} {I : σ → Prop} {s t : σ} {events : List Event}

/-! ## Lines and attempts -/

theorem call_upholds (hsupplies : engine.Supplies I P) {action : String} {args : List Value}
    (hargs : ∀ value ∈ args, P value) :
    Act.Upholds I (Event.Holds P) (Trace.Holds P) (engine.call action args) := by
  intro s hs
  have hcalled : ∀ event ∈ [Event.called action args], event.Holds P := by
    intro event hmem
    rw [List.mem_singleton.mp hmem]
    rintro _ ⟨⟩
    exact hargs
  rcases engine.call_cases action args s with
    ⟨-, hrun⟩ | ⟨entry, u, hentry, ⟨e, hfails, hrun⟩ | ⟨value, hanswer, hrun⟩⟩
  · rw [hrun]
    exact ⟨hs, by simp, fun _ h => by cases h⟩
  · have hkept := hsupplies.keeps action entry hentry args hargs s hs
    rw [hfails] at hkept
    rw [hrun]
    exact ⟨hkept, hcalled, fun _ h => by cases h⟩
  · have hkept := hsupplies.keeps action entry hentry args hargs s hs
    rw [hanswer] at hkept
    rw [hrun]
    refine ⟨hkept, hcalled, ?_⟩
    rintro _ ⟨⟩
    exact ⟨hargs, hsupplies.answers action entry hentry args hargs s hs value u hanswer⟩

theorem arguments_of_argumentsOf {line : Line} {bindings : Bindings} {args : List Value}
    (h : argumentsOf line bindings = .ok args) : bindings.arguments line = .ok args := by
  rw [argumentsOf] at h
  split at h
  next hargs =>
    cases h
    exact hargs
  next => cases h

theorem fitted_holds (hP : Value.Hereditary P) {bindings after : Bindings} {trace : Trace}
    {line : Line} (h : bindings.Holds P) (htrace : trace.Holds P)
    (hfitted : fitted bindings trace line = .ok after) : after.Holds P := by
  have hholds := h.fitTrace hP htrace line
  rw [fitted] at hfitted
  split at hfitted
  next hfit =>
    cases hfitted
    rwa [hfit] at hholds
  next => cases hfitted

theorem checkCap_upholds (engine : Engine σ) (count : Nat) :
    Act.Upholds I (Event.Holds P) (fun _ => True) (engine.checkCap count) := by
  rw [checkCap]
  split
  · exact .pure trivial
  · split
    · exact .fail _
    · exact .pure trivial

/-- What a line brings in: it holds of its literals, and a call of its action with values of which it
holds upholds it. -/
structure Serves (engine : Engine σ) (I : σ → Prop) (P : Value → Prop) (line : Line) : Prop where
  literals : line.LiteralsHold P
  calls : ∀ args, (∀ value ∈ args, P value) →
    Act.Upholds I (Event.Holds P) (Trace.Holds P) (engine.call line.action args)

theorem Supplies.serves (hsupplies : engine.Supplies I P) {rule : Rule}
    (hrule : rule ∈ engine.rulebook.rules) : ∀ line ∈ rule.ownLines, engine.Serves I P line :=
  fun line hline => ⟨hsupplies.literals rule hrule line hline, fun _ => call_upholds hsupplies⟩

section Attempts

variable (hP : Value.Hereditary P)

include hP

theorem perform_upholds {line : Line} {bindings : Bindings} (hserves : engine.Serves I P line)
    (h : bindings.Holds P) :
    Act.Upholds I (Event.Holds P) (fun found => found.1.Holds P ∧ found.2.Holds P)
      (engine.perform line bindings) := by
  have hargs (args : List Value) (hargs : argumentsOf line bindings = .ok args) :
      ∀ value ∈ args, P value :=
    h.arguments hserves.literals (arguments_of_argumentsOf hargs)
  refine .bind (.ofExcept hargs) fun args hargs => ?_
  refine .bind (hserves.calls args hargs) fun trace htrace => ?_
  refine .bind (.ofExcept fun after hfitted => fitted_holds hP h htrace hfitted) ?_
  exact fun after hafter => .pure ⟨hafter, htrace⟩

theorem performAll_upholds {lines : List Line} {bindings : Bindings}
    (hserves : ∀ line ∈ lines, engine.Serves I P line) (h : bindings.Holds P) :
    Act.Upholds I (Event.Holds P)
      (fun found => found.1.Holds P ∧ ∀ trace ∈ found.2, trace.Holds P)
      (engine.performAll lines bindings) := by
  induction lines generalizing bindings with
  | nil => exact .pure ⟨h, by simp⟩
  | cons line lines ih =>
    obtain ⟨hline, hlines⟩ := List.forall_mem_cons.mp hserves
    refine .bind (perform_upholds hP hline h) ?_
    rintro ⟨after, trace⟩ ⟨hafter, htrace⟩
    refine .bind (ih hlines hafter) ?_
    rintro ⟨last, traces⟩ ⟨hlast, htraces⟩
    exact .pure ⟨hlast, List.forall_mem_cons.mpr ⟨htrace, htraces⟩⟩

theorem guard_upholds {rule : Rule} {trace : Trace}
    (hserves : ∀ line ∈ rule.ownLines, engine.Serves I P line) (htrace : trace.Holds P) :
    Act.Upholds I (Event.Holds P)
      (fun found => found.1.Holds P ∧ ∀ trace ∈ found.2, trace.Holds P)
      (engine.guard rule trace) := by
  refine .bind (.ofExcept fun matched hfitted => fitted_holds hP .empty htrace hfitted) ?_
  intro matched hmatched
  exact performAll_upholds hP (fun line hline => hserves line (List.mem_append_left _ hline))
    hmatched

theorem enforce_upholds {rule : Rule} {line : Line} {bindings : Bindings}
    (hserves : engine.Serves I P line) (h : bindings.Holds P) :
    Act.Upholds I (Event.Holds P) (fun found => found.1.Holds P ∧ found.2.Holds P)
      (engine.enforce rule line bindings) := by
  refine .bind (perform_upholds hP hserves h).attempt ?_
  intro outcome houtcome
  split
  next found => exact .pure (houtcome found rfl)
  next cause => exact .bind (.emit fun _ hcall => by cases hcall) fun _ _ => .fail _
  next e _ => exact .fail e

theorem enforceAll_upholds {rule : Rule} {lines : List Line} {bindings : Bindings}
    (hserves : ∀ line ∈ lines, engine.Serves I P line) (h : bindings.Holds P) :
    Act.Upholds I (Event.Holds P) (fun traces => ∀ trace ∈ traces, trace.Holds P)
      (engine.enforceAll rule lines bindings) := by
  induction lines generalizing bindings with
  | nil => exact .pure (by simp)
  | cons line lines ih =>
    obtain ⟨hline, hlines⟩ := List.forall_mem_cons.mp hserves
    refine .bind (enforce_upholds hP hline h) ?_
    rintro ⟨after, trace⟩ ⟨hafter, htrace⟩
    refine .bind (ih hlines hafter) fun traces htraces => ?_
    exact .pure (List.forall_mem_cons.mpr ⟨htrace, htraces⟩)

theorem applyRule_upholds {rule : Rule} {trace : Trace}
    (hserves : ∀ line ∈ rule.ownLines, engine.Serves I P line) (htrace : trace.Holds P) :
    Act.Upholds I (Event.Holds P) (fun traces => ∀ trace ∈ traces, trace.Holds P)
      (engine.applyRule rule trace) := by
  refine .bind (guard_upholds hP hserves htrace).attempt ?_
  intro outcome houtcome
  split
  next bindings guards =>
    obtain ⟨hbindings, hguards⟩ := houtcome (bindings, guards) rfl
    refine .bind (.emit fun _ hcall => by cases hcall) fun _ _ => ?_
    refine .bind (enforceAll_upholds hP ?_ hbindings) fun more hmore => ?_
    · exact fun line hline => hserves line (List.mem_append_right _ hline)
    · exact .pure (List.forall_mem_append.mpr ⟨hguards, hmore⟩)
  next e =>
    split
    · exact .fail e
    · exact .bind (.emit fun _ hcall => by cases hcall) fun _ _ => .pure (by simp)

theorem applyRules_upholds {trace : Trace} {rules : List Rule}
    (hserves : ∀ rule ∈ rules, ∀ line ∈ rule.ownLines, engine.Serves I P line)
    (htrace : trace.Holds P) :
    Act.Upholds I (Event.Holds P) (fun traces => ∀ trace ∈ traces, trace.Holds P)
      (engine.applyRules trace rules) := by
  induction rules with
  | nil => exact .pure (by simp)
  | cons rule rules ih =>
    obtain ⟨hrule, hrest⟩ := List.forall_mem_cons.mp hserves
    refine .bind (applyRule_upholds hP hrule htrace) fun traces htraces => ?_
    refine .bind (ih hrest) fun more hmore => ?_
    exact .pure (List.forall_mem_append.mpr ⟨htraces, hmore⟩)

end Attempts

/-- What the calls of the rules keep, a reaction keeps. -/
theorem react_keeps {trace : Trace}
    (hcall : ∀ rule ∈ engine.rulebook.under trace.action, ∀ line ∈ rule.ownLines,
      ∀ args s, I s → I (engine.call line.action args s).state)
    (hs : I s) : I (engine.react trace s).state := by
  have hserves : ∀ rule ∈ engine.rulebook.under trace.action, ∀ line ∈ rule.ownLines,
      engine.Serves I (fun _ => True) line := by
    intro rule hrule line hline
    refine ⟨fun _ _ => trivial, fun args _ s hs => ?_⟩
    refine ⟨hcall rule hrule line hline args s hs, fun _ _ _ _ _ _ => trivial, ?_⟩
    exact fun _ _ => ⟨fun _ _ => trivial, trivial⟩
  have hall : Value.Hereditary fun _ => True :=
    ⟨fun _ _ _ _ => trivial, fun _ _ _ _ => trivial⟩
  exact (applyRules_upholds hall hserves ⟨fun _ _ => trivial, trivial⟩ s hs).state

/-! ## Runs -/

section Runs

variable (hP : Value.Hereditary P) (hsupplies : engine.Supplies I P)

include hP hsupplies

theorem react_upholds {trace : Trace} (htrace : trace.Holds P) :
    Act.Upholds I (Event.Holds P) (fun traces => ∀ trace ∈ traces, trace.Holds P)
      (engine.react trace) :=
  applyRules_upholds hP
    (fun _ hunder => hsupplies.serves (engine.rulebook.mem_rules_of_under hunder)) htrace

theorem settle_upholds {pending : List Trace} (steps count : Nat)
    (h : ∀ trace ∈ pending, trace.Holds P) :
    Act.Upholds I (Event.Holds P) (fun traces => ∀ trace ∈ traces, trace.Holds P)
      (engine.settle steps count pending) := by
  induction steps generalizing count pending with
  | zero =>
    cases pending with
    | nil => exact .pure (by simp)
    | cons trace pending => exact .unfinished
  | succ steps ih =>
    cases pending with
    | nil => exact .pure (by simp)
    | cons trace pending =>
      obtain ⟨htrace, hpending⟩ := List.forall_mem_cons.mp h
      refine .bind (react_upholds hP hsupplies htrace) fun batch hbatch => ?_
      refine .bind (checkCap_upholds engine _) fun _ _ => ?_
      refine .bind (ih _ (List.forall_mem_append.mpr ⟨hpending, hbatch⟩)) fun more hmore => ?_
      exact .pure (List.forall_mem_append.mpr ⟨hbatch, hmore⟩)

/-- **What holds of the values that come into a run holds of all values in it.** It holds of the
arguments of every call and, if the run returns, of all traces. However the run ends, the state is
one that the calls keep. -/
theorem cascade_upholds (steps : Nat) {action : String} {args : List Value}
    (hargs : ∀ value ∈ args, P value) :
    Act.Upholds I (Event.Holds P)
      (fun history => P history.result ∧ ∀ trace ∈ history.traces, trace.Holds P)
      (engine.cascade steps action args) := by
  refine .bind (call_upholds hsupplies hargs) fun first hfirst => ?_
  refine .bind (settle_upholds hP hsupplies steps 1 (by simpa using hfirst)) fun more hmore => ?_
  refine .bind (.emit fun _ hcall => by cases hcall) fun _ _ => ?_
  exact .pure ⟨hfirst.result, List.forall_mem_cons.mpr ⟨hfirst, hmore⟩⟩

theorem reacts_holds {stage next : Stage σ} (hstate : I stage.state)
    (h : ∀ trace ∈ stage.pending, trace.Holds P) (hreacts : engine.Reacts stage next) :
    I next.state ∧ ∀ trace ∈ next.pending, trace.Holds P := by
  cases hreacts with
  | @intro settled pending batch trace s t events more react_eq =>
    obtain ⟨htrace, hpending⟩ := List.forall_mem_cons.mp h
    obtain ⟨hkept, hbatch⟩ := (react_upholds hP hsupplies htrace).of_returned hstate react_eq
    exact ⟨hkept, List.forall_mem_append.mpr ⟨hpending, hbatch⟩⟩

theorem attempted_keeps {attempts : List Attempt} {trace : Trace} (htrace : trace.Holds P)
    (h : engine.Attempted attempts s t)
    (hattempts : ∀ attempt ∈ attempts,
      attempt.rule ∈ engine.rulebook.rules ∧ attempt.trace = trace)
    (hs : I s) : I t := by
  induction attempts generalizing s with
  | nil => exact h ▸ hs
  | cons attempt rest ih =>
    obtain ⟨u, htry, hrest⟩ := h
    obtain ⟨⟨hrule, hsame⟩, hmore⟩ := List.forall_mem_cons.mp hattempts
    rw [hsame] at htry
    have hholds := applyRule_upholds hP (hsupplies.serves hrule) htrace
    have hkept := hholds.of_returned hs htry.applyRule
    exact ih hrest hmore hkept.1

/-- **Wherever a run comes to, what holds of the values that came in holds of the values at hand**,
and the state is one that the calls keep. -/
theorem Turn.holds {action : String} {args : List Value} {trace : Trace} {rule : Rule} {u : σ}
    {calls : List (String × List Value)} (hstate : I s) (hargs : ∀ value ∈ args, P value)
    (h : engine.Turn action args s trace rule u calls) : I u ∧ trace.Holds P := by
  cases h with
  | @intro opening stage earlier attempts trace pending done rest rule u opens path account
      pending_eq under_eq occasions_eq attempted =>
    have hopening : I opening.state ∧ ∀ trace ∈ opening.pending, trace.Holds P := by
      cases opens with
      | intro call_eq =>
        obtain ⟨hkept, hfirst⟩ := (call_upholds hsupplies hargs).of_returned hstate call_eq
        exact ⟨hkept, by simpa using hfirst⟩
    have hstage : I stage.state ∧ ∀ trace ∈ stage.pending, trace.Holds P := by
      clear account pending_eq attempted occasions_eq
      induction path with
      | refl => exact hopening
      | tail _ hpasses ih => exact reacts_holds hP hsupplies ih.1 ih.2 hpasses.1
    have htrace := hstage.2 trace (pending_eq ▸ List.mem_cons_self)
    refine ⟨attempted_keeps hP hsupplies htrace attempted ?_ hstage.1, htrace⟩
    intro attempt hattempt
    have hoccasion := List.mem_map_of_mem (f := Attempt.toOccasion) hattempt
    rw [occasions_eq] at hoccasion
    obtain ⟨rule', hdone, heq⟩ := List.mem_map.mp hoccasion
    rw [← heq]
    have hunder : rule' ∈ engine.rulebook.under trace.action := by
      rw [under_eq]
      exact List.mem_append_left _ hdone
    exact ⟨engine.rulebook.mem_rules_of_under hunder, rfl⟩

end Runs

end Engine

end Synchrony
