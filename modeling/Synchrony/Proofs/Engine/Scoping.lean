import Synchrony.Proofs.Engine.Escapes
import Synchrony.Proofs.Engine.Events
import Synchrony.Proofs.Rule.Scope

/-!
# What a scoped rule finds bound

Whether a call finds values for its variables is told by the text of its rule. A line that has been
performed leaves exactly those variables bound that were bound before and those that occur in it
(`Bindings.fitTrace_binds`), so behind some lines exactly their variables are bound
(`Bindings.Knows`), whatever the actions answered.

A rule that is scoped never fails for want of a value. A rule that is not never gets past its first
line that is not closed: if that is a guard, the rule never fires, and if it is a consequence, every
attempt that comes to it breaks its run.
-/

set_option autoImplicit false

namespace Synchrony

namespace Bindings

/-! ## What fitting binds -/

theorem fit_binds {bindings after : Bindings} {position : Position}
    (h : bindings.fit position = (none, after)) (v : Variable) :
    (after.get? v).isSome ↔
      (bindings.get? v).isSome ∨ position.pattern.asVariable? = some v := by
  have hrequire {place : String} {expected actual : Value}
      (h : bindings.require place expected actual = (none, after)) : after = bindings :=
    (congrArg Prod.snd h).symm
  unfold fit at h
  split at h
  next w hpattern =>
    rw [hpattern, Pattern.asVariable?, Option.some.injEq]
    split at h
    next hunbound =>
      cases h
      by_cases hv : w = v
      · subst hv
        simp [get?_set_self]
      · simp [get?_set_of_ne _ _ hv, hv]
    next expected hbound =>
      obtain rfl := hrequire h
      constructor
      · exact Or.inl
      · rintro (hsome | rfl)
        · exact hsome
        · simp [hbound]
  next expected hpattern =>
    obtain rfl := hrequire h
    simp [hpattern, Pattern.asVariable?]

theorem fitAll_binds {bindings after : Bindings} {positions : List Position}
    (h : bindings.fitAll positions = (none, after)) (v : Variable) :
    (after.get? v).isSome ↔ (bindings.get? v).isSome ∨
      v ∈ (positions.map Position.pattern).filterMap Pattern.asVariable? := by
  induction positions generalizing bindings with
  | nil =>
    cases h
    simp
  | cons position more ih =>
    rw [fitAll] at h
    split at h
    next middle hfit =>
      rw [ih h, fit_binds hfit, List.map_cons, List.filterMap_cons]
      cases position.pattern.asVariable? with
      | none => simp
      | some w => simp only [Option.some.injEq, List.mem_cons, or_assoc, @eq_comm _ w v]
    next hfit =>
      exact (hfit _ h).elim

end Bindings

namespace Line

/-- Numbered positions pair values and patterns up. -/
theorem numberedPositions_pairs (place : String) (values : List Value) (patterns : List Pattern) :
    (numberedPositions place values patterns).map (fun p => (p.actual, p.pattern)) =
      values.zip patterns := by
  rw [numberedPositions, List.map_map]
  exact List.zipIdx_map_fst 0 _

theorem numberedPositions_patterns (place : String) {values : List Value}
    {patterns : List Pattern} (h : values.length = patterns.length) :
    (numberedPositions place values patterns).map Position.pattern = patterns := by
  have hpairs := congrArg (List.map Prod.snd) (numberedPositions_pairs place values patterns)
  rw [List.map_map, List.map_snd_zip (Nat.le_of_eq h.symm)] at hpairs
  exact hpairs

theorem resultPositions_patterns {line : Line} {result : Value} {positions : List Position}
    (h : line.resultPositions result = .ok positions) :
    positions.map Position.pattern = line.returns.getD [] := by
  unfold resultPositions at h
  split at h
  next hreturns =>
    cases h
    rw [hreturns]
    rfl
  next hreturns =>
    cases h
    rw [hreturns]
    rfl
  next pattern hreturns =>
    cases h
    rw [hreturns]
    rfl
  next patterns _ _ hreturns =>
    rw [hreturns]
    dsimp only at h
    split at h
    · cases h
    · split at h
      next hlength =>
        cases h
        exact numberedPositions_patterns _ hlength
      next => cases h

end Line

namespace Bindings

/-- **A trace that fits a line binds the variables of the line and no others.** -/
theorem fitTrace_binds {bindings after : Bindings} {trace : Trace} {line : Line}
    (h : bindings.fitTrace trace line = (none, after)) (v : Variable) :
    (after.get? v).isSome ↔ (bindings.get? v).isSome ∨ v ∈ line.vars := by
  rw [fitTrace] at h
  split at h
  · cases h
  · split at h
    · cases h
    next hlength =>
      split at h
      next middle hargs =>
        split at h
        next positions hresult =>
          rw [fitAll_binds h, fitAll_binds hargs, Line.argumentPositions,
            Line.numberedPositions_patterns _ (not_not.mp hlength),
            Line.resultPositions_patterns hresult, Line.vars, Line.patterns,
            List.filterMap_append, List.mem_append, or_assoc]
        next => cases h
      next hargs => exact (hargs _ h).elim

/-- The bound variables are those of some lines. -/
def Knows (bindings : Bindings) (lines : List Line) : Prop :=
  ∀ v, (bindings.get? v).isSome ↔ v ∈ lines.flatMap Line.vars

theorem Knows.empty : Knows .empty [] := by
  intro v
  simp [Bindings.empty, get?, lookup]

theorem Knows.fitTrace {bindings after : Bindings} {lines : List Line} {trace : Trace}
    {line : Line} (h : bindings.Knows lines)
    (hfit : bindings.fitTrace trace line = (none, after)) : after.Knows (lines ++ [line]) := by
  intro v
  rw [fitTrace_binds hfit, h v, List.flatMap_append, List.mem_append]
  simp

/-! ## What arguments need -/

theorem mapM_argument_cases (bindings : Bindings) (patterns : List Pattern) :
    ((∃ args, patterns.mapM bindings.argument = .ok args) ∧
      ∀ v ∈ patterns.filterMap Pattern.asVariable?, (bindings.get? v).isSome) ∨
    ∃ v, (patterns.filterMap Pattern.asVariable?).find? (fun v => (bindings.get? v).isNone) =
        some v ∧
      patterns.mapM bindings.argument = .error (.unbound v.name) := by
  induction patterns with
  | nil => exact Or.inl ⟨⟨[], rfl⟩, by simp⟩
  | cons pattern patterns ih =>
    rw [List.mapM_cons]
    cases pattern with
    | lit value =>
      rcases ih with ⟨⟨args, hargs⟩, hbound⟩ | ⟨v, hfind, hargs⟩
      · exact Or.inl ⟨⟨value :: args, by rw [hargs]; rfl⟩, hbound⟩
      · exact Or.inr ⟨v, hfind, by rw [hargs]; rfl⟩
    | var w =>
      have hvars : (Pattern.var w :: patterns).filterMap Pattern.asVariable? =
          w :: patterns.filterMap Pattern.asVariable? := rfl
      rw [hvars, argument, value]
      cases hw : bindings.get? w with
      | none => exact Or.inr ⟨w, by simp [hw], rfl⟩
      | some known =>
        rcases ih with ⟨⟨args, hargs⟩, hbound⟩ | ⟨v, hfind, hargs⟩
        · refine Or.inl ⟨⟨known :: args, by rw [hargs]; rfl⟩, ?_⟩
          intro v hmem
          rcases List.mem_cons.mp hmem with rfl | hmem
          · simp [hw]
          · exact hbound v hmem
        · exact Or.inr ⟨v, by simp [hw, hfind], by rw [hargs]; rfl⟩

section Arguments

variable {bindings : Bindings} {earlier : List Line} {line : Line}

theorem Knows.arguments_of_closed (h : bindings.Knows earlier)
    (hclosed : line.ClosedBehind earlier) : ∃ args, bindings.arguments line = .ok args := by
  rcases mapM_argument_cases bindings line.args with ⟨hargs, -⟩ | ⟨v, hfind, -⟩
  · exact hargs
  · have hbound := (h v).mpr (hclosed v (List.mem_of_find?_eq_some hfind))
    have hunbound := List.find?_some hfind
    rw [Option.isNone_iff_eq_none] at hunbound
    rw [hunbound] at hbound
    cases hbound

theorem Knows.arguments_of_open (h : bindings.Knows earlier) {v : Variable}
    (hopen : line.firstOpen? earlier = some v) :
    bindings.arguments line = .error (.unbound v.name) := by
  have hsame : (fun v => (bindings.get? v).isNone) =
      fun v => decide (v ∉ earlier.flatMap Line.vars) := by
    funext v
    rw [Bool.eq_iff_iff, decide_eq_true_iff, ← h v, Option.isNone_iff_eq_none,
      Option.not_isSome_iff_eq_none]
  rcases mapM_argument_cases bindings line.args with ⟨-, hbound⟩ | ⟨w, hfind, hargs⟩
  · rw [Line.firstOpen?] at hopen
    have hunknown := List.find?_some hopen
    rw [decide_eq_true_iff] at hunknown
    exact absurd ((h v).mp (hbound v (List.mem_of_find?_eq_some hopen))) hunknown
  · rw [hsame] at hfind
    cases hfind.symm.trans hopen
    exact hargs

end Arguments

end Bindings

namespace Engine

variable {σ : Type} {engine : Engine σ} {bindings after : Bindings} {earlier lines : List Line}
  {line : Line} {rule : Rule} {trace : Trace} {traces : List Trace} {s t : σ}
  {events : List Event}

/-! ## Lines -/

theorem perform_knows (h : bindings.Knows earlier)
    (hrun : engine.perform line bindings s = ⟨.returned (after, trace), t, events⟩) :
    after.Knows (earlier ++ [line]) := by
  have hcases := engine.perform_cases line bindings s
  rw [hrun] at hcases
  cases hcases with
  | answered args_eq call_eq fit_eq => exact h.fitTrace fit_eq

theorem performAll_knows (h : bindings.Knows earlier)
    (hrun : engine.performAll lines bindings s = ⟨.returned (after, traces), t, events⟩) :
    after.Knows (earlier ++ lines) := by
  induction lines generalizing bindings earlier traces s events with
  | nil =>
    obtain ⟨rfl, -, -, -⟩ := performAll_nil_returned hrun
    rwa [List.append_nil]
  | cons line lines ih =>
    obtain ⟨middle, trace, more, u, front, back, hline, hlines, -, -⟩ :=
      performAll_cons_returned hrun
    have hknows := ih (perform_knows h hline) hlines
    rwa [List.append_assoc, List.singleton_append] at hknows

variable (engine) in
/-- A line that is not closed makes no call. -/
theorem perform_of_open (h : bindings.Knows earlier) {v : Variable}
    (hopen : line.firstOpen? earlier = some v) (s : σ) :
    engine.perform line bindings s = ⟨.failed (.mismatch (.unbound v.name)), s, []⟩ :=
  (Refuses.unbound (h.arguments_of_open hopen)).perform

/-- Lines that come to one that is not closed stop there at the latest. -/
theorem performAll_of_open {before back : List Line} {v : Variable} (h : bindings.Knows earlier)
    (hopen : line.firstOpen? (earlier ++ before) = some v) (s : σ) :
    ∃ e t events, engine.performAll (before ++ line :: back) bindings s = ⟨.failed e, t, events⟩ ∧
      (Event.calls events).map Prod.fst <+: before.map Line.action := by
  rcases (engine.performAll_finishes before bindings).cases s with
    ⟨⟨reached, traces⟩, u, front, hbefore⟩ | ⟨e, u, front, hbefore⟩
  · have hline := perform_of_open engine (performAll_knows h hbefore) hopen u
    have hfails : engine.FailsAt (before ++ line :: back) bindings s line _ :=
      .intro rfl hbefore hline
    refine ⟨_, _, _, hfails.performAll, ?_⟩
    rw [List.append_nil]
    exact (performAll_events hbefore).2
  · -- An earlier line has failed, and the line in question is not come to.
    obtain ⟨last, hfails⟩ := performAll_failed hbefore
    exact ⟨e, u, front, (hfails.append _).performAll, (performAll_events hbefore).2⟩

variable (engine) in
/-- No action fails as if a variable had no value. -/
def Sound : Prop :=
  ∀ action entry, engine.actions.get? action = some entry → ∀ args s name,
    (entry args s).1 ≠ .error (.mismatch (.unbound name))

theorem perform_ne_unbound (hsound : engine.Sound) (h : bindings.Knows earlier)
    (hclosed : line.ClosedBehind earlier) (name : String) :
    engine.perform line bindings s ≠ ⟨.failed (.mismatch (.unbound name)), t, events⟩ := by
  intro hrun
  obtain ⟨args, hargs⟩ := h.arguments_of_closed hclosed
  -- The arguments have their values, which leaves the action and the fit of its answer.
  have hrefuses := refuses_of_perform hrun
  generalize Event.calls events = calls at hrefuses
  generalize he : Failure.mismatch (.unbound name) = e at hrefuses
  cases hrefuses with
  | unbound args_eq =>
    rw [hargs] at args_eq
    cases args_eq
  | @unanswered values _ _ _ _ unanswered =>
    cases unanswered with
    | unregistered => cases he
    | raised entry_eq run_eq =>
      refine hsound _ _ entry_eq values s name ?_
      rw [run_eq, he]
  | misfit _ _ _ fit_eq => exact (Bindings.fitTrace_failed fit_eq).ne_unbound name he.symm

theorem performAll_ne_unbound (hsound : engine.Sound) (h : bindings.Knows earlier)
    (hclosed : Line.AllClosed earlier lines) (name : String) :
    engine.performAll lines bindings s ≠ ⟨.failed (.mismatch (.unbound name)), t, events⟩ := by
  intro hrun
  obtain ⟨line, hfails⟩ := performAll_failed hrun
  cases hfails with
  | intro lines_eq before_eq line_eq =>
    rw [lines_eq, Line.allClosed_append] at hclosed
    exact perform_ne_unbound hsound (performAll_knows h before_eq) hclosed.2.1 name line_eq

/-! ## Attempts -/

theorem guard_knows
    (hguard : engine.guard rule trace s = ⟨.returned (bindings, traces), t, events⟩) :
    bindings.Knows (rule.trigger :: rule.guards) := by
  obtain ⟨matched, u, front, back, hfit, hguards, -⟩ := Act.bind_returned hguard
  obtain ⟨hfit, rfl, -⟩ := Act.ofExcept_returned hfit
  rw [fitted] at hfit
  split at hfit
  next hmatched =>
    cases hfit
    exact performAll_knows (Bindings.Knows.empty.fitTrace hmatched) hguards
  next => cases hfit

/-- The guards of a scoped rule find their variables bound. -/
theorem guard_ne_unbound (hsound : engine.Sound) (hscoped : rule.Scoped) (name : String) :
    engine.guard rule trace s ≠ ⟨.failed (.mismatch (.unbound name)), t, events⟩ := by
  intro hguard
  rw [Rule.Scoped, Rule.ownLines, Line.allClosed_append] at hscoped
  rcases guard_failed hguard with ⟨after, hfit⟩ | ⟨matched, hfit, hlines⟩
  · exact (Bindings.fitTrace_failed hfit).ne_unbound name rfl
  · exact performAll_ne_unbound hsound (Bindings.Knows.empty.fitTrace hfit) hscoped.1 name hlines

/-- And so do its consequences. -/
theorem consequences_ne_unbound {u v : σ} {more : List Event} (hsound : engine.Sound)
    (hscoped : rule.Scoped)
    (hguard : engine.guard rule trace s = ⟨.returned (bindings, traces), t, events⟩)
    (name : String) :
    engine.performAll rule.consequences bindings u ≠
      ⟨.failed (.mismatch (.unbound name)), v, more⟩ := by
  rw [Rule.Scoped, Rule.ownLines, Line.allClosed_append] at hscoped
  exact performAll_ne_unbound hsound (guard_knows hguard) hscoped.2 name

/-- **Runs say of a scoped rule that it was declined or violated, never for want of a value.** -/
theorem scoped_emits (hsound : engine.Sound) (hscoped : rule.Scoped) (name called : String)
    (steps : Nat) (action : String) (args : List Value) :
    Act.Emits (fun event => event ≠ .declined rule (.mismatch (.unbound name)) ∧
      event ≠ .violated rule called (.unbound name)) (engine.cascade steps action args) := by
  refine cascade_emits (fun _ _ => by simp) (fun _ _ => by simp) ?_ steps action args
  intro other trace s
  refine applyRule_emits (fun _ _ => by simp) ?_ (fun _ _ _ _ => by simp) ?_
  · intro reason t events hguard
    refine ⟨?_, by simp⟩
    intro h
    cases h
    exact guard_ne_unbound hsound hscoped name hguard
  · intro bindings guards u front line cause t back hguard hfails
    refine ⟨by simp, ?_⟩
    intro h
    cases h
    exact consequences_ne_unbound hsound hscoped hguard name hfails.performAll

/-! ## Rules that are not scoped -/

section Open

variable {before after : List Line} {x : Variable}
  (hopen : line.firstOpen? (rule.trigger :: before) = some x)

include hopen

/-- Guards that come to a line that is not closed fail there at the latest. -/
theorem guard_of_open {rest : List Line} (hguards : rule.guards = before ++ line :: rest)
    (trace : Trace) (s : σ) :
    ∃ e t events, engine.guard rule trace s = ⟨.failed e, t, events⟩ ∧
      (Event.calls events).map Prod.fst <+: before.map Line.action := by
  rcases hfit : Bindings.empty.fitTrace trace rule.trigger with ⟨_ | e, matched⟩
  · rw [guard, fitted, hfit, Act.ofExcept_ok, pure_bind, hguards]
    exact performAll_of_open (Bindings.Knows.empty.fitTrace hfit) hopen s
  · rw [guard, fitted, hfit, Act.ofExcept_error, Act.fail_bind, Act.fail_apply]
    exact ⟨e, s, [], rfl, List.nil_prefix⟩

/-- **No attempt makes the call of a line that is not closed**, nor one of a line behind it. -/
theorem calls_of_open (hline : rule.OpenAt before line after) (trace : Trace) (s : σ) :
    (Event.calls (engine.applyRule rule trace s).events).map Prod.fst <+:
      before.map Line.action := by
  rcases hline.guard_or_consequence with ⟨rest, hguards⟩ | ⟨middle, rfl, hconsequences⟩
  · obtain ⟨e, t, events, hguard, hcalls⟩ := guard_of_open hopen hguards trace s
    rwa [calls_of_guard_failed hguard]
  · -- The line is a consequence, so all guards stand in front of it.
    rw [List.map_append]
    rcases (engine.guard_finishes rule trace).cases s with
      ⟨⟨bindings, guards⟩, u, front, hguard⟩ | ⟨e, u, front, hguard⟩
    · obtain ⟨e, t, back, hlines, hcalls⟩ :=
        performAll_of_open (guard_knows hguard) hopen u
      rw [← hconsequences] at hlines
      obtain ⟨last, hfails⟩ := performAll_failed hlines
      obtain ⟨hactions, rfl⟩ := guard_returned hguard
      rw [(Breaks.consequence hguard hfails).applyRule, calls_of_broken, Event.calls_map_ofCall,
        List.map_append, List.map_map, ← hactions]
      exact (List.prefix_append_right_inj _).mpr hcalls
    · rw [calls_of_guard_failed hguard]
      exact (guard_events hguard).2.trans (List.prefix_append _ _)

/-- They never come to their end. -/
theorem guard_ne_returned {rest : List Line} (hguards : rule.guards = before ++ line :: rest)
    (trace : Trace) (s : σ) {answer : Bindings × List Trace} :
    engine.guard rule trace s ≠ ⟨.returned answer, t, events⟩ := by
  intro hguard
  obtain ⟨e, u, more, hfails, -⟩ := guard_of_open hopen hguards trace s
  cases hguard.symm.trans hfails

/-- A rule with a guard that is not closed never fires. -/
theorem never_fires {rest : List Line} (hguards : rule.guards = before ++ line :: rest)
    (steps : Nat) (action : String) (args : List Value) :
    Act.Emits (fun event => event ≠ .fired rule) (engine.cascade steps action args) := by
  refine cascade_emits (fun _ _ => by simp) (fun _ _ => by simp) ?_ steps action args
  intro other trace s
  refine applyRule_emits (fun _ _ => by simp) (fun _ _ _ _ => by simp) ?_
    (fun _ _ _ _ _ _ _ _ _ _ => by simp)
  intro answer t events hguard hfired
  cases hfired
  exact guard_ne_returned hopen hguards trace s hguard

/-- **An attempt that comes to a consequence that is not closed breaks its run.** -/
theorem ends_of_open {middle : List Line} (hbefore : before = rule.guards ++ middle)
    (hconsequences : rule.consequences = middle ++ line :: after) {action : String}
    {args : List Value} {u v w : σ} {calls : List (String × List Value)}
    {matched reached : Bindings} {guards : List Trace} {front back : List Event}
    (hturn : engine.Turn action args s trace rule u calls)
    (hguard : engine.guard rule trace u = ⟨.returned (matched, guards), v, front⟩)
    (hmiddle : engine.performAll middle matched v = ⟨.returned (reached, traces), w, back⟩) :
    ∃ events, engine.Ends action args s
      ⟨.failed (.violation rule.anchor line.action (.mismatch (.unbound x.name))), w, events⟩ := by
  subst hbefore
  have hline := perform_of_open engine (performAll_knows (guard_knows hguard) hmiddle) hopen w
  exact hturn.ends (.consequence hguard (.intro hconsequences hmiddle hline))

end Open

/-- **The text of a rule decides whether it finds its variables bound.** If the rule is scoped,
neither its guards nor its consequences ever fail for want of a value, and no run says that it was
declined or violated for that reason. Otherwise no attempt makes the call of its first line that is
not closed, nor one of a line behind it: if that line is a guard, the guards never come to their end
and no run says that the rule fired, and if it is a consequence, every attempt that comes to it ends
the run with a violation that names the first variable without a value. -/
theorem scoping_decides (hsound : engine.Sound) (rule : Rule) :
    (rule.Scoped ∨ ∃ before line after, rule.OpenAt before line after) ∧
    (rule.Scoped →
      (∀ trace s name t events,
        engine.guard rule trace s ≠ ⟨.failed (.mismatch (.unbound name)), t, events⟩) ∧
      (∀ trace s matched guards u front,
        engine.guard rule trace s = ⟨.returned (matched, guards), u, front⟩ →
        ∀ name t events, engine.performAll rule.consequences matched u ≠
          ⟨.failed (.mismatch (.unbound name)), t, events⟩) ∧
      ∀ steps action args s name called,
        .declined rule (.mismatch (.unbound name)) ∉
            (engine.cascade steps action args s).events ∧
          .violated rule called (.unbound name) ∉ (engine.cascade steps action args s).events) ∧
    ∀ before line after, rule.OpenAt before line after →
      (∀ trace s, (Event.calls (engine.applyRule rule trace s).events).map Prod.fst <+:
        before.map Line.action) ∧
      ((∃ rest, rule.guards = before ++ line :: rest) →
        (∀ trace s answer t events,
          engine.guard rule trace s ≠ ⟨.returned answer, t, events⟩) ∧
        ∀ steps action args s, .fired rule ∉ (engine.cascade steps action args s).events) ∧
      ∀ middle, rule.consequences = middle ++ line :: after → before = rule.guards ++ middle →
        ∃ x, line.firstOpen? (rule.trigger :: before) = some x ∧
          ∀ action args s trace u calls matched guards v front reached traces w back,
            engine.Turn action args s trace rule u calls →
            engine.guard rule trace u = ⟨.returned (matched, guards), v, front⟩ →
            engine.performAll middle matched v = ⟨.returned (reached, traces), w, back⟩ →
            ∃ events, engine.Ends action args s
              ⟨.failed (.violation rule.anchor line.action (.mismatch (.unbound x.name))), w,
                events⟩ := by
  refine ⟨rule.scoped_or_openAt, ?_, ?_⟩
  · intro hscoped
    refine ⟨fun trace s name t events => guard_ne_unbound hsound hscoped name, ?_, ?_⟩
    · intro trace s matched guards u front hguard name t events
      exact consequences_ne_unbound hsound hscoped hguard name
    · intro steps action args s name called
      have hemits := scoped_emits hsound hscoped name called steps action args s
      exact ⟨fun hmem => (hemits _ hmem).1 rfl, fun hmem => (hemits _ hmem).2 rfl⟩
  · intro before line after hline
    obtain ⟨x, hopen⟩ := Line.exists_firstOpen hline.unclosed
    refine ⟨calls_of_open hopen hline, ?_, ?_⟩
    · rintro ⟨rest, hguards⟩
      refine ⟨fun trace s answer t events => guard_ne_returned hopen hguards trace s, ?_⟩
      intro steps action args s hmem
      exact never_fires hopen hguards steps action args s _ hmem rfl
    · intro middle hconsequences hbefore
      refine ⟨x, hopen, ?_⟩
      intro action args s trace u calls matched guards v front reached traces w back hturn hguard
        hmiddle
      exact ends_of_open hopen hbefore hconsequences hturn hguard hmiddle

/-- A rule whose second consequence asks for two variables that nothing binds. -/
def careless : Rule where
  trigger := ⟨"A.a", [.var ⟨"x", 0⟩], none⟩
  guards := [⟨"B.b", [.var ⟨"x", 0⟩], some [.var ⟨"r", 0⟩]⟩]
  consequences := [⟨"B.b", [.var ⟨"r", 0⟩], none⟩,
    ⟨"C.c", [.var ⟨"r", 0⟩, .var ⟨"y", 0⟩, .var ⟨"z", 0⟩], none⟩]
  line := 1

/-- The same rule without that consequence. -/
def careful : Rule :=
  { careless with consequences := [⟨"B.b", [.var ⟨"r", 0⟩], none⟩], line := 8 }

def mixed : Engine Nat where
  rulebook := .ofRules [careful, careless]
  actions := toggling.actions

/-- The first rule fires and finds its variables bound, and the second one breaks the run. -/
theorem scoping_decides_mixed : mixed.Sound ∧ careful.Scoped ∧
    (∀ steps name, .declined careful (.mismatch (.unbound name)) ∉
      (mixed.cascade steps "A.a" [.int 7] 0).events) ∧
    ∃ events, mixed.Ends "A.a" [.int 7] 0
      ⟨.failed (.violation "A.a" "C.c" (.mismatch (.unbound "y"))), 5, events⟩ := by
  have hsound : mixed.Sound := by
    intro action entry hentry args s name
    have htoggle : entry = toggle := by
      simp only [mixed, toggling, Registry.get?, Keyed.get?] at hentry
      split at hentry
      · exact (Option.some.inj hentry).symm
      · split at hentry
        · exact (Option.some.inj hentry).symm
        · split at hentry
          · exact (Option.some.inj hentry).symm
          · cases hentry
    rw [htoggle]
    simp [toggle]
  have hscoped : careful.Scoped := ⟨by decide, by decide, trivial⟩
  have hopen : careless.OpenAt
      [⟨"B.b", [.var ⟨"x", 0⟩], some [.var ⟨"r", 0⟩]⟩, ⟨"B.b", [.var ⟨"r", 0⟩], none⟩]
      ⟨"C.c", [.var ⟨"r", 0⟩, .var ⟨"y", 0⟩, .var ⟨"z", 0⟩], none⟩ [] :=
    ⟨rfl, ⟨by decide, by decide, trivial⟩, by decide⟩
  refine ⟨hsound, hscoped, ?_, ?_⟩
  · intro steps name
    exact (((scoping_decides hsound careful).2.1 hscoped).2.2 steps _ _ _ name "B.b").1
  · obtain ⟨x, hx, hends⟩ := ((scoping_decides hsound careless).2.2 _ _ _ hopen).2.2
      [⟨"B.b", [.var ⟨"r", 0⟩], none⟩] rfl rfl
    obtain rfl : ⟨"y", 0⟩ = x := Option.some.inj hx
    have hopens : mixed.Opens "A.a" [.int 7] 0 ⟨[], [⟨"A.a", [.int 7], .bool true⟩], 1, _⟩ :=
      .intro rfl
    have hunder : mixed.rulebook.under "A.a" = [careful] ++ [careless] := rfl
    have hcareful : mixed.Tries careful ⟨"A.a", [.int 7], .bool true⟩ 1 _ 3 := .fired rfl rfl
    have hattempted :
        mixed.Attempted [⟨⟨0, ⟨"A.a", [.int 7], .bool true⟩, careful⟩, _⟩] 1 3 :=
      ⟨3, hcareful, rfl⟩
    have hturn := Turn.intro hopens .refl (.opening rfl) rfl hunder rfl hattempted
    exact hends _ _ _ _ _ _ _ _ _ _ _ _ _ _ hturn rfl rfl

end Engine

end Synchrony
