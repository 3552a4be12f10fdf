import Synchrony.Proofs.Engine.Likeness
import Synchrony.Proofs.Engine.Scoping
import Synchrony.Proofs.Rule.Renaming

/-!
# Names of variables

The names of variables carry no meaning. If the variables of each rule are renamed, each rule's in a
way of its own, then all runs stay the same, but for the failure that quotes the name of a variable
(`Failure.Respelt`).

## 1. Bindings

The bindings of the two runs are not the same: a value stands under one name in the one and under
another in the other. What holds is that the variables of the rule have the same values under their
names (`Bindings.RenamedOn`). Names that are different have to stay different for that, or else a
value would turn up where there should be none; names that are no variables of the rule may stand
for anything.

Bindings begin empty with each attempt, so nothing is asked of the variables of two rules. If values
were carried over from one rule to the next, it would matter whether the two spell a name alike.

## 2. Lines

A line does the same under bindings that are renamed like it (`Engine.mirrors_rename`). With the
names as they are, this says that a line looks at its own variables only.
-/

set_option autoImplicit false

namespace Synchrony

variable {σ : Type} {name : Variable → Variable} {vars : List Variable}

/-! ## Renamed positions -/

def Position.rename (name : Variable → Variable) (position : Position) : Position :=
  { position with pattern := position.pattern.rename name }

namespace Line

theorem numberedPositions_map_rename (name : Variable → Variable) (place : String)
    (values : List Value) (patterns : List Pattern) :
    numberedPositions place values (patterns.map (Pattern.rename name)) =
      (numberedPositions place values patterns).map (Position.rename name) := by
  rw [numberedPositions, numberedPositions, List.zip_map_right, List.zipIdx_map, List.map_map,
    List.map_map]
  rfl

theorem argumentPositions_rename (line : Line) (args : List Value) :
    (line.rename name).argumentPositions args =
      (line.argumentPositions args).map (Position.rename name) :=
  numberedPositions_map_rename _ _ _ _

theorem resultPositions_rename (line : Line) (result : Value) :
    (line.rename name).resultPositions result =
      (line.resultPositions result).map (List.map (Position.rename name)) := by
  obtain ⟨action, args, returns⟩ := line
  rcases returns with _ | _ | ⟨pattern, _ | ⟨second, patterns⟩⟩
  · rfl
  · rfl
  · rfl
  · -- Only here can the result have the wrong shape, and its shape does not depend on the names.
    have hpositions (members : List Value) := numberedPositions_map_rename name
      (action ++ " return") members (pattern :: second :: patterns)
    simp only [resultPositions, rename, Option.map_some, List.map_cons, List.length_cons,
      List.length_map] at hpositions ⊢
    split
    · rfl
    · split
      · rw [hpositions]
        rfl
      · rfl

end Line

namespace Bindings

/-! ## Renamed bindings -/

/-- These variables have the same values under their new names, and the same of them have none. -/
def RenamedOn (name : Variable → Variable) (vars : List Variable)
    (bindings bindings' : Bindings) : Prop :=
  ∀ v ∈ vars, bindings'.get? (name v) = bindings.get? v

variable {bindings bindings' : Bindings}
  (hname : ∀ v ∈ vars, ∀ w ∈ vars, name v = name w → v = w)

include hname

theorem RenamedOn.set (h : RenamedOn name vars bindings bindings') {v : Variable} (hv : v ∈ vars)
    (value : Value) : RenamedOn name vars (bindings.set v value) (bindings'.set (name v) value) := by
  intro w hw
  by_cases hvw : v = w
  · subst hvw
    rw [get?_set_self, get?_set_self]
  · have hne : name v ≠ name w := fun heq => hvw (hname v hv w hw heq)
    rw [get?_set_of_ne _ _ hvw, get?_set_of_ne _ _ hne]
    exact h w hw

theorem RenamedOn.fit (h : RenamedOn name vars bindings bindings') {position : Position}
    (hvars : ∀ v, position.pattern.asVariable? = some v → v ∈ vars) :
    (bindings'.fit (position.rename name)).1 = (bindings.fit position).1 ∧
      RenamedOn name vars (bindings.fit position).2 (bindings'.fit (position.rename name)).2 := by
  obtain ⟨place, actual, pattern⟩ := position
  cases pattern with
  | lit expected => exact ⟨rfl, h⟩
  | var v =>
    have hmem := hvars v rfl
    have hvalue := h v hmem
    simp only [Bindings.fit, Position.rename, Pattern.rename, hvalue]
    cases bindings.get? v with
    | none => exact ⟨rfl, h.set hname hmem actual⟩
    | some expected => exact ⟨rfl, h⟩

theorem RenamedOn.fitAll (h : RenamedOn name vars bindings bindings') {positions : List Position}
    (hvars : (positions.map Position.pattern).filterMap Pattern.asVariable? ⊆ vars) :
    (bindings'.fitAll (positions.map (Position.rename name))).1 = (bindings.fitAll positions).1 ∧
      RenamedOn name vars (bindings.fitAll positions).2
        (bindings'.fitAll (positions.map (Position.rename name))).2 := by
  induction positions generalizing bindings bindings' with
  | nil => exact ⟨rfl, h⟩
  | cons position more ih =>
    have hmore : (more.map Position.pattern).filterMap Pattern.asVariable? ⊆ vars := by
      intro v hv
      obtain ⟨pattern, hpattern, hasVariable⟩ := List.mem_filterMap.mp hv
      exact hvars (List.mem_filterMap.mpr ⟨pattern, List.mem_cons_of_mem _ hpattern, hasVariable⟩)
    have hposition : ∀ v, position.pattern.asVariable? = some v → v ∈ vars := by
      intro v hv
      exact hvars (List.mem_filterMap.mpr ⟨position.pattern, List.mem_cons_self, hv⟩)
    obtain ⟨hfirst, hafter⟩ := h.fit hname hposition
    rw [List.map_cons]
    rcases hfit : bindings.fit position with ⟨failure, after⟩
    rcases hfit' : bindings'.fit (position.rename name) with ⟨failure', after'⟩
    rw [hfit, hfit'] at hfirst hafter
    obtain rfl : failure' = failure := hfirst
    cases failure' with
    | none =>
      simp only [Bindings.fitAll, hfit, hfit']
      exact ih hafter hmore
    | some e =>
      simp only [Bindings.fitAll, hfit, hfit']
      exact ⟨trivial, hafter⟩

/-- **A trace fits a renamed line as it fits the line.** -/
theorem RenamedOn.fitTrace (h : RenamedOn name vars bindings bindings') {line : Line}
    (hvars : line.vars ⊆ vars) (trace : Trace) :
    (bindings'.fitTrace trace (line.rename name)).1 = (bindings.fitTrace trace line).1 ∧
      RenamedOn name vars (bindings.fitTrace trace line).2
        (bindings'.fitTrace trace (line.rename name)).2 := by
  have haction : (line.rename name).action = line.action := rfl
  have hlength : (line.rename name).args.length = line.args.length := List.length_map _
  rw [Line.vars, Line.patterns, List.filterMap_append, List.append_subset] at hvars
  rw [Bindings.fitTrace, Bindings.fitTrace, haction, hlength, line.argumentPositions_rename,
    line.resultPositions_rename]
  split
  · exact ⟨rfl, h⟩
  · split
    · exact ⟨rfl, h⟩
    · rename_i hcount
      have hargVars : ((line.argumentPositions trace.args).map Position.pattern).filterMap
          Pattern.asVariable? ⊆ vars := by
        rw [Line.argumentPositions, Line.numberedPositions_patterns _ (not_not.mp hcount)]
        exact hvars.1
      obtain ⟨hargs, hafter⟩ := h.fitAll hname hargVars
      rcases hfit : bindings.fitAll (line.argumentPositions trace.args) with ⟨failure, after⟩
      rcases hfit' : bindings'.fitAll ((line.argumentPositions trace.args).map
        (Position.rename name)) with ⟨failure', after'⟩
      rw [hfit, hfit'] at hargs hafter
      obtain rfl : failure' = failure := hargs
      cases failure' with
      | some e => exact ⟨rfl, hafter⟩
      | none =>
        cases hresult : line.resultPositions trace.result with
        | error mismatch => exact ⟨rfl, hafter⟩
        | ok positions =>
          refine hafter.fitAll hname ?_
          rw [Line.resultPositions_patterns hresult]
          exact hvars.2

omit hname

theorem RenamedOn.argument (h : RenamedOn name vars bindings bindings') (pattern : Pattern)
    (hvars : ∀ v, pattern.asVariable? = some v → v ∈ vars) :
    bindings'.argument (pattern.rename name) = bindings.argument pattern ∨
      ∃ v ∈ vars, bindings.argument pattern = .error (.unbound v.name) ∧
        bindings'.argument (pattern.rename name) = .error (.unbound (name v).name) := by
  cases pattern with
  | lit value => exact Or.inl rfl
  | var v =>
    have hmem := hvars v rfl
    rw [Pattern.rename, Bindings.argument, Bindings.argument, value, value, h v hmem]
    cases bindings.get? v with
    | none => exact Or.inr ⟨v, hmem, rfl, rfl⟩
    | some value => exact Or.inl rfl

/-- **A renamed line has the same arguments**, or the same variable has no value. -/
theorem RenamedOn.arguments (h : RenamedOn name vars bindings bindings') {line : Line}
    (hvars : line.vars ⊆ vars) :
    bindings'.arguments (line.rename name) = bindings.arguments line ∨
      ∃ v ∈ vars, bindings.arguments line = .error (.unbound v.name) ∧
        bindings'.arguments (line.rename name) = .error (.unbound (name v).name) := by
  rw [Line.vars, Line.patterns, List.filterMap_append, List.append_subset] at hvars
  rw [Bindings.arguments, Bindings.arguments, Line.rename]
  replace hvars := hvars.1
  generalize line.args = patterns at hvars
  induction patterns with
  | nil => exact Or.inl rfl
  | cons pattern patterns ih =>
    have hrest : patterns.filterMap Pattern.asVariable? ⊆ vars := by
      intro v hv
      obtain ⟨found, hfound, hasVariable⟩ := List.mem_filterMap.mp hv
      exact hvars (List.mem_filterMap.mpr ⟨found, List.mem_cons_of_mem _ hfound, hasVariable⟩)
    have hpattern := h.argument pattern fun v hv =>
      hvars (List.mem_filterMap.mpr ⟨pattern, List.mem_cons_self, hv⟩)
    rw [List.map_cons, List.mapM_cons, List.mapM_cons]
    rcases hpattern with hsame | ⟨v, hv, hunbound, hunbound'⟩
    · rw [hsame]
      cases bindings.argument pattern with
      | error mismatch => exact Or.inl rfl
      | ok value =>
        rcases ih hrest with hsame | ⟨v, hv, hunbound, hunbound'⟩
        · rw [hsame]
          exact Or.inl rfl
        · rw [hunbound, hunbound']
          exact Or.inr ⟨v, hv, rfl, rfl⟩
    · rw [hunbound, hunbound']
      exact Or.inr ⟨v, hv, rfl, rfl⟩

end Bindings

/-! ## Renamed lines -/

/-- A likeness that lets the names of these variables differ where a failure quotes them. -/
structure Likeness.AllowsNames (L : Likeness σ) (name : Variable → Variable)
    (vars : List Variable) : Prop where
  same : ∀ e, L.failure e e
  unbound : ∀ v ∈ vars,
    L.failure (.mismatch (.unbound v.name)) (.mismatch (.unbound (name v).name))

namespace Engine

variable {L : Likeness σ} {engine engine' : Engine σ} {bindings bindings' : Bindings}
  {line : Line} {trace : Trace}

theorem argumentsOf_renamed (hL : L.AllowsNames name vars)
    (h : Bindings.RenamedOn name vars bindings bindings') (hvars : line.vars ⊆ vars) :
    Akin Eq L.failure (argumentsOf line bindings) (argumentsOf (line.rename name) bindings') := by
  rw [argumentsOf, argumentsOf]
  rcases h.arguments hvars with hsame | ⟨v, hv, hunbound, hunbound'⟩
  · rw [hsame]
    cases bindings.arguments line with
    | ok args => exact .ok rfl
    | error mismatch => exact .error (hL.same _)
  · rw [hunbound, hunbound']
    exact .error (hL.unbound v hv)

theorem fitted_renamed (hL : L.AllowsNames name vars)
    (hname : ∀ v ∈ vars, ∀ w ∈ vars, name v = name w → v = w)
    (h : Bindings.RenamedOn name vars bindings bindings') (hvars : line.vars ⊆ vars) :
    Akin (Bindings.RenamedOn name vars) L.failure (fitted bindings trace line)
      (fitted bindings' trace (line.rename name)) := by
  obtain ⟨hfailure, hafter⟩ := h.fitTrace hname hvars trace
  rw [fitted, fitted]
  rcases hfit : bindings.fitTrace trace line with ⟨failure, after⟩
  rcases hfit' : bindings'.fitTrace trace (line.rename name) with ⟨failure', after'⟩
  rw [hfit, hfit'] at hfailure hafter
  obtain rfl : failure' = failure := hfailure
  cases failure' with
  | none => exact .ok hafter
  | some e => exact .error (hL.same e)

/-- **A renamed line comes to the same under bindings that are renamed like it.** -/
theorem mirrors_rename (hL : L.AllowsNames name vars)
    (hname : ∀ v ∈ vars, ∀ w ∈ vars, name v = name w → v = w)
    (hcall : ∀ args, Act.Akin L Eq (engine.call line.action args) (engine'.call line.action args))
    (hvars : line.vars ⊆ vars) :
    Mirrors L engine engine' Eq (Bindings.RenamedOn name vars) line (line.rename name) where
  action_eq := rfl
  perform bindings bindings' h := by
    have hcalls (args args' : List Value) (heq : args = args') :
        Act.Akin L Eq (engine.call line.action args) (engine'.call line.action args') :=
      heq ▸ hcall args
    refine perform_akin (argumentsOf_renamed hL h hvars) hcalls ?_
    rintro args _ trace _ rfl rfl
    exact ⟨rfl, fitted_renamed hL hname h hvars⟩

/-- Lines that are renamed alike mirror each other one by one. -/
theorem mirrors_map_rename (hL : L.AllowsNames name vars)
    (hname : ∀ v ∈ vars, ∀ w ∈ vars, name v = name w → v = w) {lines : List Line}
    (hcall : ∀ line ∈ lines, ∀ args,
      Act.Akin L Eq (engine.call line.action args) (engine'.call line.action args))
    (hvars : ∀ line ∈ lines, line.vars ⊆ vars) :
    List.Forall₂ (Mirrors L engine engine' Eq (Bindings.RenamedOn name vars)) lines
      (lines.map (Line.rename name)) := by
  rw [List.forall₂_map_right_iff]
  refine List.forall₂_same.mpr fun line hline => ?_
  exact mirrors_rename hL hname (hcall line hline) (hvars line hline)

/-! ## Renamed rules -/

/-- **A renamed rule comes to the same.** -/
theorem applyRule_renamed (hcoherent : L.Coherent) {rule rule' : Rule} (h : rule.Renames rule' name)
    (hL : L.AllowsNames name rule.vars)
    (hcall : ∀ action args, Act.Akin L Eq (engine.call action args) (engine'.call action args)) :
    Act.Akin L (List.Forall₂ Eq) (engine.applyRule rule trace) (engine'.applyRule rule' trace) := by
  have htrigger : rule.trigger.vars ⊆ rule.vars := rule.vars_subset List.mem_cons_self
  have hguards := mirrors_map_rename hL h.injective (fun line _ => hcall line.action)
    fun line hline => rule.vars_subset (List.mem_append_left _ (List.mem_cons_of_mem _ hline))
  have hconsequences := mirrors_map_rename hL h.injective (fun line _ => hcall line.action)
    fun line hline => rule.vars_subset (List.mem_append_right _ hline)
  rw [← h.guards] at hguards
  rw [← h.consequences] at hconsequences
  refine applyRule_akin hcoherent h.anchor (guard_akin ?_ hguards) hconsequences
  rw [h.trigger]
  exact fitted_renamed hL h.injective (fun _ _ => rfl) htrigger

end Engine

/-! ## Renamed rulebooks -/

/-- One of the rules has a variable of this spelling, and it is spelt that way where the rule is
renamed. -/
def Spells (rules rules' : List Rule) (old new : String) : Prop :=
  ∃ rule ∈ rules, ∃ rule' ∈ rules', ∃ name, rule.Renames rule' name ∧
    ∃ v ∈ rule.vars, v.name = old ∧ (name v).name = new

/-- The same failure, but for the name of a variable without a value, if it quotes one. -/
inductive Failure.Respelt (spells : String → String → Prop) : Failure → Failure → Prop
  | same (e : Failure) : Respelt spells e e
  | unbound {old new : String} (h : spells old new) :
    Respelt spells (.mismatch (.unbound old)) (.mismatch (.unbound new))
  | violation (anchor action : String) {e e' : Failure} (h : Respelt spells e e') :
    Respelt spells (.violation anchor action e) (.violation anchor action e')

/-- The likeness of runs that differ in the names of variables. -/
def Likeness.respelt (σ : Type) (spells : String → String → Prop) : Likeness σ :=
  ⟨Eq, Eq, Failure.Respelt spells⟩

theorem Likeness.coherent_respelt (spells : String → String → Prop) :
    (Likeness.respelt σ spells).Coherent where
  unknown h := by cases h <;> rfl
  verdict {rule rule' line line' e e'} h hanchor haction := by
    cases h with
    | same =>
      have hverdict : rule'.verdict line' e = rule.verdict line e := by
        cases e <;> simp [Rule.verdict, hanchor, haction]
      rw [hverdict]
      exact .same _
    | unbound h =>
      rw [Rule.verdict, Rule.verdict, hanchor, haction]
      exact .violation _ _ (.unbound h)
    | violation anchor action h => exact .violation anchor action h
  limit limit := .same _

namespace Engine

variable {engine engine' : Engine σ}

/-- **A reaction under the renamed rules comes to the same.** -/
theorem react_renamed
    (hrules : List.Forall₂ (fun rule rule' => ∃ name, rule.Renames rule' name)
      engine.rulebook.rules engine'.rulebook.rules)
    (hactions : engine'.actions = engine.actions) (trace : Trace) :
    Act.Akin (Likeness.respelt σ (Spells engine.rulebook.rules engine'.rulebook.rules))
      (List.Forall₂ Eq) (engine.react trace) (engine'.react trace) := by
  have hcall (action : String) (args : List Value) : Act.Akin
      (Likeness.respelt σ (Spells engine.rulebook.rules engine'.rulebook.rules)) Eq
      (engine.call action args) (engine'.call action args) := by
    rintro s _ rfl
    rw [call_of_actions_eq hactions]
    exact .refl (fun _ => rfl) (fun _ => rfl) Failure.Respelt.same _
  obtain ⟨hlength, hpairs⟩ := List.forall₂_iff_zip.mp hrules
  have hattempts : List.Forall₂ (fun rule rule' => rule'.anchor = rule.anchor ∧ Act.Akin
      (Likeness.respelt σ (Spells engine.rulebook.rules engine'.rulebook.rules)) (List.Forall₂ Eq)
      (engine.applyRule rule trace) (engine'.applyRule rule' trace))
      engine.rulebook.rules engine'.rulebook.rules := by
    refine List.forall₂_iff_zip.mpr ⟨hlength, fun {rule rule'} hmem => ?_⟩
    obtain ⟨name, hrenames⟩ := hpairs hmem
    obtain ⟨hrule, hrule'⟩ := List.of_mem_zip hmem
    refine ⟨hrenames.anchor, applyRule_renamed (Likeness.coherent_respelt _) hrenames ⟨.same, ?_⟩ hcall⟩
    exact fun v hv => .unbound ⟨rule, hrule, rule', hrule', name, hrenames, v, hv, rfl, rfl⟩
  rw [react, react, Rulebook.under_eq_filter, Rulebook.under_eq_filter]
  refine applyRules_akin ((List.rel_filter ?_ hattempts).imp fun _ _ h => h.2)
  intro rule rule' h
  simp only [h.1]

/-- **The names of variables carry no meaning.** Let each of the rules have its variables renamed,
each in a way of its own that keeps different variables different. Then every run ends in the same
way, be it with the same result and the same traces or with the same failure, in which the name of
an unbound variable is the new one, leaves the same state, and makes the same calls in the same
order. -/
theorem renaming_changes_nothing
    (hrules : List.Forall₂ (fun rule rule' => ∃ name, rule.Renames rule' name)
      engine.rulebook.rules engine'.rulebook.rules)
    (hactions : engine'.actions = engine.actions) (hcap : engine'.cap = engine.cap)
    (steps : Nat) (action : String) (args : List Value) (s : σ) :
    (engine.cascade steps action args s).ending.Akin Eq
      (Failure.Respelt (Spells engine.rulebook.rules engine'.rulebook.rules))
      (engine'.cascade steps action args s).ending ∧
    (engine'.cascade steps action args s).state = (engine.cascade steps action args s).state ∧
    Event.calls (engine'.cascade steps action args s).events =
      Event.calls (engine.cascade steps action args s).events := by
  have hcall : (engine.call action args s).Akin
      (Likeness.respelt σ (Spells engine.rulebook.rules engine'.rulebook.rules)) Eq
      (engine'.call action args s) := by
    rw [call_of_actions_eq hactions]
    exact .refl (fun _ => rfl) (fun _ => rfl) Failure.Respelt.same _
  obtain ⟨hending, hstate, hcalls⟩ := cascade_akin (Likeness.coherent_respelt _) hcap hcall
    (fun _ htrace => htrace ▸ react_renamed hrules hactions _) steps
  refine ⟨hending.mono fun _ _ h => h.eq.symm, hstate.symm, ?_⟩
  exact (List.forall₂_eq_eq_eq ▸ hcalls : Event.calls (engine.cascade steps action args s).events =
    Event.calls (engine'.cascade steps action args s).events).symm

/-- Two names change places. -/
def swapped (v : Variable) : Variable :=
  if v.name = "x" then ⟨"r", v.scope⟩ else if v.name = "r" then ⟨"x", v.scope⟩ else v

/-- Only the name of the variable that nothing binds is changed. -/
def reworded (v : Variable) : Variable :=
  if v.name = "y" then ⟨"w", v.scope⟩ else v

/-- The rules of `mixed`, each with other names. -/
def remixed : Engine Nat where
  rulebook := .ofRules [careful.rename swapped, careless.rename reworded]
  actions := mixed.actions

/-- The run breaks in the same place, and the failure quotes the new name. -/
theorem renaming_changes_nothing_mixed :
    List.Forall₂ (fun rule rule' => ∃ name, rule.Renames rule' name)
      mixed.rulebook.rules remixed.rulebook.rules ∧
    (mixed.cascade 3 "A.a" [.int 7] 0).ending =
      .failed (.violation "A.a" "C.c" (.mismatch (.unbound "y"))) ∧
    (remixed.cascade 3 "A.a" [.int 7] 0).ending =
      .failed (.violation "A.a" "C.c" (.mismatch (.unbound "w"))) ∧
    Event.calls (remixed.cascade 3 "A.a" [.int 7] 0).events =
      Event.calls (mixed.cascade 3 "A.a" [.int 7] 0).events := by
  have hcareful : careful.Renames (careful.rename swapped) swapped :=
    Rule.renames_rename (by decide)
  have hcareless : careless.Renames (careless.rename reworded) reworded :=
    Rule.renames_rename (by decide)
  have hrules : List.Forall₂ (fun rule rule' => ∃ name, rule.Renames rule' name)
      mixed.rulebook.rules remixed.rulebook.rules :=
    .cons ⟨swapped, hcareful⟩ (.cons ⟨reworded, hcareless⟩ .nil)
  obtain ⟨-, -, hcalls⟩ := renaming_changes_nothing hrules rfl rfl 3 "A.a" [.int 7] 0
  exact ⟨hrules, rfl, rfl, hcalls⟩

end Engine

end Synchrony
