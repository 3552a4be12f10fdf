import Synchrony.Proofs.Engine.Scoping

/-!
# Fitting is unification

Fitting takes the positions of a line one after the other, and what it asks of a position depends on
what it has bound by then. The statement of this module says what comes of that without any such
order: a trace fits a line if and only if its values unify with the patterns of the line
(`Bindings.Unifies`). A literal asks for itself, a variable that was bound before for its value, and
any other variable for the value at its first position (`Bindings.Suits`).

What is bound in the end is told in the same way. Bindings that were there stay, and every other
variable has the value at its first position among the positions taken (`Bindings.Adds`). All are
taken if the trace fits; otherwise those in front of the first that does not suit
(`Bindings.FailsBehind`).
-/

set_option autoImplicit false

namespace Synchrony

/-- The parts of a list or tuple, which are its members. No other value is taken apart. -/
def Value.parts : Value → List Value
  | .list members => members
  | .tuple members => members
  | _ => []

/-- A list or tuple of exactly so many members. -/
def Value.HasParts (value : Value) (count : Nat) : Prop :=
  ∃ members, (value = .list members ∨ value = .tuple members) ∧ members.length = count

namespace Line

/-- The return positions: none, the whole result, or its members if they are as many as the
patterns. -/
def resultPairs (line : Line) (result : Value) : List (Value × Pattern) :=
  match line.returns.getD [] with
  | [] => []
  | [pattern] => [(result, pattern)]
  | patterns =>
    if result.parts.length = patterns.length then result.parts.zip patterns else []

/-- The positions of a trace in a line: values beside the patterns they have to fit, those of the
arguments in order and then those of the result. -/
def pairs (line : Line) (trace : Trace) : List (Value × Pattern) :=
  trace.args.zip line.args ++ line.resultPairs trace.result

/-- The trace is of the action that the line names, with as many arguments. -/
def Calls (line : Line) (trace : Trace) : Prop :=
  trace.action = line.action ∧ trace.args.length = line.args.length

/-- Two or more return patterns ask for a list or tuple of exactly that many members. -/
def Takes (line : Line) (result : Value) : Prop :=
  2 ≤ (line.returns.getD []).length → result.HasParts (line.returns.getD []).length

end Line

/-- The value at the first position of a variable. -/
def firstValue? : List (Value × Pattern) → Variable → Option Value
  | [], _ => none
  | (actual, pattern) :: more, v =>
    if pattern.asVariable? = some v then some actual else firstValue? more v

/-- What has to fit and what it has to fit, without the name of the place. -/
def Position.pair (position : Position) : Value × Pattern :=
  (position.actual, position.pattern)

namespace Bindings

/-- What is asked of a position behind others: its value agrees with the literal there, with what
the variable there was bound to from the start, or else with the value at the first position of that
variable, if it is not the first itself. -/
def Suits (bindings : Bindings) (before : List (Value × Pattern)) : Value × Pattern → Prop
  | (actual, .lit expected) => actual.same expected = true
  | (actual, .var v) =>
    match bindings.get? v with
    | some bound => actual.same bound = true
    | none => ∀ first, firstValue? before v = some first → actual.same first = true

/-- All positions suit. -/
def Unifies (bindings : Bindings) (pairs : List (Value × Pattern)) : Prop :=
  ∀ before position after, pairs = before ++ position :: after → bindings.Suits before position

/-- `after` is `bindings`, and besides them every new variable of the positions with the value at
its first position. -/
def Adds (bindings : Bindings) (taken : List (Value × Pattern)) (after : Bindings) : Prop :=
  ∀ v, after.get? v = (bindings.get? v).or (firstValue? taken v)

/-- A trace does not fit a line, and these are the positions in front of what does not. -/
inductive FailsBehind (bindings : Bindings) (trace : Trace) (line : Line) :
    List (Value × Pattern) → Prop
  /-- It is of another action, or has another number of arguments. -/
  | call (call : ¬line.Calls trace) : FailsBehind bindings trace line []
  | position {before after : List (Value × Pattern)} {position : Value × Pattern}
    (call : line.Calls trace) (pairs_eq : line.pairs trace = before ++ position :: after)
    (before_unifies : bindings.Unifies before) (unsuited : ¬bindings.Suits before position) :
    FailsBehind bindings trace line before
  /-- The arguments suit, and the result is not in as many parts as it has to be. -/
  | result (call : line.Calls trace) (args_unify : bindings.Unifies (trace.args.zip line.args))
    (shape : ¬line.Takes trace.result) :
    FailsBehind bindings trace line (trace.args.zip line.args)

end Bindings

/-! ## Positions -/

theorem firstValue?_append (xs ys : List (Value × Pattern)) (v : Variable) :
    firstValue? (xs ++ ys) v = (firstValue? xs v).or (firstValue? ys v) := by
  induction xs with
  | nil => rfl
  | cons x xs ih =>
    obtain ⟨actual, pattern⟩ := x
    by_cases h : pattern.asVariable? = some v <;> simp [firstValue?, h, ih]

namespace Bindings

variable {bindings current : Bindings} {before : List (Value × Pattern)}

theorem unifies_nil (bindings : Bindings) : bindings.Unifies [] := by
  intro before position after h
  simp at h

theorem Unifies.snoc {position : Value × Pattern} (h : bindings.Unifies before)
    (hposition : bindings.Suits before position) : bindings.Unifies (before ++ [position]) := by
  intro front other back heq
  rcases List.eq_nil_or_concat back with rfl | ⟨init, last, rfl⟩
  · obtain ⟨rfl, hlast⟩ := List.append_inj' heq rfl
    cases hlast
    exact hposition
  · have hsplit : before ++ [position] = (front ++ other :: init) ++ [last] := by
      simpa using heq
    exact h front other init (List.append_inj' hsplit rfl).1

theorem adds_nil (bindings : Bindings) : bindings.Adds [] bindings := by
  intro v
  simp [firstValue?]

/-- What is asked of a position is asked by the bindings there are by then. -/
theorem suits_var_iff (hcurrent : bindings.Adds before current) (actual : Value) (v : Variable) :
    bindings.Suits before (actual, .var v) ↔
      ∀ expected, current.get? v = some expected → actual.same expected = true := by
  rw [hcurrent v, Suits]
  cases bindings.get? v <;> simp

theorem Adds.snoc_lit (hcurrent : bindings.Adds before current) (actual value : Value) :
    bindings.Adds (before ++ [(actual, .lit value)]) current := by
  intro v
  simp [hcurrent v, firstValue?_append, firstValue?, Pattern.asVariable?]

theorem Adds.snoc_bound {v : Variable} {expected : Value} (hcurrent : bindings.Adds before current)
    (hbound : current.get? v = some expected) (actual : Value) :
    bindings.Adds (before ++ [(actual, .var v)]) current := by
  intro w
  by_cases hw : v = w
  · subst hw
    have hor := hcurrent v
    rw [hbound] at hor
    rw [hbound, firstValue?_append, ← Option.or_assoc, ← hor, Option.some_or]
  · simp [hcurrent w, firstValue?_append, firstValue?, Pattern.asVariable?, hw]

theorem Adds.snoc_new {v : Variable} (hcurrent : bindings.Adds before current)
    (hunbound : current.get? v = none) (actual : Value) :
    bindings.Adds (before ++ [(actual, .var v)]) (current.set v actual) := by
  intro w
  by_cases hw : v = w
  · subst hw
    have hor := hcurrent v
    rw [hunbound] at hor
    rw [get?_set_self, firstValue?_append, ← Option.or_assoc, ← hor]
    simp [firstValue?, Pattern.asVariable?]
  · rw [get?_set_of_ne _ _ hw, hcurrent w]
    simp [firstValue?_append, firstValue?, Pattern.asVariable?, hw]

/-- A position is fitted if it suits, and its variable is bound from then on. -/
theorem fit_cases (hcurrent : bindings.Adds before current) (position : Position) :
    (bindings.Suits before position.pair ∧ ∃ after, current.fit position = (none, after) ∧
      bindings.Adds (before ++ [position.pair]) after) ∨
    (¬bindings.Suits before position.pair ∧ ∃ e, current.fit position = (some e, current)) := by
  obtain ⟨place, actual, pattern⟩ := position
  cases pattern with
  | lit expected =>
    by_cases hsame : actual.same expected = true
    · refine Or.inl ⟨hsame, current, ?_, hcurrent.snoc_lit actual expected⟩
      simp [fit, require, hsame]
    · refine Or.inr ⟨hsame, misfit place expected actual, ?_⟩
      simp [fit, require, hsame]
  | var v =>
    rw [Position.pair, suits_var_iff hcurrent]
    cases hbound : current.get? v with
    | none =>
      refine Or.inl ⟨by simp, current.set v actual, ?_, hcurrent.snoc_new hbound actual⟩
      simp [fit, hbound]
    | some expected =>
      by_cases hsame : actual.same expected = true
      · refine Or.inl ⟨by simp [hsame], current, ?_, hcurrent.snoc_bound hbound actual⟩
        simp [fit, hbound, require, hsame]
      · refine Or.inr ⟨by simp [hsame], misfit place expected actual, ?_⟩
        simp [fit, hbound, require, hsame]

/-- Positions behind others are fitted up to the first that does not suit. -/
theorem fitAll_cases (hbefore : bindings.Unifies before) (hcurrent : bindings.Adds before current)
    (positions : List Position) :
    (∃ after, current.fitAll positions = (none, after) ∧
      bindings.Unifies (before ++ positions.map Position.pair) ∧
      bindings.Adds (before ++ positions.map Position.pair) after) ∨
    (∃ e after taken position rest, current.fitAll positions = (some e, after) ∧
      positions.map Position.pair = taken ++ position :: rest ∧
      bindings.Unifies (before ++ taken) ∧ ¬bindings.Suits (before ++ taken) position ∧
      bindings.Adds (before ++ taken) after) := by
  induction positions generalizing before current with
  | nil =>
    refine Or.inl ⟨current, rfl, ?_, ?_⟩
    · simpa using hbefore
    · simpa using hcurrent
  | cons position more ih =>
    rcases fit_cases hcurrent position with
      ⟨hsuits, middle, hfit, hmiddle⟩ | ⟨hunsuited, e, hfit⟩
    · rcases ih (hbefore.snoc hsuits) hmiddle with
        ⟨after, hmore, hunifies, hadds⟩ | ⟨e, after, taken, other, rest, hmore, hpairs, hunifies,
          hunsuited, hadds⟩
      · refine Or.inl ⟨after, ?_, ?_, ?_⟩
        · rw [fitAll, hfit]
          exact hmore
        · simpa using hunifies
        · simpa using hadds
      · refine Or.inr ⟨e, after, position.pair :: taken, other, rest, ?_, ?_, ?_, ?_, ?_⟩
        · rw [fitAll, hfit]
          exact hmore
        · rw [List.map_cons, hpairs, List.cons_append]
        · simpa using hunifies
        · simpa using hunsuited
        · simpa using hadds
    · refine Or.inr ⟨e, current, [], position.pair, more.map Position.pair, ?_, rfl, ?_, ?_, ?_⟩
      · rw [fitAll, hfit]
      · simpa using hbefore
      · simpa using hunsuited
      · simpa using hcurrent

end Bindings

namespace Line

theorem argumentPositions_pairs (line : Line) (args : List Value) :
    (line.argumentPositions args).map Position.pair = args.zip line.args :=
  numberedPositions_pairs _ args line.args

/-- The result positions are there if the result is in as many parts as it has to be. -/
theorem resultPositions_cases (line : Line) (result : Value) :
    (line.Takes result ∧ ∃ positions, line.resultPositions result = .ok positions ∧
      positions.map Position.pair = line.resultPairs result) ∨
    (¬line.Takes result ∧ ∃ mismatch, line.resultPositions result = .error mismatch) := by
  obtain ⟨action, args, returns⟩ := line
  match returns with
  | none => exact Or.inl ⟨fun htwo => absurd htwo (by simp), [], rfl, rfl⟩
  | some [] => exact Or.inl ⟨fun htwo => absurd htwo (by simp), [], rfl, rfl⟩
  | some [pattern] => exact Or.inl ⟨fun htwo => absurd htwo (by simp), _, rfl, rfl⟩
  | some (first :: second :: more) =>
    by_cases hlength : result.parts.length = more.length + 2
    · refine Or.inl ⟨?_, numberedPositions (action ++ " return") result.parts
        (first :: second :: more), ?_, ?_⟩
      · intro _
        cases result with
        | list members => exact ⟨members, Or.inl rfl, hlength⟩
        | tuple members => exact ⟨members, Or.inr rfl, hlength⟩
        | _ => cases hlength
      · cases result with
        | list members => exact if_pos hlength
        | tuple members => exact if_pos hlength
        | _ => cases hlength
      · have hpairs := numberedPositions_pairs (action ++ " return") result.parts
          (first :: second :: more)
        exact hpairs.trans (if_pos hlength).symm
    · refine Or.inr ⟨?_, ?_⟩
      · intro htakes
        obtain ⟨members, rfl | rfl, hmembers⟩ := htakes (Nat.le_add_left 2 _)
        · exact hlength hmembers
        · exact hlength hmembers
      · cases result with
        | list members => exact ⟨_, if_neg hlength⟩
        | tuple members => exact ⟨_, if_neg hlength⟩
        | _ => exact ⟨_, rfl⟩

end Line

namespace Bindings

/-- Fitting comes out in one of two ways. -/
theorem fitTrace_cases (bindings : Bindings) (trace : Trace) (line : Line) :
    (∃ after, bindings.fitTrace trace line = (none, after) ∧ line.Calls trace ∧
      line.Takes trace.result ∧ bindings.Unifies (line.pairs trace) ∧
      bindings.Adds (line.pairs trace) after) ∨
    (∃ e after taken, bindings.fitTrace trace line = (some e, after) ∧
      bindings.FailsBehind trace line taken ∧ bindings.Adds taken after) := by
  by_cases haction : trace.action = line.action
  case neg =>
    refine Or.inr ⟨.mismatch (.action line.action trace.action), bindings, [], ?_,
      .call fun hcalls => haction hcalls.1, adds_nil bindings⟩
    rw [fitTrace, if_pos haction]
  case pos =>
    by_cases hlength : trace.args.length = line.args.length
    case neg =>
      refine Or.inr ⟨.mismatch (.arity (line.action ++ " arguments") line.args.length
        (some trace.args.length)), bindings, [], ?_, .call fun hcalls => hlength hcalls.2,
        adds_nil bindings⟩
      rw [fitTrace, if_neg (not_not.mpr haction), if_pos hlength]
    case pos =>
      have hcalls : line.Calls trace := ⟨haction, hlength⟩
      have hargs := fitAll_cases (unifies_nil bindings) (adds_nil bindings)
        (line.argumentPositions trace.args)
      rw [line.argumentPositions_pairs, List.nil_append] at hargs
      simp only [fitTrace, ne_eq, haction, hlength, not_true_eq_false, if_false]
      rcases hargs with ⟨middle, hfit, hunifies, hadds⟩ | ⟨e, after, taken, position, rest, hfit,
        hpairs, hunifies, hunsuited, hadds⟩
      · simp only [hfit]
        rcases line.resultPositions_cases trace.result with
          ⟨htakes, positions, hpositions, hresult⟩ | ⟨htakes, mismatch, hpositions⟩
        · have hall := fitAll_cases hunifies hadds positions
          rw [hresult] at hall
          simp only [hpositions]
          rcases hall with ⟨after, hfit, hunifies, hadds⟩ | ⟨e, after, taken, position, rest, hfit,
            hpairs, hunifies, hunsuited, hadds⟩
          · exact Or.inl ⟨after, hfit, hcalls, htakes, hunifies, hadds⟩
          · have hsplit : line.pairs trace =
                trace.args.zip line.args ++ taken ++ position :: rest := by
              rw [Line.pairs, hpairs, List.append_assoc]
            exact Or.inr ⟨e, after, _, hfit, .position hcalls hsplit hunifies hunsuited, hadds⟩
        · simp only [hpositions]
          exact Or.inr ⟨_, middle, _, rfl, .result hcalls hunifies htakes, hadds⟩
      · simp only [hfit]
        have hsplit : line.pairs trace =
            taken ++ position :: (rest ++ line.resultPairs trace.result) := by
          rw [Line.pairs, hpairs, List.append_assoc, List.cons_append]
        exact Or.inr ⟨e, after, taken, rfl, .position hcalls hsplit hunifies hunsuited, hadds⟩

theorem FailsBehind.not_unifies {bindings : Bindings} {trace : Trace} {line : Line}
    {taken : List (Value × Pattern)} (h : bindings.FailsBehind trace line taken)
    (hcalls : line.Calls trace) (htakes : line.Takes trace.result) :
    ¬bindings.Unifies (line.pairs trace) := by
  intro hunifies
  cases h with
  | call call => exact call hcalls
  | position _ pairs_eq _ unsuited => exact unsuited (hunifies _ _ _ pairs_eq)
  | result _ _ shape => exact shape htakes

/-- **Fitting a trace to a line is unification.** The trace fits if and only if it is of the action
that the line names, with as many arguments, its result is in as many parts as two or more return
patterns ask for, and its values unify with the patterns. If it fits, the bindings are those that
were there and every new variable with the value at its first position; if it does not, they are
those that were there and every new variable of the positions in front of the first that failed. No
binding that was there is changed. -/
theorem fitTrace_unifies (bindings : Bindings) (trace : Trace) (line : Line) :
    ((bindings.fitTrace trace line).1 = none ↔
      line.Calls trace ∧ line.Takes trace.result ∧ bindings.Unifies (line.pairs trace)) ∧
    ((bindings.fitTrace trace line).1 = none →
      bindings.Adds (line.pairs trace) (bindings.fitTrace trace line).2) ∧
    ((bindings.fitTrace trace line).1 ≠ none →
      ∃ taken, bindings.FailsBehind trace line taken ∧
        bindings.Adds taken (bindings.fitTrace trace line).2) ∧
    ∀ v value, bindings.get? v = some value →
      (bindings.fitTrace trace line).2.get? v = some value := by
  rcases bindings.fitTrace_cases trace line with
    ⟨after, hfit, hcalls, htakes, hunifies, hadds⟩ | ⟨e, after, taken, hfit, hfails, hadds⟩
  · rw [hfit]
    refine ⟨by simp [hcalls, htakes, hunifies], fun _ => hadds, fun hne => absurd rfl hne, ?_⟩
    intro v value hbound
    rw [hadds v, hbound, Option.some_or]
  · rw [hfit]
    refine ⟨?_, fun hnone => absurd hnone (by simp), fun _ => ⟨taken, hfails, hadds⟩, ?_⟩
    · simp only [reduceCtorEq, false_iff]
      rintro ⟨hcalls, htakes, hunifies⟩
      exact hfails.not_unifies hcalls htakes hunifies
    · intro v value hbound
      rw [hadds v, hbound, Option.some_or]

/-- A trace of three arguments and a result of two parts. -/
def pairing : Trace :=
  ⟨"A.a", [.int 2, .int 2, .int 1], .list [.int 2, .int 3]⟩

/-- Asks for one value at three places, one of them in the result, and for the value of `x`. -/
def repeating : Line :=
  ⟨"A.a", [.var ⟨"y", 0⟩, .var ⟨"y", 0⟩, .var ⟨"x", 0⟩], some [.var ⟨"y", 0⟩, .var ⟨"z", 0⟩]⟩

/-- Asks for the value of `x` where there is another. -/
def clashing : Line :=
  ⟨"A.a", [.var ⟨"y", 0⟩, .var ⟨"x", 0⟩, .var ⟨"z", 0⟩], none⟩

/-- With `x` bound to 1, the first line fits, and the second one fails behind its first position. -/
theorem fitTrace_unifies_repeating :
    let known : Bindings := ⟨[(⟨"x", 0⟩, .int 1)]⟩
    known.Unifies (repeating.pairs pairing) ∧
      known.Adds (repeating.pairs pairing) (known.fitTrace pairing repeating).2 ∧
      (∃ taken, known.FailsBehind pairing clashing taken ∧
        known.Adds taken (known.fitTrace pairing clashing).2) ∧
      (known.fitTrace pairing clashing).2.get? ⟨"x", 0⟩ = some (.int 1) := by
  intro known
  obtain ⟨hiff, hfits, -, -⟩ := fitTrace_unifies known pairing repeating
  obtain ⟨-, -, hfails, hkeeps⟩ := fitTrace_unifies known pairing clashing
  have hnone : (known.fitTrace pairing repeating).1 = none := rfl
  have hsome : (known.fitTrace pairing clashing).1 ≠ none := Option.some_ne_none _
  exact ⟨(hiff.mp hnone).2.2, hfits hnone, hfails hsome, hkeeps _ _ rfl⟩

end Bindings

end Synchrony
