import Synchrony.Proofs.Rule.Productions

/-!
# Progress

A reader of rule sources goes on through the text, and back only over blanks that it has just
skipped. So it never leaves the text, and comes to an end on every text, readable or not.

## 1. What a trail keeps to

That a trail goes on through the text in this way is said by an inductive relation (`Walks`). How
long it may be is settled by an account: each character that is read pays seven, each move costs
its price, and what is then missing is the **spare** of the trail, which is negative where a trail
has earned something (`Trek`).

## 2. Readers

A reader's trail is a trek whether the reader succeeds or stops, only with another spare (`Keeps`).
Reading one thing behind another adds up the accounts (`Keeps.bind`), so there is one lemma for each
reader, made of those of the readers it calls. A loop goes round by a trek that has nothing missing,
and that is the whole of its induction.
-/

set_option autoImplicit false

namespace Synchrony.Source

variable {s e r : List Char} {t : Trail} {scope : Nat}

/-! ## Walks -/

/-- The trail leads from where `s` is left of the text to where `e` is left of it. It goes on
through the text. Where it goes back, it goes back over the blanks that the move before skipped. -/
inductive Walks : List Char → Trail → List Char → Prop where
  | here (s : List Char) : Walks s [] s
  | on (read : List Char) {s e : List Char} {t : Trail} :
      Walks s t e → Walks (read ++ s) (.on s :: t) e
  | back (blanks : Blanks) {s e : List Char} {t : Trail} :
      Walks (blanks.chars ++ s) t e →
      Walks (blanks.chars ++ s) (.on s :: .back (blanks.chars ++ s) :: t) e
  | made {s e : List Char} {t : Trail} : Walks s t e → Walks s (.made :: t) e

namespace Walks

theorem append {e' : List Char} {u : Trail} (h : Walks s t e) (hu : Walks e u e') :
    Walks s (t ++ u) e' := by
  induction h with
  | here => exact hu
  | on read _ ih => exact .on read (ih hu)
  | back blanks _ ih => exact .back blanks (ih hu)
  | made _ ih => exact .made (ih hu)

/-- A walk never leaves the text. -/
theorem inside (h : Walks s t e) : ∀ place ∈ t.places, place <:+ s := by
  induction h with
  | here => intro place hplace; cases hplace
  | @on read s e t _ ih =>
    intro place hplace
    rcases List.mem_cons.mp hplace with rfl | hmem
    · exact List.suffix_append read place
    · exact (ih place hmem).trans (List.suffix_append read s)
  | @back blanks s e t _ ih =>
    intro place hplace
    rcases List.mem_cons.mp hplace with rfl | hplace
    · exact List.suffix_append blanks.chars place
    · rcases List.mem_cons.mp hplace with rfl | hmem
      · exact List.suffix_refl _
      · exact ih place hmem
  | made _ ih => exact ih

/-- A walk ends where it started or at a place that it came to. -/
theorem end_mem (h : Walks s t e) : e = s ∨ e ∈ t.places := by
  induction h with
  | here => exact Or.inl rfl
  | on read _ ih =>
    right
    rcases ih with rfl | hmem
    · exact List.mem_cons_self
    · exact List.mem_cons_of_mem _ hmem
  | back blanks _ ih =>
    rcases ih with rfl | hmem
    · exact Or.inl rfl
    · exact Or.inr (List.mem_cons_of_mem _ (List.mem_cons_of_mem _ hmem))
  | made _ ih => exact ih

end Walks

/-! ## Treks -/

/-- A walk with its account. -/
structure Trek (spare : Int) (s : List Char) (t : Trail) (e : List Char) : Prop where
  walks : Walks s t e
  paid : (t.price : Int) + 7 * e.length ≤ 7 * s.length + spare

namespace Trek

variable {a b : Int}

theorem mono (h : Trek a s t e) (hle : a ≤ b) : Trek b s t e :=
  ⟨h.walks, Int.le_trans h.paid (by omega)⟩

theorem append {e' : List Char} {u : Trail} (h : Trek a s t e) (hu : Trek b e u e') :
    Trek (a + b) s (t ++ u) e' := by
  refine ⟨h.walks.append hu.walks, ?_⟩
  have hpaid := h.paid
  have hpaid' := hu.paid
  rw [Trail.price_append]
  omega

theorem here (s : List Char) : Trek 0 s [] s :=
  ⟨.here s, by simp⟩

theorem made (s : List Char) : Trek 7 s [.made] s :=
  ⟨.made (.here s), by simp [Trail.price, Move.price]; omega⟩

/-- To go on costs one, and the characters that are read pay seven each. -/
theorem on (read : List Char) (s : List Char) :
    Trek (1 - 7 * read.length) (read ++ s) [.on s] s :=
  ⟨.on read (.here s), by simp [Trail.price, Move.price]; omega⟩

theorem skip (s : List Char) : Trek 1 s [.on (Text.skipBlanks s)] (Text.skipBlanks s) := by
  obtain ⟨blanks, hs⟩ := split_blanks s
  have h := on blanks.chars (Text.skipBlanks s)
  rw [← hs] at h
  exact h.mono (by omega)

theorem skipAndBack (s : List Char) : Trek 2 s [.on (Text.skipBlanks s), .back s] s := by
  obtain ⟨blanks, hs⟩ := split_blanks s
  have h : Walks (blanks.chars ++ Text.skipBlanks s)
      [.on (Text.skipBlanks s), .back (blanks.chars ++ Text.skipBlanks s)]
      (blanks.chars ++ Text.skipBlanks s) := .back blanks (.here _)
  rw [← hs] at h
  exact ⟨h, by simp [Trail.price, Move.price]; omega⟩

/-- A word, a keyword or a single character earns six. -/
theorem token {read : List Char} (hne : read ≠ []) (s : List Char) :
    Trek (-6) (read ++ s) [.on s] s := by
  have hlen := List.length_pos_iff.mpr hne
  exact (on read s).mono (by omega)

end Trek

/-! ## What readers keep to -/

/-- The trail of a reader that leaves `left`: a trek to there with spare `a`, or, if the reader
stops, a trek with spare `b` that has come past the place it stops for. -/
structure Keeps (a b : Int) (s : List Char) (t : Trail) (left : Except Stop (List Char)) :
    Prop where
  done : ∀ r, left = .ok r → Trek a s t r
  stopped : ∀ stop, left = .error stop →
    (∃ e, Trek b s t e) ∧ (stop.rest = s ∨ stop.rest ∈ t.places)

namespace Keeps

variable {a b a' b' : Int} {left : Except Stop (List Char)}

theorem ok (h : Trek a s t r) : Keeps a b s t (.ok r) := by
  refine ⟨?_, ?_⟩
  · intro r' hr
    cases hr
    exact h
  · intro stop hstop
    cases hstop

theorem error {stop : Stop} (h : Trek b s t e) (hplace : stop.rest = s ∨ stop.rest ∈ t.places) :
    Keeps a b s t (.error stop) := by
  refine ⟨?_, ?_⟩
  · intro r hr
    cases hr
  · intro stop' hstop
    cases hstop
    exact ⟨⟨e, h⟩, hplace⟩

theorem mono (h : Keeps a b s t left) (ha : a ≤ a') (hb : b ≤ b') : Keeps a' b' s t left := by
  refine ⟨?_, ?_⟩
  · intro r hr
    exact (h.done r hr).mono ha
  · intro stop hstop
    obtain ⟨⟨e, he⟩, hplace⟩ := h.stopped stop hstop
    exact ⟨⟨e, he.mono hb⟩, hplace⟩

/-- Some way to go first. -/
theorem after {c : Int} {u : Trail} (hu : Trek c s u e) (h : Keeps a b e t left) :
    Keeps (c + a) (c + b) s (u ++ t) left := by
  refine ⟨?_, ?_⟩
  · intro r hr
    exact hu.append (h.done r hr)
  · intro stop hstop
    obtain ⟨⟨e', he⟩, hplace⟩ := h.stopped stop hstop
    refine ⟨⟨e', hu.append he⟩, ?_⟩
    rw [Trail.places_append, List.mem_append]
    rcases hplace with hplace | hplace
    · rw [hplace]
      exact hu.walks.end_mem.imp_right Or.inl
    · exact Or.inr (Or.inr hplace)

theorem bind {next : List Char → Trail} {k : List Char → Except Stop (List Char)}
    (h : Keeps a b s t left) (hnext : ∀ r, left = .ok r → Keeps a' b' r (next r) (k r)) :
    Keeps (a + a') (max b (a + b')) s (onward left t next) (left.bind k) := by
  cases left with
  | error stop =>
    obtain ⟨⟨e, he⟩, hplace⟩ := h.stopped stop rfl
    exact error (he.mono (Int.le_max_left ..)) hplace
  | ok r =>
    have hmore := after (h.done r rfl) (hnext r rfl)
    exact hmore.mono (Int.le_refl _) (Int.le_max_right ..)

end Keeps

theorem ok_of_restOf {α : Type} {out : Reads α} (h : restOf out = .ok r) :
    ∃ a, out = .ok (a, r) := by
  cases out with
  | error stop => cases h
  | ok found =>
    cases h
    exact ⟨found.1, rfl⟩

/-! ## Words, characters and literals -/

theorem trek_word {w : String} (h : word? s = some (w, r)) : Trek (-6) s [.on r] r := by
  obtain ⟨word, rfl, -, -⟩ := word_of_word? h
  exact Trek.token (List.cons_ne_nil _ _) r

theorem keeps_token {left : Except Stop (List Char)}
    (hok : ∀ r, left = .ok r → ∃ read, read ≠ [] ∧ Text.skipBlanks s = read ++ r)
    (herror : ∀ stop, left = .error stop → stop.rest = Text.skipBlanks s) :
    Keeps (-5) 1 s (tokenTrail left s) left := by
  cases left with
  | error stop =>
    refine Keeps.error (Trek.skip s) (Or.inr ?_)
    rw [herror stop rfl]
    exact List.mem_cons_self
  | ok r =>
    obtain ⟨read, hne, hread⟩ := hok r rfl
    have htoken := Trek.token hne r
    rw [← hread] at htoken
    exact Keeps.ok ((Trek.skip s).append htoken)

theorem keeps_keyword (k : Keyword) (s : List Char) :
    Keeps (-5) 1 s (tokenTrail (keyword k s) s) (keyword k s) := by
  apply keeps_token
  · intro r h
    refine ⟨k.text.toList, ?_, (text_of_keyword h).1⟩
    rw [← k.chars_word]
    exact List.cons_ne_nil _ _
  · intro stop h
    exact rest_of_keyword_error h

theorem keeps_expect (c : Char) (s : List Char) :
    Keeps (-5) 1 s (tokenTrail (expect c s) s) (expect c s) := by
  apply keeps_token
  · intro r h
    unfold expect at h
    split at h
    · rename_i d r' hs
      split at h
      · cases h
        exact ⟨[d], List.cons_ne_nil _ _, hs⟩
      · cases h
    · cases h
  · intro stop h
    exact rest_of_expect_error h

/-- The characters of a literal pay for themselves. -/
theorem trek_literal (s : List Char) :
    Trek (-6 * (s.takeWhile fun c => !endsLiteral c).length) s (literalTrail s)
      (s.dropWhile fun c => !endsLiteral c) := by
  induction s with
  | nil => exact Trek.here []
  | cons c s ih =>
    by_cases h : endsLiteral c = true
    · simp only [literalTrail, h, List.takeWhile_cons, List.dropWhile_cons]
      exact Trek.here (c :: s)
    · -- To go on by one character costs one, and the character pays seven.
      have hstep := (Trek.on [c] s).append ih
      rw [Bool.not_eq_true] at h
      simp only [literalTrail, h, List.takeWhile_cons, List.dropWhile_cons, Bool.not_false, if_true,
        List.length_cons]
      refine hstep.mono ?_
      push_cast [List.length_singleton]
      omega

theorem rest_of_literal {v : Value} (h : literal s = .ok (v, r)) :
    r = s.dropWhile fun c => !endsLiteral c := by
  unfold literal at h
  simp only at h
  split at h
  · cases h
  · split at h
    · cases h
    · split at h
      · cases h; rfl
      · cases h

theorem keeps_literal (s : List Char) :
    Keeps (-6) 0 s (literalTrail s) (restOf (literal s)) := by
  have htrek := trek_literal s
  cases hl : literal s with
  | error stop =>
    exact Keeps.error (htrek.mono (by omega)) (Or.inl (rest_of_literal_error hl))
  | ok found =>
    obtain ⟨v, r⟩ := found
    -- A literal is not empty, since an empty one is refused.
    have hlt := literal_shorter hl
    have hlen := congrArg List.length
      (List.takeWhile_append_dropWhile (p := fun c => !endsLiteral c) (l := s))
    rw [List.length_append] at hlen
    rw [← rest_of_literal hl] at htrek hlen
    exact Keeps.ok (htrek.mono (by omega))

/-! ## Positions -/

theorem restOf_pattern (scope : Nat) (h : word? (Text.skipBlanks s) = none) :
    restOf (pattern scope s) = (restOf (literal (Text.skipBlanks s))).bind .ok := by
  unfold pattern
  rw [h]
  cases literal (Text.skipBlanks s) <;> rfl

theorem keeps_pattern (scope : Nat) (s : List Char) :
    Keeps 2 1 s (patternTrail s) (restOf (pattern scope s)) := by
  unfold patternTrail
  cases hw : word? (Text.skipBlanks s) with
  | some found =>
    obtain ⟨w, r⟩ := found
    have hleft : restOf (pattern scope s) = .ok r := by
      unfold pattern
      rw [hw]
      rfl
    rw [hleft]
    exact Keeps.ok ((Trek.skip s).append ((trek_word hw).append (Trek.made r)))
  | none =>
    rw [restOf_pattern scope hw]
    have h := (keeps_literal (Text.skipBlanks s)).bind fun r _ => Keeps.ok (b := 0) (Trek.made r)
    exact (Keeps.after (Trek.skip s) h).mono (by omega) (by omega)

theorem restOf_patterns (scope : Nat) (s : List Char) :
    restOf (patterns scope s) =
      (restOf (pattern scope s)).bind fun r => restOf (morePatterns scope r) := by
  unfold patterns
  cases pattern scope s with
  | error stop => rfl
  | ok found =>
    obtain ⟨p, r⟩ := found
    show restOf _ = restOf (morePatterns scope r)
    simp only
    cases morePatterns scope r <;> rfl

theorem restOf_morePatterns (scope : Nat) (hs : Text.skipBlanks s = ',' :: r) :
    restOf (morePatterns scope s) = restOf (patterns scope r) := by
  rw [morePatterns_of_comma scope hs]
  rfl

/-- The first of a list of positions, and the others as they keep to it. -/
theorem keeps_first {scope : Nat} (s : List Char)
    (hmore : ∀ p r, pattern scope s = .ok (p, r) →
      Keeps 2 2 r (morePatternsTrail scope r) (restOf (morePatterns scope r))) :
    Keeps 4 4 s (patternsTrail scope s) (restOf (patterns scope s)) := by
  rw [restOf_patterns]
  have hnext : ∀ r, restOf (pattern scope s) = .ok r →
      Keeps 2 2 r (morePatternsTrail scope r) (restOf (morePatterns scope r)) := by
    intro r hr
    obtain ⟨p, hp⟩ := ok_of_restOf hr
    exact hmore p r hp
  exact ((keeps_pattern scope s).bind hnext).mono (by omega) (by omega)

theorem keeps_morePatterns (scope : Nat) (s : List Char) :
    Keeps 2 2 s (morePatternsTrail scope s) (restOf (morePatterns scope s)) := by
  induction hn : s.length using Nat.strongRecOn generalizing s with
  | _ n ih =>
    rcases stops_or_cons ',' (Text.skipBlanks s) with hstops | ⟨r, hr⟩
    · rw [morePatternsTrail_of_stops scope s hstops, morePatterns_of_stops scope hstops]
      exact Keeps.ok (Trek.skipAndBack s)
    · rw [morePatternsTrail_of_comma scope s hr, restOf_morePatterns scope hr, ← hr]
      -- The comma pays for the moves up to it and for what a list of positions may be missing.
      have hcomma : Trek (-5) s [.on (Text.skipBlanks s), .on r] r := by
        have h := Trek.skip s
        rw [hr] at h ⊢
        exact h.append (Trek.token (List.cons_ne_nil ',' []) r)
      have hfirst : Keeps 4 4 r (patternsTrail scope r) (restOf (patterns scope r)) := by
        apply keeps_first
        intro p r' hp
        have hle := Text.skipBlanks_length_le s
        have hlt := pattern_shorter hp
        rw [hr, List.length_cons] at hle
        exact ih r'.length (by omega) r' rfl
      exact (Keeps.after hcomma hfirst).mono (by omega) (by omega)

theorem keeps_patterns (scope : Nat) (s : List Char) :
    Keeps 4 4 s (patternsTrail scope s) (restOf (patterns scope s)) :=
  keeps_first s fun _ r _ => keeps_morePatterns scope r

/-! ## Call lines -/

theorem keeps_arguments (scope : Nat) (s : List Char) :
    Keeps 5 5 s (argumentsTrail scope s) (restOf (arguments scope s)) := by
  rcases stops_or_cons ')' (Text.skipBlanks s) with hstops | ⟨r, hclose⟩
  · rw [argumentsTrail_of_stops scope s hstops, arguments_of_stops scope hstops,
      ← patterns_skipBlanks]
    exact Keeps.after (Trek.skip s) (keeps_patterns scope (Text.skipBlanks s))
  · rw [argumentsTrail_of_close scope s hclose, arguments_of_close scope hclose, ← hclose]
    exact Keeps.ok ((Trek.skip s).mono (by omega))

theorem restOf_returnClause (scope : Nat) (hs : Text.skipBlanks s = '-' :: '>' :: r) :
    restOf (returnClause scope s) = restOf (patterns scope r) := by
  rw [returnClause_of_arrow scope hs]
  cases patterns scope r <;> rfl

theorem keeps_returnClause (scope : Nat) (s : List Char) :
    Keeps 2 2 s (returnClauseTrail scope s) (restOf (returnClause scope s)) := by
  by_cases harrow : ['-', '>'] <+: Text.skipBlanks s
  · obtain ⟨r, hr⟩ := harrow
    rw [returnClauseTrail_of_arrow scope s hr.symm, restOf_returnClause scope hr.symm]
    have hread : Trek (-5) s [.on (Text.skipBlanks s), .on r] r := by
      have h := Trek.skip s
      rw [← hr] at h ⊢
      exact h.append (Trek.token (List.cons_ne_nil _ _) r)
    exact (Keeps.after hread (keeps_patterns scope r)).mono (by omega) (by omega)
  · rw [returnClauseTrail_of_not_arrow scope s harrow, returnClause_of_not_arrow scope harrow]
    exact Keeps.ok (Trek.skipAndBack s)

theorem restOf_call (scope : Nat) {name : String} (hw : word? s = some (name, r)) :
    restOf (call scope s) =
      (expect '(' r).bind fun r => (restOf (arguments scope r)).bind fun r =>
        (expect ')' r).bind fun r => (restOf (returnClause scope r)).bind .ok := by
  unfold call
  rw [hw]
  cases h₁ : expect '(' r with
  | error stop => simp [restOf, Except.map, Except.bind, h₁]
  | ok r₁ =>
    cases h₂ : arguments scope r₁ with
    | error stop => simp [restOf, Except.map, Except.bind, h₁, h₂]
    | ok args =>
      cases h₃ : expect ')' args.2 with
      | error stop => simp [restOf, Except.map, Except.bind, h₁, h₂, h₃]
      | ok r₃ => cases h₄ : returnClause scope r₃ <;>
          simp [restOf, Except.map, Except.bind, h₁, h₂, h₃, h₄]

/-- A call line has something to spare, since its name and its parentheses are read. -/
theorem keeps_call (scope : Nat) (s : List Char) :
    Keeps (-2) 0 s (callTrail scope s) (restOf (call scope s)) := by
  unfold callTrail
  cases hw : word? s with
  | none =>
    have hleft : restOf (call scope s) = .error ⟨.expectedName, s⟩ := by
      unfold call
      rw [hw]
      rfl
    rw [hleft]
    exact Keeps.error (Trek.here s) (Or.inl rfl)
  | some found =>
    obtain ⟨name, r⟩ := found
    rw [restOf_call scope hw]
    -- The name earns six and each parenthesis five, which is more than the rest may be missing.
    have h := (keeps_expect '(' r).bind fun r _ =>
      (keeps_arguments scope r).bind fun r _ =>
      (keeps_expect ')' r).bind fun r _ =>
      (keeps_returnClause scope r).bind fun r _ => Keeps.ok (b := 0) (Trek.made r)
    exact (Keeps.after (trek_word hw) h).mono (by omega) (by omega)

/-! ## Clauses and rules -/

theorem restOf_calls (scope : Nat) (h : ¬AtEnd (Text.skipBlanks s)) :
    restOf (calls scope s) =
      (restOf (call scope (Text.skipBlanks s))).bind fun r => restOf (calls scope r) := by
  rw [calls_of_not_atEnd scope h]
  cases hl : call scope (Text.skipBlanks s) with
  | error stop => rfl
  | ok found => cases hm : calls scope found.2 <;> simp [restOf, Except.map, Except.bind, hm]

theorem keeps_calls (scope : Nat) (s : List Char) :
    Keeps 1 1 s (callsTrail scope s) (restOf (calls scope s)) := by
  induction hn : s.length using Nat.strongRecOn generalizing s with
  | _ n ih =>
    by_cases hend : AtEnd (Text.skipBlanks s)
    · rw [callsTrail_of_atEnd scope s hend, calls_of_atEnd scope hend]
      exact Keeps.ok (Trek.skip s)
    · rw [callsTrail_of_not_atEnd scope s hend, restOf_calls scope hend]
      have hmore : ∀ r, restOf (call scope (Text.skipBlanks s)) = .ok r →
          Keeps 1 1 r (callsTrail scope r) (restOf (calls scope r)) := by
        intro r hr
        obtain ⟨line, hcall⟩ := ok_of_restOf hr
        have hle := Text.skipBlanks_length_le s
        have hlt := call_shorter hcall
        exact ih r.length (by omega) r rfl
      -- A call line has two to spare, and one of them pays for the blanks in front of it.
      have h := Keeps.after (Trek.skip s) ((keeps_call scope (Text.skipBlanks s)).bind hmore)
      exact h.mono (by omega) (by omega)

/-- A clause stops where its lines do, or where they end if there are none. -/
theorem keeps_clause (k : Keyword) (scope : Nat) (s : List Char) :
    Keeps 1 1 s (callsTrail scope s) (restOf (clause k scope s)) := by
  have h := keeps_calls scope s
  unfold clause
  cases hc : calls scope s with
  | error stop =>
    rw [hc] at h
    exact h
  | ok found =>
    obtain ⟨lines, r⟩ := found
    rw [hc] at h
    have htrek : Trek 1 s (callsTrail scope s) r := h.done r rfl
    cases lines with
    | nil => exact Keeps.error htrek htrek.walks.end_mem
    | cons line lines => exact Keeps.ok htrek

theorem restOf_rule (source : List Char) (scope : Nat) (s : List Char) :
    restOf (rule source scope s) =
      (keyword .when s).bind fun r => (restOf (clause .when scope r)).bind fun r =>
        (keyword .sync r).bind fun r => (restOf (clause .sync scope r)).bind .ok := by
  unfold rule
  cases keyword .when s with
  | error stop => rfl
  | ok r₁ =>
    cases h₁ : clause .when scope r₁ with
    | error stop => simp [restOf, Except.map, Except.bind, h₁]
    | ok conditions =>
      cases h₂ : keyword .sync conditions.2 with
      | error stop => simp [restOf, Except.map, Except.bind, h₁, h₂]
      | ok r₂ => cases h₃ : clause .sync scope r₂ <;>
          simp [restOf, Except.map, Except.bind, h₁, h₂, h₃]

theorem keeps_rule (source : List Char) (scope : Nat) (s : List Char) :
    Keeps (-1) 1 s (ruleTrail scope s) (restOf (rule source scope s)) := by
  rw [restOf_rule]
  have h := (keeps_keyword .when s).bind fun r _ =>
    (keeps_clause .when scope r).bind fun r _ =>
    (keeps_keyword .sync r).bind fun r _ =>
    (keeps_clause .sync scope r).bind fun r _ => Keeps.ok (b := 0) (Trek.made r)
  exact h.mono (by omega) (by omega)

theorem map_rules (source : List Char) (scope : Nat) (h : Text.skipBlanks s ≠ []) :
    ((rules source scope s).map fun _ => []) =
      (restOf (rule source scope (Text.skipBlanks s))).bind fun r =>
        (rules source (scope + 1) r).map fun _ => ([] : List Char) := by
  rw [rules_of_ne_nil source scope h]
  cases hr : rule source scope (Text.skipBlanks s) with
  | error stop => rfl
  | ok found =>
    cases hm : rules source (scope + 1) found.2 <;> simp [restOf, Except.map, Except.bind, hm]

/-- A source that can be read is read to its end. -/
theorem keeps_rules (source : List Char) (scope : Nat) (s : List Char) :
    Keeps 1 2 s (rulesTrail source scope s) ((rules source scope s).map fun _ => []) := by
  induction hn : s.length using Nat.strongRecOn generalizing s scope with
  | _ n ih =>
    by_cases hnil : Text.skipBlanks s = []
    · rw [rulesTrail_of_nil scope s source hnil, rules_of_nil source scope hnil]
      have h := Trek.skip s
      rw [hnil] at h
      exact Keeps.ok h
    · rw [rulesTrail_of_ne_nil scope s source hnil, map_rules source scope hnil]
      have hmore : ∀ r, restOf (rule source scope (Text.skipBlanks s)) = .ok r →
          Keeps 1 2 r (rulesTrail source (scope + 1) r)
            ((rules source (scope + 1) r).map fun _ => []) := by
        intro r hr
        obtain ⟨found, hrule⟩ := ok_of_restOf hr
        have hle := Text.skipBlanks_length_le s
        have hlt := rule_shorter hrule
        exact ih r.length (by omega) (scope + 1) r rfl
      -- So it is with a rule, which has one to spare.
      have h := Keeps.after (Trek.skip s)
        ((keeps_rule source scope (Text.skipBlanks s)).bind hmore)
      exact h.mono (by omega) (by omega)

/-! ## Progress -/

/-- Something has been read between the two places. -/
def Advances (s rest : List Char) : Prop :=
  ∃ read, read ≠ [] ∧ s = read ++ rest

namespace Keeps

variable {a b c : Int} {left : Except Stop (List Char)}

/-- Whether the reader stops or not, its trail leads somewhere. -/
theorem exists_trek (h : Keeps a b s t left) (ha : a ≤ c) (hb : b ≤ c) :
    ∃ e, Trek c s t e ∧ ∀ r, left = .ok r → e = r := by
  cases left with
  | ok r =>
    refine ⟨r, (h.done r rfl).mono ha, ?_⟩
    intro r' hr
    cases hr
    rfl
  | error stop =>
    obtain ⟨⟨e, he⟩, -⟩ := h.stopped stop rfl
    refine ⟨e, he.mono hb, ?_⟩
    intro r hr
    cases hr

theorem length_le (h : Keeps a b s t left) (ha : a ≤ 2) (hb : b ≤ 2) :
    t.length ≤ 7 * s.length + 2 := by
  obtain ⟨e, htrek, -⟩ := h.exists_trek ha hb
  have hpaid := htrek.paid
  have hprice := t.length_le_price
  omega

theorem made_le (h : Keeps a b s t left) (ha : a ≤ 2) (hb : b ≤ 2) : t.made ≤ s.length := by
  obtain ⟨e, htrek, -⟩ := h.exists_trek ha hb
  have hpaid := htrek.paid
  have hprice := t.seven_mul_made_le_price
  omega

theorem advances {α : Type} {out : Reads α} {found : α} (h : Keeps a b s t (restOf out))
    (hout : out = .ok (found, r)) (hlt : r.length < s.length) : Advances s r := by
  have hwalks := (h.done r (by rw [hout]; rfl)).walks
  have hsuffix : r <:+ s := by
    rcases hwalks.end_mem with rfl | hmem
    · exact List.suffix_refl r
    · exact hwalks.inside r hmem
  obtain ⟨read, rfl⟩ := hsuffix
  refine ⟨read, ?_, rfl⟩
  rintro rfl
  exact absurd hlt (Nat.lt_irrefl _)

end Keeps

theorem rules_of_readRules {source : String} {found : List Rule}
    (h : readRules source = .ok found) : rules source.toList 0 source.toList = .ok found := by
  unfold readRules at h
  split at h
  · rename_i found' hfound
    cases h
    exact hfound
  · cases h

/-- **The readers make progress on every text**, whether it can be read or not.

They go on through the text, and back only over blanks that they have just skipped, so that no place
they come to or stop for is outside of it, and what can be read is read to the end. A rule, a call
line, a position and a literal are each read from at least one character. Wherever one of the four
loops is entered, it is left after at most seven moves for each character, and two more. There are
no more rules, lines and positions made than there are characters. -/
theorem reading_makes_progress (source : String) :
    let text := source.toList
    let trail := rulesTrail text 0 text
    (∃ last, Walks text trail last ∧
      ∀ found, readRules source = .ok found → last = []) ∧
    (∀ place ∈ trail.places, place <:+ text) ∧
    (∀ stop, rules text 0 text = .error stop → stop.rest ∈ text :: trail.places) ∧
    (∀ scope s rest,
      (∀ found, rule text scope s = .ok (found, rest) → Advances s rest) ∧
      (∀ line, call scope s = .ok (line, rest) → Advances s rest) ∧
      (∀ p, pattern scope s = .ok (p, rest) → Advances s rest) ∧
      (∀ v, literal s = .ok (v, rest) → Advances s rest)) ∧
    (∀ scope s,
      (rulesTrail text scope s).length ≤ 7 * s.length + 2 ∧
      (callsTrail scope s).length ≤ 7 * s.length + 2 ∧
      (morePatternsTrail scope s).length ≤ 7 * s.length + 2 ∧
      (literalTrail s).length ≤ 7 * s.length + 2) ∧
    trail.made ≤ text.length ∧
    (∀ found, readRules source = .ok found → trail.made = (found.map productions).sum) := by
  intro text trail
  have hkeeps := keeps_rules text 0 text
  obtain ⟨last, htrek, hlast⟩ := hkeeps.exists_trek (c := 2) (by decide) (by decide)
  refine ⟨⟨last, htrek.walks, ?_⟩, htrek.walks.inside, ?_, ?_, ?_, ?_, ?_⟩
  · intro found h
    apply hlast
    rw [rules_of_readRules h]
    rfl
  · intro stop hstop
    rcases (hkeeps.stopped stop (by rw [hstop]; rfl)).2 with hplace | hplace
    · rw [hplace]
      exact List.mem_cons_self
    · exact List.mem_cons_of_mem _ hplace
  · intro scope s rest
    refine ⟨?_, ?_, ?_, ?_⟩
    · intro found h
      exact (keeps_rule text scope s).advances h (rule_shorter h)
    · intro line h
      exact (keeps_call scope s).advances h (call_shorter h)
    · intro p h
      exact (keeps_pattern scope s).advances h (pattern_shorter h)
    · intro v h
      exact (keeps_literal s).advances h (literal_shorter h)
  · intro scope s
    refine ⟨?_, ?_, ?_, ?_⟩
    · exact (keeps_rules text scope s).length_le (by decide) (by decide)
    · exact (keeps_calls scope s).length_le (by decide) (by decide)
    · exact (keeps_morePatterns scope s).length_le (by decide) (by decide)
    · exact (keeps_literal s).length_le (by decide) (by decide)
  · exact hkeeps.made_le (by decide) (by decide)
  · intro found h
    exact made_rulesTrail (rules_of_readRules h)

end Synchrony.Source
