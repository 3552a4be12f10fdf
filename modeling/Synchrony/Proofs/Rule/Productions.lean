import Synchrony.Proofs.Rule.Trails

/-!
# What is made on a trail

When a reader succeeds, what is made on its trail is what it answers: one for each rule, for each
call line and for each position of a line. Nothing is made on the trails of tokens and literals.
-/

set_option autoImplicit false

namespace Synchrony.Source

variable {s r : List Char} {scope : Nat}

/-- A line, and each of its positions. -/
def productionsOfLine (line : Line) : Nat :=
  line.patterns.length + 1

/-- A rule, and what its lines are. -/
def productions (rule : Rule) : Nat :=
  (rule.lines.map productionsOfLine).sum + 1

/-! ## Positions -/

@[simp] theorem made_tokenTrail (left : Except Stop (List Char)) (s : List Char) :
    (tokenTrail left s).made = 0 := by
  cases left <;> simp [tokenTrail]

@[simp] theorem made_literalTrail (s : List Char) : (literalTrail s).made = 0 := by
  induction s with
  | nil => rfl
  | cons c s ih =>
    unfold literalTrail
    split
    · rfl
    · simp [ih]

theorem made_patternTrail {p : Pattern} (h : pattern scope s = .ok (p, r)) :
    (patternTrail s).made = 1 := by
  unfold pattern at h
  unfold patternTrail
  cases hw : word? (Text.skipBlanks s) with
  | some found => simp
  | none =>
    rw [hw] at h
    cases hl : literal (Text.skipBlanks s) with
    | error stop =>
      rw [hl] at h
      cases h
    | ok found =>
      obtain ⟨v, r'⟩ := found
      simp

theorem ok_of_patterns {ps : List Pattern} (h : patterns scope s = .ok (ps, r)) :
    ∃ p r' more, pattern scope s = .ok (p, r') ∧ morePatterns scope r' = .ok (more, r) ∧
      ps = p :: more := by
  unfold patterns at h
  split at h
  · cases h
  · rename_i p r' hp
    split at h
    · cases h
    · rename_i more r'' hm
      cases h
      exact ⟨p, r', more, hp, hm, rfl⟩

theorem made_morePatternsTrail {ps : List Pattern} (h : morePatterns scope s = .ok (ps, r)) :
    (morePatternsTrail scope s).made = ps.length := by
  induction hn : s.length using Nat.strongRecOn generalizing s ps with
  | _ n ih =>
    rcases stops_or_cons ',' (Text.skipBlanks s) with hstops | ⟨r', hr⟩
    · rw [morePatternsTrail_of_stops scope s hstops]
      rw [morePatterns_of_stops scope hstops] at h
      cases h
      simp
    · rw [morePatterns_of_comma scope hr] at h
      obtain ⟨p, r'', more, hp, hm, rfl⟩ := ok_of_patterns h
      have hle := Text.skipBlanks_length_le s
      have hlt := pattern_shorter hp
      rw [hr, List.length_cons] at hle
      have hmore := ih r''.length (by omega) hm rfl
      rw [morePatternsTrail_of_comma scope s hr]
      simp [patternsTrail, hp, made_patternTrail hp, hmore]
      omega

theorem made_patternsTrail {ps : List Pattern} (h : patterns scope s = .ok (ps, r)) :
    (patternsTrail scope s).made = ps.length := by
  obtain ⟨p, r', more, hp, hm, rfl⟩ := ok_of_patterns h
  simp [patternsTrail, hp, made_patternTrail hp, made_morePatternsTrail hm]
  omega

theorem made_argumentsTrail {ps : List Pattern} (h : arguments scope s = .ok (ps, r)) :
    (argumentsTrail scope s).made = ps.length := by
  rcases stops_or_cons ')' (Text.skipBlanks s) with hstops | ⟨r', hclose⟩
  · rw [arguments_of_stops scope hstops, ← patterns_skipBlanks] at h
    simp [argumentsTrail_of_stops scope s hstops, made_patternsTrail h]
  · rw [arguments_of_close scope hclose] at h
    cases h
    simp [argumentsTrail_of_close scope s hclose]

theorem made_returnClauseTrail {returns : Option (List Pattern)}
    (h : returnClause scope s = .ok (returns, r)) :
    (returnClauseTrail scope s).made = (returns.getD []).length := by
  by_cases harrow : ['-', '>'] <+: Text.skipBlanks s
  · obtain ⟨r', hr⟩ := harrow
    rw [returnClauseTrail_of_arrow scope s hr.symm]
    rw [returnClause_of_arrow scope hr.symm] at h
    split at h
    · cases h
    · rename_i ps r'' hp
      cases h
      rw [Trail.made_append, made_patternsTrail hp]
      simp
  · rw [returnClauseTrail_of_not_arrow scope s harrow]
    rw [returnClause_of_not_arrow scope harrow] at h
    cases h
    simp

/-! ## Call lines and rules -/

theorem made_callTrail {line : Line} (h : call scope s = .ok (line, r)) :
    (callTrail scope s).made = productionsOfLine line := by
  unfold call at h
  split at h
  · cases h
  · rename_i name r₀ h₀
    split at h
    · cases h
    · rename_i r₁ h₁
      split at h
      · cases h
      · rename_i args r₂ h₂
        split at h
        · cases h
        · rename_i r₃ h₃
          split at h
          · cases h
          · rename_i returns r₄ h₄
            cases h
            simp [callTrail, h₀, h₁, h₂, h₃, h₄, made_argumentsTrail h₂,
              made_returnClauseTrail h₄, productionsOfLine, Line.patterns]
            omega

theorem made_callsTrail {lines : List Line} (h : calls scope s = .ok (lines, r)) :
    (callsTrail scope s).made = (lines.map productionsOfLine).sum := by
  induction hn : s.length using Nat.strongRecOn generalizing s lines with
  | _ n ih =>
    by_cases hend : AtEnd (Text.skipBlanks s)
    · rw [callsTrail_of_atEnd scope s hend]
      rw [calls_of_atEnd scope hend] at h
      cases h
      simp
    · rw [callsTrail_of_not_atEnd scope s hend]
      rw [calls_of_not_atEnd scope hend] at h
      split at h
      · cases h
      · rename_i line r' hl
        split at h
        · cases h
        · rename_i more r'' hm
          cases h
          have hle := Text.skipBlanks_length_le s
          have hlt := call_shorter hl
          simp [hl, made_callTrail hl, ih r'.length (by omega) hm rfl]

theorem made_callsTrail_of_clause {k : Keyword} {line : Line} {more : List Line}
    (h : clause k scope s = .ok ((line, more), r)) :
    (callsTrail scope s).made = ((line :: more).map productionsOfLine).sum := by
  unfold clause at h
  split at h
  · cases h
  · cases h
  · rename_i line' more' r' hl
    cases h
    exact made_callsTrail hl

theorem made_ruleTrail {source : List Char} {found : Rule}
    (h : rule source scope s = .ok (found, r)) : (ruleTrail scope s).made = productions found := by
  unfold rule at h
  split at h
  · cases h
  · rename_i r₀ h₀
    split at h
    · cases h
    · rename_i trigger guards r₁ h₁
      split at h
      · cases h
      · rename_i r₂ h₂
        split at h
        · cases h
        · rename_i first more r₃ h₃
          cases h
          simp [ruleTrail, h₀, h₁, h₂, h₃, made_callsTrail_of_clause h₁,
            made_callsTrail_of_clause h₃, productions, Rule.lines, Rule.whenLines]
          omega

theorem made_rulesTrail {source : List Char} {found : List Rule}
    (h : rules source scope s = .ok found) :
    (rulesTrail source scope s).made = (found.map productions).sum := by
  induction hn : s.length using Nat.strongRecOn generalizing s scope found with
  | _ n ih =>
    by_cases hnil : Text.skipBlanks s = []
    · rw [rulesTrail_of_nil scope s source hnil]
      rw [rules_of_nil source scope hnil] at h
      cases h
      simp
    · rw [rulesTrail_of_ne_nil scope s source hnil]
      rw [rules_of_ne_nil source scope hnil] at h
      split at h
      · cases h
      · rename_i first r hr
        split at h
        · cases h
        · rename_i more hm
          cases h
          have hle := Text.skipBlanks_length_le s
          have hlt := rule_shorter hr
          simp [hr, made_ruleTrail hr, ih r.length (by omega) hm rfl]

end Synchrony.Source
