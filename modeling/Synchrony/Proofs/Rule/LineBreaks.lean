import Synchrony.Proofs.Rule.Errors
import Synchrony.Proofs.Text.LineBreaks
import Synchrony.Rule.Loading

/-!
# Line breaks in rule sources

A source that is read from a file has had its line breaks made alike, and one that is handed over as
a text has not. They are read as the same rules or refused for the same reason
(`loadRules_unifyLineBreaks`).

## Readers

Every reader goes over runs of characters and looks at the character behind. A carriage return and a
line feed are both blank, both end a literal and neither is in a word, so no reader tells the one
from the other: what it reads of a text with line breaks made alike is what it reads of the text,
and what it leaves is what it leaves there with line breaks made alike (`Stop.unified`,
`unifiedRest`).

## Places

The places of rules and errors are another matter, since only line feeds start text lines. They
agree where carriage returns stand in front of line feeds only, because neither a rule nor an error
starts at a blank, and so not between the two.
-/

set_option autoImplicit false

namespace Synchrony

/-- The same rule on another text line. -/
def Rule.placed (line : Nat) (rule : Rule) : Rule :=
  { rule with line := line }

namespace Source

open Encoding

variable {scope : Nat} {s rest : List Char}

/-! ## Blanks and words -/

/-- The same refusal, with line breaks made alike in what was left. -/
def Stop.unified (stop : Stop) : Stop :=
  ⟨stop.reason, unifyLineBreaks stop.rest⟩

/-- The same answer, with line breaks made alike in what is left. -/
def unifiedRest {α : Type} : Reads α → Reads α
  | .ok (a, rest) => .ok (a, unifyLineBreaks rest)
  | .error stop => .error stop.unified

/-- The same for a reader that answers with nothing but what is left. -/
def unifiedText : Except Stop (List Char) → Except Stop (List Char)
  | .ok rest => .ok (unifyLineBreaks rest)
  | .error stop => .error stop.unified

theorem skipBlanks_unified (s : List Char) :
    Text.skipBlanks (unifyLineBreaks s) = unifyLineBreaks (Text.skipBlanks s) :=
  dropWhile_unifyLineBreaks (by decide) s

/-- What stands behind the blanks starts with the same character. -/
theorem skipBlanks_unified_cons {c : Char} (h : Text.skipBlanks s = c :: rest) :
    Text.skipBlanks (unifyLineBreaks s) = c :: unifyLineBreaks rest := by
  have hstops := stops_skipBlanks s
  rw [h, stops_cons] at hstops
  have hc : c ≠ '\r' := by
    rintro rfl
    cases hstops
  rw [skipBlanks_unified, h, unifyLineBreaks_cons hc]

theorem skipBlanks_unified_nil (h : Text.skipBlanks s = []) :
    Text.skipBlanks (unifyLineBreaks s) = [] := by
  simp [skipBlanks_unified, h]

theorem stops_unified {p : Char → Bool} (h : p '\r' = p '\n') :
    Stops p (unifyLineBreaks s) ↔ Stops p s := by
  fun_cases unifyLineBreaks s <;> simp [h]

theorem stops_skipBlanks_unified {p : Char → Bool} (hp : p '\r' = p '\n')
    (h : Stops p (Text.skipBlanks s)) : Stops p (Text.skipBlanks (unifyLineBreaks s)) := by
  rw [skipBlanks_unified]
  exact (stops_unified hp).mpr h

theorem word?_unified (s : List Char) :
    word? (unifyLineBreaks s) = (word? s).map (Prod.map id unifyLineBreaks) := by
  cases s with
  | nil => rfl
  | cons c t =>
    by_cases hc : c = '\r'
    · subst hc
      obtain ⟨t', ht⟩ := head_unifyLineBreaks_cr t
      rw [ht]
      rfl
    · rw [unifyLineBreaks_cons hc]
      by_cases hletter : isLetter c = true
      · have hrun : (unifyLineBreaks t).takeWhile isNameChar = t.takeWhile isNameChar :=
          takeWhile_unifyLineBreaks (by decide) (by decide) t
        have hrest : (unifyLineBreaks t).dropWhile isNameChar =
            unifyLineBreaks (t.dropWhile isNameChar) :=
          dropWhile_unifyLineBreaks (by decide) t
        simp [word?, hletter, hrun, hrest]
      · simp [word?, hletter]

theorem endsKeyword_unified (s : List Char) : endsKeyword (unifyLineBreaks s) = endsKeyword s := by
  fun_cases unifyLineBreaks s <;> rfl

theorem keyword?_unified (s : List Char) :
    keyword? (unifyLineBreaks s) = (keyword? s).map (Prod.map id unifyLineBreaks) := by
  rw [keyword?, keyword?, word?_unified]
  cases word? s with
  | none => rfl
  | some found =>
    obtain ⟨w, r⟩ := found
    simp only [Option.map_some, Prod.map, id, endsKeyword_unified]
    split
    · split
      · rfl
      · split <;> rfl
    · rfl

theorem keyword_unified (k : Keyword) (s : List Char) :
    keyword k (unifyLineBreaks s) = unifiedText (keyword k s) := by
  rw [keyword, keyword, skipBlanks_unified, keyword?_unified]
  cases keyword? (Text.skipBlanks s) with
  | none => rfl
  | some found =>
    obtain ⟨k', r⟩ := found
    simp only [Option.map_some, Prod.map, id]
    split <;> rfl

theorem expect_unified (c : Char) (s : List Char) :
    expect c (unifyLineBreaks s) = unifiedText (expect c s) := by
  rw [expect, expect]
  cases hs : Text.skipBlanks s with
  | nil =>
    rw [skipBlanks_unified_nil hs]
    rfl
  | cons d r =>
    have hskip := skipBlanks_unified_cons hs
    have hdr : unifyLineBreaks (d :: r) = d :: unifyLineBreaks r := by
      rw [← hs, ← skipBlanks_unified, hskip]
    rw [hskip]
    by_cases hd : d = c <;> simp [hd, unifiedText, Stop.unified, hdr]

/-! ## Positions -/

theorem literal_unified (s : List Char) :
    literal (unifyLineBreaks s) = unifiedRest (literal s) := by
  have hrun : (unifyLineBreaks s).takeWhile (fun c => !endsLiteral c) =
      s.takeWhile fun c => !endsLiteral c :=
    takeWhile_unifyLineBreaks (by decide) (by decide) s
  have hrest : (unifyLineBreaks s).dropWhile (fun c => !endsLiteral c) =
      unifyLineBreaks (s.dropWhile fun c => !endsLiteral c) :=
    dropWhile_unifyLineBreaks (by decide) s
  simp only [literal, hrun, hrest]
  split
  · rfl
  · split
    · rfl
    · split <;> rfl

theorem pattern_unified (scope : Nat) (s : List Char) :
    pattern scope (unifyLineBreaks s) = unifiedRest (pattern scope s) := by
  rw [pattern, pattern, skipBlanks_unified, word?_unified, literal_unified]
  cases word? (Text.skipBlanks s) with
  | some found => rfl
  | none =>
    simp only [Option.map_none]
    cases literal (Text.skipBlanks s) <;> rfl

theorem morePatterns_unified (scope : Nat) (s : List Char) :
    morePatterns scope (unifyLineBreaks s) = unifiedRest (morePatterns scope s) := by
  induction hn : s.length using Nat.strongRecOn generalizing s with
  | _ n ih =>
    rcases stops_or_cons ',' (Text.skipBlanks s) with hstops | ⟨r, hcomma⟩
    · rw [morePatterns_of_stops scope (stops_skipBlanks_unified rfl hstops),
        morePatterns_of_stops scope hstops]
      rfl
    · rw [morePatterns_of_comma scope (skipBlanks_unified_cons hcomma),
        morePatterns_of_comma scope hcomma, pattern_unified]
      cases hp : pattern scope r with
      | error stop => rfl
      | ok found =>
        obtain ⟨p, r'⟩ := found
        have hlt := pattern_shorter hp
        have hle := Text.skipBlanks_length_le s
        rw [hcomma, List.length_cons] at hle
        simp only [unifiedRest, ih r'.length (by omega) r' rfl]
        cases morePatterns scope r' <;> rfl

theorem patterns_unified (scope : Nat) (s : List Char) :
    patterns scope (unifyLineBreaks s) = unifiedRest (patterns scope s) := by
  rw [patterns, patterns, pattern_unified]
  cases pattern scope s with
  | error stop => rfl
  | ok found =>
    obtain ⟨p, r⟩ := found
    simp only [unifiedRest, morePatterns_unified]
    cases morePatterns scope r <;> rfl

/-! ## Call lines -/

theorem arguments_unified (scope : Nat) (s : List Char) :
    arguments scope (unifyLineBreaks s) = unifiedRest (arguments scope s) := by
  rcases stops_or_cons ')' (Text.skipBlanks s) with hstops | ⟨r, hclose⟩
  · rw [arguments_of_stops scope (stops_skipBlanks_unified rfl hstops),
      arguments_of_stops scope hstops, patterns_unified]
  · rw [arguments_of_close scope hclose, arguments_of_close scope (skipBlanks_unified_cons hclose)]
    show _ = Except.ok ([], unifyLineBreaks (')' :: r))
    rw [unifyLineBreaks_cons (by decide)]

/-- A text without line breaks in it starts where it did. -/
theorem starts_unified {text : List Char} (h : ∀ c ∈ text, c ≠ '\r' ∧ c ≠ '\n') (s : List Char) :
    text <+: unifyLineBreaks s ↔ text <+: s := by
  induction text generalizing s with
  | nil => simp
  | cons c text ih =>
    obtain ⟨hc, htext⟩ := List.forall_mem_cons.mp h
    cases s with
    | nil => simp
    | cons d t =>
      by_cases hd : d = '\r'
      · subst hd
        obtain ⟨t', ht⟩ := head_unifyLineBreaks_cr t
        simp [ht, List.cons_prefix_cons, hc]
      · rw [unifyLineBreaks_cons hd, List.cons_prefix_cons, List.cons_prefix_cons, ih htext]

theorem returnClause_unified (scope : Nat) (s : List Char) :
    returnClause scope (unifyLineBreaks s) = unifiedRest (returnClause scope s) := by
  have hstarts : ['-', '>'] <+: Text.skipBlanks (unifyLineBreaks s) ↔
      ['-', '>'] <+: Text.skipBlanks s := by
    rw [skipBlanks_unified]
    exact starts_unified (by simp) _
  by_cases harrow : ['-', '>'] <+: Text.skipBlanks s
  · obtain ⟨r, hr⟩ := harrow
    have hskip : Text.skipBlanks s = '-' :: '>' :: r := hr.symm
    have hunified : Text.skipBlanks (unifyLineBreaks s) = '-' :: '>' :: unifyLineBreaks r := by
      simp [skipBlanks_unified, hskip, unifyLineBreaks]
    rw [returnClause_of_arrow scope hunified, returnClause_of_arrow scope hskip, patterns_unified]
    cases patterns scope r <;> rfl
  · rw [returnClause_of_not_arrow scope (hstarts.not.mpr harrow),
      returnClause_of_not_arrow scope harrow]
    rfl

theorem call_unified (scope : Nat) (s : List Char) :
    call scope (unifyLineBreaks s) = unifiedRest (call scope s) := by
  rw [call, call, word?_unified]
  cases word? s with
  | none => rfl
  | some found =>
    obtain ⟨name, r⟩ := found
    simp only [Option.map_some, Prod.map, id, expect_unified]
    cases expect '(' r with
    | error stop => rfl
    | ok r =>
      simp only [unifiedText, arguments_unified]
      cases arguments scope r with
      | error stop => rfl
      | ok found =>
        obtain ⟨args, r⟩ := found
        simp only [unifiedRest, expect_unified]
        cases expect ')' r with
        | error stop => rfl
        | ok r =>
          simp only [unifiedText, returnClause_unified]
          cases returnClause scope r <;> rfl

/-! ## Clauses -/

theorem atEnd_unified (s : List Char) : AtEnd (unifyLineBreaks s) ↔ AtEnd s := by
  simp [atEnd_iff, keyword?_unified]

theorem calls_unified (scope : Nat) (s : List Char) :
    calls scope (unifyLineBreaks s) = unifiedRest (calls scope s) := by
  induction hn : s.length using Nat.strongRecOn generalizing s with
  | _ n ih =>
    by_cases hend : AtEnd (Text.skipBlanks s)
    · have hunified : AtEnd (Text.skipBlanks (unifyLineBreaks s)) := by
        rwa [skipBlanks_unified, atEnd_unified]
      rw [calls_of_atEnd scope hend, calls_of_atEnd scope hunified, skipBlanks_unified]
      rfl
    · have hunified : ¬AtEnd (Text.skipBlanks (unifyLineBreaks s)) := by
        rwa [skipBlanks_unified, atEnd_unified]
      rw [calls_of_not_atEnd scope hend, calls_of_not_atEnd scope hunified, skipBlanks_unified,
        call_unified]
      cases hcall : call scope (Text.skipBlanks s) with
      | error stop => rfl
      | ok found =>
        obtain ⟨line, r⟩ := found
        have hlt := call_shorter hcall
        have hle := Text.skipBlanks_length_le s
        simp only [unifiedRest, ih r.length (by omega) r rfl]
        cases calls scope r <;> rfl

theorem clause_unified (k : Keyword) (scope : Nat) (s : List Char) :
    clause k scope (unifyLineBreaks s) = unifiedRest (clause k scope s) := by
  rw [clause, clause, calls_unified]
  cases calls scope s with
  | error stop => rfl
  | ok found =>
    obtain ⟨lines, r⟩ := found
    cases lines <;> rfl

/-! ## Rules -/

/-- A rule is read as the same rule, on the text line that it starts on there. -/
theorem rule_unified (source source' : List Char) (scope : Nat) (s : List Char) :
    rule source' scope (unifyLineBreaks s) =
      match rule source scope s with
      | .error stop => .error stop.unified
      | .ok (found, r) =>
        .ok (Rule.placed (lineAt source' (unifyLineBreaks (Text.skipBlanks s))) found,
          unifyLineBreaks r) := by
  rw [rule, rule, keyword_unified, skipBlanks_unified]
  cases keyword .when s with
  | error stop => rfl
  | ok r =>
    simp only [unifiedText, clause_unified]
    cases clause .when scope r with
    | error stop => rfl
    | ok found =>
      obtain ⟨⟨trigger, guards⟩, r⟩ := found
      simp only [unifiedRest, keyword_unified]
      cases keyword .sync r with
      | error stop => rfl
      | ok r =>
        simp only [unifiedText, clause_unified]
        cases clause .sync scope r <;> rfl

theorem Stops.head_ne_newline (h : Stops Text.isBlank s) : s.head? ≠ some '\n' := by
  intro hhead
  cases h '\n' hhead

/-- What does not start with a blank is on the same text line. -/
theorem lineAt_unified {source before : List Char} (hsource : source = before ++ rest)
    (hrest : Stops Text.isBlank rest) (hpaired : Paired source) :
    lineAt (unifyLineBreaks source) (unifyLineBreaks rest) = lineAt source rest := by
  subst hsource
  rw [unifyLineBreaks_append hrest.head_ne_newline, lineAt_append, lineAt_append,
    (hpaired.of_append_left hrest.head_ne_newline).count]

/-- What two readings of a source come to: rules that differ by their text lines at most, and not
even by those under the condition `p`; or refusals at the same place. -/
inductive Agree (p : Prop) : Except Stop (List Rule) → Except Stop (List Rule) → Prop where
  | ok {found found' : List Rule}
      (unplaced : found'.map (Rule.placed 0) = found.map (Rule.placed 0))
      (same : p → found' = found) : Agree p (.ok found) (.ok found')
  | error (stop : Stop) : Agree p (.error stop) (.error stop.unified)

/-- What is left of a source is read as the same rules, up to their text lines. -/
theorem rules_unified {source before : List Char} (scope : Nat) (hsource : source = before ++ s) :
    Agree (Paired source) (rules source scope s)
      (rules (unifyLineBreaks source) scope (unifyLineBreaks s)) := by
  -- What stands in front is carried along, because the text lines are counted from the beginning.
  induction hn : s.length using Nat.strongRecOn generalizing s before scope with
  | _ n ih =>
    by_cases hnil : Text.skipBlanks s = []
    · rw [rules_of_nil _ scope hnil, rules_of_nil _ scope (skipBlanks_unified_nil hnil)]
      exact .ok rfl fun _ => rfl
    · have hunified : Text.skipBlanks (unifyLineBreaks s) ≠ [] := by
        simpa [skipBlanks_unified] using hnil
      rw [rules_of_ne_nil _ scope hnil, rules_of_ne_nil _ scope hunified, skipBlanks_unified,
        rule_unified source]
      have hskip := skipBlanks_of_stops (stops_skipBlanks s)
      obtain ⟨blanks, hs⟩ := split_blanks s
      cases hrule : rule source scope (Text.skipBlanks s) with
      | error stop => exact .error stop
      | ok read =>
        obtain ⟨found, r⟩ := read
        obtain ⟨form, hform, -, rfl, -⟩ := form_of_rule hrule
        rw [hskip] at hform
        have hlt := rule_shorter hrule
        have hle := Text.skipBlanks_length_le s
        have hrest : source = (before ++ blanks.chars ++ form.text) ++ r := by
          rw [hsource, List.append_assoc, List.append_assoc, ← hform, ← hs]
        have hcut : source = before ++ blanks.chars ++ Text.skipBlanks s := by
          rw [hsource, List.append_assoc, ← hs]
        have hline := lineAt_unified hcut (stops_skipBlanks s)
        have hmore := ih r.length (by omega) (scope + 1) hrest rfl
        simp only [hskip]
        generalize rules source (scope + 1) r = more at hmore ⊢
        generalize rules _ (scope + 1) (unifyLineBreaks r) = more' at hmore ⊢
        cases hmore with
        | error stop => exact .error stop
        | ok unplaced same =>
          refine .ok ?_ ?_
          · rw [List.map_cons, List.map_cons, unplaced]
            rfl
          · intro hpaired
            rw [same hpaired, hline hpaired]
            rfl

/-- The place of an error is the same. -/
theorem errorOf_unified {before : List Char} {stop : Stop}
    (hpaired : Paired (before ++ stop.rest)) (hstops : Stops Text.isBlank stop.rest) :
    SourceError.of (unifyLineBreaks (before ++ stop.rest)) stop.unified =
      SourceError.of (before ++ stop.rest) stop := by
  have hrest := hstops.head_ne_newline
  have hcut : unifyLineBreaks (before ++ stop.rest) =
      unifyLineBreaks before ++ stop.unified.rest :=
    unifyLineBreaks_append hrest before
  have hbefore := hpaired.of_append_left hrest
  obtain ⟨blanks, hline⟩ := hpaired.of_append_right.firstLine
  rw [hcut, SourceError.of_append, SourceError.of_append, hline, trim_append_blanks,
    hbefore.count, hbefore.lastLine]
  rfl

end Source

open Encoding

/-- Two outcomes of loading are alike: rulebooks whose rules differ by their text lines at most, or
errors of one reason. -/
inductive LoadsAlike : Except Failure Rulebook → Except Failure Rulebook → Prop where
  | ok {book book' : Rulebook}
      (rules : book'.rules.map (Rule.placed 0) = book.rules.map (Rule.placed 0)) :
      LoadsAlike (.ok book) (.ok book')
  | error (reason : String) (line column line' column' : Int) (text text' : String) :
      LoadsAlike (.error (.source reason line column text))
        (.error (.source reason line' column' text'))

theorem loadRules_eq (source : List Char) : loadRules (String.ofList source) =
    match Source.rules source 0 source with
    | .ok rules => .ok (.ofRules rules)
    | .error stop => .error (SourceError.of source stop).toFailure := by
  rw [loadRules, readRules, String.toList_ofList]
  cases Source.rules source 0 source <;> rfl

theorem loadRules_unified (source : List Char) :
    LoadsAlike (loadRules (String.ofList source))
      (loadRules (String.ofList (unifyLineBreaks source))) ∧
    (Paired source → loadRules (String.ofList (unifyLineBreaks source)) =
      loadRules (String.ofList source)) := by
  have hagree := Source.rules_unified 0 (List.nil_append source).symm
  rw [loadRules_eq, loadRules_eq]
  cases hread : Source.rules source 0 source with
  | ok found =>
    rw [hread] at hagree
    generalize Source.rules _ 0 (unifyLineBreaks source) = read at hagree ⊢
    cases hagree with
    | ok unplaced same => exact ⟨.ok unplaced, fun hpaired => by rw [same hpaired]⟩
  | error stop =>
    obtain ⟨before, -, -, hsource, hstops, -⟩ := Source.mended_of_error hread
    rw [hread] at hagree
    generalize Source.rules _ 0 (unifyLineBreaks source) = read at hagree ⊢
    cases hagree with
    | error =>
      refine ⟨.error _ _ _ _ _ _ _, ?_⟩
      intro hpaired
      rw [hsource] at hpaired ⊢
      simp only [Source.errorOf_unified hpaired hstops]

/-- **Line breaks do not matter to rules.** A source is loaded as it is loaded with every line break
made a line feed, text lines and the places of errors aside; and those agree too if carriage returns
stand only in front of line feeds. So a rule file is loaded as the text that its bytes encode. -/
theorem loadRules_unifyLineBreaks (source : String) :
    LoadsAlike (loadRules source) (loadRules (String.ofList (unifyLineBreaks source.toList))) ∧
    (Paired source.toList →
      loadRules (String.ofList (unifyLineBreaks source.toList)) = loadRules source) ∧
    ∀ bytes, characters bytes = .ok source.toList →
      loadRuleFile bytes = loadRules (String.ofList (unifyLineBreaks source.toList)) ∧
      LoadsAlike (loadRules source) (loadRuleFile bytes) := by
  have hunified := loadRules_unified source.toList
  rw [String.ofList_toList] at hunified
  refine ⟨hunified.1, hunified.2, ?_⟩
  intro bytes hbytes
  have hfile : loadRuleFile bytes = loadRules (String.ofList (unifyLineBreaks source.toList)) := by
    simp [loadRuleFile, decodeFile, hbytes]
  rw [hfile]
  exact ⟨rfl, hunified.1⟩

/-- A source with a carriage return in front of its only line feed, and the bytes of its file. -/
theorem loadRules_unifyLineBreaks_crlf :
    Paired "when A.a(1)\r\nsync B.b()".toList ∧
    characters [119, 104, 101, 110, 32, 65, 46, 97, 40, 49, 41, 13, 10, 115, 121, 110, 99, 32, 66,
      46, 98, 40, 41] = .ok "when A.a(1)\r\nsync B.b()".toList ∧
    loadRules "when A.a(1)\nsync B.b()" = loadRules "when A.a(1)\r\nsync B.b()" ∧
    loadRuleFile [119, 104, 101, 110, 32, 65, 46, 97, 40, 49, 41, 13, 10, 115, 121, 110, 99, 32, 66,
      46, 98, 40, 41] = loadRules "when A.a(1)\nsync B.b()" := by
  have hpaired : Paired "when A.a(1)\r\nsync B.b()".toList := by decide
  have hbytes : characters [119, 104, 101, 110, 32, 65, 46, 97, 40, 49, 41, 13, 10, 115, 121, 110,
      99, 32, 66, 46, 98, 40, 41] = .ok "when A.a(1)\r\nsync B.b()".toList := by
    decide +kernel
  obtain ⟨-, hsame, hfile⟩ := loadRules_unifyLineBreaks "when A.a(1)\r\nsync B.b()"
  exact ⟨hpaired, hbytes, hsame hpaired, (hfile _ hbytes).1⟩

end Synchrony
