import Synchrony.Proofs.Rule.Reading

/-!
# Reading clauses and rules

The readers of clauses and of whole sources go round until a keyword or the end of the text comes
up. What follows a clause must therefore say by itself that it is no call line (`AtEnd`), and inside
a source it does: behind the conditions of a rule stands `sync`, and behind its consequences stands
the `when` of the next rule, or nothing. A keyword counts as one because a blank follows it, which
is the blank that a clause starts with.
-/

set_option autoImplicit false

namespace Synchrony.Source

variable {scope : Nat} {s rest : List Char}

/-! ## Where a clause ends -/

/-- No call line starts here. -/
def AtEnd (rest : List Char) : Prop :=
  rest = [] ∨ ∃ k r, keyword? rest = some (k, r)

theorem atEnd_iff : AtEnd s ↔ (s.isEmpty || (keyword? s).isSome) = true := by
  rw [AtEnd, Bool.or_eq_true, List.isEmpty_iff, Option.isSome_iff_exists, Prod.exists]

theorem AtEnd.skipBlanks (h : AtEnd rest) : Text.skipBlanks rest = rest := by
  rcases h with rfl | ⟨k, r, hk⟩
  · rfl
  · obtain ⟨rfl, -⟩ := text_of_keyword? hk
    rw [← k.chars_word]
    exact skipBlanks_of_stops ((stops_cons _ _ _).mpr (not_blank_of_isLetter k.word.letter))

theorem CallForm.not_atEnd (form : CallForm) (rest : List Char) :
    ¬AtEnd (form.text ++ rest) := by
  rintro (hnil | ⟨k, r, hk⟩)
  · obtain ⟨c, t, htext, -⟩ := form.text_cons
    rw [htext] at hnil
    cases hnil
  · rw [form.keyword?_text rest] at hk
    cases hk

theorem keyword?_of_not_atEnd (h : ¬AtEnd s) : keyword? s = none := by
  rw [Option.eq_none_iff_forall_ne_some]
  exact fun found hfound => h (Or.inr ⟨found.1, found.2, hfound⟩)

/-! ## Call lines in a row -/

theorem calls_of_atEnd (scope : Nat) (h : AtEnd (Text.skipBlanks s)) :
    calls scope s = .ok ([], Text.skipBlanks s) := by
  rw [calls, if_pos (atEnd_iff.mp h)]

theorem calls_of_not_atEnd (scope : Nat) (h : ¬AtEnd (Text.skipBlanks s)) :
    calls scope s =
      match call scope (Text.skipBlanks s) with
      | .error stop => .error stop
      | .ok (line, r) =>
        match calls scope r with
        | .error stop => .error stop
        | .ok (lines, r) => .ok (line :: lines, r) := by
  rw [calls, if_neg (fun hend => h (atEnd_iff.mpr hend))]
  cases call scope (Text.skipBlanks s) <;> rfl

theorem Entry.skipBlanks_text (entry : Entry) (rest : List Char) :
    Text.skipBlanks (entry.text ++ rest) = entry.call.text ++ rest := by
  rw [Entry.text, List.append_assoc, skipBlanks_append, CallForm.skipBlanks_text]

theorem calls_append (scope : Nat) {entries : List Entry} {close : Blanks}
    (h : Entry.FitAll entries (close.chars ++ rest)) (hend : AtEnd rest) :
    calls scope (entries.flatMap Entry.text ++ (close.chars ++ rest)) =
      .ok (entries.map fun entry => entry.call.line scope, rest) := by
  induction entries with
  | nil =>
    have hskip : Text.skipBlanks (close.chars ++ rest) = rest := by
      rw [skipBlanks_append, hend.skipBlanks]
    have hcalls := calls_of_atEnd scope (hskip ▸ hend)
    rw [hskip] at hcalls
    exact hcalls
  | cons entry entries ih =>
    have hskip := entry.skipBlanks_text (entries.flatMap Entry.text ++ (close.chars ++ rest))
    rw [List.flatMap_cons, List.append_assoc,
      calls_of_not_atEnd scope (hskip ▸ entry.call.not_atEnd _), hskip,
      call_append scope h.1]
    simp only [ih h.2]
    rfl

theorem entries_of_calls {lines : List Line} (h : calls scope s = .ok (lines, rest)) :
    ∃ (entries : List Entry) (close : Blanks),
      s = entries.flatMap Entry.text ++ (close.chars ++ rest) ∧
      Entry.FitAll entries (close.chars ++ rest) ∧
      (entries.map fun entry => entry.call.line scope) = lines ∧ AtEnd rest := by
  induction hn : s.length using Nat.strongRecOn generalizing s lines with
  | _ n ih =>
    obtain ⟨lead, hs⟩ := split_blanks s
    by_cases hend : AtEnd (Text.skipBlanks s)
    · rw [calls_of_atEnd scope hend] at h
      cases h
      exact ⟨[], lead, hs, trivial, rfl, hend⟩
    · rw [calls_of_not_atEnd scope hend] at h
      have hkeyword := keyword?_of_not_atEnd hend
      split at h
      case h_1 => cases h
      case h_2 line r hcall =>
        split at h
        case h_1 => cases h
        case h_2 more r' hmore =>
          cases h
          obtain ⟨form, hform, hfits, rfl⟩ := form_of_call hcall hkeyword
          have hlt := call_shorter hcall
          have hle := Text.skipBlanks_length_le s
          obtain ⟨entries, close, rfl, hentries, rfl, hrest⟩ := ih r.length (by omega) hmore rfl
          refine ⟨⟨lead, form⟩ :: entries, close, ?_, ⟨hfits, hentries⟩, rfl, hrest⟩
          rw [hs, hform, List.flatMap_cons, Entry.text]
          simp

/-! ## Clauses -/

def ClauseForm.lines (scope : Nat) (form : ClauseForm) : Line × List Line :=
  (form.first.call.line scope, form.more.map fun entry => entry.call.line scope)

theorem ClauseForm.text_append (form : ClauseForm) (rest : List Char) :
    form.text ++ rest = form.entries.flatMap Entry.text ++ (form.close.chars ++ rest) := by
  rw [text, List.append_assoc]

theorem ClauseForm.endsKeyword_text (form : ClauseForm) (rest : List Char) :
    endsKeyword (form.text ++ rest) = true := by
  obtain ⟨⟨⟨chars, hblank⟩, call⟩, more, close, apart⟩ := form
  cases chars with
  | nil => exact absurd rfl apart
  | cons c t => exact hblank c List.mem_cons_self

theorem clause_append (k : Keyword) (scope : Nat) {form : ClauseForm} (h : form.Fits rest)
    (hend : AtEnd rest) :
    clause k scope (form.text ++ rest) = .ok (form.lines scope, rest) := by
  rw [clause, form.text_append, calls_append scope h hend]
  rfl

/-- Between a keyword and what follows there is a blank, unless the clause ends there. -/
theorem blanks_ne_nil {blanks : List Char} (h : endsKeyword (blanks ++ rest) = true)
    (hskip : Text.skipBlanks rest = rest) (hend : ¬AtEnd rest) : blanks ≠ [] := by
  rintro rfl
  cases rest with
  | nil => exact hend (Or.inl rfl)
  | cons c t =>
    have hblank : Text.isBlank c = true := h
    have hstops := stops_skipBlanks (c :: t)
    rw [hskip, stops_cons, hblank] at hstops
    cases hstops

theorem form_of_clause {k : Keyword} {lines : Line × List Line}
    (h : clause k scope s = .ok (lines, rest)) (hs : endsKeyword s = true) :
    ∃ form : ClauseForm, s = form.text ++ rest ∧ form.Fits rest ∧
      form.lines scope = lines ∧ AtEnd rest := by
  simp only [clause] at h
  split at h
  case h_1 => cases h
  case h_2 => cases h
  case h_3 line more r hcalls =>
    cases h
    obtain ⟨entries, close, rfl, hfits, hlines, hend⟩ := entries_of_calls hcalls
    cases entries with
    | nil => cases hlines
    | cons entry entries =>
      cases hlines
      -- The keyword of the clause ended in front of it, so the clause starts with a blank.
      have hapart : entry.lead.chars ≠ [] := by
        rw [List.flatMap_cons, Entry.text, List.append_assoc, List.append_assoc] at hs
        exact blanks_ne_nil hs (entry.call.skipBlanks_text _) (entry.call.not_atEnd _)
      refine ⟨⟨entry, entries, close, hapart⟩, ?_, hfits, rfl, hend⟩
      rw [ClauseForm.text_append]
      rfl

/-! ## Rules -/

namespace RuleForm

theorem text_append (form : RuleForm) (rest : List Char) :
    form.text ++ rest = Keyword.when.text.toList ++ (form.conditions.text ++
      (Keyword.sync.text.toList ++ (form.consequences.text ++ rest))) := by
  simp [text]

theorem atEnd_text (form : RuleForm) (rest : List Char) : AtEnd (form.text ++ rest) := by
  rw [text_append]
  exact Or.inr ⟨_, _, keyword?_append .when (form.conditions.endsKeyword_text _)⟩

end RuleForm

theorem atEnd_sync (form : ClauseForm) (rest : List Char) :
    AtEnd (Keyword.sync.text.toList ++ (form.text ++ rest)) :=
  Or.inr ⟨_, _, keyword?_append .sync (form.endsKeyword_text rest)⟩

theorem keyword_append_nil (k : Keyword) (h : endsKeyword s = true) :
    keyword k (k.text.toList ++ s) = .ok s :=
  keyword_append k Blanks.none h

theorem rule_append (source : List Char) (scope : Nat) {form : RuleForm} (h : form.Fits rest)
    (hend : AtEnd rest) :
    rule source scope (form.text ++ rest) =
      .ok (form.rule scope (lineAt source (form.text ++ rest)), rest) := by
  have hwhen := keyword_append_nil .when (form.conditions.endsKeyword_text
    (Keyword.sync.text.toList ++ (form.consequences.text ++ rest)))
  have hsync := keyword_append_nil .sync (form.consequences.endsKeyword_text rest)
  have hskip := (form.atEnd_text rest).skipBlanks
  rw [rule, hskip]
  rw [form.text_append, hwhen]
  simp only [clause_append .when scope h.conditions (atEnd_sync _ _), hsync,
    clause_append .sync scope h.consequences hend]
  rfl

theorem form_of_rule {source : List Char} {found : Rule}
    (h : rule source scope s = .ok (found, rest)) :
    ∃ form : RuleForm, Text.skipBlanks s = form.text ++ rest ∧ form.Fits rest ∧
      form.rule scope (lineAt source (Text.skipBlanks s)) = found ∧ AtEnd rest := by
  simp only [rule] at h
  split at h
  case h_1 => cases h
  case h_2 r₀ hwhen =>
    obtain ⟨hs, hends⟩ := text_of_keyword hwhen
    split at h
    case h_1 => cases h
    case h_2 trigger guards r₁ hconditions =>
      obtain ⟨conditions, rfl, hfits, hlines, hend⟩ := form_of_clause hconditions hends
      split at h
      case h_1 => cases h
      case h_2 r₂ hsync =>
        obtain ⟨hr, hends'⟩ := text_of_keyword hsync
        rw [hend.skipBlanks] at hr
        split at h
        case h_1 => cases h
        case h_2 first more r₃ hconsequences =>
          obtain ⟨consequences, rfl, hfits', hlines', hend'⟩ :=
            form_of_clause hconsequences hends'
          cases h
          cases hlines
          cases hlines'
          subst hr
          refine ⟨⟨conditions, consequences⟩, ?_, ⟨hfits, hfits'⟩, rfl, hend'⟩
          rw [hs, RuleForm.text_append]

/-! ## Sources -/

theorem lineAt_append (before s : List Char) :
    lineAt (before ++ s) s = before.count '\n' + 1 := by
  simp [lineAt]

theorem atEnd_rules (forms : List RuleForm) : AtEnd (forms.flatMap RuleForm.text) := by
  cases forms with
  | nil => exact Or.inl rfl
  | cons form more => exact form.atEnd_text _

theorem rules_of_nil (source : List Char) (scope : Nat) (h : Text.skipBlanks s = []) :
    rules source scope s = .ok [] := by
  rw [rules, h]
  rfl

theorem rules_of_ne_nil (source : List Char) (scope : Nat) (h : Text.skipBlanks s ≠ []) :
    rules source scope s =
      match rule source scope (Text.skipBlanks s) with
      | .error stop => .error stop
      | .ok (found, r) =>
        match rules source (scope + 1) r with
        | .error stop => .error stop
        | .ok more => .ok (found :: more) := by
  have hfull : (Text.skipBlanks s).isEmpty = false := List.isEmpty_eq_false_iff.mpr h
  rw [rules, hfull]
  cases rule source scope (Text.skipBlanks s) <;> rfl

theorem rules_append {forms : List RuleForm} (h : RuleForm.FitAll forms)
    (before : List Char) (scope : Nat) (blanks : Blanks) :
    rules (before ++ forms.flatMap RuleForm.text) scope
        (blanks.chars ++ forms.flatMap RuleForm.text) =
      .ok (RuleForm.rules scope (before.count '\n' + 1) forms) := by
  induction forms generalizing before scope blanks with
  | nil =>
    refine rules_of_nil _ scope ?_
    rw [skipBlanks_append]
    rfl
  | cons form more ih =>
    have hskip : Text.skipBlanks (blanks.chars ++ (form.text ++ more.flatMap RuleForm.text)) =
        form.text ++ more.flatMap RuleForm.text := by
      rw [skipBlanks_append, (form.atEnd_text _).skipBlanks]
    have hne : Text.skipBlanks
        (blanks.chars ++ (form.text ++ more.flatMap RuleForm.text)) ≠ [] := by
      rw [hskip, form.text_append, ← Keyword.when.chars_word]
      exact List.cons_ne_nil _ _
    have hmore := ih h.2 (before ++ form.text) (scope + 1) Blanks.none
    rw [Blanks.none, List.nil_append, List.append_assoc] at hmore
    rw [List.flatMap_cons, rules_of_ne_nil _ scope hne, hskip,
      rule_append _ scope h.1 (atEnd_rules more), lineAt_append]
    simp only [hmore, RuleForm.rules, List.count_append, Nat.add_right_comm]

/-- What is read as rules behind some text is forms, and blanks in front of them. -/
theorem forms_of_rules {before : List Char} {found : List Rule}
    (h : rules (before ++ Text.skipBlanks s) scope s = .ok found) :
    ∃ forms : List RuleForm, Text.skipBlanks s = forms.flatMap RuleForm.text ∧
      RuleForm.FitAll forms ∧ RuleForm.rules scope (before.count '\n' + 1) forms = found := by
  induction hn : s.length using Nat.strongRecOn generalizing s before scope found with
  | _ n ih =>
    by_cases hnil : Text.skipBlanks s = []
    · rw [rules_of_nil _ scope hnil] at h
      cases h
      exact ⟨[], hnil, trivial, rfl⟩
    · rw [rules_of_ne_nil _ scope hnil] at h
      split at h
      case h_1 => cases h
      case h_2 first r hrule =>
        split at h
        case h_1 => cases h
        case h_2 more hmore =>
          cases h
          obtain ⟨form, hs, hfits, rfl, hend⟩ := form_of_rule hrule
          rw [skipBlanks_of_stops (stops_skipBlanks s)] at hs hrule ⊢
          have hlt := rule_shorter hrule
          have hle := Text.skipBlanks_length_le s
          -- The next rule is looked for behind this one, so its text counts towards the lines.
          rw [hs, ← List.append_assoc] at hmore
          have hrest : rules (before ++ form.text ++ Text.skipBlanks r) (scope + 1) r =
              .ok more := by rw [hend.skipBlanks, hmore]
          obtain ⟨forms, hr, hforms, rfl⟩ := ih r.length (by omega) hrest rfl
          rw [hend.skipBlanks] at hr
          refine ⟨form :: forms, ?_, ⟨hr ▸ hfits, hforms⟩, ?_⟩
          · rw [hs, hr, List.flatMap_cons]
          · rw [lineAt_append, RuleForm.rules, List.count_append, Nat.add_right_comm]

end Synchrony.Source
