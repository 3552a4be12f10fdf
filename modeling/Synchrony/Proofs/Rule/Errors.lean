import Synchrony.Proofs.Rule.Mending
import Synchrony.Proofs.Text.Lines

/-!
# Errors in rule sources

Reading a source can fail in one way only, and the error says where: at a place behind which there
is nothing or no blank, and in front of which nothing is wrong yet, since what stands there can be
completed to a source that is read (`readRules_error`).

The first part mends clauses, rules and sources, as `Synchrony.Proofs.Rule.Mending` does call lines.
A call line that is missing gets a line of its own, since what stands in front of it could otherwise
run on into it.
-/

set_option autoImplicit false

namespace Synchrony.Source

variable {scope : Nat} {s rest rest' : List Char} {stop : Stop}

/-! ## Clauses -/

/-- A call that stands in for one that is missing. -/
def CallForm.standIn : CallForm where
  name := Word.standIn
  gap := .none
  args := none
  close := .none
  returns := none
  not_keyword _ := rfl

theorem CallForm.fits_standIn (h : Calm rest) : CallForm.standIn.Fits rest where
  args := by
    intro items hitems
    cases hitems
  returns := h.no_arrow

/-- Blanks behind each other. -/
def Blanks.append (blanks more : Blanks) : Blanks where
  chars := blanks.chars ++ more.chars
  blank := by
    intro c hc
    rcases List.mem_append.mp hc with hc | hc
    · exact blanks.blank c hc
    · exact more.blank c hc

/-- Blanks and a line break. -/
def Blanks.broken (blanks : Blanks) : Blanks where
  chars := blanks.chars ++ ['\n']
  blank := by
    intro c hc
    rcases List.mem_append.mp hc with hc | hc
    · exact blanks.blank c hc
    · rw [List.mem_singleton.mp hc]
      rfl

theorem Entry.mends_standIn (h : stop.rest = Text.skipBlanks s) :
    ∃ lead : Blanks, Mends stop s (Entry.text ⟨lead.broken, .standIn⟩) lead.chars
      ('\n' :: CallForm.standIn.text) := by
  obtain ⟨lead, hmends⟩ := Mends.of_blanks h
  have hwhole := hmends ('\n' :: CallForm.standIn.text)
  refine ⟨lead, hwhole.source, ?_, hwhole.stops⟩
  rw [Entry.text, Blanks.broken, List.append_assoc]
  rfl

/-- Behind a keyword, what was read of a clause starts with a blank. -/
theorem entries_of_error (h : calls scope s = .error stop) :
    ∃ entry entries before tail, (before = [] → tail.head? = some '\n') ∧
      Mends stop s ((entry :: entries).flatMap Entry.text) before tail ∧
      (∀ rest, Calm rest → Entry.FitAll (entry :: entries) rest) ∧
      (endsKeyword s = true → entry.lead.chars ≠ []) := by
  induction hn : s.length using Nat.strongRecOn generalizing s with
  | _ n ih =>
    obtain ⟨lead, hs⟩ := split_blanks s
    by_cases hend : AtEnd (Text.skipBlanks s)
    · rw [calls_of_atEnd scope hend] at h
      cases h
    · rw [calls_of_not_atEnd scope hend] at h
      have hkeyword := keyword?_of_not_atEnd hend
      have hlead : endsKeyword s = true → lead.chars ≠ [] := by
        intro hends
        rw [hs] at hends
        exact blanks_ne_nil hends (skipBlanks_of_stops (stops_skipBlanks s)) hend
      split at h
      case h_1 hcall =>
        cases h
        rcases call_of_error hcall hkeyword with
          hrest | ⟨form, before, tail, hbefore, hmends, hfits⟩
        · obtain ⟨lead, hmends⟩ := Entry.mends_standIn hrest
          refine ⟨⟨lead.broken, .standIn⟩, [], lead.chars, '\n' :: CallForm.standIn.text,
            fun _ => rfl, ?_, ?_, ?_⟩
          · rw [List.flatMap_singleton]
            exact hmends
          · exact fun rest hcalm => ⟨CallForm.fits_standIn hcalm, trivial⟩
          · exact fun _ => List.append_ne_nil_of_right_ne_nil _ (List.cons_ne_nil _ _)
        · have hwhole := hmends.prepend lead.chars
          rw [← hs] at hwhole
          refine ⟨⟨lead, form⟩, [], lead.chars ++ before, tail, ?_, ?_, ?_, hlead⟩
          · intro hnil
            exact absurd (List.append_eq_nil_iff.mp hnil).2 hbefore
          · rw [List.flatMap_singleton]
            exact hwhole
          · exact fun rest hcalm => ⟨hfits rest hcalm, trivial⟩
      case h_2 line r hcall =>
        split at h
        case h_2 => cases h
        case h_1 hmore =>
          cases h
          obtain ⟨form, hform, hfits, -⟩ := form_of_call hcall hkeyword
          have hlt := call_shorter hcall
          have hle := Text.skipBlanks_length_le s
          obtain ⟨entry, entries, before, tail, hbreak, hmends, hentries, -⟩ :=
            ih r.length (by omega) hmore rfl
          have hwhole := (hmends.prepend form.text).prepend lead.chars
          rw [← hform, ← hs] at hwhole
          refine ⟨⟨lead, form⟩, entry :: entries, lead.chars ++ (form.text ++ before), tail, ?_, ?_,
            ?_, hlead⟩
          · intro hnil
            have hform := (List.append_eq_nil_iff.mp (List.append_eq_nil_iff.mp hnil).2).1
            cases hform
          · rw [List.flatMap_cons, Entry.text, List.append_assoc]
            exact hwhole
          · intro rest hcalm
            refine ⟨hfits.yields (hmends.yields hbreak ?_), hentries rest hcalm⟩
            rw [List.flatMap_cons, List.append_assoc]
            exact entry.letter_behind _

theorem AtEnd.letter (h : AtEnd rest) : ∀ c ∈ rest.head?, isLetter c = true := by
  intro c hc
  rcases h with rfl | ⟨k, r, hk⟩
  · cases hc
  · obtain ⟨rfl, -⟩ := text_of_keyword? hk
    rw [← k.chars_word] at hc
    cases hc
    exact k.word.letter

/-- A text yields to another that begins with the same keyword. -/
theorem AtEnd.yields {front : List Char} (h : AtEnd (front ++ rest')) (hne : front ≠ []) :
    Yields (front ++ rest) (front ++ rest') := by
  refine Yields.of_append (fun hnil => absurd hnil hne) ?_
  rw [h.skipBlanks]
  exact h.letter

theorem AtEnd.calm (h : AtEnd rest) : Calm (Blanks.newline.chars ++ rest) where
  breaks := rfl
  behind := by
    rw [skipBlanks_append, h.skipBlanks]
    exact h.letter

theorem clause_of_error {k : Keyword} (h : clause k scope s = .error stop)
    (hs : endsKeyword s = true) :
    ∃ form before tail, Mends stop s (ClauseForm.text form) before tail ∧
      ∀ rest, AtEnd rest → form.Fits rest := by
  simp only [clause] at h
  split at h
  case h_1 hcalls =>
    cases h
    obtain ⟨entry, entries, before, tail, -, hmends, hfits, hapart⟩ := entries_of_error hcalls
    refine ⟨⟨entry, entries, .newline, hapart hs⟩, _, _, hmends.append ['\n'], ?_⟩
    exact fun rest hend => hfits _ hend.calm
  case h_2 r hcalls =>
    cases h
    obtain ⟨entries, close, hsource, -, hlines, hend⟩ := entries_of_calls hcalls
    obtain rfl : entries = [] := List.map_eq_nil_iff.mp hlines
    have hrest : (Stop.mk (.emptyClause k) r).rest = Text.skipBlanks s := by
      rw [hsource, List.flatMap_nil, List.nil_append, skipBlanks_append, hend.skipBlanks]
    obtain ⟨lead, hmends⟩ := Entry.mends_standIn hrest
    have hapart : lead.broken.chars ≠ [] :=
      List.append_ne_nil_of_right_ne_nil _ (List.cons_ne_nil _ _)
    have hwhole := hmends.append ['\n']
    rw [← List.flatMap_singleton Entry.text] at hwhole
    refine ⟨⟨⟨lead.broken, .standIn⟩, [], .newline, hapart⟩, _, _, hwhole, ?_⟩
    exact fun rest hend => ⟨CallForm.fits_standIn hend.calm, trivial⟩
  case h_3 => cases h

/-! ## Rules -/

namespace ClauseForm

/-- A clause with more blanks behind it. -/
def padded (blanks : Blanks) (form : ClauseForm) : ClauseForm :=
  { form with close := form.close.append blanks }

theorem text_padded (blanks : Blanks) (form : ClauseForm) :
    (form.padded blanks).text = form.text ++ blanks.chars :=
  (List.append_assoc _ _ _).symm

/-- Behind a line break and blanks, a keyword or the end of the text may follow. -/
theorem Fits.padded {form : ClauseForm} {blanks : Blanks} (h : form.Fits rest)
    (hbreak : blanks.chars.head? = some '\n') (hend : AtEnd rest') :
    (form.padded blanks).Fits rest' := by
  have hyields : Yields (form.close.chars ++ rest)
      (form.close.chars ++ (blanks.chars ++ rest')) := by
    refine Yields.of_append ?_ ?_
    · intro _
      rw [List.head?_append, hbreak]
      rfl
    · rw [skipBlanks_append, skipBlanks_append, hend.skipBlanks]
      exact hend.letter
  rw [← List.append_assoc] at hyields
  exact Entry.FitAll.yields h hyields

/-- A clause with a line break behind it. -/
def broken (form : ClauseForm) : ClauseForm :=
  { form with close := form.close.broken }

theorem text_broken (form : ClauseForm) : form.broken.text = form.text ++ ['\n'] :=
  form.text_padded .newline

/-- Behind a line break, a keyword or the end of the text may follow. -/
theorem fits_broken (form : ClauseForm) (h : form.Fits rest) (hend : AtEnd rest') :
    form.broken.Fits rest' := by
  have hbreak : Blanks.newline.chars.head? = some '\n' := rfl
  exact h.padded hbreak hend

end ClauseForm

def ClauseForm.standIn : ClauseForm where
  first := ⟨.newline, .standIn⟩
  more := []
  close := .newline
  apart := List.cons_ne_nil _ _

theorem ClauseForm.fits_standIn (h : AtEnd rest) : ClauseForm.standIn.Fits rest :=
  ⟨CallForm.fits_standIn h.calm, trivial⟩

theorem rule_of_error {source : List Char} (h : rule source scope s = .error stop) :
    stop.rest = Text.skipBlanks s ∨ ∃ form before tail, before ≠ [] ∧
      Mends stop (Text.skipBlanks s) (RuleForm.text form) before tail ∧ form.Fits [] := by
  simp only [rule] at h
  split at h
  case h_1 hwhen =>
    cases h
    exact Or.inl (rest_of_keyword_error hwhen)
  case h_2 r₀ hwhen =>
    right
    obtain ⟨hs, hends⟩ := text_of_keyword hwhen
    have hne (front : List Char) : Keyword.when.text.toList ++ front ≠ [] := by
      rw [← Keyword.when.chars_word]
      exact List.cons_ne_nil _ _
    rw [hs]
    split at h
    case h_1 hclause =>
      cases h
      obtain ⟨conditions, before, tail, hmends, hfits⟩ := clause_of_error hclause hends
      refine ⟨⟨conditions, .standIn⟩, _, _, hne before,
        (hmends.append (Keyword.sync.text.toList ++ ClauseForm.standIn.text)).prepend _, ?_⟩
      exact ⟨hfits _ (atEnd_sync _ _), ClauseForm.fits_standIn (Or.inl rfl)⟩
    case h_2 trigger guards r₁ hconditions =>
      obtain ⟨conditions, rfl, hfits, -, hend⟩ := form_of_clause hconditions hends
      split at h
      case h_1 hsync =>
        -- What comes next is no `sync`, and a line break closes the clause before one is put in.
        cases h
        have hrest := rest_of_keyword_error hsync
        rw [hend.skipBlanks] at hrest
        have hmends : Mends stop r₁
            ('\n' :: (Keyword.sync.text.toList ++ ClauseForm.standIn.text)) [] _ :=
          ⟨hrest.symm, rfl, hrest ▸ hend.stops⟩
        have hwhole := (hmends.prepend conditions.text).prepend Keyword.when.text.toList
        have htext : (RuleForm.mk conditions.broken .standIn).text =
            Keyword.when.text.toList ++ (conditions.text ++
              '\n' :: (Keyword.sync.text.toList ++ ClauseForm.standIn.text)) := by
          rw [RuleForm.text, ClauseForm.text_broken, List.append_assoc]
          rfl
        rw [← htext] at hwhole
        exact ⟨_, _, _, hne _, hwhole, conditions.fits_broken hfits (atEnd_sync _ _),
          ClauseForm.fits_standIn (Or.inl rfl)⟩
      case h_2 r₂ hsync =>
        obtain ⟨hr, hends'⟩ := text_of_keyword hsync
        rw [hend.skipBlanks] at hr
        split at h
        case h_2 => cases h
        case h_1 hclause =>
          cases h
          obtain ⟨consequences, before, tail, hmends, hfits'⟩ := clause_of_error hclause hends'
          subst hr
          refine ⟨⟨conditions, consequences⟩, _, _, hne _,
            ((hmends.prepend Keyword.sync.text.toList).prepend conditions.text).prepend _, ?_⟩
          exact ⟨hfits.yields ((atEnd_sync _ _).yields (List.cons_ne_nil _ _)),
            hfits' _ (Or.inl rfl)⟩

/-! ## Sources -/

theorem RuleForm.Fits.yields {form : RuleForm} (h : form.Fits rest) (hrest : Yields rest rest') :
    form.Fits rest' where
  conditions := h.conditions.yields ((atEnd_sync _ _).yields (List.cons_ne_nil _ _))
  consequences := h.consequences.yields hrest

theorem forms_of_error {source : List Char} (h : rules source scope s = .error stop) :
    ∃ forms before tail, (before = [] → forms = []) ∧
      Mends stop (Text.skipBlanks s) (forms.flatMap RuleForm.text) before tail ∧
      RuleForm.FitAll forms := by
  induction hn : s.length using Nat.strongRecOn generalizing s scope with
  | _ n ih =>
    by_cases hnil : Text.skipBlanks s = []
    · rw [rules_of_nil _ scope hnil] at h
      cases h
    · rw [rules_of_ne_nil _ scope hnil] at h
      have hskip := skipBlanks_of_stops (stops_skipBlanks s)
      split at h
      case h_1 hrule =>
        cases h
        rcases rule_of_error hrule with hrest | ⟨form, before, tail, hbefore, hmends, hfits⟩
        · rw [hskip] at hrest
          exact ⟨[], [], [], fun _ => rfl, ⟨hrest.symm, rfl, hrest ▸ stops_skipBlanks s⟩, trivial⟩
        · rw [hskip, ← List.flatMap_singleton RuleForm.text form] at hmends
          exact ⟨[form], before, tail, fun hnil => absurd hnil hbefore, hmends, hfits, trivial⟩
      case h_2 first r hrule =>
        split at h
        case h_2 => cases h
        case h_1 hmore =>
          cases h
          obtain ⟨form, hs, hfits, -, hend⟩ := form_of_rule hrule
          rw [hskip] at hs
          have hlt := rule_shorter hrule
          have hle := Text.skipBlanks_length_le s
          obtain ⟨forms, before, tail, hbefore, hmends, hforms⟩ := ih r.length (by omega) hmore rfl
          rw [hend.skipBlanks] at hmends
          -- The rule that was read is followed by others now, or by the end of the text.
          have hyields : Yields r (forms.flatMap RuleForm.text) := by
            by_cases hnone : before = []
            · rw [hbefore hnone]
              exact Yields.nil r
            · have hforms := atEnd_rules forms
              rw [hmends.text] at hforms ⊢
              rw [hmends.source]
              exact hforms.yields hnone
          have hwhole := hmends.prepend form.text
          rw [← hs] at hwhole
          refine ⟨form :: forms, form.text ++ before, tail, ?_, hwhole, hfits.yields hyields,
            hforms⟩
          exact fun hnil => absurd hnil (form.text_ne_nil before)

/-- **What was read before an error can be read on.** -/
theorem mended_of_error {source : List Char} (h : rules source 0 source = .error stop) :
    ∃ before tail found, source = before ++ stop.rest ∧ Stops Text.isBlank stop.rest ∧
      readRules (String.ofList (before ++ tail)) = .ok found := by
  obtain ⟨forms, before, tail, -, hmends, hfits⟩ := forms_of_error h
  obtain ⟨lead, hsource⟩ := split_blanks source
  have hwhole := hmends.prepend lead.chars
  rw [← hsource] at hwhole
  have htext : (SourceForm.mk lead forms).text =
      (String.ofList (lead.chars ++ before ++ tail)).toList := by
    rw [String.toList_ofList, ← hwhole.text]
    rfl
  exact ⟨_, tail, _, hwhole.source, hwhole.stops, readRules_iff.mpr ⟨_, htext, hfits, rfl⟩⟩

end Synchrony.Source

namespace Synchrony

open Source

theorem SourceError.of_append (before : List Char) (stop : Stop) :
    SourceError.of (before ++ stop.rest) stop = {
      reason := stop.reason
      line := before.count '\n' + 1
      column := (before.reverse.takeWhile (· != '\n')).length + 1
      text := String.ofList (Text.trim (stop.rest.takeWhile (· != '\n'))) } := by
  have htake : (before ++ stop.rest).take ((before ++ stop.rest).length - stop.rest.length) =
      before := by
    rw [List.length_append, Nat.add_sub_cancel, List.take_left]
  rw [SourceError.of, htake]

/-- **Errors say where reading stopped.** A source is read, or it is refused with an error. The
place of the error is the only one on its line at its column. Its text is the rest of that line,
blanks around it aside; it is not at a blank; and what stands in front of it can be completed to a
source that is read. -/
theorem readRules_error (source : String) :
    (∃ rules, readRules source = .ok rules) ∨
    ∃ error, readRules source = .error error ∧
      ∃ p ≤ source.toList.length,
        (∀ q, Text.OnLine source.toList error.line error.column q ↔ q = p) ∧
        error.text =
          String.ofList (Text.trim ((source.toList.drop p).takeWhile (· != '\n'))) ∧
        (p = source.toList.length ∨
          ∃ c, source.toList[p]? = some c ∧ Text.isBlank c = false) ∧
        ∃ tail rules, readRules (String.ofList (source.toList.take p ++ tail)) = .ok rules := by
  cases hread : Source.rules source.toList 0 source.toList with
  | ok rules => exact Or.inl ⟨rules, by rw [readRules, hread]⟩
  | error stop =>
    have herror : readRules source = .error (.of source.toList stop) := by rw [readRules, hread]
    obtain ⟨before, tail, found, hsource, hstops, hfound⟩ := mended_of_error hread
    rw [hsource, SourceError.of_append] at herror
    rw [hsource]
    refine Or.inr ⟨_, herror, before.length, ?_, ?_, ?_, ?_, tail, found, ?_⟩
    · rw [List.length_append]
      exact Nat.le_add_right _ _
    · have hplace := Text.onLine_append before stop.rest
      intro q
      constructor
      · exact fun hq => hq.unique hplace
      · rintro rfl
        exact hplace
    · rw [List.drop_left]
    · cases hrest : stop.rest with
      | nil => exact Or.inl (by rw [List.append_nil])
      | cons c rest =>
        rw [hrest, stops_cons] at hstops
        exact Or.inr ⟨c, by simp, hstops⟩
    · rw [List.take_left]
      exact hfound

end Synchrony
