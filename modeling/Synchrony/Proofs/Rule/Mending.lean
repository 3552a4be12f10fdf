import Synchrony.Proofs.Rule.Yields

/-!
# Mending what was read

Where a reader stops with an error, it has read the beginning of something: what stands in front of
the error can be completed to a form of its production. For every reader there is a lemma that says
so (`…_of_error`), and says that the reader did not stop at a blank. The completions are as small as
they can be, a call of `x` without arguments where a call line is missing and the variable `x` where
a position is.

This module goes as far as call lines.
-/

set_option autoImplicit false

namespace Synchrony.Source

variable {scope : Nat} {s rest : List Char} {stop : Stop}

/-! ## Mending -/

/-- What was read of `s` is `before`, and `text` completes it by `tail`. The error is not at a
blank. -/
structure Mends (stop : Stop) (s text before tail : List Char) : Prop where
  source : s = before ++ stop.rest
  text : text = before ++ tail
  stops : Stops Text.isBlank stop.rest

namespace Mends

variable {text before tail : List Char}

theorem of_blanks (h : stop.rest = Text.skipBlanks s) :
    ∃ blanks : Blanks, ∀ tail, Mends stop s (blanks.chars ++ tail) blanks.chars tail := by
  obtain ⟨blanks, hs⟩ := split_blanks s
  refine ⟨blanks, fun tail => ⟨?_, rfl, ?_⟩⟩
  · rw [h]
    exact hs
  · rw [h]
    exact stops_skipBlanks s

theorem prepend (h : Mends stop s text before tail) (front : List Char) :
    Mends stop (front ++ s) (front ++ text) (front ++ before) tail where
  source := by rw [h.source, List.append_assoc]
  text := by rw [h.text, List.append_assoc]
  stops := h.stops

theorem append (h : Mends stop s text before tail) (back : List Char) :
    Mends stop s (text ++ back) before (tail ++ back) where
  source := h.source
  text := by rw [h.text, List.append_assoc]
  stops := h.stops

theorem head?_text (h : Mends stop s text before tail) (hbefore : before ≠ [])
    (rest : List Char) : (text ++ rest).head? = s.head? := by
  obtain ⟨c, front, rfl⟩ := List.exists_cons_of_ne_nil hbefore
  rw [h.text, h.source]
  rfl

/-- What was complete in front of what was read is complete in front of what mends it. -/
theorem yields (h : Mends stop s text before tail) (hbreak : before = [] → tail.head? = some '\n')
    (hletter : ∀ c ∈ (Text.skipBlanks (text ++ rest)).head?, isLetter c = true) :
    Yields s (text ++ rest) := by
  rw [h.text, List.append_assoc] at hletter ⊢
  rw [h.source]
  refine Yields.of_append ?_ hletter
  intro hnil
  rw [List.head?_append, hbreak hnil]
  rfl

end Mends

/-! ## Positions -/

/-- The word that stands in for what is missing. -/
def Word.standIn : Word :=
  ⟨'x', [], rfl, List.all_eq_true.mp rfl⟩

theorem rest_of_pattern_error (h : pattern scope s = .error stop) :
    stop.rest = Text.skipBlanks s := by
  simp only [pattern] at h
  split at h
  case h_1 => cases h
  case h_2 =>
    split at h
    case h_1 => cases h
    case h_2 hstop =>
      cases h
      exact rest_of_literal_error hstop

theorem further_of_error (h : morePatterns scope s = .error stop) :
    ∃ more before, before ≠ [] ∧
      Mends stop s (more.flatMap Further.text) before Word.standIn.chars ∧
      ∀ rest, Quiet rest → Further.FitAll more rest := by
  induction hn : s.length using Nat.strongRecOn generalizing s with
  | _ n ih =>
    rcases stops_or_cons ',' (Text.skipBlanks s) with hstops | ⟨r, hcomma⟩
    · rw [morePatterns_of_stops scope hstops] at h
      cases h
    · rw [morePatterns_of_comma scope hcomma] at h
      obtain ⟨blanks, hs⟩ := split_blanks s
      rw [hcomma] at hs
      have hne (front : List Char) : blanks.chars ++ (',' :: front) ≠ [] :=
        List.append_ne_nil_of_right_ne_nil _ (List.cons_ne_nil _ _)
      split at h
      case h_1 hp =>
        -- The comma has been read, and so have the blanks behind it.
        cases h
        obtain ⟨behind, hmends⟩ := Mends.of_blanks (rest_of_pattern_error hp)
        refine ⟨[⟨blanks, behind, .word .standIn⟩], _, hne behind.chars, ?_, ?_⟩
        · have hwhole := ((hmends Word.standIn.chars).prepend [',']).prepend blanks.chars
          simpa [Further.text, Atom.text, hs] using hwhole
        · exact fun rest hquiet => ⟨hquiet.fits _, hquiet.no_comma⟩
      case h_2 p r' hp =>
        split at h
        case h_2 => cases h
        case h_1 hm =>
          cases h
          obtain ⟨atom, hatom, hfits, -⟩ := atom_of_pattern hp
          obtain ⟨behind, hr⟩ := split_blanks r
          have hlt := pattern_shorter hp
          have hle := congrArg List.length hs
          rw [List.length_append, List.length_cons] at hle
          obtain ⟨more, before, hbefore, hmends, hmore⟩ := ih r'.length (by omega) hm rfl
          refine ⟨⟨blanks, behind, atom⟩ :: more, _, hne (behind.chars ++ (atom.text ++ before)),
            ?_, ?_⟩
          · have hwhole := (((hmends.prepend atom.text).prepend behind.chars).prepend
              [',']).prepend blanks.chars
            rw [← hatom, ← hr] at hwhole
            simpa [Further.text, hs] using hwhole
          · intro rest hquiet
            exact ⟨atom.fits_congr hfits (hmends.head?_text hbefore rest), hmore rest hquiet⟩

theorem items_of_error (h : patterns scope s = .error stop) :
    ∃ items before, Mends stop s (Items.text items) before Word.standIn.chars ∧
      ∀ rest, Quiet rest → items.Fits rest := by
  simp only [patterns] at h
  split at h
  case h_1 hp =>
    cases h
    obtain ⟨lead, hmends⟩ := Mends.of_blanks (rest_of_pattern_error hp)
    refine ⟨⟨lead, .word .standIn, []⟩, _, hmends Word.standIn.chars, ?_⟩
    exact fun rest hquiet => ⟨hquiet.fits _, hquiet.no_comma⟩
  case h_2 p r hp =>
    split at h
    case h_2 => cases h
    case h_1 hm =>
      cases h
      obtain ⟨lead, hs⟩ := split_blanks s
      obtain ⟨atom, hatom, hfits, -⟩ := atom_of_pattern hp
      obtain ⟨more, before, hbefore, hmends, hmore⟩ := further_of_error hm
      have hwhole := (hmends.prepend atom.text).prepend lead.chars
      rw [← hatom, ← hs] at hwhole
      refine ⟨⟨lead, atom, more⟩, _, hwhole, ?_⟩
      intro rest hquiet
      exact ⟨atom.fits_congr hfits (hmends.head?_text hbefore rest), hmore rest hquiet⟩

/-! ## Call lines -/

theorem items_of_arguments_error (h : arguments scope s = .error stop) :
    ∃ items before, Mends stop s (Items.text items) before Word.standIn.chars ∧
      ∀ rest, Quiet rest → items.Fits rest := by
  rcases stops_or_cons ')' (Text.skipBlanks s) with hstops | ⟨t, hclose⟩
  · rw [arguments_of_stops scope hstops] at h
    exact items_of_error h
  · rw [arguments_of_close scope hclose] at h
    cases h

/-- Arguments behind which there is no parenthesis. -/
theorem items_of_close_error {ps : List Pattern} {r : List Char}
    (h : arguments scope s = .ok (ps, r)) (hr : expect ')' r = .error stop) :
    ∃ (items : Items) (close : Blanks), (∀ tail, Mends stop s
        (items.text ++ (close.chars ++ tail)) (items.text ++ close.chars) tail) ∧
      ∀ rest, Quiet rest → items.Fits (close.chars ++ rest) := by
  obtain ⟨close, hmends⟩ := Mends.of_blanks (rest_of_expect_error hr)
  rcases stops_or_cons ')' (Text.skipBlanks s) with hstops | ⟨t, hclose⟩
  · rw [arguments_of_stops scope hstops] at h
    obtain ⟨items, rfl, hfits, -⟩ := items_of_patterns h
    refine ⟨items, close, fun tail => (hmends tail).prepend items.text, ?_⟩
    intro rest hquiet
    rw [(hmends []).source] at hfits
    refine hfits.yields (fun atom => atom.fits_append _ fun _ => hquiet.fits atom) ?_
    rw [skipBlanks_append]
    exact hquiet.no_comma
  · -- The parenthesis has been seen.
    rw [arguments_of_close scope hclose] at h
    cases h
    have hok : expect ')' (')' :: t) = .ok t := expect_append (by decide) Blanks.none t
    rw [hok] at hr
    cases hr

theorem items_of_returns_error (h : returnClause scope s = .error stop) :
    ∃ arrow before, Mends stop s (Arrow.textOf (some arrow)) before Word.standIn.chars ∧
      ∀ rest, Quiet rest → arrow.items.Fits rest := by
  by_cases harrow : ['-', '>'] <+: Text.skipBlanks s
  · obtain ⟨r, hr⟩ := harrow
    have hskip : Text.skipBlanks s = '-' :: '>' :: r := hr.symm
    obtain ⟨blanks, hs⟩ := split_blanks s
    rw [hskip] at hs
    rw [returnClause_of_arrow scope hskip] at h
    split at h
    case h_2 => cases h
    case h_1 hp =>
      cases h
      obtain ⟨items, before, hmends, hfits⟩ := items_of_error hp
      subst hs
      exact ⟨⟨blanks, items⟩, _, (hmends.prepend ['-', '>']).prepend blanks.chars, hfits⟩
  · rw [returnClause_of_not_arrow scope harrow] at h
    cases h

theorem call_of_error (h : call scope s = .error stop) (hk : keyword? s = none) :
    stop.rest = s ∨ ∃ form before tail, before ≠ [] ∧
      Mends stop s (CallForm.text form) before tail ∧ ∀ rest, Calm rest → form.Fits rest := by
  simp only [call] at h
  split at h
  case h_1 =>
    cases h
    exact Or.inl rfl
  case h_2 text r₀ hword =>
    right
    obtain ⟨name, rfl, -, -⟩ := word_of_word? hword
    have hne (front : List Char) : name.chars ++ front ≠ [] := List.cons_ne_nil _ _
    split at h
    case h_1 hopen =>
      cases h
      obtain ⟨gap, hmends⟩ := Mends.of_blanks (rest_of_expect_error hopen)
      have hsource := (hmends []).source
      rw [hsource] at hk
      refine ⟨⟨name, gap, none, .none, none, gap_of_reserved hk⟩, _, _, hne gap.chars,
        (hmends ['(', ')']).prepend name.chars, ?_⟩
      exact fun rest hcalm => ⟨fun _ hitems => (by cases hitems), hcalm.no_arrow⟩
    case h_2 r₁ hopen =>
      -- From here on the errors are behind the opening parenthesis.
      obtain ⟨gap, rfl⟩ := text_of_expect hopen
      have hgap := gap_of_reserved hk
      have hfront {text before tail : List Char} (h : Mends stop r₁ text before tail) :
          Mends stop (name.chars ++ (gap.chars ++ '(' :: r₁))
            (name.chars ++ (gap.chars ++ '(' :: text)) (name.chars ++ (gap.chars ++ '(' :: before))
            tail :=
        ((h.prepend ['(']).prepend gap.chars).prepend name.chars
      split at h
      case h_1 hargs =>
        cases h
        obtain ⟨items, before, hmends, hfits⟩ := items_of_arguments_error hargs
        refine ⟨⟨name, gap, some items, .none, none, hgap⟩, _, _, hne _,
          hfront (hmends.append [')']), ?_⟩
        intro rest hcalm
        refine ⟨?_, hcalm.no_arrow⟩
        rintro _ ⟨⟩
        exact hfits _ (quiet_close _)
      case h_2 ps r₂ hargs =>
        split at h
        case h_1 hclose =>
          cases h
          obtain ⟨items, close, hmends, hfits⟩ := items_of_close_error hargs hclose
          refine ⟨⟨name, gap, some items, close, none, hgap⟩, _, _, hne _, hfront (hmends [')']),
            ?_⟩
          intro rest hcalm
          refine ⟨?_, hcalm.no_arrow⟩
          rintro _ ⟨⟩
          exact hfits _ (quiet_close _)
        case h_2 r₃ hclose =>
          obtain ⟨args, close, rfl, hfits, -⟩ := args_of_arguments hargs hclose
          split at h
          case h_2 => cases h
          case h_1 hreturns =>
            cases h
            obtain ⟨arrow, before, hmends, hreturns⟩ := items_of_returns_error hreturns
            refine ⟨⟨name, gap, args, close, some arrow, hgap⟩, _, _, hne _,
              hfront (((hmends.prepend [')']).prepend close.chars).prepend (argsText args)), ?_⟩
            intro rest hcalm
            exact ⟨fun items hitems => (hfits items hitems).close, hreturns rest hcalm.quiet⟩

end Synchrony.Source
