import Synchrony.Proofs.Rule.Scanning

/-!
# Reading forms

Each reader of rule sources belongs to one production of the grammar, and two things are said of
it. In front of a form that fits what follows, the reader answers with the meaning of the form and
leaves what follows (`…_append`). Whatever the reader answers, it has read a form with that meaning
that fits what it left (`…_of_…`). Together they say that the reader reads exactly its production.

Readers differ in who takes the blanks behind what they read. Positions and call lines leave them,
because they may turn out to stand in front of a comma, an arrow or the next line; the readers of
whole clauses take them.
-/

set_option autoImplicit false

namespace Synchrony.Source

variable {scope : Nat} {s rest : List Char}

/-! ## Positions -/

namespace Atom

/-- A position starts with something that is neither blank nor the end of a literal. -/
theorem text_cons (atom : Atom) :
    ∃ c t, atom.text = c :: t ∧ Text.isBlank c = false ∧ endsLiteral c = false := by
  cases atom with
  | word w =>
    exact ⟨w.head, w.tail, rfl, not_blank_of_isLetter w.letter,
      not_endsLiteral_of_isLetter w.letter⟩
  | literal l => exact ⟨l.head, l.tail, rfl, l.not_blank, l.inside _ List.mem_cons_self⟩

theorem skipBlanks_text (atom : Atom) (rest : List Char) :
    Text.skipBlanks (atom.text ++ rest) = atom.text ++ rest := by
  obtain ⟨c, t, htext, hblank, -⟩ := atom.text_cons
  rw [htext, List.cons_append]
  exact skipBlanks_of_stops ((stops_cons _ c _).mpr hblank)

end Atom

theorem pattern_skipBlanks (scope : Nat) (s : List Char) :
    pattern scope (Text.skipBlanks s) = pattern scope s := by
  rw [pattern, pattern, skipBlanks_of_stops (stops_skipBlanks s)]

theorem pattern_append (scope : Nat) (blanks : Blanks) {atom : Atom} (h : atom.Fits rest) :
    pattern scope (blanks.chars ++ (atom.text ++ rest)) = .ok (atom.pattern scope, rest) := by
  rw [pattern, skipBlanks_append, atom.skipBlanks_text]
  cases atom with
  | word w =>
    have hword : word? ((Atom.word w).text ++ rest) = some (w.text, rest) := word?_append w h
    rw [hword]
    rfl
  | literal l =>
    have hword : word? ((Atom.literal l).text ++ rest) = none :=
      word?_of_not_letter ((stops_cons _ _ _).mpr l.not_letter)
    have hliteral : literal ((Atom.literal l).text ++ rest) = .ok (l.value, rest) :=
      literal_append l h
    rw [hword, hliteral]
    rfl

theorem atom_of_pattern {p : Pattern} (h : pattern scope s = .ok (p, rest)) :
    ∃ atom : Atom, Text.skipBlanks s = atom.text ++ rest ∧ atom.Fits rest ∧
      atom.pattern scope = p := by
  simp only [pattern] at h
  split at h
  case h_1 text r hword =>
    cases h
    obtain ⟨word, hs, rfl, hstops⟩ := word_of_word? hword
    exact ⟨.word word, hs, hstops, rfl⟩
  case h_2 hword =>
    split at h
    case h_2 => cases h
    case h_1 value r hliteral =>
      cases h
      obtain ⟨l, hs, rfl, hstops⟩ :=
        literal_of_literal hliteral (stops_skipBlanks s) (stops_of_word?_eq_none hword)
      exact ⟨.literal l, hs, hstops, rfl⟩

/-! ## Lists of positions -/

theorem morePatterns_of_stops (scope : Nat) (h : Stops (· = ',') (Text.skipBlanks s)) :
    morePatterns scope s = .ok ([], s) := by
  rw [morePatterns]
  split
  case h_1 c r hskip =>
    rw [hskip, stops_cons] at h
    rw [if_neg (of_decide_eq_false h)]
  case h_2 => rfl

theorem morePatterns_of_comma (scope : Nat) {r : List Char}
    (h : Text.skipBlanks s = ',' :: r) :
    morePatterns scope s =
      match pattern scope r with
      | .error stop => .error stop
      | .ok (p, r) =>
        match morePatterns scope r with
        | .error stop => .error stop
        | .ok (ps, r) => .ok (p :: ps, r) := by
  rw [morePatterns]
  split
  case h_1 c r' hskip =>
    rw [h] at hskip
    cases hskip
    rw [if_pos rfl]
    cases pattern scope r <;> rfl
  case h_2 hskip =>
    rw [h] at hskip
    cases hskip

theorem skipBlanks_comma (further : Further) (rest : List Char) :
    Text.skipBlanks (further.text ++ rest) =
      ',' :: (further.behind.chars ++ (further.atom.text ++ rest)) := by
  rw [Further.text, List.append_assoc, skipBlanks_append, List.cons_append, List.append_assoc]
  exact skipBlanks_of_stops ((stops_cons _ _ _).mpr (by decide))

theorem morePatterns_append (scope : Nat) {more : List Further}
    (h : Further.FitAll more rest) :
    morePatterns scope (more.flatMap Further.text ++ rest) =
      .ok (more.map fun further => further.atom.pattern scope, rest) := by
  induction more with
  | nil => exact morePatterns_of_stops scope h
  | cons further more ih =>
    rw [List.flatMap_cons, List.append_assoc,
      morePatterns_of_comma scope (skipBlanks_comma further _),
      pattern_append scope further.behind h.1]
    simp only [ih h.2]
    rfl

theorem further_of_morePatterns {ps : List Pattern} (h : morePatterns scope s = .ok (ps, rest)) :
    ∃ more : List Further, s = more.flatMap Further.text ++ rest ∧
      Further.FitAll more rest ∧ (more.map fun further => further.atom.pattern scope) = ps := by
  -- Every position makes what is left shorter, which is what the reader itself recurses on.
  induction hn : s.length using Nat.strongRecOn generalizing s ps with
  | _ n ih =>
    rcases stops_or_cons ',' (Text.skipBlanks s) with hstops | ⟨r, hcomma⟩
    · rw [morePatterns_of_stops scope hstops] at h
      cases h
      exact ⟨[], rfl, hstops, rfl⟩
    · rw [morePatterns_of_comma scope hcomma] at h
      obtain ⟨before, hs⟩ := split_blanks s
      rw [hcomma] at hs
      split at h
      case h_1 => cases h
      case h_2 p r' hp =>
        split at h
        case h_1 => cases h
        case h_2 qs r'' hm =>
          cases h
          obtain ⟨atom, hatom, hfits, rfl⟩ := atom_of_pattern hp
          obtain ⟨behind, hr⟩ := split_blanks r
          have hlt := pattern_shorter hp
          have hle := congrArg List.length hs
          rw [List.length_append, List.length_cons] at hle
          obtain ⟨more, rfl, hmore, rfl⟩ := ih r'.length (by omega) hm rfl
          refine ⟨⟨before, behind, atom⟩ :: more, ?_, ⟨hfits, hmore⟩, rfl⟩
          rw [hs, hr, hatom, List.flatMap_cons, Further.text]
          simp

theorem patterns_skipBlanks (scope : Nat) (s : List Char) :
    patterns scope (Text.skipBlanks s) = patterns scope s := by
  rw [patterns, patterns, pattern_skipBlanks]

theorem patterns_append (scope : Nat) {items : Items} (h : items.Fits rest) :
    patterns scope (items.text ++ rest) = .ok (items.patterns scope, rest) := by
  rw [patterns, Items.text, List.append_assoc, List.append_assoc,
    pattern_append scope items.lead h.1]
  simp only [morePatterns_append scope h.2]
  rfl

theorem items_of_patterns {ps : List Pattern} (h : patterns scope s = .ok (ps, rest)) :
    ∃ items : Items, s = items.text ++ rest ∧ items.Fits rest ∧ items.patterns scope = ps := by
  simp only [patterns] at h
  split at h
  case h_1 => cases h
  case h_2 p r hp =>
    split at h
    case h_1 => cases h
    case h_2 qs r' hm =>
      cases h
      obtain ⟨lead, hs⟩ := split_blanks s
      obtain ⟨atom, hatom, hfits, rfl⟩ := atom_of_pattern hp
      obtain ⟨more, rfl, hmore, rfl⟩ := further_of_morePatterns hm
      refine ⟨⟨lead, atom, more⟩, ?_, ⟨hfits, hmore⟩, rfl⟩
      rw [hs, hatom, Items.text]
      simp

/-! ## Arguments and return clauses -/

theorem arguments_of_close (scope : Nat) {r : List Char} (h : Text.skipBlanks s = ')' :: r) :
    arguments scope s = .ok ([], ')' :: r) := by
  rw [arguments, h]
  rfl

theorem arguments_of_stops (scope : Nat) (h : Stops (· = ')') (Text.skipBlanks s)) :
    arguments scope s = patterns scope s := by
  rw [arguments]
  split
  case h_1 r hskip =>
    rw [hskip, stops_cons] at h
    cases h
  case h_2 => exact patterns_skipBlanks scope s

theorem skipBlanks_items (items : Items) (rest : List Char) :
    ∃ c t, Text.skipBlanks (items.text ++ rest) = c :: t ∧ endsLiteral c = false := by
  rw [Items.text, List.append_assoc, skipBlanks_append, List.append_assoc,
    Atom.skipBlanks_text]
  obtain ⟨c, t, htext, -, hends⟩ := items.first.text_cons
  rw [htext]
  exact ⟨c, _, rfl, hends⟩

theorem skipBlanks_close (close : Blanks) (rest : List Char) :
    Text.skipBlanks (close.chars ++ ')' :: rest) = ')' :: rest := by
  rw [skipBlanks_append]
  exact skipBlanks_of_stops ((stops_cons _ _ _).mpr (by decide))

theorem arguments_append (scope : Nat) {args : Option Items} {close : Blanks}
    (h : ∀ items ∈ args, items.Fits (close.chars ++ ')' :: rest)) :
    ∃ r, arguments scope (argsText args ++ (close.chars ++ ')' :: rest)) =
        .ok ((args.map (Items.patterns scope)).getD [], r) ∧ expect ')' r = .ok rest := by
  cases args with
  | none =>
    -- The blanks are gone here, since they were skipped to look for the parenthesis.
    refine ⟨')' :: rest, arguments_of_close scope (skipBlanks_close close rest), ?_⟩
    exact expect_append (by decide) Blanks.none rest
  | some items =>
    refine ⟨close.chars ++ ')' :: rest, ?_, expect_append (by decide) close rest⟩
    have hstops : Stops (· = ')')
        (Text.skipBlanks (items.text ++ (close.chars ++ ')' :: rest))) := by
      obtain ⟨c, t, hskip, hends⟩ := skipBlanks_items items (close.chars ++ ')' :: rest)
      rw [hskip, stops_cons, decide_eq_false_iff_not]
      rintro rfl
      cases hends
    have hargs := arguments_of_stops scope hstops
    rw [patterns_append scope (h items rfl)] at hargs
    exact hargs

theorem args_of_arguments {ps : List Pattern} {r : List Char}
    (h : arguments scope s = .ok (ps, r)) (hr : expect ')' r = .ok rest) :
    ∃ (args : Option Items) (close : Blanks),
      s = argsText args ++ (close.chars ++ ')' :: rest) ∧
      (∀ items ∈ args, items.Fits (close.chars ++ ')' :: rest)) ∧
      (args.map (Items.patterns scope)).getD [] = ps := by
  rcases stops_or_cons ')' (Text.skipBlanks s) with hstops | ⟨t, hclose⟩
  · rw [arguments_of_stops scope hstops] at h
    obtain ⟨items, rfl, hfits, rfl⟩ := items_of_patterns h
    obtain ⟨close, rfl⟩ := text_of_expect hr
    refine ⟨some items, close, rfl, ?_, rfl⟩
    rintro _ ⟨⟩
    exact hfits
  · rw [arguments_of_close scope hclose] at h
    cases h
    obtain ⟨blanks, hs⟩ := split_blanks s
    rw [hclose] at hs
    have hskip : expect ')' (')' :: t) = .ok t := expect_append (by decide) Blanks.none t
    rw [hskip] at hr
    cases hr
    refine ⟨none, blanks, hs, ?_, rfl⟩
    rintro _ ⟨⟩

theorem returnClause_of_not_arrow (scope : Nat) (h : ¬['-', '>'] <+: Text.skipBlanks s) :
    returnClause scope s = .ok (none, s) := by
  rw [returnClause]
  split
  case h_1 r hskip =>
    rw [hskip] at h
    exact absurd ⟨r, rfl⟩ h
  case h_2 => rfl

theorem returnClause_of_arrow (scope : Nat) {r : List Char}
    (h : Text.skipBlanks s = '-' :: '>' :: r) :
    returnClause scope s =
      match patterns scope r with
      | .error stop => .error stop
      | .ok (ps, r) => .ok (some ps, r) := by
  rw [returnClause, h]
  rfl

theorem skipBlanks_arrow (arrow : Arrow) (rest : List Char) :
    Text.skipBlanks (Arrow.textOf (some arrow) ++ rest) =
      '-' :: '>' :: (arrow.items.text ++ rest) := by
  rw [Arrow.textOf, List.append_assoc, skipBlanks_append]
  exact skipBlanks_of_stops ((stops_cons _ _ _).mpr (by decide))

theorem returnClause_append (scope : Nat) {returns : Option Arrow}
    (h : Arrow.FitsOf rest returns) :
    returnClause scope (Arrow.textOf returns ++ rest) =
      .ok (returns.map fun arrow => arrow.items.patterns scope, rest) := by
  cases returns with
  | none => exact returnClause_of_not_arrow scope h
  | some arrow =>
    rw [returnClause_of_arrow scope (skipBlanks_arrow arrow rest), patterns_append scope h]
    rfl

theorem arrow_of_returnClause {ps : Option (List Pattern)}
    (h : returnClause scope s = .ok (ps, rest)) :
    ∃ returns : Option Arrow, s = Arrow.textOf returns ++ rest ∧
      Arrow.FitsOf rest returns ∧
      (returns.map fun arrow => arrow.items.patterns scope) = ps := by
  by_cases harrow : ['-', '>'] <+: Text.skipBlanks s
  · obtain ⟨r, hskip⟩ := harrow
    obtain ⟨before, hs⟩ := split_blanks s
    rw [returnClause_of_arrow scope hskip.symm] at h
    split at h
    case h_1 => cases h
    case h_2 qs r' hp =>
      cases h
      obtain ⟨items, rfl, hfits, rfl⟩ := items_of_patterns hp
      refine ⟨some ⟨before, items⟩, ?_, hfits, rfl⟩
      rw [hs, ← hskip, Arrow.textOf]
      simp
  · rw [returnClause_of_not_arrow scope harrow] at h
    cases h
    exact ⟨none, rfl, harrow, rfl⟩

/-! ## Call lines -/

namespace CallForm

theorem text_append (form : CallForm) (rest : List Char) :
    form.text ++ rest = form.name.chars ++ (form.gap.chars ++ '(' ::
      (argsText form.args ++ (form.close.chars ++ ')' ::
        (Arrow.textOf form.returns ++ rest)))) := by
  simp [text, inner]

theorem stops_gap (gap : Blanks) (s : List Char) : Stops isNameChar (gap.chars ++ '(' :: s) := by
  obtain ⟨chars, hblank⟩ := gap
  cases chars with
  | nil => exact (stops_cons _ _ _).mpr (by decide)
  | cons c t =>
    refine (stops_cons _ c _).mpr ?_
    rw [← Bool.not_eq_true]
    intro hname
    have hc := hblank c List.mem_cons_self
    rw [not_blank_of_isNameChar hname] at hc
    cases hc

/-- **A call line does not start at a keyword.** -/
theorem keyword?_text (form : CallForm) (rest : List Char) :
    keyword? (form.text ++ rest) = none := by
  rw [text_append]
  refine keyword?_eq_none form.name (stops_gap _ _) fun hreserved => ?_
  rw [form.not_keyword hreserved]
  rfl

theorem text_cons (form : CallForm) : ∃ c t, form.text = c :: t ∧ isLetter c = true :=
  ⟨form.name.head, _, rfl, form.name.letter⟩

theorem skipBlanks_text (form : CallForm) (rest : List Char) :
    Text.skipBlanks (form.text ++ rest) = form.text ++ rest := by
  obtain ⟨c, t, htext, hletter⟩ := form.text_cons
  rw [htext, List.cons_append]
  exact skipBlanks_of_stops ((stops_cons _ c _).mpr (not_blank_of_isLetter hletter))

end CallForm

theorem call_append (scope : Nat) {form : CallForm} (h : form.Fits rest) :
    call scope (form.text ++ rest) = .ok (form.line scope, rest) := by
  obtain ⟨r, hargs, hclose⟩ := arguments_append scope h.args
  rw [form.text_append, call, word?_append form.name (CallForm.stops_gap _ _)]
  simp only [expect_append (by decide : Text.isBlank '(' = false) form.gap, hargs, hclose,
    returnClause_append scope h.returns]
  rfl

/-- A blank behind a word spelled like a keyword would have made it one. -/
theorem gap_of_reserved {name : Word} {gap : Blanks}
    (h : keyword? (name.chars ++ (gap.chars ++ s)) = none) (hreserved : name.Reserved) :
    gap.chars = [] := by
  have hends := not_endsKeyword_of_reserved hreserved h
  obtain ⟨chars, hblank⟩ := gap
  cases chars with
  | nil => rfl
  | cons c t =>
    have hc : Text.isBlank c = false := hends
    rw [hblank c List.mem_cons_self] at hc
    cases hc

theorem form_of_call {line : Line} (h : call scope s = .ok (line, rest))
    (hk : keyword? s = none) :
    ∃ form : CallForm, s = form.text ++ rest ∧ form.Fits rest ∧ form.line scope = line := by
  simp only [call] at h
  split at h
  case h_1 => cases h
  case h_2 text r₀ hword =>
    obtain ⟨name, rfl, rfl, hstops⟩ := word_of_word? hword
    split at h
    case h_1 => cases h
    case h_2 r₁ hopen =>
      obtain ⟨gap, rfl⟩ := text_of_expect hopen
      split at h
      case h_1 => cases h
      case h_2 ps r₂ hargs =>
        split at h
        case h_1 => cases h
        case h_2 r₃ hclose =>
          obtain ⟨args, close, rfl, hfits, rfl⟩ := args_of_arguments hargs hclose
          split at h
          case h_1 => cases h
          case h_2 qs r₄ hreturns =>
            cases h
            obtain ⟨returns, rfl, harrow, rfl⟩ := arrow_of_returnClause hreturns
            have hnot := gap_of_reserved hk
            refine ⟨⟨name, gap, args, close, returns, hnot⟩, ?_, ⟨?_, harrow⟩, rfl⟩
            · rw [CallForm.text_append]
            · exact hfits

end Synchrony.Source
