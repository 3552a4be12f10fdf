import Mathlib.Data.List.TakeWhile
import Synchrony.Proofs.Rule.Forms

/-!
# Scanning

Blanks, the rest of a word and the inside of a literal are runs of characters that go on as long
as they can. All of them are read by the same two functions, so what is needed of runs is said once:
a run can be read back where it stops, whatever is read was a run that stops there, and a text
splits in one way only into such a run and the rest. The rest of the module says the same of the
tokens of a source.
-/

set_option autoImplicit false

namespace Synchrony.Source

/-! ## Runs -/

section Runs

variable {p : Char → Bool} {run rest run' rest' : List Char}

@[simp] theorem stops_nil (p : Char → Bool) : Stops p [] := by
  intro c hc
  cases hc

@[simp] theorem stops_cons (p : Char → Bool) (c : Char) (s : List Char) :
    Stops p (c :: s) ↔ p c = false := by
  simp [Stops]

theorem stops_or_cons (c : Char) (s : List Char) : Stops (· = c) s ∨ ∃ r, s = c :: r := by
  cases s with
  | nil => exact Or.inl (stops_nil _)
  | cons d t =>
    by_cases h : d = c
    · exact Or.inr ⟨t, by rw [h]⟩
    · exact Or.inl ((stops_cons _ d t).mpr (decide_eq_false h))

theorem stops_dropWhile (p : Char → Bool) (s : List Char) : Stops p (s.dropWhile p) := by
  intro c hc
  have hne : s.dropWhile p ≠ [] := by
    intro hnil
    rw [hnil] at hc
    cases hc
  have hhead := List.head_dropWhile_not p hne
  rw [List.head?_eq_some_head hne] at hc
  cases hc
  simpa using hhead

theorem all_takeWhile (p : Char → Bool) (s : List Char) : ∀ c ∈ s.takeWhile p, p c = true :=
  List.all_eq_true.mp List.all_takeWhile

theorem takeWhile_run (hrun : ∀ c ∈ run, p c = true) (hrest : Stops p rest) :
    (run ++ rest).takeWhile p = run := by
  rw [List.takeWhile_append_of_pos hrun]
  cases rest with
  | nil => simp
  | cons c s => simp [(stops_cons p c s).mp hrest]

theorem dropWhile_run (hrun : ∀ c ∈ run, p c = true) (hrest : Stops p rest) :
    (run ++ rest).dropWhile p = rest := by
  rw [List.dropWhile_append_of_pos hrun]
  cases rest with
  | nil => rfl
  | cons c s => simp [(stops_cons p c s).mp hrest]

/-- A text splits in one way only into a run and what stops it. -/
theorem run_unique (hrun : ∀ c ∈ run, p c = true) (hrest : Stops p rest)
    (hrun' : ∀ c ∈ run', p c = true) (hrest' : Stops p rest')
    (h : run ++ rest = run' ++ rest') : run = run' ∧ rest = rest' := by
  constructor
  · rw [← takeWhile_run hrun hrest, h, takeWhile_run hrun' hrest']
  · rw [← dropWhile_run hrun hrest, h, dropWhile_run hrun' hrest']

end Runs

/-! ## Classes of characters -/

theorem isNameChar_range {c : Char} (h : isNameChar c = true) :
    33 ≤ c.toNat ∧ c.toNat ≤ 122 := by
  simp only [isNameChar, isLetter, Decimal.isDigit, Bool.or_eq_true, Bool.and_eq_true,
    decide_eq_true_eq] at h
  rcases h with ((((((h | h) | rfl) | rfl) | rfl) | rfl) | rfl) | rfl
  · omega
  · omega
  all_goals decide

theorem not_blank_of_isNameChar {c : Char} (h : isNameChar c = true) :
    Text.isBlank c = false := by
  obtain ⟨hlow, hhigh⟩ := isNameChar_range h
  simp only [Text.isBlank, Bool.or_eq_false_iff, Bool.and_eq_false_iff, decide_eq_false_iff_not,
    beq_eq_false_iff_ne]
  omega

theorem isNameChar_of_isLetter {c : Char} (h : isLetter c = true) : isNameChar c = true := by
  simp [isNameChar, h]

theorem not_blank_of_isLetter {c : Char} (h : isLetter c = true) : Text.isBlank c = false :=
  not_blank_of_isNameChar (isNameChar_of_isLetter h)

theorem not_endsLiteral_of_isLetter {c : Char} (h : isLetter c = true) :
    endsLiteral c = false := by
  simp only [isLetter, Bool.or_eq_true, Bool.and_eq_true, decide_eq_true_eq] at h
  simp only [endsLiteral, Bool.or_eq_false_iff, decide_eq_false_iff_not]
  refine ⟨⟨⟨?_, ?_⟩, ?_⟩, ?_⟩
  all_goals
    rintro rfl
    revert h
    decide

/-! ## Blanks -/

theorem skipBlanks_append (blanks : Blanks) (s : List Char) :
    Text.skipBlanks (blanks.chars ++ s) = Text.skipBlanks s := by
  rw [Text.skipBlanks, List.dropWhile_append_of_pos blanks.blank]
  rfl

theorem skipBlanks_of_stops {s : List Char} (h : Stops Text.isBlank s) :
    Text.skipBlanks s = s :=
  dropWhile_run (fun _ hc => absurd hc List.not_mem_nil) h

theorem stops_skipBlanks (s : List Char) : Stops Text.isBlank (Text.skipBlanks s) :=
  stops_dropWhile _ s

theorem split_blanks (s : List Char) :
    ∃ blanks : Blanks, s = blanks.chars ++ Text.skipBlanks s :=
  ⟨⟨s.takeWhile Text.isBlank, all_takeWhile _ s⟩, List.takeWhile_append_dropWhile.symm⟩

theorem Blanks.unique {blanks blanks' : Blanks} {rest rest' : List Char}
    (hrest : Stops Text.isBlank rest) (hrest' : Stops Text.isBlank rest')
    (h : blanks.chars ++ rest = blanks'.chars ++ rest') : blanks = blanks' ∧ rest = rest' := by
  obtain ⟨chars, hblank⟩ := blanks
  obtain ⟨chars', hblank'⟩ := blanks'
  obtain ⟨rfl, rfl⟩ := run_unique hblank hrest hblank' hrest' h
  exact ⟨rfl, rfl⟩

/-! ## Words -/

theorem Word.toList_text (word : Word) {text : String} (h : word.text = text) :
    word.chars = text.toList := by
  rw [← h, Word.text, String.toList_ofList]

theorem word?_append (word : Word) {rest : List Char} (h : Stops isNameChar rest) :
    word? (word.chars ++ rest) = some (word.text, rest) := by
  simp only [Word.chars, List.cons_append, word?, word.letter, if_true,
    takeWhile_run word.names h, dropWhile_run word.names h]
  rfl

theorem word_of_word? {s : List Char} {text : String} {rest : List Char}
    (h : word? s = some (text, rest)) :
    ∃ word : Word, s = word.chars ++ rest ∧ word.text = text ∧ Stops isNameChar rest := by
  cases s with
  | nil => cases h
  | cons c t =>
    simp only [word?] at h
    split at h
    case isFalse => cases h
    case isTrue hletter =>
      cases h
      refine ⟨⟨c, t.takeWhile isNameChar, hletter, all_takeWhile _ t⟩, ?_, rfl,
        stops_dropWhile _ t⟩
      rw [Word.chars, List.cons_append, List.takeWhile_append_dropWhile]

theorem word?_of_not_letter {s : List Char} (h : Stops isLetter s) : word? s = none := by
  cases s with
  | nil => rfl
  | cons c t => simp [word?, (stops_cons isLetter c t).mp h]

theorem stops_of_word?_eq_none {s : List Char} (h : word? s = none) : Stops isLetter s := by
  cases s with
  | nil => exact stops_nil _
  | cons c t =>
    rw [stops_cons, ← Bool.not_eq_true]
    intro hletter
    simp [word?, hletter] at h

theorem Word.unique {word word' : Word} {rest rest' : List Char}
    (hrest : Stops isNameChar rest) (hrest' : Stops isNameChar rest')
    (h : word.chars ++ rest = word'.chars ++ rest') : word = word' ∧ rest = rest' := by
  obtain ⟨c, tail, hletter, hnames⟩ := word
  obtain ⟨c', tail', hletter', hnames'⟩ := word'
  simp only [Word.chars, List.cons_append, List.cons.injEq] at h
  obtain ⟨rfl, htail⟩ := h
  obtain ⟨rfl, rfl⟩ := run_unique hnames hrest hnames' hrest' htail
  exact ⟨rfl, rfl⟩

/-! ## Literals -/

/-- What does not start with a blank keeps its first character. -/
theorem trim_cons {c : Char} {t : List Char} (h : Text.isBlank c = false) :
    ∃ more, Text.trim (c :: t) = c :: more := by
  have hskip : Text.skipBlanks (c :: t) = c :: t :=
    skipBlanks_of_stops ((stops_cons _ c t).mpr h)
  have hdrop : (t.reverse ++ [c]).dropWhile Text.isBlank =
      t.reverse.dropWhile Text.isBlank ++ [c] := by
    rw [List.dropWhile_append]
    split
    next hnil => rw [List.isEmpty_iff.mp hnil, List.dropWhile_cons_of_neg (by simp [h])]; rfl
    next => rfl
  refine ⟨(t.reverse.dropWhile Text.isBlank).reverse, ?_⟩
  rw [Text.trim, hskip, Text.trimEnd, List.reverse_cons, hdrop, List.reverse_append]
  rfl

theorem trim_of_stops {s : List Char} (hhead : Stops Text.isBlank s)
    (hlast : Stops Text.isBlank s.reverse) : Text.trim s = s := by
  have hend : Text.skipBlanks s.reverse = s.reverse := skipBlanks_of_stops hlast
  rw [Text.skipBlanks] at hend
  rw [Text.trim, skipBlanks_of_stops hhead, Text.trimEnd, hend, List.reverse_reverse]

theorem Literal.exists_of_read {s : List Char} {value : Value} (hletter : Stops isLetter s)
    (hblank : Stops Text.isBlank s) (hlast : Stops Text.isBlank s.reverse)
    (hinside : ∀ c ∈ s, endsLiteral c = false) (hreads : Json.read? s = some value)
    (hscalar : isLiteral value = true) : ∃ l : Literal, l.chars = s ∧ l.value = value := by
  cases s with
  | nil => cases hreads
  | cons c t =>
    refine ⟨⟨c, t, value, (stops_cons _ _ _).mp hletter, (stops_cons _ _ _).mp hblank, hinside,
      ?_, hscalar⟩, rfl, rfl⟩
    rw [trim_of_stops hblank hlast, hreads]

theorem literal_append (l : Literal) {rest : List Char}
    (h : Stops (fun c => !endsLiteral c) rest) :
    literal (l.chars ++ rest) = .ok (l.value, rest) := by
  have hinside : ∀ c ∈ l.chars, (!endsLiteral c) = true := by
    intro c hc
    rw [l.inside c hc]
    rfl
  have hne : (Text.trim l.chars).isEmpty = false := by
    obtain ⟨more, htrim⟩ := trim_cons (t := l.tail) l.not_blank
    rw [Literal.chars, htrim]
    rfl
  have hreads : Json.read? (Text.trim l.chars) = some l.value := l.reads
  simp only [literal, takeWhile_run hinside h, dropWhile_run hinside h, hne, hreads, l.scalar]
  rfl

theorem literal_of_literal {s : List Char} {value : Value} {rest : List Char}
    (h : literal s = .ok (value, rest)) (hblank : Stops Text.isBlank s)
    (hletter : Stops isLetter s) :
    ∃ l : Literal, s = l.chars ++ rest ∧ l.value = value ∧
      Stops (fun c => !endsLiteral c) rest := by
  simp only [literal] at h
  split at h
  case isTrue => cases h
  case isFalse hraw =>
    split at h
    case h_1 => cases h
    case h_2 found hreads =>
      split at h
      case isFalse => cases h
      case isTrue hscalar =>
        cases h
        have hsplit : s.takeWhile (fun c => !endsLiteral c) ++
            s.dropWhile (fun c => !endsLiteral c) = s := List.takeWhile_append_dropWhile
        have hall := all_takeWhile (fun c => !endsLiteral c) s
        have hstops := stops_dropWhile (fun c => !endsLiteral c) s
        generalize s.takeWhile (fun c => !endsLiteral c) = run at hraw hreads hsplit hall
        generalize s.dropWhile (fun c => !endsLiteral c) = rest at hsplit hstops ⊢
        subst hsplit
        -- The run is not empty, since an empty one has been refused.
        cases run with
        | nil => exact absurd rfl hraw
        | cons c t =>
          refine ⟨⟨c, t, value, (stops_cons isLetter c _).mp hletter,
            (stops_cons Text.isBlank c _).mp hblank, ?_, hreads, hscalar⟩, rfl, rfl, hstops⟩
          intro d hd
          simpa using hall d hd

/-- A literal that is refused is refused where it starts. -/
theorem rest_of_literal_error {s : List Char} {stop : Stop} (h : literal s = .error stop) :
    stop.rest = s := by
  simp only [literal] at h
  split at h
  case isTrue =>
    cases h
    rfl
  case isFalse =>
    split at h
    case h_1 =>
      cases h
      rfl
    case h_2 =>
      split at h
      case isTrue => cases h
      case isFalse =>
        cases h
        rfl

theorem Literal.unique {l l' : Literal} {rest rest' : List Char}
    (hrest : Stops (fun c => !endsLiteral c) rest)
    (hrest' : Stops (fun c => !endsLiteral c) rest')
    (h : l.chars ++ rest = l'.chars ++ rest') : l = l' ∧ rest = rest' := by
  have hinside (l : Literal) : ∀ c ∈ l.chars, (!endsLiteral c) = true := by
    intro c hc
    rw [l.inside c hc]
    rfl
  have hunique := run_unique (hinside l) hrest (hinside l') hrest' h
  obtain ⟨c, t, value, _, _, _, hreads, _⟩ := l
  obtain ⟨c', t', value', _, _, _, hreads', _⟩ := l'
  obtain ⟨hchars, rfl⟩ := hunique
  cases hchars
  rw [hreads] at hreads'
  cases hreads'
  exact ⟨rfl, rfl⟩

/-! ## Keywords -/

theorem stops_of_endsKeyword {s : List Char} (h : endsKeyword s = true) :
    Stops isNameChar s := by
  cases s with
  | nil => exact stops_nil _
  | cons c t =>
    rw [stops_cons, ← Bool.not_eq_true]
    intro hname
    have hblank : Text.isBlank c = true := h
    rw [not_blank_of_isNameChar hname] at hblank
    cases hblank

def Keyword.word : Keyword → Word
  | .when => ⟨'w', ['h', 'e', 'n'], rfl, List.all_eq_true.mp rfl⟩
  | .sync => ⟨'s', ['y', 'n', 'c'], rfl, List.all_eq_true.mp rfl⟩

theorem Keyword.chars_word (k : Keyword) : k.word.chars = k.text.toList := by
  cases k <;> rfl

theorem Keyword.text_word (k : Keyword) : k.word.text = k.text := by
  cases k <;> rfl

theorem keyword?_append (k : Keyword) {s : List Char} (h : endsKeyword s = true) :
    keyword? (k.text.toList ++ s) = some (k, s) := by
  rw [← k.chars_word, keyword?, word?_append _ (stops_of_endsKeyword h), k.text_word]
  cases k <;> simp [h, Keyword.text]

theorem text_of_keyword? {s rest : List Char} {k : Keyword} (h : keyword? s = some (k, rest)) :
    s = k.text.toList ++ rest ∧ endsKeyword rest = true := by
  simp only [keyword?] at h
  split at h
  case h_2 => cases h
  case h_1 text r hword =>
    obtain ⟨word, rfl, rfl, -⟩ := word_of_word? hword
    split at h
    case isFalse => cases h
    case isTrue hends =>
      split at h
      case isTrue hwhen =>
        cases h
        exact ⟨by rw [word.toList_text hwhen]; rfl, hends⟩
      case isFalse =>
        split at h
        case isFalse => cases h
        case isTrue hsync =>
          cases h
          exact ⟨by rw [word.toList_text hsync]; rfl, hends⟩

theorem keyword?_eq_none (word : Word) {s : List Char} (hs : Stops isNameChar s)
    (h : word.Reserved → endsKeyword s = false) : keyword? (word.chars ++ s) = none := by
  simp only [keyword?, word?_append word hs]
  by_cases hreserved : word.Reserved
  · rw [h hreserved]
    rfl
  · rw [Word.Reserved, not_or] at hreserved
    simp [hreserved.1, hreserved.2]

theorem not_endsKeyword_of_reserved {word : Word} {s : List Char} (hreserved : word.Reserved)
    (h : keyword? (word.chars ++ s) = none) : endsKeyword s = false := by
  rw [← Bool.not_eq_true]
  intro hends
  rcases hreserved with htext | htext
  · have hchars : word.chars = Keyword.when.text.toList := word.toList_text htext
    have hkeyword := keyword?_append .when hends
    rw [← hchars, h] at hkeyword
    cases hkeyword
  · have hchars : word.chars = Keyword.sync.text.toList := word.toList_text htext
    have hkeyword := keyword?_append .sync hends
    rw [← hchars, h] at hkeyword
    cases hkeyword

theorem keyword_append (k : Keyword) (blanks : Blanks) {s : List Char}
    (h : endsKeyword s = true) :
    keyword k (blanks.chars ++ (k.text.toList ++ s)) = .ok s := by
  have hstops : Stops Text.isBlank (k.text.toList ++ s) := by
    rw [← k.chars_word]
    exact (stops_cons _ _ _).mpr (not_blank_of_isLetter k.word.letter)
  rw [keyword, skipBlanks_append, skipBlanks_of_stops hstops, keyword?_append k h]
  simp

theorem text_of_keyword {k : Keyword} {s rest : List Char} (h : keyword k s = .ok rest) :
    Text.skipBlanks s = k.text.toList ++ rest ∧ endsKeyword rest = true := by
  simp only [keyword] at h
  split at h
  case h_2 => cases h
  case h_1 found r hfound =>
    split at h
    case isFalse => cases h
    case isTrue heq =>
      cases h
      subst heq
      exact text_of_keyword? hfound

theorem rest_of_keyword_error {k : Keyword} {s : List Char} {stop : Stop}
    (h : keyword k s = .error stop) : stop.rest = Text.skipBlanks s := by
  simp only [keyword] at h
  split at h
  case h_1 =>
    split at h
    case isTrue => cases h
    case isFalse =>
      cases h
      rfl
  case h_2 =>
    cases h
    rfl

/-! ## Single characters -/

theorem expect_append {c : Char} (hc : Text.isBlank c = false) (blanks : Blanks)
    (s : List Char) : expect c (blanks.chars ++ c :: s) = .ok s := by
  rw [expect, skipBlanks_append, skipBlanks_of_stops ((stops_cons _ c s).mpr hc)]
  simp

theorem text_of_expect {c : Char} {s rest : List Char} (h : expect c s = .ok rest) :
    ∃ blanks : Blanks, s = blanks.chars ++ c :: rest := by
  obtain ⟨blanks, hs⟩ := split_blanks s
  simp only [expect] at h
  split at h
  case h_2 => cases h
  case h_1 d r hskip =>
    split at h
    case isFalse => cases h
    case isTrue heq =>
      cases h
      rw [hskip, heq] at hs
      exact ⟨blanks, hs⟩

theorem rest_of_expect_error {c : Char} {s : List Char} {stop : Stop}
    (h : expect c s = .error stop) : stop.rest = Text.skipBlanks s := by
  simp only [expect] at h
  split at h
  case h_1 d r hskip =>
    split at h
    case isTrue => cases h
    case isFalse =>
      cases h
      exact hskip.symm
  case h_2 hskip =>
    cases h
    exact hskip.symm

end Synchrony.Source
