import Synchrony.Proofs.Rule.Grammar

/-!
# Rules laid out line by line

The grammar leaves the writer of rules much freedom. A **draft** says what a rule consists of and
leaves the blanks out; this module puts them in, in one way: each keyword and each call line on a
text line of its own, call lines indented, an empty line between rules.

## Nothing runs on

What is laid out this way is complete wherever it ends (`RuleForm.fitAll_laidOut`). Behind every
call line there is a line break, and the next thing that is not blank is a letter or nothing, so
that no word goes on and neither a comma nor an arrow follows. Text that is laid out can therefore
be read back without looking into the grammar again.
-/

set_option autoImplicit false

namespace Synchrony.Source

namespace Blanks

def newline : Blanks :=
  ⟨['\n'], List.all_eq_true.mp rfl⟩

def emptyLine : Blanks :=
  ⟨['\n', '\n'], List.all_eq_true.mp rfl⟩

def indent : Blanks :=
  ⟨['\n', ' ', ' '], List.all_eq_true.mp rfl⟩

end Blanks

/-! ## Drafts -/

/-- A call line without its blanks. No return patterns stand for no return clause. -/
structure CallDraft where
  name : Word
  args : List Atom
  returns : List Atom

/-- A rule without its blanks. -/
structure RuleDraft where
  trigger : CallDraft
  guards : List CallDraft
  first : CallDraft
  more : List CallDraft

/-- Positions behind each other, with a blank behind each comma. -/
def Items.laidOut (lead : Blanks) : List Atom → Option Items
  | [] => none
  | first :: more => some ⟨lead, first, more.map fun atom => ⟨.none, .space, atom⟩⟩

def CallForm.laidOut (draft : CallDraft) : CallForm where
  name := draft.name
  gap := .none
  args := Items.laidOut .none draft.args
  close := .none
  returns := (Items.laidOut .space draft.returns).map (Arrow.mk .space)
  not_keyword _ := rfl

def Entry.laidOut (draft : CallDraft) : Entry :=
  ⟨.indent, CallForm.laidOut draft⟩

def ClauseForm.laidOut (first : CallDraft) (more : List CallDraft) (close : Blanks) :
    ClauseForm where
  first := Entry.laidOut first
  more := more.map Entry.laidOut
  close := close
  apart := List.cons_ne_nil _ _

def RuleForm.laidOut (draft : RuleDraft) (close : Blanks) : RuleForm where
  conditions := .laidOut draft.trigger draft.guards .newline
  consequences := .laidOut draft.first draft.more close

/-- The last rule ends with its line, and behind every other an empty line follows. -/
def RuleForm.allLaidOut : List RuleDraft → List RuleForm
  | [] => []
  | [draft] => [.laidOut draft .newline]
  | draft :: more => .laidOut draft .emptyLine :: allLaidOut more

/-- Rules laid out behind an empty text line. -/
def SourceForm.laidOut (drafts : List RuleDraft) : SourceForm :=
  ⟨.newline, RuleForm.allLaidOut drafts⟩

/-! ## Why nothing runs on -/

/-- What may follow a call line: a line break, and behind the blanks a letter or nothing. -/
structure Calm (rest : List Char) : Prop where
  breaks : rest.head? = some '\n'
  behind : ∀ c ∈ (Text.skipBlanks rest).head?, isLetter c = true

section Letter

variable {rest : List Char} (h : ∀ c ∈ (Text.skipBlanks rest).head?, isLetter c = true)

include h

theorem no_comma_of_letter : Stops (· = ',') (Text.skipBlanks rest) := by
  intro c hc
  have hletter := h c hc
  refine decide_eq_false ?_
  rintro rfl
  cases hletter

theorem no_arrow_of_letter : Arrow.FitsOf rest none := by
  rintro ⟨behind, hbehind⟩
  have hletter := h '-' (by rw [← hbehind]; rfl)
  cases hletter

end Letter

theorem Atom.fits_of_head (atom : Atom) {c : Char} {rest : List Char}
    (hname : isNameChar c = false) (hends : endsLiteral c = true) :
    atom.Fits (c :: rest) := by
  cases atom with
  | word w => exact (stops_cons _ _ _).mpr hname
  | literal l =>
    refine (stops_cons _ _ _).mpr ?_
    rw [hends]
    rfl

namespace Calm

variable {rest : List Char}

theorem fits (h : Calm rest) (atom : Atom) : atom.Fits rest := by
  cases rest with
  | nil => cases h.breaks
  | cons c rest =>
    cases h.breaks
    exact atom.fits_of_head rfl rfl

theorem no_comma (h : Calm rest) : Stops (· = ',') (Text.skipBlanks rest) :=
  no_comma_of_letter h.behind

theorem no_arrow (h : Calm rest) : Arrow.FitsOf rest none :=
  no_arrow_of_letter h.behind

theorem of_blanks {blanks : Blanks} (hbreaks : blanks.chars.head? = some '\n') (word : Word)
    (rest : List Char) : Calm (blanks.chars ++ (word.chars ++ rest)) where
  breaks := by
    rw [List.head?_append, hbreaks]
    rfl
  behind := by
    rw [skipBlanks_append, skipBlanks_of_stops]
    · intro c hc
      cases hc
      exact word.letter
    · exact (stops_cons _ _ _).mpr (not_blank_of_isLetter word.letter)

end Calm

theorem calm_newline : Calm Blanks.newline.chars where
  breaks := rfl
  behind := by
    intro c hc
    cases hc

/-- Positions are complete where what follows ends each of them and brings no comma. -/
theorem Items.fits_laidOut {lead : Blanks} {atoms : List Atom} {rest : List Char}
    (hends : ∀ atom : Atom, atom.Fits rest) (hcomma : Stops (· = ',') (Text.skipBlanks rest)) :
    ∀ items ∈ Items.laidOut lead atoms, items.Fits rest := by
  have hfits (more : List Atom) (atom : Atom) :
      atom.Fits ((more.map fun atom => (⟨.none, .space, atom⟩ : Further)).flatMap
        Further.text ++ rest) := by
    cases more with
    | nil => exact hends atom
    | cons next more => exact atom.fits_of_head (by decide) (by decide)
  intro items hitems
  cases atoms with
  | nil => cases hitems
  | cons first more =>
    cases hitems
    refine ⟨hfits more first, ?_⟩
    induction more with
    | nil => exact hcomma
    | cons next more ih => exact ⟨hfits more next, ih⟩

theorem CallForm.fits_laidOut (draft : CallDraft) {rest : List Char} (h : Calm rest) :
    (CallForm.laidOut draft).Fits rest where
  args := by
    refine Items.fits_laidOut ?_ ?_
    · exact fun atom => atom.fits_of_head (by decide) (by decide)
    · rw [skipBlanks_append, skipBlanks_of_stops stops_close]
      exact (stops_cons _ _ _).mpr (by decide)
  returns := by
    have hitems : ∀ items ∈ Items.laidOut .space draft.returns, items.Fits rest :=
      Items.fits_laidOut h.fits h.no_comma
    simp only [laidOut]
    cases hreturns : Items.laidOut .space draft.returns with
    | none => exact h.no_arrow
    | some items => exact hitems items hreturns

theorem Entry.fitAll_laidOut (drafts : List CallDraft) {rest : List Char} (h : Calm rest) :
    FitAll (drafts.map Entry.laidOut) rest := by
  induction drafts with
  | nil => exact trivial
  | cons draft more ih =>
    refine ⟨CallForm.fits_laidOut draft ?_, ih⟩
    cases more with
    | nil => exact h
    | cons next more =>
      have hcalm : Calm (Blanks.indent.chars ++ _) := Calm.of_blanks rfl next.name
        ('(' :: (CallForm.laidOut next).inner ++ (more.map Entry.laidOut).flatMap text ++ rest)
      simpa [text, laidOut, CallForm.laidOut, CallForm.text, Blanks.none] using hcalm

theorem ClauseForm.fits_laidOut (first : CallDraft) (more : List CallDraft) {close : Blanks}
    {rest : List Char} (h : Calm (close.chars ++ rest)) :
    (ClauseForm.laidOut first more close).Fits rest :=
  Entry.fitAll_laidOut (first :: more) h

theorem RuleForm.fits_laidOut (draft : RuleDraft) {close : Blanks} {rest : List Char}
    (h : Calm (close.chars ++ rest)) : (RuleForm.laidOut draft close).Fits rest where
  conditions := by
    refine ClauseForm.fits_laidOut _ _ ?_
    rw [← Keyword.sync.chars_word]
    exact Calm.of_blanks rfl Keyword.sync.word _
  consequences := ClauseForm.fits_laidOut _ _ h

/-- **Rules that are laid out are complete.** -/
theorem RuleForm.fitAll_laidOut (drafts : List RuleDraft) : FitAll (allLaidOut drafts) := by
  induction drafts with
  | nil => exact trivial
  | cons draft more ih =>
    cases more with
    | nil => exact ⟨fits_laidOut draft calm_newline, trivial⟩
    | cons next more =>
      refine ⟨fits_laidOut draft ?_, ih⟩
      have hwhen (close : Blanks) (tail : List Char) :
          Calm (Blanks.emptyLine.chars ++ ((laidOut next close).text ++ tail)) := by
        rw [text, ← Keyword.when.chars_word, List.append_assoc]
        exact Calm.of_blanks rfl Keyword.when.word _
      cases more with
      | nil => exact hwhen .newline []
      | cons _ _ => exact hwhen .emptyLine _

/-- A source that is laid out derives the rules of its drafts. -/
theorem SourceForm.derives_laidOut {drafts : List RuleDraft} {source : String}
    (h : (SourceForm.laidOut drafts).text = source.toList) :
    (SourceForm.laidOut drafts).Derives source (RuleForm.rules 0 2 (RuleForm.allLaidOut drafts))
    where
  text_eq := h
  fits := RuleForm.fitAll_laidOut drafts
  rules_eq := rfl

end Synchrony.Source
