import Synchrony.Proofs.Rule.Loops

/-!
# Sources and their forms

A source is read if and only if it has a form, and then it is read as what the form stands for
(`readRules_iff`). No source has two forms (`SourceForm.Derives.unique`): where one production ends
and the next one starts is decided by the text at that place, because whatever could go on does.

That a form is unique is more than that the reader is a function. Two forms of one source could
stand for the same rules, with the blanks dealt out in another way.
-/

set_option autoImplicit false

namespace Synchrony.Source

variable {rest rest' : List Char}

/-! ## Positions -/

theorem Atom.stops_text (atom : Atom) (rest : List Char) :
    Stops Text.isBlank (atom.text ++ rest) := by
  rw [← atom.skipBlanks_text rest]
  exact stops_skipBlanks _

theorem Atom.unique {atom atom' : Atom} (hfits : atom.Fits rest) (hfits' : atom'.Fits rest')
    (h : atom.text ++ rest = atom'.text ++ rest') : atom = atom' ∧ rest = rest' := by
  -- A word starts with a letter and a literal does not, so the first character tells them apart.
  cases atom with
  | word w =>
    cases atom' with
    | word w' =>
      obtain ⟨rfl, hrest⟩ := Word.unique hfits hfits' h
      exact ⟨rfl, hrest⟩
    | literal l' =>
      have hhead : w.head = l'.head := List.head_eq_of_cons_eq h
      have hletter := l'.not_letter
      rw [← hhead, w.letter] at hletter
      cases hletter
  | literal l =>
    cases atom' with
    | word w' =>
      have hhead : l.head = w'.head := List.head_eq_of_cons_eq h
      have hletter := l.not_letter
      rw [hhead, w'.letter] at hletter
      cases hletter
    | literal l' =>
      obtain ⟨rfl, hrest⟩ := Literal.unique hfits hfits' h
      exact ⟨rfl, hrest⟩

theorem Further.not_stops (further : Further) (rest : List Char) :
    ¬Stops (· = ',') (Text.skipBlanks (further.text ++ rest)) := by
  rw [skipBlanks_comma, stops_cons]
  decide

theorem Further.unique {more more' : List Further} (hfits : FitAll more rest)
    (hfits' : FitAll more' rest')
    (h : more.flatMap text ++ rest = more'.flatMap text ++ rest') :
    more = more' ∧ rest = rest' := by
  induction more generalizing more' with
  | nil =>
    cases more' with
    | nil => exact ⟨rfl, h⟩
    | cons further' more' =>
      rw [List.flatMap_nil, List.nil_append, List.flatMap_cons, List.append_assoc] at h
      rw [FitAll, h] at hfits
      exact absurd hfits (further'.not_stops _)
  | cons further more ih =>
    cases more' with
    | nil =>
      rw [List.flatMap_nil, List.nil_append, List.flatMap_cons, List.append_assoc] at h
      rw [FitAll, ← h] at hfits'
      exact absurd hfits' (further.not_stops _)
    | cons further' more' =>
      obtain ⟨before, behind, atom⟩ := further
      obtain ⟨before', behind', atom'⟩ := further'
      simp only [List.flatMap_cons, text, List.append_assoc, List.cons_append] at h
      have hcomma {s : List Char} : Stops Text.isBlank (',' :: s) :=
        (stops_cons _ _ _).mpr (by decide)
      obtain ⟨rfl, h₁⟩ := Blanks.unique hcomma hcomma h
      obtain ⟨rfl, h₂⟩ := Blanks.unique (atom.stops_text _) (atom'.stops_text _)
        (List.tail_eq_of_cons_eq h₁)
      obtain ⟨rfl, h₃⟩ := Atom.unique hfits.1 hfits'.1 h₂
      obtain ⟨rfl, hrest⟩ := ih hfits.2 hfits'.2 h₃
      exact ⟨rfl, hrest⟩

theorem Items.unique {items items' : Items} (hfits : items.Fits rest)
    (hfits' : items'.Fits rest') (h : items.text ++ rest = items'.text ++ rest') :
    items = items' ∧ rest = rest' := by
  obtain ⟨lead, first, more⟩ := items
  obtain ⟨lead', first', more'⟩ := items'
  simp only [text, List.append_assoc] at h
  obtain ⟨rfl, h₁⟩ := Blanks.unique (first.stops_text _) (first'.stops_text _) h
  obtain ⟨rfl, h₂⟩ := Atom.unique hfits.1 hfits'.1 h₁
  obtain ⟨rfl, hrest⟩ := Further.unique hfits.2 hfits'.2 h₂
  exact ⟨rfl, hrest⟩

/-! ## Call lines -/

theorem stops_close {s : List Char} : Stops Text.isBlank (')' :: s) :=
  (stops_cons _ _ _).mpr (by decide)

theorem Items.not_close (items : Items) (close : Blanks) (s t : List Char) :
    close.chars ++ ')' :: t ≠ items.text ++ s := by
  intro h
  obtain ⟨c, u, hskip, hends⟩ := skipBlanks_items items s
  rw [← h, skipBlanks_close] at hskip
  cases hskip
  cases hends

theorem args_unique {args args' : Option Items} {close close' : Blanks}
    (hfits : ∀ items ∈ args, items.Fits (close.chars ++ ')' :: rest))
    (hfits' : ∀ items ∈ args', items.Fits (close'.chars ++ ')' :: rest'))
    (h : argsText args ++ (close.chars ++ ')' :: rest) =
      argsText args' ++ (close'.chars ++ ')' :: rest')) :
    args = args' ∧ close = close' ∧ rest = rest' := by
  cases args with
  | none =>
    cases args' with
    | none =>
      obtain ⟨hclose, hrest⟩ := Blanks.unique stops_close stops_close h
      exact ⟨rfl, hclose, List.tail_eq_of_cons_eq hrest⟩
    | some items' => exact absurd h (items'.not_close _ _ _)
  | some items =>
    cases args' with
    | none => exact absurd h.symm (items.not_close _ _ _)
    | some items' =>
      obtain ⟨rfl, h₁⟩ := Items.unique (hfits items rfl) (hfits' items' rfl) h
      obtain ⟨hclose, hrest⟩ := Blanks.unique stops_close stops_close h₁
      exact ⟨rfl, hclose, List.tail_eq_of_cons_eq hrest⟩

theorem Arrow.not_none (arrow : Arrow) (s : List Char) :
    ¬FitsOf (textOf (some arrow) ++ s) none := by
  intro h
  rw [FitsOf, skipBlanks_arrow] at h
  exact h ⟨_, rfl⟩

theorem Arrow.unique {returns returns' : Option Arrow} (hfits : FitsOf rest returns)
    (hfits' : FitsOf rest' returns') (h : textOf returns ++ rest = textOf returns' ++ rest') :
    returns = returns' ∧ rest = rest' := by
  cases returns with
  | none =>
    cases returns' with
    | none => exact ⟨rfl, h⟩
    | some arrow' =>
      have hrest : rest = textOf (some arrow') ++ rest' := h
      exact absurd (hrest ▸ hfits) (arrow'.not_none rest')
  | some arrow =>
    cases returns' with
    | none =>
      have hrest : textOf (some arrow) ++ rest = rest' := h
      exact absurd (hrest ▸ hfits') (arrow.not_none rest)
    | some arrow' =>
      obtain ⟨before, items⟩ := arrow
      obtain ⟨before', items'⟩ := arrow'
      have hdash {s : List Char} : Stops Text.isBlank ('-' :: s) :=
        (stops_cons _ _ _).mpr (by decide)
      simp only [textOf, List.append_assoc, List.cons_append] at h
      obtain ⟨rfl, h₁⟩ := Blanks.unique hdash hdash h
      obtain ⟨rfl, hrest⟩ := Items.unique hfits hfits'
        (List.tail_eq_of_cons_eq (List.tail_eq_of_cons_eq h₁))
      exact ⟨rfl, hrest⟩

theorem CallForm.unique {form form' : CallForm} (hfits : form.Fits rest)
    (hfits' : form'.Fits rest') (h : form.text ++ rest = form'.text ++ rest') :
    form = form' ∧ rest = rest' := by
  rw [text_append, text_append] at h
  obtain ⟨hargs, hreturns⟩ := hfits
  obtain ⟨hargs', hreturns'⟩ := hfits'
  obtain ⟨name, gap, args, close, returns, _⟩ := form
  obtain ⟨name', gap', args', close', returns', _⟩ := form'
  have hopen {s : List Char} : Stops Text.isBlank ('(' :: s) :=
    (stops_cons _ _ _).mpr (by decide)
  obtain ⟨rfl, h₁⟩ := Word.unique (stops_gap gap _) (stops_gap gap' _) h
  obtain ⟨rfl, h₂⟩ := Blanks.unique hopen hopen h₁
  obtain ⟨rfl, rfl, h₃⟩ := args_unique hargs hargs' (List.tail_eq_of_cons_eq h₂)
  obtain ⟨rfl, hrest⟩ := Arrow.unique hreturns hreturns' h₃
  exact ⟨rfl, hrest⟩

/-! ## Clauses and rules -/

theorem AtEnd.stops (h : AtEnd rest) : Stops Text.isBlank rest := by
  rw [← h.skipBlanks]
  exact stops_skipBlanks rest

/-- Where a clause ends, no call line of another form of it goes on. -/
theorem Entry.not_close (entry : Entry) (close : Blanks) (s : List Char) (h : AtEnd rest) :
    close.chars ++ rest ≠ entry.text ++ s := by
  intro heq
  have hskip := congrArg Text.skipBlanks heq
  rw [skipBlanks_append, h.skipBlanks, entry.skipBlanks_text] at hskip
  exact entry.call.not_atEnd s (hskip ▸ h)

theorem Entry.unique {entries entries' : List Entry} {close close' : Blanks}
    (hfits : FitAll entries (close.chars ++ rest))
    (hfits' : FitAll entries' (close'.chars ++ rest')) (hend : AtEnd rest) (hend' : AtEnd rest')
    (h : entries.flatMap text ++ (close.chars ++ rest) =
      entries'.flatMap text ++ (close'.chars ++ rest')) :
    entries = entries' ∧ close = close' ∧ rest = rest' := by
  -- A list that ends earlier would end where the other goes on, and no clause does.
  induction entries generalizing entries' with
  | nil =>
    cases entries' with
    | nil => exact ⟨rfl, Blanks.unique hend.stops hend'.stops h⟩
    | cons entry' entries' =>
      rw [List.flatMap_nil, List.nil_append, List.flatMap_cons, List.append_assoc] at h
      exact absurd h (entry'.not_close close _ hend)
  | cons entry entries ih =>
    cases entries' with
    | nil =>
      rw [List.flatMap_nil, List.nil_append, List.flatMap_cons, List.append_assoc] at h
      exact absurd h.symm (entry.not_close close' _ hend')
    | cons entry' entries' =>
      obtain ⟨lead, call⟩ := entry
      obtain ⟨lead', call'⟩ := entry'
      have hcall (call : CallForm) (s : List Char) : Stops Text.isBlank (call.text ++ s) := by
        rw [← call.skipBlanks_text s]
        exact stops_skipBlanks _
      simp only [List.flatMap_cons, text, List.append_assoc] at h
      obtain ⟨rfl, h₁⟩ := Blanks.unique (hcall call _) (hcall call' _) h
      obtain ⟨rfl, h₂⟩ := CallForm.unique hfits.1 hfits'.1 h₁
      obtain ⟨rfl, hrest⟩ := ih hfits.2 hfits'.2 h₂
      exact ⟨rfl, hrest⟩

theorem ClauseForm.unique {form form' : ClauseForm} (hfits : form.Fits rest)
    (hfits' : form'.Fits rest') (hend : AtEnd rest) (hend' : AtEnd rest')
    (h : form.text ++ rest = form'.text ++ rest') : form = form' ∧ rest = rest' := by
  rw [text_append, text_append] at h
  obtain ⟨hentries, hclose, hrest⟩ := Entry.unique hfits hfits' hend hend' h
  obtain ⟨first, more, close, _⟩ := form
  obtain ⟨first', more', close', _⟩ := form'
  cases hentries
  cases hclose
  exact ⟨rfl, hrest⟩

theorem RuleForm.unique {form form' : RuleForm} (hfits : form.Fits rest)
    (hfits' : form'.Fits rest') (hend : AtEnd rest) (hend' : AtEnd rest')
    (h : form.text ++ rest = form'.text ++ rest') : form = form' ∧ rest = rest' := by
  rw [text_append, text_append] at h
  obtain ⟨conditions, consequences⟩ := form
  obtain ⟨conditions', consequences'⟩ := form'
  obtain ⟨rfl, h₁⟩ := ClauseForm.unique hfits.1 hfits'.1 (atEnd_sync _ _) (atEnd_sync _ _)
    (List.append_cancel_left h)
  obtain ⟨rfl, hrest⟩ := ClauseForm.unique hfits.2 hfits'.2 hend hend'
    (List.append_cancel_left h₁)
  exact ⟨rfl, hrest⟩

theorem RuleForm.text_ne_nil (form : RuleForm) (s : List Char) : form.text ++ s ≠ [] := by
  rw [text_append, ← Keyword.when.chars_word]
  exact List.cons_ne_nil _ _

theorem RuleForm.unique_all {forms forms' : List RuleForm} (hfits : FitAll forms)
    (hfits' : FitAll forms') (h : forms.flatMap text = forms'.flatMap text) :
    forms = forms' := by
  induction forms generalizing forms' with
  | nil =>
    cases forms' with
    | nil => rfl
    | cons form' forms' => exact absurd h.symm (form'.text_ne_nil _)
  | cons form forms ih =>
    cases forms' with
    | nil => exact absurd h (form.text_ne_nil _)
    | cons form' forms' =>
      obtain ⟨rfl, hrest⟩ :=
        RuleForm.unique hfits.1 hfits'.1 (atEnd_rules forms) (atEnd_rules forms') h
      rw [ih hfits.2 hfits'.2 hrest]

/-! ## Variables -/

theorem wordPattern_eq_var_iff {word : String} {scope : Nat} {v : Variable} :
    wordPattern scope word = .var v ↔
      word ≠ "true" ∧ word ≠ "false" ∧ word ≠ "null" ∧ v = ⟨word, scope⟩ := by
  rw [wordPattern]
  split
  case isTrue h => simp [h]
  case isFalse htrue =>
    split
    case isTrue h => simp [h]
    case isFalse hfalse =>
      split
      case isTrue h => simp [h]
      case isFalse hnull => simp [htrue, hfalse, hnull, eq_comm]

theorem Atom.scope_of_pattern {atom : Atom} {scope : Nat} {v : Variable}
    (h : atom.pattern scope = .var v) : v.scope = scope := by
  cases atom with
  | word w =>
    obtain ⟨-, -, -, rfl⟩ := wordPattern_eq_var_iff.mp h
    rfl
  | literal l => cases h

theorem Items.atom_of_mem {items : Items} {scope : Nat} {p : Pattern}
    (h : p ∈ items.patterns scope) : ∃ atom : Atom, atom.pattern scope = p := by
  rcases List.mem_cons.mp h with rfl | h
  · exact ⟨items.first, rfl⟩
  · obtain ⟨further, -, rfl⟩ := List.mem_map.mp h
    exact ⟨further.atom, rfl⟩

theorem CallForm.scope_of_mem_vars {form : CallForm} {scope : Nat} {v : Variable}
    (h : v ∈ (form.line scope).vars) : v.scope = scope := by
  obtain ⟨p, hp, hv⟩ := List.mem_filterMap.mp h
  have hatom : ∃ atom : Atom, atom.pattern scope = p := by
    obtain ⟨_, _, args, _, returns, _⟩ := form
    rcases List.mem_append.mp hp with hp | hp
    · cases args with
      | none => cases hp
      | some items => exact Items.atom_of_mem hp
    · cases returns with
      | none => cases hp
      | some arrow => exact Items.atom_of_mem hp
  obtain ⟨atom, rfl⟩ := hatom
  cases hpattern : atom.pattern scope with
  | lit value =>
    rw [hpattern] at hv
    cases hv
  | var w =>
    rw [hpattern] at hv
    cases hv
    exact Atom.scope_of_pattern hpattern

theorem RuleForm.scope_of_mem_vars {form : RuleForm} {scope line : Nat} {v : Variable}
    (h : v ∈ (form.rule scope line).vars) : v.scope = scope := by
  obtain ⟨found, hfound, hv⟩ := List.mem_flatMap.mp (List.mem_eraseDups.mp h)
  have hcall : ∃ call : CallForm, call.line scope = found := by
    simp only [Rule.lines, Rule.whenLines, RuleForm.rule, List.cons_append, List.mem_cons,
      List.mem_append, List.mem_map] at hfound
    rcases hfound with rfl | ⟨entry, -, rfl⟩ | ⟨entry, -, rfl⟩
    · exact ⟨_, rfl⟩
    · exact ⟨_, rfl⟩
    · exact ⟨_, rfl⟩
  obtain ⟨call, rfl⟩ := hcall
  exact CallForm.scope_of_mem_vars hv

theorem RuleForm.le_scope_of_mem {forms : List RuleForm} {scope line : Nat} {found : Rule}
    (h : found ∈ RuleForm.rules scope line forms) : ∀ v ∈ found.vars, scope ≤ v.scope := by
  induction forms generalizing scope line with
  | nil => cases h
  | cons form more ih =>
    intro v hv
    rcases List.mem_cons.mp h with rfl | h
    · exact Nat.le_of_eq (scope_of_mem_vars hv).symm
    · exact Nat.le_of_succ_le (ih h v hv)

/-- No two rules of a source have a variable in common. -/
theorem RuleForm.disjoint_rules (scope line : Nat) (forms : List RuleForm) :
    (RuleForm.rules scope line forms).Pairwise fun a b => ∀ v ∈ a.vars, v ∉ b.vars := by
  induction forms generalizing scope line with
  | nil => exact .nil
  | cons form more ih =>
    refine .cons ?_ (ih _ _)
    intro found hfound v hv hv'
    have hle := le_scope_of_mem hfound v hv'
    rw [scope_of_mem_vars hv] at hle
    exact Nat.not_succ_le_self scope hle

/-! ## Sources -/

namespace SourceForm

/-- **No source has two forms.** -/
theorem Derives.unique {form form' : SourceForm} {source : String} {rules rules' : List Rule}
    (h : form.Derives source rules) (h' : form'.Derives source rules') : form = form' := by
  have htext : form.text = form'.text := h.text_eq.trans h'.text_eq.symm
  have hfits := h.fits
  have hfits' := h'.fits
  obtain ⟨lead, forms⟩ := form
  obtain ⟨lead', forms'⟩ := form'
  obtain ⟨rfl, hforms⟩ :=
    Blanks.unique (atEnd_rules forms).stops (atEnd_rules forms').stops htext
  obtain rfl := RuleForm.unique_all hfits hfits' hforms
  rfl

end SourceForm

end Synchrony.Source

namespace Synchrony

open Source

/-- **A source is read if and only if it has a form**, and as what the form stands for. -/
theorem readRules_iff {source : String} {rules : List Rule} :
    readRules source = .ok rules ↔ ∃ form : SourceForm, form.Derives source rules := by
  have hread : readRules source = .ok rules ↔
      Source.rules source.toList 0 source.toList = .ok rules := by
    rw [readRules]
    cases Source.rules source.toList 0 source.toList <;> simp
  rw [hread]
  constructor
  · intro h
    obtain ⟨lead, hsource⟩ := split_blanks source.toList
    have hrules : Source.rules (lead.chars ++ Text.skipBlanks source.toList) 0 source.toList =
        .ok rules := by rw [← hsource, h]
    obtain ⟨forms, htext, hfits, hforms⟩ := forms_of_rules hrules
    refine ⟨⟨lead, forms⟩, ?_, hfits, hforms⟩
    rw [SourceForm.text, ← htext, ← hsource]
  · rintro ⟨⟨lead, forms⟩, htext, hfits, rfl⟩
    rw [← htext]
    exact rules_append hfits lead.chars 0 lead

/-- **The reader accepts exactly its grammar.** A source is read as some rules if and only if it has
a form that stands for them; no source has two forms; and positions with words hold the same
variable if and only if they are in the same rule and spelled alike. -/
theorem readRules_grammar (source : String) (rules : List Rule) :
    (readRules source = .ok rules ↔ ∃ form : SourceForm, form.Derives source rules) ∧
    (∀ (form form' : SourceForm) (rules' : List Rule), form.Derives source rules →
      form'.Derives source rules' → form = form' ∧ rules = rules') ∧
    (∀ (word word' : Word) (scope scope' : Nat) (v : Variable),
      (Atom.word word).pattern scope = .var v →
        ((Atom.word word').pattern scope' = .var v ↔
          scope' = scope ∧ word'.text = word.text)) := by
  refine ⟨readRules_iff, ?_, ?_⟩
  · intro form form' rules' h h'
    obtain rfl := h.unique h'
    exact ⟨rfl, h.rules_eq.symm.trans h'.rules_eq⟩
  · intro word word' scope scope' v h
    obtain ⟨htrue, hfalse, hnull, rfl⟩ := wordPattern_eq_var_iff.mp h
    constructor
    · intro h'
      obtain ⟨-, -, -, hv⟩ := wordPattern_eq_var_iff.mp h'
      injection hv with htext hscope
      exact ⟨hscope.symm, htext.symm⟩
    · rintro ⟨rfl, htext⟩
      rw [Atom.pattern, htext]
      exact h

namespace Source

def Literal.one : Literal where
  head := '1'
  tail := []
  value := .int 1
  not_letter := rfl
  not_blank := rfl
  inside := by simp [endsLiteral]
  reads := rfl
  scalar := rfl

/-- The source `when A.a(1) sync B.b()`, piece by piece. -/
def numberForm : SourceForm where
  lead := Blanks.none
  rules := [{
    conditions := {
      first := ⟨Blanks.space, {
        name := ⟨'A', ['.', 'a'], Eq.refl true, List.all_eq_true.mp rfl⟩
        gap := Blanks.none
        args := some ⟨Blanks.none, .literal .one, []⟩
        close := Blanks.none
        returns := none
        not_keyword := fun _ => rfl }⟩
      more := []
      close := Blanks.space
      apart := List.cons_ne_nil _ _ }
    consequences := {
      first := ⟨Blanks.space, {
        name := ⟨'B', ['.', 'b'], rfl, List.all_eq_true.mp rfl⟩
        gap := Blanks.none
        args := none
        close := Blanks.none
        returns := none
        not_keyword := fun _ => rfl }⟩
      more := []
      close := Blanks.none
      apart := List.cons_ne_nil _ _ } }]

theorem numberForm_derives : numberForm.Derives "when A.a(1) sync B.b()"
    [⟨⟨"A.a", [.lit (.int 1)], none⟩, [], [⟨"B.b", [], none⟩], 1⟩] where
  text_eq := by decide
  fits := by
    refine ⟨⟨⟨⟨?_, ?_⟩, trivial⟩, ⟨⟨?_, ?_⟩, trivial⟩⟩, trivial⟩
    · rintro items ⟨⟩
      exact ⟨(stops_cons _ _ _).mpr rfl, (stops_cons _ _ _).mpr rfl⟩
    · change ¬_
      decide
    · rintro items ⟨⟩
    · change ¬_
      decide
  rules_eq := rfl

end Source

theorem readRules_grammar_number :
    ∃ rules, numberForm.Derives "when A.a(1) sync B.b()" rules ∧
      readRules "when A.a(1) sync B.b()" = .ok rules ∧
      ∀ form' : SourceForm, form'.Derives "when A.a(1) sync B.b()" rules → form' = numberForm := by
  refine ⟨_, numberForm_derives, ?_, ?_⟩
  · exact (readRules_grammar _ _).1.mpr ⟨numberForm, numberForm_derives⟩
  · intro form' h
    exact ((readRules_grammar _ _).2.1 form' numberForm _ h numberForm_derives).1

namespace Source

def SourceForm.atoms (form : SourceForm) : List Atom :=
  form.rules.flatMap fun rule =>
    (rule.conditions.entries ++ rule.consequences.entries).flatMap fun entry =>
      ((entry.call.args.toList ++ entry.call.returns.toList.map Arrow.items).flatMap
        fun items => items.first :: items.more.map Further.atom)

/-- Every literal of the source is a text. -/
def SourceForm.TextsOnly (form : SourceForm) : Prop :=
  ∀ l, Atom.literal l ∈ form.atoms → ∃ text, l.value = .text text

end Source

/-- A grammar whose literals are texts only is too small, since numbers are read too. -/
theorem readRules_beyond_texts :
    ¬∀ (source : String) (rules : List Rule), readRules source = .ok rules ↔
      ∃ form : SourceForm, form.Derives source rules ∧ form.TextsOnly := by
  intro h
  obtain ⟨form, hform, htexts⟩ :=
    (h _ _).mp (readRules_iff.mpr ⟨numberForm, numberForm_derives⟩)
  obtain rfl := hform.unique numberForm_derives
  obtain ⟨text, htext⟩ := htexts _ (List.mem_cons_self)
  cases htext

end Synchrony
