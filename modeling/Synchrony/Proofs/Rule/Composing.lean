import Synchrony.Proofs.Rule.Errors
import Synchrony.Proofs.Rule.Index
import Synchrony.Proofs.Rule.Renaming
import Synchrony.Rule.Loading

/-!
# Sources behind each other

Two sources that can be read make one that can be read when a line break is put between them, and
it stands for the rules of the one and then those of the other (`loadRules_append`). The rules of
the second source are numbered on from the first and stand as many text lines further down as the
first one takes up (`Rule.moved`).

The line break is what it takes. Every production of the grammar looks ahead over blanks, for a
comma, an arrow, a keyword or the end of a literal, so one that was complete at the end of the text
might go on into what is put behind it. It does not, since a line break ends a word as well as a
literal, and what stands behind the blanks is the keyword `when` or nothing. So the blanks that the
second source starts with close the last clause of the first (`RuleForm.padded`), and nothing else
changes in either form.
-/

set_option autoImplicit false

namespace Synchrony

/-! ## Moving rules -/

/-- A variable of the rule with so many rules more in front of it. -/
def Variable.moved (scopes : Nat) (v : Variable) : Variable :=
  ⟨v.name, v.scope + scopes⟩

/-- The rule behind so many more rules, and so many text lines further down. -/
def Rule.moved (scopes lines : Nat) (rule : Rule) : Rule :=
  { rule.rename (Variable.moved scopes) with line := rule.line + lines }

@[simp] theorem Rule.anchor_moved (scopes lines : Nat) (rule : Rule) :
    (rule.moved scopes lines).anchor = rule.anchor :=
  rfl

namespace Source

theorem Atom.pattern_moved (atom : Atom) (scope scopes : Nat) :
    atom.pattern (scope + scopes) = (atom.pattern scope).rename (Variable.moved scopes) := by
  cases atom with
  | literal l => rfl
  | word w =>
    simp only [Atom.pattern, wordPattern]
    split
    · rfl
    · split
      · rfl
      · split <;> rfl

theorem Items.patterns_moved (items : Items) (scope scopes : Nat) :
    items.patterns (scope + scopes) =
      (items.patterns scope).map (Pattern.rename (Variable.moved scopes)) := by
  simp [Items.patterns, Atom.pattern_moved]

theorem CallForm.line_moved (form : CallForm) (scope scopes : Nat) :
    form.line (scope + scopes) = (form.line scope).rename (Variable.moved scopes) := by
  obtain ⟨name, gap, args, close, returns, _⟩ := form
  cases args <;> cases returns <;>
    simp [CallForm.line, Line.rename, Items.patterns_moved]

namespace RuleForm

theorem rule_moved (form : RuleForm) (scope line scopes lines : Nat) :
    form.rule (scope + scopes) (line + lines) = (form.rule scope line).moved scopes lines := by
  simp [rule, Rule.moved, Rule.rename, CallForm.line_moved]

theorem rules_moved (forms : List RuleForm) (scope line scopes lines : Nat) :
    rules (scope + scopes) (line + lines) forms =
      (rules scope line forms).map (Rule.moved scopes lines) := by
  induction forms generalizing scope line with
  | nil => rfl
  | cons form more ih =>
    have hscope : scope + scopes + 1 = scope + 1 + scopes := Nat.add_right_comm _ _ _
    have hline : line + lines + form.text.count '\n' = line + form.text.count '\n' + lines :=
      Nat.add_right_comm _ _ _
    rw [rules, rules, List.map_cons, rule_moved, hscope, hline, ih]

theorem rules_append (forms more : List RuleForm) (scope line : Nat) :
    rules scope line (forms ++ more) = rules scope line forms ++
      rules (scope + forms.length) (line + (forms.flatMap text).count '\n') more := by
  induction forms generalizing scope line with
  | nil => rfl
  | cons form forms ih =>
    rw [List.cons_append, rules, ih, rules, List.cons_append, List.flatMap_cons,
      List.count_append, List.length_cons, Nat.add_right_comm scope 1, Nat.add_assoc scope,
      Nat.add_assoc line]

@[simp] theorem length_rules (forms : List RuleForm) (scope line : Nat) :
    (rules scope line forms).length = forms.length := by
  induction forms generalizing scope line with
  | nil => rfl
  | cons form more ih => simp [rules, ih]

end RuleForm

/-! ## Blanks behind a source -/

theorem Blanks.head?_newline (blanks : Blanks) :
    (Blanks.newline.append blanks).chars.head? = some '\n' :=
  rfl

theorem Blanks.count_newline (blanks : Blanks) :
    (Blanks.newline.append blanks).chars.count '\n' = blanks.chars.count '\n' + 1 := by
  simp [append, newline]

namespace RuleForm

/-- Rules with more blanks behind the last of them. -/
def padded (blanks : Blanks) : List RuleForm → List RuleForm
  | [] => []
  | [form] => [⟨form.conditions, form.consequences.padded blanks⟩]
  | form :: next :: more => form :: padded blanks (next :: more)

variable {blanks : Blanks} {forms : List RuleForm}

@[simp] theorem length_padded (blanks : Blanks) (forms : List RuleForm) :
    (padded blanks forms).length = forms.length := by
  fun_induction padded blanks forms <;> simp_all

theorem text_padded (blanks : Blanks) (hne : forms ≠ []) :
    (padded blanks forms).flatMap text = forms.flatMap text ++ blanks.chars := by
  fun_induction padded blanks forms with
  | case1 => exact absurd rfl hne
  | case2 form => simp [text, ClauseForm.text_padded]
  | case3 form next more ih =>
    rw [List.flatMap_cons, ih (List.cons_ne_nil _ _), ← List.append_assoc]
    rfl

/-- The blanks stand behind all rules, so no rule starts on another text line. -/
theorem rules_padded (blanks : Blanks) (forms : List RuleForm) (scope line : Nat) :
    rules scope line (padded blanks forms) = rules scope line forms := by
  fun_induction padded blanks forms generalizing scope line with
  | case1 => rfl
  | case2 form => rfl
  | case3 form next more ih =>
    simp only [rules] at ih ⊢
    rw [ih]

/-- **Rules that are complete at the end of the text are complete in front of more rules**, with a
line break between them. -/
theorem FitAll.padded (h : FitAll forms) (hbreak : blanks.chars.head? = some '\n')
    {more : List RuleForm} (hmore : FitAll more) :
    FitAll (RuleForm.padded blanks forms ++ more) := by
  fun_induction RuleForm.padded blanks forms with
  | case1 => exact hmore
  | case2 form =>
    have hfits := h.1
    refine ⟨⟨?_, hfits.consequences.padded hbreak (atEnd_rules more)⟩, hmore⟩
    have hsync := atEnd_sync (form.consequences.padded blanks) (more.flatMap text)
    exact hfits.conditions.yields (hsync.yields (List.cons_ne_nil _ _))
  | case3 form next others ih =>
    refine ⟨?_, ih h.2⟩
    -- What follows the rule begins with the whole of what followed it before.
    have hend := atEnd_rules (RuleForm.padded blanks (next :: others) ++ more)
    have htext : (RuleForm.padded blanks (next :: others) ++ more).flatMap text =
        (next :: others).flatMap text ++ (blanks.chars ++ more.flatMap text) := by
      rw [List.flatMap_append, text_padded blanks (List.cons_ne_nil _ _), List.append_assoc]
    rw [htext] at hend
    have hyields : Yields ((next :: others).flatMap text ++ []) _ :=
      hend.yields (next.text_ne_nil _)
    rw [List.append_nil, ← htext] at hyields
    exact h.1.yields hyields

end RuleForm

namespace SourceForm

/-- The form of a source with another one behind it, a line break between them. -/
def append (form form' : SourceForm) : SourceForm :=
  match form.rules with
  | [] => ⟨form.lead.append (Blanks.newline.append form'.lead), form'.rules⟩
  | first :: more => ⟨form.lead,
      RuleForm.padded (Blanks.newline.append form'.lead) (first :: more) ++ form'.rules⟩

theorem text_append (form form' : SourceForm) :
    (form.append form').text = form.text ++ '\n' :: form'.text := by
  obtain ⟨lead, forms⟩ := form
  cases forms with
  | nil => simp [append, text, Blanks.append, Blanks.newline]
  | cons first more =>
    simp [append, text, RuleForm.text_padded, Blanks.append, Blanks.newline]

theorem fitAll_append {form form' : SourceForm} (h : RuleForm.FitAll form.rules)
    (h' : RuleForm.FitAll form'.rules) : RuleForm.FitAll (form.append form').rules := by
  obtain ⟨lead, forms⟩ := form
  cases forms with
  | nil => exact h'
  | cons first more => exact h.padded (Blanks.head?_newline _) h'

theorem rules_append (form form' : SourceForm) :
    RuleForm.rules 0 ((form.append form').lead.chars.count '\n' + 1) (form.append form').rules =
      RuleForm.rules 0 (form.lead.chars.count '\n' + 1) form.rules ++
        (RuleForm.rules 0 (form'.lead.chars.count '\n' + 1) form'.rules).map
          (Rule.moved form.rules.length (form.text.count '\n' + 1)) := by
  rw [← RuleForm.rules_moved, Nat.zero_add]
  obtain ⟨lead, forms⟩ := form
  have hbreak := form'.lead.count_newline
  cases forms with
  | nil =>
    have hline : (lead.append (Blanks.newline.append form'.lead)).chars.count '\n' =
        form'.lead.chars.count '\n' + 1 + lead.chars.count '\n' := by
      rw [Blanks.append, List.count_append, hbreak, Nat.add_comm]
    simp [append, RuleForm.rules, text, hline, Nat.add_assoc, Nat.add_comm 1]
  | cons first more =>
    have hline : lead.chars.count '\n' + 1 + ((first :: more).flatMap RuleForm.text ++
          (Blanks.newline.append form'.lead).chars).count '\n' =
        form'.lead.chars.count '\n' + 1 +
          ((lead.chars ++ (first :: more).flatMap RuleForm.text).count '\n' + 1) := by
      rw [List.count_append, List.count_append, hbreak]
      omega
    simp only [append, RuleForm.rules_append, RuleForm.rules_padded, RuleForm.length_padded, text,
      RuleForm.text_padded _ (List.cons_ne_nil first more), hline, Nat.zero_add]

theorem Derives.append {form form' : SourceForm} {source source' : String}
    {rules rules' : List Rule} (h : form.Derives source rules) (h' : form'.Derives source' rules') :
    (form.append form').Derives (source ++ "\n" ++ source')
      (rules ++ rules'.map (Rule.moved rules.length (source.toList.count '\n' + 1))) where
  text_eq := by
    rw [text_append, h.text_eq, h'.text_eq]
    simp
  fits := fitAll_append h.fits h'.fits
  rules_eq := by
    have hlength : form.rules.length = rules.length := by
      rw [← h.rules_eq, RuleForm.length_rules]
    rw [rules_append, h.rules_eq, h'.rules_eq, h.text_eq, hlength]

/-- No two rules that a source stands for have a variable in common. -/
theorem Derives.disjoint {form : SourceForm} {source : String} {rules : List Rule}
    (h : form.Derives source rules) : rules.Pairwise fun a b => ∀ v ∈ a.vars, v ∉ b.vars :=
  h.rules_eq ▸ RuleForm.disjoint_rules _ _ _

end SourceForm

end Source

/-! ## Anchors in order of first appearance -/

namespace Rulebook

theorem eraseDups_append_filter (names more : List String) :
    (names ++ more).eraseDups =
      names.eraseDups ++ more.eraseDups.filter fun name => name ∉ names.eraseDups := by
  induction more using List.reverseRecOn with
  | nil => simp
  | append_singleton more name ih =>
    rw [← List.append_assoc, eraseDups_snoc, eraseDups_snoc, ih]
    by_cases hfront : name ∈ names
    · by_cases hmore : name ∈ more <;> simp [hfront, hmore]
    · by_cases hmore : name ∈ more <;> simp [hfront, hmore]

end Rulebook

/-! ## Rulebooks of joined sources -/

/-- The rulebook `whole` holds the rules of `front` and behind them those of `back`, which start so
many text lines further down. -/
structure Rulebook.Joins (lines : Nat) (front back whole : Rulebook) : Prop where
  rules : whole.rules = front.rules ++ back.rules.map (Rule.moved front.rules.length lines)
  disjoint : whole.rules.Pairwise fun a b => ∀ v ∈ a.vars, v ∉ b.vars
  under : ∀ action, whole.under action =
    front.under action ++ (back.under action).map (Rule.moved front.rules.length lines)
  anchors : whole.anchors = front.anchors ++ back.anchors.filter fun name => name ∉ front.anchors

theorem Rulebook.Joins.of_rules {lines : Nat} {front back : Rulebook} {rules : List Rule}
    (h : rules = front.rules ++ back.rules.map (Rule.moved front.rules.length lines))
    (hdisjoint : rules.Pairwise fun a b => ∀ v ∈ a.vars, v ∉ b.vars) :
    Joins lines front back (.ofRules rules) where
  rules := h
  disjoint := hdisjoint
  under := by
    intro action
    simp only [under_eq_filter, ofRules, h, List.filter_append, List.filter_map]
    rfl
  anchors := by
    have hmoved : (back.rules.map (Rule.moved front.rules.length lines)).map Rule.anchor =
        back.rules.map Rule.anchor := by
      simp
    simp only [anchors_eq, ofRules, h, List.map_append, hmoved, eraseDups_append_filter]

/-- A source is loaded as the rulebook of the rules that are read from it. -/
theorem loadRules_ok_iff {source : String} {book : Rulebook} :
    loadRules source = .ok book ↔ readRules source = .ok book.rules := by
  rw [loadRules]
  cases hread : readRules source with
  | error e => simp
  | ok rules =>
    obtain ⟨_, _, rfl⟩ := book
    constructor
    · rintro ⟨⟩
      rfl
    · rintro ⟨⟩
      rfl

/-- **Sources compose.** Two sources that can be loaded can be loaded with a line break between
them, as the rules of the one followed by those of the other. -/
theorem loadRules_append {source source' : String} {book book' : Rulebook}
    (h : loadRules source = .ok book) (h' : loadRules source' = .ok book') :
    ∃ whole, loadRules (source ++ "\n" ++ source') = .ok whole ∧
      Rulebook.Joins (source.toList.count '\n' + 1) book book' whole := by
  obtain ⟨form, hform⟩ := readRules_iff.mp (loadRules_ok_iff.mp h)
  obtain ⟨form', hform'⟩ := readRules_iff.mp (loadRules_ok_iff.mp h')
  have hwhole := hform.append hform'
  refine ⟨.ofRules _, ?_, .of_rules rfl hwhole.disjoint⟩
  exact loadRules_ok_iff.mpr (readRules_iff.mpr ⟨_, hwhole⟩)

namespace Source

/-- The part of `A.a` behind its first letter is one of a name. -/
theorem isNameChar_dot_a : ∀ c ∈ ['.', 'a'], isNameChar c = true :=
  List.all_eq_true.mp rfl

/-- A rule on every call of `A.a` with one argument. -/
def variableDraft : RuleDraft where
  trigger := {
    name := ⟨'A', ['.', 'a'], Eq.refl true, isNameChar_dot_a⟩
    args := [.word ⟨'x', [], Eq.refl true, Word.standIn.names⟩]
    returns := [] }
  guards := []
  first := {
    name := ⟨'C', ['.', 'c'], rfl, List.all_eq_true.mp rfl⟩
    args := [.word ⟨'x', [], Eq.refl true, Word.standIn.names⟩]
    returns := [] }
  more := []

end Source

/-- A source without a line break at its end, and one with a rule on the same action. -/
theorem loadRules_append_number : ∃ book book' whole,
    loadRules "when A.a(1) sync B.b()" = .ok book ∧
    loadRules "\nwhen\n  A.a(x)\nsync\n  C.c(x)\n" = .ok book' ∧
    loadRules ("when A.a(1) sync B.b()" ++ "\n" ++ "\nwhen\n  A.a(x)\nsync\n  C.c(x)\n") =
      .ok whole ∧
    Rulebook.Joins 1 book book' whole ∧ whole.anchors = ["A.a"] ∧
    whole.rules = [
      ⟨⟨"A.a", [.lit (.int 1)], none⟩, [], [⟨"B.b", [], none⟩], 1⟩,
      ⟨⟨"A.a", [.var ⟨"x", 1⟩], none⟩, [], [⟨"C.c", [.var ⟨"x", 1⟩], none⟩], 3⟩] := by
  have htext : (Source.SourceForm.laidOut [Source.variableDraft]).text =
      "\nwhen\n  A.a(x)\nsync\n  C.c(x)\n".toList := by
    decide
  have hfront := readRules_iff.mpr ⟨Source.numberForm, Source.numberForm_derives⟩
  have hback := readRules_iff.mpr ⟨_, Source.SourceForm.derives_laidOut htext⟩
  have hload : loadRules _ = .ok (.ofRules _) := loadRules_ok_iff.mpr hfront
  have hload' : loadRules _ = .ok (.ofRules _) := loadRules_ok_iff.mpr hback
  obtain ⟨whole, hwhole, hjoins⟩ := loadRules_append hload hload'
  refine ⟨_, _, whole, hload, hload', hwhole, hjoins, ?_, ?_⟩
  · rw [hjoins.anchors]
    decide
  · rw [hjoins.rules]
    rfl

end Synchrony
