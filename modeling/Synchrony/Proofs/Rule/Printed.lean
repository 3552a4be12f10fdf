import Mathlib.Data.List.Forall2
import Synchrony.Proofs.Rule.Layout
import Synchrony.Proofs.Rule.Printer
import Synchrony.Proofs.Rule.Renaming
import Synchrony.Proofs.Text.Lines

/-!
# Reading what was printed

Reading printed rules gives the same rules (`readRules_print`), but for two things that a source
does not say. Variables come back as variables of the rule that was read, and the text line on
which a rule stands is the one on which its `when` was printed.

## Drafts

What is printed is the layout of drafts (`SourceForm.laidOut`), so that reading it is a matter of
the grammar. That a draft **writes** a rule means that it looks like the printed rule and stands for
the renamed one; every rule that can be printed has a draft that writes it
(`RuleDraft.exists_writes`).
-/

set_option autoImplicit false

namespace Synchrony

namespace Source

/-! ## Drafts of what is printed -/

section Drafts

variable {byNumber : Char → Bool} {spelling : Variable → String}

variable (byNumber spelling) in
/-- The position looks like the printed pattern and stands for the renamed one. -/
structure Atom.Writes (pattern : Pattern) (atom : Atom) : Prop where
  text : atom.text = Printer.pattern byNumber spelling pattern
  meaning : ∀ scope, atom.pattern scope = pattern.rename fun v => ⟨spelling v, scope⟩

theorem Atom.exists_writes_text (s : String) :
    ∃ atom : Atom, atom.Writes byNumber spelling (.lit (.text s)) := by
  have hinside : ∀ c ∈ Printer.value byNumber (.text s), endsLiteral c = false := by
    intro c hc
    simp only [Printer.value, List.cons_append, List.mem_cons, List.mem_append, List.mem_flatMap,
      List.not_mem_nil, or_false] at hc
    rcases hc with rfl | ⟨d, -, hc⟩ | rfl
    · rfl
    · exact endsLiteral_char byNumber d c hc
    · rfl
  have hlast : Stops Text.isBlank (Printer.value byNumber (.text s)).reverse := by
    rw [Printer.value, List.reverse_append]
    exact (stops_cons _ _ _).mpr rfl
  obtain ⟨l, hchars, hvalue⟩ := Literal.exists_of_read ((stops_cons _ _ _).mpr rfl)
    ((stops_cons _ _ _).mpr rfl) hlast hinside (Json.read?_string (stands_char byNumber) s) rfl
  exact ⟨.literal l, hchars, fun scope => congrArg Pattern.lit hvalue⟩

theorem Atom.exists_writes_int {n : Int}
    (h : (Decimal.digits n.natAbs).length ≤ Decimal.digitLimit) :
    ∃ atom : Atom, atom.Writes byNumber spelling (.lit (.int n)) := by
  -- There is nothing but digits and perhaps a sign in it.
  have hclass {p : Char → Bool} (hminus : p '-' = false)
      (hdigit : ∀ c, Decimal.isDigit c = true → p c = false) :
      ∀ c ∈ Decimal.ofInt n, p c = false := by
    intro c hc
    rcases ofInt_chars hc with rfl | hc
    · exact hminus
    · exact hdigit c hc
  have hletter := hclass (p := isLetter) rfl not_letter_of_isDigit
  have hblank := hclass (p := Text.isBlank) rfl fun c hc =>
    not_blank_of_isNameChar (isNameChar_of_isDigit hc)
  have hinside := hclass (p := endsLiteral) rfl not_endsLiteral_of_isDigit
  obtain ⟨l, hchars, hvalue⟩ := Literal.exists_of_read
    (fun c hc => hletter c (List.mem_of_mem_head? hc))
    (fun c hc => hblank c (List.mem_of_mem_head? hc))
    (fun c hc => hblank c (List.mem_reverse.mp (List.mem_of_mem_head? hc)))
    hinside (Json.read?_ofInt h) rfl
  exact ⟨.literal l, hchars, fun scope => congrArg Pattern.lit hvalue⟩

theorem Atom.exists_writes_word {pattern : Pattern} (name : String) (hname : Printer.IsName name)
    (htext : Printer.pattern byNumber spelling pattern = name.toList)
    (hmeaning : ∀ scope, wordPattern scope name =
      pattern.rename fun v => ⟨spelling v, scope⟩) :
    ∃ atom : Atom, atom.Writes byNumber spelling pattern := by
  obtain ⟨word, hword⟩ := hname
  refine ⟨.word word, ?_, ?_⟩
  · rw [htext]
    exact word.toList_text hword
  · intro scope
    rw [Atom.pattern, hword, hmeaning]

theorem isName_of_word? {name : String} (h : word? name.toList = some (name, [])) :
    Printer.IsName name := by
  obtain ⟨word, -, hword, -⟩ := word_of_word? h
  exact ⟨word, hword⟩

theorem Atom.exists_writes {pattern : Pattern} (h : Printer.CanPrintPattern pattern)
    (hspelling : ∀ v, Printer.CanPrintPattern (.var v) →
      Printer.CanPrintPattern (.var ⟨spelling v, 0⟩)) :
    ∃ atom : Atom, atom.Writes byNumber spelling pattern := by
  cases pattern with
  | var v =>
    obtain ⟨hname, htrue, hfalse, hnull⟩ := hspelling v h
    exact exists_writes_word _ hname rfl fun scope =>
      wordPattern_eq_var_iff.mpr ⟨htrue, hfalse, hnull, rfl⟩
  | lit value =>
    cases value with
    | null => exact exists_writes_word "null" (isName_of_word? rfl) rfl fun _ => rfl
    | bool b =>
      cases b with
      | false => exact exists_writes_word "false" (isName_of_word? rfl) rfl fun _ => rfl
      | true => exact exists_writes_word "true" (isName_of_word? rfl) rfl fun _ => rfl
    | int n => exact exists_writes_int h
    | text s => exact exists_writes_text s
    | float | ident | list | tuple | record => exact absurd h id

variable (byNumber spelling) in
/-- The draft looks like the printed line and stands for the renamed one. -/
structure CallDraft.Writes (line : Line) (draft : CallDraft) : Prop where
  name : draft.name.text = line.action
  args : List.Forall₂ (Atom.Writes byNumber spelling) line.args draft.args
  returns : List.Forall₂ (Atom.Writes byNumber spelling) (line.returns.getD []) draft.returns
  some_returns : line.returns ≠ some []

theorem exists_forall₂ {α β : Type} {R : α → β → Prop} {l : List α} (h : ∀ x ∈ l, ∃ y, R x y) :
    ∃ l', List.Forall₂ R l l' := by
  induction l with
  | nil => exact ⟨[], .nil⟩
  | cons x l ih =>
    obtain ⟨y, hy⟩ := h x List.mem_cons_self
    obtain ⟨l', hl⟩ := ih fun z hz => h z (List.mem_cons_of_mem x hz)
    exact ⟨y :: l', .cons hy hl⟩

theorem map_of_forall₂ {α β γ : Type} {R : α → β → Prop} {f : α → γ} {g : β → γ} {l : List α}
    {l' : List β} (h : List.Forall₂ R l l') (hf : ∀ x y, R x y → g y = f x) :
    l'.map g = l.map f := by
  induction h with
  | nil => rfl
  | cons hxy _ ih => rw [List.map_cons, List.map_cons, hf _ _ hxy, ih]

variable (hspelling : ∀ v, Printer.CanPrintPattern (.var v) →
  Printer.CanPrintPattern (.var ⟨spelling v, 0⟩))

include hspelling in
theorem CallDraft.exists_writes {line : Line} (h : Printer.CanPrintLine line) :
    ∃ draft : CallDraft, draft.Writes byNumber spelling line := by
  obtain ⟨name, hname⟩ := h.action
  have hatoms {ps : List Pattern} (hps : ps ⊆ line.patterns) :
      ∃ atoms, List.Forall₂ (Atom.Writes byNumber spelling) ps atoms :=
    exists_forall₂ fun p hp => Atom.exists_writes (h.patterns p (hps hp)) hspelling
  obtain ⟨args, hargs⟩ := hatoms (List.subset_append_left line.args _)
  obtain ⟨returns, hreturns⟩ := hatoms (List.subset_append_right line.args _)
  exact ⟨⟨name, args, returns⟩, hname, hargs, hreturns, h.returns⟩

theorem Items.laidOut_of_writes (lead : Blanks) {first : Pattern} {more : List Pattern}
    {atoms : List Atom}
    (h : List.Forall₂ (Atom.Writes byNumber spelling) (first :: more) atoms) :
    ∃ items, Items.laidOut lead atoms = some items ∧
      items.text = lead.chars ++ Printer.positions byNumber spelling (first :: more) ∧
      ∀ scope, items.patterns scope =
        (first :: more).map (Pattern.rename fun v => ⟨spelling v, scope⟩) := by
  obtain _ | ⟨hfirst, hmore⟩ := h
  refine ⟨_, rfl, ?_, ?_⟩
  · have htexts := map_of_forall₂ (f := fun p => ',' :: ' ' :: Printer.pattern byNumber spelling p)
      (g := fun atom => Further.text ⟨.none, .space, atom⟩) hmore fun p atom h => by
        rw [Further.text, h.text]
        rfl
    simp only [text, hfirst.text, Printer.positions, List.flatMap_def, List.map_map]
    rw [← htexts]
    rfl
  · intro scope
    have hmeanings := map_of_forall₂ (f := Pattern.rename fun v => ⟨spelling v, scope⟩)
      (g := Atom.pattern scope) hmore fun p atom h => h.meaning scope
    rw [patterns, List.map_map, List.map_cons, hfirst.meaning, ← hmeanings]
    rfl

namespace CallDraft.Writes

variable {line : Line} {draft : CallDraft}

theorem args_laidOut (h : draft.Writes byNumber spelling line) :
    argsText (Items.laidOut .none draft.args) = Printer.positions byNumber spelling line.args ∧
      ∀ scope, ((Items.laidOut .none draft.args).map (Items.patterns scope)).getD [] =
        line.args.map (Pattern.rename fun v => ⟨spelling v, scope⟩) := by
  have hargs := h.args
  cases hline : line.args with
  | nil =>
    rw [hline, List.forall₂_nil_left_iff] at hargs
    rw [hargs]
    exact ⟨rfl, fun _ => rfl⟩
  | cons first more =>
    rw [hline] at hargs
    obtain ⟨items, hitems, htext, hmeaning⟩ := Items.laidOut_of_writes .none hargs
    rw [hitems]
    exact ⟨htext, hmeaning⟩

theorem returns_laidOut (h : draft.Writes byNumber spelling line) :
    Arrow.textOf ((Items.laidOut .space draft.returns).map (Arrow.mk .space)) =
        Printer.returnClause byNumber spelling line.returns ∧
      ∀ scope, ((Items.laidOut .space draft.returns).map (Arrow.mk .space)).map
          (fun arrow => arrow.items.patterns scope) =
        line.returns.map (List.map (Pattern.rename fun v => ⟨spelling v, scope⟩)) := by
  have hreturns := h.returns
  cases hline : line.returns with
  | none =>
    rw [hline, Option.getD_none, List.forall₂_nil_left_iff] at hreturns
    rw [hreturns]
    exact ⟨rfl, fun _ => rfl⟩
  | some patterns =>
    cases patterns with
    | nil => exact absurd hline h.some_returns
    | cons first more =>
      rw [hline, Option.getD_some] at hreturns
      obtain ⟨items, hitems, htext, hmeaning⟩ := Items.laidOut_of_writes .space hreturns
      rw [hitems]
      refine ⟨?_, fun scope => congrArg some (hmeaning scope)⟩
      rw [Option.map_some, Arrow.textOf, htext]
      rfl

theorem text_laidOut (h : draft.Writes byNumber spelling line) :
    (Entry.laidOut draft).text = '\n' :: Printer.callLine byNumber spelling line := by
  have hname : draft.name.chars = line.action.toList := draft.name.toList_text h.name
  simp only [Entry.text, Entry.laidOut, CallForm.text, CallForm.laidOut, CallForm.inner, hname,
    h.args_laidOut.1, h.returns_laidOut.1]
  rfl

theorem line_laidOut (h : draft.Writes byNumber spelling line) (scope : Nat) :
    (CallForm.laidOut draft).line scope = line.rename fun v => ⟨spelling v, scope⟩ := by
  rw [CallForm.line, CallForm.laidOut, h.name, h.args_laidOut.2, h.returns_laidOut.2]
  rfl

end CallDraft.Writes

end Drafts

/-! ## Rules -/

section Rules

variable {byNumber : Char → Bool}

variable (byNumber) in
structure RuleDraft.Writes (rule : Rule) (draft : RuleDraft) : Prop where
  trigger : draft.trigger.Writes byNumber rule.spelling rule.trigger
  guards : List.Forall₂ (CallDraft.Writes byNumber rule.spelling) rule.guards draft.guards
  consequences : List.Forall₂ (CallDraft.Writes byNumber rule.spelling) rule.consequences
    (draft.first :: draft.more)

/-- **Every rule that can be printed has a draft that writes it.** -/
theorem RuleDraft.exists_writes {rule : Rule} (h : Printer.CanPrint rule) :
    ∃ draft : RuleDraft, draft.Writes byNumber rule := by
  have hdraft (line : Line) (hline : line ∈ rule.lines) :
      ∃ draft : CallDraft, draft.Writes byNumber rule.spelling line :=
    CallDraft.exists_writes (fun v hv => Rule.canPrint_spelling hv 0) (h.lines line hline)
  have hwhen (line : Line) (hline : line ∈ rule.whenLines) :=
    hdraft line (List.mem_append_left _ hline)
  obtain ⟨trigger, htrigger⟩ := hwhen rule.trigger List.mem_cons_self
  obtain ⟨guards, hguards⟩ :=
    exists_forall₂ fun line hline => hwhen line (List.mem_cons_of_mem rule.trigger hline)
  obtain ⟨consequences, hconsequences⟩ :=
    exists_forall₂ fun line hline => hdraft line (List.mem_append_right rule.whenLines hline)
  cases consequences with
  | nil => exact absurd (List.forall₂_nil_right_iff.mp hconsequences) h.consequences
  | cons first more => exact ⟨⟨trigger, guards, first, more⟩, htrigger, hguards, hconsequences⟩

/-- Lines with a break in front of each are lines with a break behind each. -/
theorem breaks_shift (line : List Char) (lines : List (List Char)) (rest : List Char) :
    line ++ (lines.flatMap (fun l => '\n' :: l) ++ '\n' :: rest) =
      (line :: lines).flatMap (fun l => l ++ ['\n']) ++ rest := by
  induction lines generalizing line with
  | nil => simp
  | cons next lines ih =>
    rw [List.flatMap_cons, List.cons_append, List.cons_append, List.append_assoc, ih next,
      List.flatMap_cons, List.append_assoc, List.append_assoc, List.flatMap_cons]
    simp

theorem entries_laidOut {spelling : Variable → String} {lines : List Line}
    {drafts : List CallDraft} (h : List.Forall₂ (CallDraft.Writes byNumber spelling) lines drafts) :
    (drafts.map Entry.laidOut).flatMap Entry.text =
      (lines.map (Printer.callLine byNumber spelling)).flatMap fun l => '\n' :: l := by
  have htexts := map_of_forall₂ (f := fun line => '\n' :: Printer.callLine byNumber spelling line)
    (g := fun draft => (Entry.laidOut draft).text) h fun line draft h => h.text_laidOut
  rw [List.flatMap_def, List.flatMap_def, List.map_map, List.map_map]
  exact congrArg List.flatten htexts

namespace RuleDraft.Writes

variable {rule : Rule} {draft : RuleDraft}

theorem text_laidOut (h : draft.Writes byNumber rule) (close : Blanks) {tail : List Char}
    (hclose : close.chars = '\n' :: tail) :
    '\n' :: (RuleForm.laidOut draft close).text =
      (Printer.ruleLines byNumber rule).flatMap (fun l => l ++ ['\n']) ++ tail := by
  have hconditions : (ClauseForm.laidOut draft.trigger draft.guards .newline).text =
      (rule.whenLines.map (Printer.callLine byNumber rule.spelling)).flatMap (fun l => '\n' :: l) ++
        ['\n'] :=
    congrArg (· ++ ['\n']) (entries_laidOut (.cons h.trigger h.guards))
  have hconsequences : (ClauseForm.laidOut draft.first draft.more close).text =
      (rule.consequences.map (Printer.callLine byNumber rule.spelling)).flatMap
        (fun l => '\n' :: l) ++ close.chars :=
    congrArg (· ++ close.chars) (entries_laidOut h.consequences)
  have hwhen := breaks_shift Keyword.when.text.toList
    (rule.whenLines.map (Printer.callLine byNumber rule.spelling))
  have hsync := breaks_shift Keyword.sync.text.toList
    (rule.consequences.map (Printer.callLine byNumber rule.spelling))
  rw [RuleForm.text, RuleForm.laidOut, hconditions, hconsequences, hclose, hsync,
    List.append_assoc, List.singleton_append, hwhen]
  simp [Printer.ruleLines]

theorem rule_laidOut (h : draft.Writes byNumber rule) (close : Blanks) (scope line : Nat) :
    rule.Renames ((RuleForm.laidOut draft close).rule scope line)
      (fun v => ⟨rule.spelling v, scope⟩) where
  trigger := h.trigger.line_laidOut scope
  guards := by
    have hguards := map_of_forall₂ h.guards fun line draft h => h.line_laidOut scope
    rw [← hguards]
    simp [RuleForm.rule, RuleForm.laidOut, ClauseForm.laidOut, Entry.laidOut]
  consequences := by
    have hconsequences := map_of_forall₂ h.consequences fun line draft h => h.line_laidOut scope
    rw [← hconsequences]
    simp [RuleForm.rule, RuleForm.laidOut, ClauseForm.laidOut, ClauseForm.entries, Entry.laidOut]
  injective := by
    intro v hv w hw hname
    injection hname with hspelling
    exact Rule.spelling_injective hv hw hspelling

end RuleDraft.Writes

/-! ## Whole sources -/

theorem Word.newline_not_mem (word : Word) : '\n' ∉ word.chars := by
  intro h
  rcases List.mem_cons.mp h with h | h
  · have hletter := word.letter
    rw [← h] at hletter
    cases hletter
  · have hname := word.names _ h
    cases hname

theorem Atom.newline_not_mem (atom : Atom) : '\n' ∉ atom.text := by
  cases atom with
  | word w => exact w.newline_not_mem
  | literal l =>
    intro h
    have hends := l.inside _ h
    cases hends

section Lines

variable {spelling : Variable → String} (hspelling : ∀ v, Printer.CanPrintPattern (.var v) →
  Printer.CanPrintPattern (.var ⟨spelling v, 0⟩))

include hspelling

theorem newline_not_mem_positions {ps : List Pattern}
    (h : ∀ p ∈ ps, Printer.CanPrintPattern p) :
    '\n' ∉ Printer.positions byNumber spelling ps := by
  have hpattern (p : Pattern) (hp : p ∈ ps) : '\n' ∉ Printer.pattern byNumber spelling p := by
    obtain ⟨atom, hatom⟩ : ∃ atom : Atom, atom.Writes byNumber spelling p :=
      Atom.exists_writes (h p hp) hspelling
    rw [← hatom.text]
    exact atom.newline_not_mem
  cases ps with
  | nil => exact List.not_mem_nil
  | cons first more =>
    intro hmem
    rcases List.mem_append.mp hmem with hmem | hmem
    · exact hpattern first List.mem_cons_self hmem
    · obtain ⟨p, hp, hmem⟩ := List.mem_flatMap.mp hmem
      simp only [List.mem_cons] at hmem
      rcases hmem with hmem | hmem | hmem
      · cases hmem
      · cases hmem
      · exact hpattern p (List.mem_cons_of_mem first hp) hmem

theorem newline_not_mem_callLine {line : Line} (h : Printer.CanPrintLine line) :
    '\n' ∉ Printer.callLine byNumber spelling line := by
  obtain ⟨name, hname⟩ := h.action
  have haction : '\n' ∉ line.action.toList := by
    rw [← name.toList_text hname]
    exact name.newline_not_mem
  have hargs : '\n' ∉ Printer.positions byNumber spelling line.args :=
    newline_not_mem_positions hspelling fun p hp => h.patterns p (List.mem_append_left _ hp)
  have hreturns : '\n' ∉ Printer.returnClause byNumber spelling line.returns := by
    have hpatterns := fun p hp => h.patterns p (List.mem_append_right line.args hp)
    cases hline : line.returns with
    | none => exact List.not_mem_nil
    | some ps =>
      rw [hline] at hpatterns
      have hps : '\n' ∉ Printer.positions byNumber spelling ps :=
        newline_not_mem_positions hspelling hpatterns
      simpa [Printer.returnClause] using hps
  simp only [Printer.callLine, List.mem_cons, List.mem_append, haction, hargs, hreturns]
  decide

end Lines

theorem newline_not_mem_ruleLines {rule : Rule} (h : Printer.CanPrint rule) :
    ∀ line ∈ Printer.ruleLines byNumber rule, '\n' ∉ line := by
  have hcall (line : Line) (hline : line ∈ rule.lines) :
      '\n' ∉ Printer.callLine byNumber rule.spelling line :=
    newline_not_mem_callLine (fun v hv => Rule.canPrint_spelling hv 0) (h.lines line hline)
  intro line hline
  simp only [Printer.ruleLines, List.mem_cons, List.mem_append, List.mem_map] at hline
  rcases hline with rfl | rfl | ⟨call, hwhen, rfl⟩ | rfl | ⟨call, hsync, rfl⟩
  · exact List.not_mem_nil
  · decide
  · exact hcall call (List.mem_append_left _ hwhen)
  · decide
  · exact hcall call (List.mem_append_right _ hsync)

theorem text_allLaidOut {rule : Rule} {rules : List Rule} {draft : RuleDraft}
    {drafts : List RuleDraft} (hfirst : draft.Writes byNumber rule)
    (hmore : List.Forall₂ (RuleDraft.Writes byNumber) rules drafts) :
    '\n' :: (RuleForm.allLaidOut (draft :: drafts)).flatMap RuleForm.text =
      ((rule :: rules).flatMap (Printer.ruleLines byNumber)).flatMap fun l => l ++ ['\n'] := by
  induction hmore generalizing rule draft with
  | nil =>
    have htext := hfirst.text_laidOut .newline rfl
    simpa [RuleForm.allLaidOut] using htext
  | cons hnext _ ih =>
    have htext := hfirst.text_laidOut .emptyLine rfl
    rw [List.flatMap_cons, List.flatMap_append, ← ih hnext, RuleForm.allLaidOut, List.flatMap_cons,
      ← List.cons_append, htext, List.append_assoc]
    · rfl
    · exact List.cons_ne_nil _ _

/-- The text line is the keyword `when` and nothing else. -/
def isWhen (line : List Char) : Bool :=
  line = Keyword.when.text.toList

theorem count_breaks {lines : List (List Char)} (h : ∀ line ∈ lines, '\n' ∉ line) :
    (lines.flatMap fun l => l ++ ['\n']).count '\n' = lines.length := by
  induction lines with
  | nil => rfl
  | cons line lines ih =>
    obtain ⟨hline, hlines⟩ := List.forall_mem_cons.mp h
    rw [List.flatMap_cons, List.count_append, List.count_append, List.count_eq_zero.mpr hline,
      ih hlines, List.length_cons]
    simp [Nat.add_comm]

/-- The only line of a printed rule that is a `when` is its second. -/
theorem whenLines_ruleLines (rule : Rule) (rest : List (List Char)) (line : Nat) :
    (Printer.ruleLines byNumber rule ++ rest).findIdxs isWhen line =
      (line + 1) ::
        rest.findIdxs isWhen (line + (Printer.ruleLines byNumber rule).length) := by
  have hcalls (lines : List Line) (start : Nat) :
      (lines.map (Printer.callLine byNumber rule.spelling)).findIdxs isWhen start = [] := by
    rw [List.findIdxs_eq_nil_iff]
    intro text htext
    obtain ⟨call, -, rfl⟩ := List.mem_map.mp htext
    rfl
  have hempty : isWhen [] = false := rfl
  have hwhen : isWhen Keyword.when.text.toList = true := rfl
  have hsync : isWhen Keyword.sync.text.toList = false := rfl
  rw [List.findIdxs_append, Printer.ruleLines]
  simp only [List.findIdxs_cons, List.findIdxs_append, hcalls, hempty, hwhen, hsync, if_true]
  rfl

theorem lines_allLaidOut {rule : Rule} {rules : List Rule} {draft : RuleDraft}
    {drafts : List RuleDraft} (hfirst : draft.Writes byNumber rule)
    (hmore : List.Forall₂ (RuleDraft.Writes byNumber) rules drafts)
    (h : ∀ r ∈ rule :: rules, Printer.CanPrint r) (scope line : Nat) :
    (RuleForm.rules scope (line + 1) (RuleForm.allLaidOut (draft :: drafts))).map Rule.line =
      ((rule :: rules).flatMap (Printer.ruleLines byNumber)).findIdxs isWhen line := by
  induction hmore generalizing rule draft scope line with
  | nil =>
    rw [List.flatMap_cons, whenLines_ruleLines]
    rfl
  | cons hnext _ ih =>
    obtain ⟨hrule, hrules⟩ := List.forall_mem_cons.mp h
    -- A form counts its line breaks, and a printed rule has one to each of its lines.
    have htext := congrArg (List.count '\n') (hfirst.text_laidOut .emptyLine rfl)
    rw [List.count_append, count_breaks (newline_not_mem_ruleLines hrule),
      List.count_cons_self] at htext
    have hcount := Nat.succ.inj htext
    rw [List.flatMap_cons, whenLines_ruleLines, ← ih hnext hrules (scope + 1),
      RuleForm.allLaidOut, RuleForm.rules, List.map_cons, hcount, Nat.add_right_comm]
    · rfl
    · exact List.cons_ne_nil _ _

theorem renames_allLaidOut {rules : List Rule} {drafts : List RuleDraft}
    (h : List.Forall₂ (RuleDraft.Writes byNumber) rules drafts) (scope line : Nat) :
    List.Forall₂ (fun rule found => ∃ name, rule.Renames found name) rules
      (RuleForm.rules scope line (RuleForm.allLaidOut drafts)) := by
  induction h generalizing scope line with
  | nil => exact .nil
  | cons hfirst hmore ih =>
    cases hmore with
    | nil => exact .cons ⟨_, hfirst.rule_laidOut _ scope line⟩ .nil
    | cons hnext hmore => exact .cons ⟨_, hfirst.rule_laidOut _ scope line⟩ (ih _ _)

end Rules

end Source

open Source

/-- The numbers of the text lines that are `when`, counted from one. -/
def whenLines (source : String) : List Nat :=
  (Text.lines source.toList).findIdxs isWhen 1

theorem whenLines_print {byNumber : Char → Bool} {rules : List Rule}
    (h : ∀ rule ∈ rules, Printer.CanPrint rule) :
    whenLines (Printer.print byNumber rules) =
      (rules.flatMap (Printer.ruleLines byNumber)).findIdxs isWhen 1 := by
  have hlines : ∀ line ∈ rules.flatMap (Printer.ruleLines byNumber), '\n' ∉ line := by
    intro line hline
    obtain ⟨rule, hrule, hline⟩ := List.mem_flatMap.mp hline
    exact newline_not_mem_ruleLines (h rule hrule) line hline
  rw [whenLines, Printer.print, String.toList_ofList, Text.lines_of_breaks hlines,
    List.findIdxs_append]
  exact List.append_nil _

/-- **Printed rules are read back.** They come in their order, each with its variables renamed in a
way that keeps apart what was apart, none of them shared between two rules, and each on the text
line of its `when`. -/
theorem readRules_print (byNumber : Char → Bool) (rules : List Rule)
    (h : ∀ rule ∈ rules, Printer.CanPrint rule) :
    ∃ found, readRules (Printer.print byNumber rules) = .ok found ∧
      List.Forall₂ (fun rule found => ∃ name, rule.Renames found name) rules found ∧
      (found.Pairwise fun a b => ∀ v ∈ a.vars, v ∉ b.vars) ∧
      found.map Rule.line = whenLines (Printer.print byNumber rules) := by
  obtain ⟨drafts, hdrafts⟩ : ∃ drafts, List.Forall₂ (RuleDraft.Writes byNumber) rules drafts :=
    exists_forall₂ fun rule hrule => RuleDraft.exists_writes (h rule hrule)
  have hrenames := renames_allLaidOut hdrafts 0 2
  have hdisjoint := RuleForm.disjoint_rules 0 2 (RuleForm.allLaidOut drafts)
  refine ⟨_, readRules_iff.mpr ?_, hrenames, hdisjoint, ?_⟩
  · cases hdrafts with
    | nil => exact ⟨⟨.none, []⟩, rfl, trivial, rfl⟩
    | cons hfirst hmore =>
      refine ⟨_, SourceForm.derives_laidOut ?_⟩
      rw [Printer.print, String.toList_ofList, ← text_allLaidOut hfirst hmore]
      rfl
  · rw [whenLines_print h]
    cases hdrafts with
    | nil => rfl
    | cons hfirst hmore => exact lines_allLaidOut hfirst hmore h 0 1

/-- A rule whose names are keywords, with two variables of one name and delimiters in a text. -/
def keywordRule : Rule where
  trigger := ⟨"when", [.var ⟨"sync", 0⟩, .lit (.text "a, (b)\n")], some [.var ⟨"sync", 1⟩]⟩
  guards := []
  consequences := [⟨"sync", [.var ⟨"sync", 1⟩, .lit .null, .lit (.int (-7))], none⟩]
  line := 0

theorem canPrint_keywordRule : Printer.CanPrint keywordRule := by
  have hwhen : Printer.IsName "when" := isName_of_word? rfl
  have hsync : Printer.IsName "sync" := isName_of_word? rfl
  have hvar (scope : Nat) : Printer.CanPrintPattern (.var ⟨"sync", scope⟩) := by
    refine ⟨hsync, ?_, ?_, ?_⟩
    all_goals simp
  have hint : Printer.CanPrintPattern (.lit (.int (-7))) := by
    have hdigits : (Decimal.digits 7).length ≤ Decimal.digitLimit := by
      rw [Decimal.digits_of_lt (by decide)]
      decide
    exact hdigits
  refine ⟨?_, List.cons_ne_nil _ _⟩
  rintro line (_ | ⟨_, _ | ⟨_, _ | _⟩⟩)
  · refine ⟨hwhen, ?_, by simp [keywordRule]⟩
    rintro p (_ | ⟨_, _ | ⟨_, _ | ⟨_, _ | _⟩⟩⟩)
    · exact hvar 0
    · exact trivial
    · exact hvar 1
  · refine ⟨hsync, ?_, by simp⟩
    rintro p (_ | ⟨_, _ | ⟨_, _ | ⟨_, _ | _⟩⟩⟩)
    · exact hvar 1
    · exact trivial
    · exact hint

theorem readRules_print_keywords :
    ∃ found, readRules (Printer.print (fun _ => false) [keywordRule, keywordRule]) = .ok found ∧
      List.Forall₂ (fun rule found => ∃ name, rule.Renames found name)
        [keywordRule, keywordRule] found ∧
      (found.Pairwise fun a b => ∀ v ∈ a.vars, v ∉ b.vars) ∧ found.map Rule.line = [2, 7] := by
  have h : ∀ rule ∈ [keywordRule, keywordRule], Printer.CanPrint rule := by
    intro rule hrule
    simp only [List.mem_cons, List.not_mem_nil, or_false, or_self] at hrule
    rw [hrule]
    exact canPrint_keywordRule
  obtain ⟨found, hread, hrenames, hdisjoint, hlines⟩ := readRules_print (fun _ => false) _ h
  refine ⟨found, hread, hrenames, hdisjoint, ?_⟩
  rw [hlines, whenLines_print h]
  rfl

end Synchrony
