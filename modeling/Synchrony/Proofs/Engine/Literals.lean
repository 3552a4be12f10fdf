import Synchrony.Proofs.Engine.Supplies
import Synchrony.Proofs.Json.WellFormed
import Synchrony.Proofs.Rule.Grammar

/-!
# The literals of rules

A literal is read as JSON, so it is well-formed. It is never not-a-number, though a client may send
that: the name of it starts with a letter, and what starts with a letter is a word, which stands for
a variable. So no literal of a rule that was read keeps a line from fitting its own arguments.
-/

set_option autoImplicit false

namespace Synchrony

namespace Source

theorem isBlank_of_isSpace {c : Char} (h : Json.isSpace c = true) : Text.isBlank c = true := by
  simp only [Json.isSpace, Bool.or_eq_true, decide_eq_true_eq] at h
  rcases h with ((rfl | rfl) | rfl) | rfl <;> rfl

theorem Literal.wellFormed (l : Literal) : l.value.WellFormed :=
  Json.read?_wellFormed l.reads

theorem Literal.not_nan (l : Literal) : ¬l.value.IsNan := by
  intro hnan
  obtain ⟨more, htrim⟩ := trim_cons (t := l.tail) l.not_blank
  have hspace : ¬Json.isSpace l.head = true := by
    intro h
    have hblank := isBlank_of_isSpace h
    rw [l.not_blank] at hblank
    cases hblank
  have hhead := Json.head_of_read?_nan l.reads hnan
  rw [htrim, Json.skipSpace, List.dropWhile_cons_of_neg hspace] at hhead
  have hletter := l.not_letter
  rw [Option.some.inj hhead] at hletter
  cases hletter

theorem wordPattern_eq_lit {word : String} {scope : Nat} {value : Value}
    (h : wordPattern scope word = .lit value) :
    value = .bool true ∨ value = .bool false ∨ value = .null := by
  unfold wordPattern at h
  split at h
  · cases h
    exact Or.inl rfl
  split at h
  · cases h
    exact Or.inr (Or.inl rfl)
  split at h
  · cases h
    exact Or.inr (Or.inr rfl)
  · cases h

theorem Atom.literal_holds {atom : Atom} {scope : Nat} {value : Value}
    (h : atom.pattern scope = .lit value) : value.WellFormed ∧ ¬value.IsNan := by
  cases atom with
  | word w =>
    rcases wordPattern_eq_lit h with rfl | rfl | rfl
    · exact ⟨.bool true, id⟩
    · exact ⟨.bool false, id⟩
    · exact ⟨.null, id⟩
  | literal l =>
    cases h
    exact ⟨l.wellFormed, l.not_nan⟩

theorem CallForm.literals_hold (form : CallForm) (scope : Nat) :
    (form.line scope).LiteralsHold fun value => value.WellFormed ∧ ¬value.IsNan := by
  intro value hvalue
  obtain ⟨_, _, args, _, _, _⟩ := form
  cases args with
  | none => cases hvalue
  | some items =>
    obtain ⟨atom, hatom⟩ := Items.atom_of_mem hvalue
    exact Atom.literal_holds hatom

theorem RuleForm.form_of_mem {forms : List RuleForm} {scope line : Nat} {found : Rule}
    (h : found ∈ RuleForm.rules scope line forms) :
    ∃ form : RuleForm, ∃ scope line, form.rule scope line = found := by
  induction forms generalizing scope line with
  | nil => cases h
  | cons form more ih =>
    rcases List.mem_cons.mp h with rfl | hmem
    · exact ⟨form, scope, line, rfl⟩
    · exact ih hmem

theorem RuleForm.call_of_mem {form : RuleForm} {scope line : Nat} {found : Line}
    (h : found ∈ (form.rule scope line).ownLines) : ∃ call : CallForm, call.line scope = found := by
  rcases List.mem_append.mp h with h | h
  · obtain ⟨entry, -, rfl⟩ := List.mem_map.mp h
    exact ⟨entry.call, rfl⟩
  · obtain ⟨entry, -, rfl⟩ := List.mem_map.mp h
    exact ⟨entry.call, rfl⟩

end Source

open Source

/-- **The literals of rules that were read are well-formed, and none is not-a-number.** -/
theorem readRules_literals {source : String} {rules : List Rule}
    (h : readRules source = .ok rules) {rule : Rule} (hrule : rule ∈ rules) {line : Line}
    (hline : line ∈ rule.ownLines) :
    line.LiteralsHold fun value => value.WellFormed ∧ ¬value.IsNan := by
  obtain ⟨form, hform⟩ := readRules_iff.mp h
  rw [← hform.rules_eq] at hrule
  obtain ⟨ruleForm, scope, start, rfl⟩ := RuleForm.form_of_mem hrule
  obtain ⟨call, rfl⟩ := RuleForm.call_of_mem hline
  exact call.literals_hold scope

end Synchrony
