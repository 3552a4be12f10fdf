import Mathlib.Algebra.Order.BigOperators.Group.List
import Mathlib.Algebra.Order.Ring.Nat
import Synchrony.Proofs.Json.ReadBack
import Synchrony.Proofs.Rule.Scanning

/-!
# Printing rules

`Printer.print` writes rules as a source: each keyword and each call line on a text line of its own,
strings in quotes, and inside them every comma and every closing parenthesis by number. It may
write other characters by number as well; which ones is left open, so that what is proved holds
for printers that keep to ASCII and for those that do not.

## Spelling

Variables of one rule may have one name, if they were made for it in different scopes. The first of
them is spelled by its name and the others by a name that is longer than all names of the rule
together (`Rule.spelling`).

## What can be printed

Names have to be names, a return clause has to have a pattern, and a literal has to be null, a truth
value, a text, or an integer of no more digits than are read (`Printer.CanPrint`). A name may be
spelled like a keyword.
-/

set_option autoImplicit false

namespace Synchrony

/-! ## Spelling -/

namespace Rule

/-- A name that is longer than all names of the rule together. -/
def longName (rule : Rule) (v : Variable) : String :=
  String.ofList ('v' ::
    List.replicate ((rule.vars.map fun w => w.name.length).sum + rule.vars.idxOf v) '*')

/-- How a variable of the rule is spelled. -/
def spelling (rule : Rule) (v : Variable) : String :=
  if rule.vars.find? (fun w => w.name = v.name) = some v then v.name else rule.longName v

end Rule

/-! ## The printer -/

namespace Printer

section Lines

variable (byNumber : Char → Bool)

/-- A character of a string. -/
def char (c : Char) : List Char :=
  if c = ',' ∨ c = ')' ∨ byNumber c then Json.numberEscape c else Json.escapeChar c

def value : Value → List Char
  | .text s => '"' :: s.toList.flatMap (char byNumber) ++ ['"']
  | v => Json.write v

def pattern (spelling : Variable → String) : Pattern → List Char
  | .var v => (spelling v).toList
  | .lit v => value byNumber v

/-- Positions, a comma and a blank between them. -/
def positions (spelling : Variable → String) : List Pattern → List Char
  | [] => []
  | first :: more =>
    pattern byNumber spelling first ++
      more.flatMap fun p => ',' :: ' ' :: pattern byNumber spelling p

def returnClause (spelling : Variable → String) : Option (List Pattern) → List Char
  | none => []
  | some ps => ' ' :: '-' :: '>' :: ' ' :: positions byNumber spelling ps

def callLine (spelling : Variable → String) (line : Line) : List Char :=
  ' ' :: ' ' :: (line.action.toList ++
    '(' :: (positions byNumber spelling line.args ++
      ')' :: returnClause byNumber spelling line.returns))

/-- The text lines of a rule, the first of them empty. -/
def ruleLines (rule : Rule) : List (List Char) :=
  [] :: Source.Keyword.when.text.toList :: (rule.whenLines.map (callLine byNumber rule.spelling) ++
    Source.Keyword.sync.text.toList ::
      rule.consequences.map (callLine byNumber rule.spelling))

def print (rules : List Rule) : String :=
  String.ofList ((rules.flatMap (ruleLines byNumber)).flatMap fun line => line ++ ['\n'])

end Lines

/-! ## What can be printed -/

/-- The name of an action or of a variable. -/
def IsName (name : String) : Prop :=
  ∃ word : Source.Word, word.text = name

/-- The literals of a source are null, truth values, texts, and integers of no more digits than are
read. -/
def CanPrintValue : Value → Prop
  | .null => True
  | .bool _ => True
  | .int n => (Decimal.digits n.natAbs).length ≤ Decimal.digitLimit
  | .text _ => True
  | _ => False

def CanPrintPattern : Pattern → Prop
  | .var v => IsName v.name ∧ v.name ≠ "true" ∧ v.name ≠ "false" ∧ v.name ≠ "null"
  | .lit value => CanPrintValue value

structure CanPrintLine (line : Line) : Prop where
  action : IsName line.action
  patterns : ∀ p ∈ line.patterns, CanPrintPattern p
  returns : line.returns ≠ some []

structure CanPrint (rule : Rule) : Prop where
  lines : ∀ line ∈ rule.lines, CanPrintLine line
  consequences : rule.consequences ≠ []

end Printer

/-! ## Why spelling tells variables apart -/

namespace Rule

variable {rule : Rule} {v w : Variable}

theorem length_longName (rule : Rule) (v : Variable) :
    (rule.longName v).length =
      (rule.vars.map fun w => w.name.length).sum + rule.vars.idxOf v + 1 := by
  rw [longName, String.length_ofList, List.length_cons, List.length_replicate]

theorem name_length_lt (hw : w ∈ rule.vars) (v : Variable) :
    w.name.length < (rule.longName v).length := by
  have hle := List.le_sum_of_mem (List.mem_map_of_mem (f := fun w : Variable => w.name.length) hw)
  rw [length_longName]
  omega

theorem spelling_injective (hv : v ∈ rule.vars) (hw : w ∈ rule.vars)
    (h : rule.spelling v = rule.spelling w) : v = w := by
  -- Long names are longer than names and differ in length among themselves.
  unfold spelling at h
  split at h
  case isTrue hfirst =>
    split at h
    case isTrue hfirst' =>
      rw [h, hfirst'] at hfirst
      exact (Option.some.inj hfirst).symm
    case isFalse =>
      have hlt := name_length_lt hv w
      rw [h] at hlt
      exact absurd hlt (Nat.lt_irrefl _)
  case isFalse =>
    split at h
    case isTrue =>
      have hlt := name_length_lt hw v
      rw [h] at hlt
      exact absurd hlt (Nat.lt_irrefl _)
    case isFalse =>
      have hlength := congrArg String.length h
      rw [length_longName, length_longName] at hlength
      exact (List.idxOf_inj hv).mp (by omega)

theorem isName_longName (rule : Rule) (v : Variable) : Printer.IsName (rule.longName v) := by
  refine ⟨⟨'v', _, rfl, ?_⟩, rfl⟩
  intro c hc
  rw [List.eq_of_mem_replicate hc]
  rfl

theorem longName_ne {name : String} (h : name.toList.head? ≠ some 'v') :
    rule.longName v ≠ name := by
  rintro rfl
  rw [longName, String.toList_ofList] at h
  exact h rfl

theorem canPrint_spelling (h : Printer.CanPrintPattern (.var v)) (scope : Nat) :
    Printer.CanPrintPattern (.var ⟨rule.spelling v, scope⟩) := by
  unfold spelling
  split
  case isTrue => exact h
  case isFalse =>
    exact ⟨rule.isName_longName v, longName_ne (by decide), longName_ne (by decide),
      longName_ne (by decide)⟩

end Rule

namespace Source

/-! ## Characters of literals -/

theorem endsLiteral_hexDigits {width n : Nat} :
    ∀ c ∈ Text.hexDigits width n, endsLiteral c = false := by
  have hall : ∀ d : Fin 16, endsLiteral (Text.hexDigit d.val) = false := by decide
  intro c hc
  obtain ⟨k, hk, rfl⟩ := Text.mem_hexDigits hc
  exact hall ⟨k, hk⟩

theorem endsLiteral_unitEscape {n : Nat} : ∀ c ∈ Json.unitEscape n, endsLiteral c = false := by
  intro c hc
  rcases List.mem_cons.mp hc with rfl | hc
  · rfl
  rcases List.mem_cons.mp hc with rfl | hc
  · rfl
  · exact endsLiteral_hexDigits c hc

theorem endsLiteral_numberEscape {c : Char} :
    ∀ d ∈ Json.numberEscape c, endsLiteral d = false := by
  intro d hd
  rw [Json.numberEscape] at hd
  split at hd
  case isTrue => exact endsLiteral_unitEscape d hd
  case isFalse =>
    rcases List.mem_append.mp hd with hd | hd
    · exact endsLiteral_unitEscape d hd
    · exact endsLiteral_unitEscape d hd

/-- The writer of strings leaves no line break in them. -/
theorem endsLiteral_escapeChar {c : Char} (hcomma : c ≠ ',') (hclose : c ≠ ')') :
    ∀ d ∈ Json.escapeChar c, endsLiteral d = false := by
  have hall {escape : List Char} (h : escape.all fun d => !endsLiteral d) :
      ∀ d ∈ escape, endsLiteral d = false := by
    intro d hd
    simpa using List.all_eq_true.mp h d hd
  unfold Json.escapeChar
  split
  next => exact hall rfl
  split
  next => exact hall rfl
  split
  next => exact hall rfl
  split
  next => exact hall rfl
  split
  next => exact hall rfl
  split
  next => exact hall rfl
  split
  next => exact hall rfl
  split
  next => exact endsLiteral_unitEscape
  next hfeed hreturn _ _ _ _ =>
    intro d hd
    rw [List.mem_singleton.mp hd]
    simp [endsLiteral, hcomma, hclose, hfeed, hreturn]

theorem endsLiteral_char (byNumber : Char → Bool) (c : Char) :
    ∀ d ∈ Printer.char byNumber c, endsLiteral d = false := by
  unfold Printer.char
  split
  case isTrue => exact endsLiteral_numberEscape
  case isFalse h =>
    rw [not_or, not_or] at h
    exact endsLiteral_escapeChar h.1 h.2.1

theorem stands_char (byNumber : Char → Bool) (c : Char) :
    Json.Stands (Printer.char byNumber c) c := by
  unfold Printer.char
  split
  case isTrue => exact Json.numberEscape_stands c
  case isFalse => exact Json.escapeChar_stands c

theorem isNameChar_of_isDigit {c : Char} (h : Decimal.isDigit c = true) :
    isNameChar c = true := by
  simp [isNameChar, h]

theorem not_letter_of_isDigit (c : Char) (h : Decimal.isDigit c = true) :
    isLetter c = false := by
  simp only [Decimal.isDigit, Bool.and_eq_true, decide_eq_true_eq] at h
  simp only [isLetter, Bool.or_eq_false_iff, Bool.and_eq_false_iff, decide_eq_false_iff_not]
  omega

theorem not_endsLiteral_of_isDigit (c : Char) (h : Decimal.isDigit c = true) :
    endsLiteral c = false := by
  simp only [endsLiteral, Bool.or_eq_false_iff, decide_eq_false_iff_not]
  refine ⟨⟨⟨?_, ?_⟩, ?_⟩, ?_⟩
  all_goals
    rintro rfl
    cases h

theorem ofInt_chars {n : Int} {c : Char} (h : c ∈ Decimal.ofInt n) :
    c = '-' ∨ Decimal.isDigit c = true := by
  cases n with
  | ofNat n => exact Or.inr (Decimal.isDigit_of_mem_digits h)
  | negSucc n =>
    rcases List.mem_cons.mp h with h | h
    · exact Or.inl h
    · exact Or.inr (Decimal.isDigit_of_mem_digits h)

end Source

end Synchrony
