import Synchrony.Rule.Source

/-!
# The grammar of rule sources

A form is a piece of source as it stands there, with its blanks and the spelling of its literals.
The forms of this module are the productions of the grammar. Each has a text, which is what it
looks like, and a meaning, which is what it stands for; a source **derives** rules if it is the
text of a form with that meaning (`SourceForm.Derives`).

## 1. What a form holds

What can be said of a piece of source by itself is part of its form: that blanks are blank, that a
word starts with a letter, that a literal is JSON for a text or a number, that no call line starts
at a keyword. So there is no form of a piece that is ill-formed by itself.

## 2. What follows a form

Words, literals, argument lists and return clauses go on as long as they can, and whether they can
depends on the text behind them. `Fits rest` says of a form that it is complete where `rest`
follows. It is the only way in which the productions look ahead.
-/

set_option autoImplicit false

namespace Synchrony.Source

/-- A run of characters that goes on as long as it can ends in front of this text. -/
def Stops (p : Char → Bool) (rest : List Char) : Prop :=
  ∀ c ∈ rest.head?, p c = false

/-! ## Words and literals -/

/-- Blanks, line breaks among them. -/
structure Blanks where
  chars : List Char
  blank : ∀ c ∈ chars, Text.isBlank c = true

namespace Blanks

def none : Blanks :=
  ⟨[], fun _ hc => absurd hc List.not_mem_nil⟩

def space : Blanks :=
  ⟨[' '], List.all_eq_true.mp rfl⟩

end Blanks

/-- A letter and name characters. -/
structure Word where
  head : Char
  tail : List Char
  letter : isLetter head = true
  names : ∀ c ∈ tail, isNameChar c = true

namespace Word

def chars (word : Word) : List Char :=
  word.head :: word.tail

def text (word : Word) : String :=
  String.ofList word.chars

/-- The word is spelled like a keyword. -/
def Reserved (word : Word) : Prop :=
  word.text = "when" ∨ word.text = "sync"

end Word

/-- A literal: what is no word, has nothing in it that ends a literal, and is JSON for a text or a
number, blanks behind it aside. -/
structure Literal where
  head : Char
  tail : List Char
  value : Value
  not_letter : isLetter head = false
  not_blank : Text.isBlank head = false
  inside : ∀ c ∈ head :: tail, endsLiteral c = false
  reads : Json.read? (Text.trim (head :: tail)) = some value
  scalar : isLiteral value = true

def Literal.chars (literal : Literal) : List Char :=
  literal.head :: literal.tail

/-! ## Positions -/

inductive Atom where
  | word (word : Word)
  | literal (literal : Literal)

namespace Atom

def text : Atom → List Char
  | word w => w.chars
  | literal l => l.chars

/-- `true`, `false` and `null` are literals, every other word is a variable of its rule. -/
def pattern (scope : Nat) : Atom → Pattern
  | word w => wordPattern scope w.text
  | literal l => .lit l.value

/-- Words and literals are as long as they can be. -/
def Fits (rest : List Char) : Atom → Prop
  | word _ => Stops isNameChar rest
  | literal _ => Stops (fun c => !endsLiteral c) rest

end Atom

/-- A comma and one more position. -/
structure Further where
  before : Blanks
  behind : Blanks
  atom : Atom

namespace Further

def text (further : Further) : List Char :=
  further.before.chars ++ ',' :: (further.behind.chars ++ further.atom.text)

/-- Every comma that follows is taken. -/
def FitAll : List Further → List Char → Prop
  | [], rest => Stops (· = ',') (Text.skipBlanks rest)
  | further :: more, rest => further.atom.Fits (more.flatMap text ++ rest) ∧ FitAll more rest

end Further

/-- One or more positions. -/
structure Items where
  lead : Blanks
  first : Atom
  more : List Further

namespace Items

def text (items : Items) : List Char :=
  items.lead.chars ++ (items.first.text ++ items.more.flatMap Further.text)

def patterns (scope : Nat) (items : Items) : List Pattern :=
  items.first.pattern scope :: items.more.map fun further => further.atom.pattern scope

def Fits (rest : List Char) (items : Items) : Prop :=
  items.first.Fits (items.more.flatMap Further.text ++ rest) ∧ Further.FitAll items.more rest

end Items

/-! ## Call lines -/

def argsText : Option Items → List Char
  | none => []
  | some items => items.text

/-- The return clause of a call line, with the blanks in front of its arrow. -/
structure Arrow where
  before : Blanks
  items : Items

namespace Arrow

def textOf : Option Arrow → List Char
  | none => []
  | some arrow => arrow.before.chars ++ '-' :: '>' :: arrow.items.text

/-- An arrow that follows is taken. -/
def FitsOf (rest : List Char) : Option Arrow → Prop
  | none => ¬['-', '>'] <+: Text.skipBlanks rest
  | some arrow => arrow.items.Fits rest

end Arrow

/-- A call line. It does not start at a keyword, which is to say that a word spelled like one has
its parenthesis right behind it. -/
structure CallForm where
  name : Word
  gap : Blanks
  args : Option Items
  close : Blanks
  returns : Option Arrow
  not_keyword : name.Reserved → gap.chars = []

namespace CallForm

def inner (form : CallForm) : List Char :=
  argsText form.args ++ (form.close.chars ++ ')' :: Arrow.textOf form.returns)

def text (form : CallForm) : List Char :=
  form.name.chars ++ (form.gap.chars ++ '(' :: form.inner)

def line (scope : Nat) (form : CallForm) : Line where
  action := form.name.text
  args := (form.args.map (Items.patterns scope)).getD []
  returns := form.returns.map fun arrow => arrow.items.patterns scope

structure Fits (rest : List Char) (form : CallForm) : Prop where
  args : ∀ items ∈ form.args,
    items.Fits (form.close.chars ++ ')' :: (Arrow.textOf form.returns ++ rest))
  returns : Arrow.FitsOf rest form.returns

end CallForm

structure Entry where
  lead : Blanks
  call : CallForm

namespace Entry

def text (entry : Entry) : List Char :=
  entry.lead.chars ++ entry.call.text

def FitAll : List Entry → List Char → Prop
  | [], _ => True
  | entry :: more, rest => entry.call.Fits (more.flatMap text ++ rest) ∧ FitAll more rest

end Entry

/-! ## Rules -/

/-- One or more call lines, with blanks behind them. A blank stands between them and the keyword of
the clause. -/
structure ClauseForm where
  first : Entry
  more : List Entry
  close : Blanks
  apart : first.lead.chars ≠ []

namespace ClauseForm

def entries (form : ClauseForm) : List Entry :=
  form.first :: form.more

def text (form : ClauseForm) : List Char :=
  form.entries.flatMap Entry.text ++ form.close.chars

def Fits (rest : List Char) (form : ClauseForm) : Prop :=
  Entry.FitAll form.entries (form.close.chars ++ rest)

end ClauseForm

structure RuleForm where
  conditions : ClauseForm
  consequences : ClauseForm

namespace RuleForm

def text (form : RuleForm) : List Char :=
  Keyword.when.text.toList ++
    (form.conditions.text ++ (Keyword.sync.text.toList ++ form.consequences.text))

/-- The rule, with its number and the text line on which it starts. -/
def rule (scope line : Nat) (form : RuleForm) : Rule where
  trigger := form.conditions.first.call.line scope
  guards := form.conditions.more.map fun entry => entry.call.line scope
  consequences := form.consequences.entries.map fun entry => entry.call.line scope
  line := line

structure Fits (rest : List Char) (form : RuleForm) : Prop where
  conditions : form.conditions.Fits
    (Keyword.sync.text.toList ++ (form.consequences.text ++ rest))
  consequences : form.consequences.Fits rest

def FitAll : List RuleForm → Prop
  | [] => True
  | form :: more => form.Fits (more.flatMap text) ∧ FitAll more

/-- The rules of forms that stand behind each other, numbered from `scope` on, the first of them on
the text line `line`. -/
def rules : Nat → Nat → List RuleForm → List Rule
  | _, _, [] => []
  | scope, line, form :: more =>
    form.rule scope line :: rules (scope + 1) (line + form.text.count '\n') more

end RuleForm

/-- A whole source: blanks, and rules. -/
structure SourceForm where
  lead : Blanks
  rules : List RuleForm

namespace SourceForm

def text (form : SourceForm) : List Char :=
  form.lead.chars ++ form.rules.flatMap RuleForm.text

/-- The source has this form, and the form stands for these rules. -/
structure Derives (form : SourceForm) (source : String) (rules : List Rule) : Prop where
  text_eq : form.text = source.toList
  fits : RuleForm.FitAll form.rules
  rules_eq : RuleForm.rules 0 (form.lead.chars.count '\n' + 1) form.rules = rules

end SourceForm

end Synchrony.Source
