import Synchrony.Json.Read
import Synchrony.Rule.Basic
import Synchrony.Text.Blank
import Synchrony.Text.Quoted

/-!
# Rule sources

The text of a rule set is a sequence of rules. A rule is the keyword `when`, one or more call
lines, the keyword `sync`, and one or more call lines again. A call line is a name, arguments in
parentheses, and optionally an arrow with return patterns. Blanks, line breaks among them, may
stand between any two of these.

## 1. Words

A word is a letter and whatever name characters follow it. The words `when` and `sync` are keywords
only where a call line could start and only if a blank or the end of the text follows; anywhere
else, and with an opening parenthesis behind them, they are names like any other.

## 2. Patterns

A word at an argument or return position is a variable, except for `true`, `false` and `null`.
Anything else is a literal. It runs up to the next comma, closing parenthesis or line break, quotes
or not, and what stands there must be JSON for a text or a number.

## 3. Reading

Every reader takes what is left of the source and answers with what it read and what is left then,
or with the reason why it stopped and what was left at that point. The place of an error is told
from the length of what was left, so no reader counts characters (`SourceError.of`).

The lemmas named `…_shorter` say that a reader that succeeds has consumed something. They are what
makes the three loops end.
-/

set_option autoImplicit false

namespace Synchrony.Source

/-- The two words that open a clause. -/
inductive Keyword where
  | when
  | sync
  deriving DecidableEq, Repr

/-- The spelling of a keyword. -/
def Keyword.text : Keyword → String
  | .when => "when"
  | .sync => "sync"

/-- Why a source cannot be read on. -/
inductive Reason where
  | expected (c : Char)
  | expectedKeyword (keyword : Keyword)
  | emptyClause (keyword : Keyword)
  | expectedName
  | expectedValue
  | invalidLiteral
  | notScalar
  deriving DecidableEq, Repr

/-- The wording of a reason. -/
def Reason.text : Reason → String
  | .expected c => "Expected " ++ Text.quoted (String.singleton c)
  | .expectedKeyword keyword => "Expected '" ++ keyword.text ++ "'"
  | .emptyClause keyword => "Empty '" ++ keyword.text ++ "' clause"
  | .expectedName => "Expected action name"
  | .expectedValue => "Expected a value"
  | .invalidLiteral => "Invalid literal"
  | .notScalar => "Literal must be a string, number or null"

/-- A reader's refusal: the reason, and what was left of the source where it applies. -/
structure Stop where
  reason : Reason
  rest : List Char
  deriving DecidableEq, Repr

/-- What a reader answers. -/
abbrev Reads (α : Type) := Except Stop (α × List Char)

/-! ## Words -/

/-- The letters that a word can start with. -/
def isLetter (c : Char) : Bool :=
  let n := c.toNat
  (65 ≤ n && n ≤ 90) || (97 ≤ n && n ≤ 122)

/-- The characters that a word can go on with. -/
def isNameChar (c : Char) : Bool :=
  isLetter c || Decimal.isDigit c || c = '.' || c = '_' || c = '-' || c = '!' || c = '$' || c = '*'

/-- The longest word in front of the text. -/
def word? : List Char → Option (String × List Char)
  | [] => none
  | c :: r =>
    if isLetter c then
      some (String.ofList (c :: r.takeWhile isNameChar), r.dropWhile isNameChar)
    else none

/-- Whether a keyword could end in front of this text. -/
def endsKeyword : List Char → Bool
  | [] => true
  | c :: _ => Text.isBlank c

/-- The keyword in front of the text. -/
def keyword? (s : List Char) : Option (Keyword × List Char) :=
  match word? s with
  | some (w, r) =>
    if endsKeyword r then
      if w = "when" then some (.when, r) else if w = "sync" then some (.sync, r) else none
    else none
  | none => none

/-- Read a particular keyword, blanks before it allowed. -/
def keyword (k : Keyword) (s : List Char) : Except Stop (List Char) :=
  match keyword? (Text.skipBlanks s) with
  | some (found, r) =>
    if found = k then .ok r else .error ⟨.expectedKeyword k, Text.skipBlanks s⟩
  | none => .error ⟨.expectedKeyword k, Text.skipBlanks s⟩

/-- Read a particular character, blanks before it allowed. -/
def expect (c : Char) (s : List Char) : Except Stop (List Char) :=
  match Text.skipBlanks s with
  | d :: r => if d = c then .ok r else .error ⟨.expected c, d :: r⟩
  | [] => .error ⟨.expected c, []⟩

theorem word?_shorter {s : List Char} {w : String} {r : List Char}
    (h : word? s = some (w, r)) : r.length < s.length := by
  cases s with
  | nil => simp [word?] at h
  | cons c t =>
    by_cases hc : isLetter c = true
    · simp only [word?, hc, if_true, Option.some.injEq, Prod.mk.injEq] at h
      have := (List.dropWhile_sublist isNameChar (l := t)).length_le
      rw [← h.2, List.length_cons]
      omega
    · simp [word?, hc] at h

theorem keyword_shorter {k : Keyword} {s r : List Char} (h : keyword k s = .ok r) :
    r.length < s.length := by
  unfold keyword at h
  split at h
  · rename_i found r' hk
    split at h
    · cases h
      have hle := Text.skipBlanks_length_le s
      unfold keyword? at hk
      split at hk
      · rename_i w r'' hw
        have := word?_shorter hw
        split at hk
        · split at hk
          · cases hk; omega
          · split at hk
            · cases hk; omega
            · cases hk
        · cases hk
      · cases hk
    · cases h
  · cases h

theorem expect_shorter {c : Char} {s r : List Char} (h : expect c s = .ok r) :
    r.length < s.length := by
  have hle := Text.skipBlanks_length_le s
  unfold expect at h
  split at h
  · rename_i d t hs
    split at h
    · cases h
      rw [hs, List.length_cons] at hle
      omega
    · cases h
  · cases h

/-! ## Patterns -/

/-- The characters that end a literal. -/
def endsLiteral (c : Char) : Bool :=
  c = ',' || c = ')' || c = '\r' || c = '\n'

/-- Whether a value may be written as a literal of this kind: a text or a number. -/
def isLiteral : Value → Bool
  | .text _ => true
  | .int _ => true
  | .float _ => true
  | _ => false

/-- A literal: everything up to the next character that ends one, blanks around it aside. -/
def literal (s : List Char) : Reads Value :=
  let raw := Text.trim (s.takeWhile fun c => !endsLiteral c)
  if raw.isEmpty then .error ⟨.expectedValue, s⟩
  else match Json.read? raw with
    | none => .error ⟨.invalidLiteral, s⟩
    | some v =>
      if isLiteral v then .ok (v, s.dropWhile fun c => !endsLiteral c)
      else .error ⟨.notScalar, s⟩

/-- What a word at a position of a line stands for. -/
def wordPattern (scope : Nat) (w : String) : Pattern :=
  if w = "true" then .lit (.bool true)
  else if w = "false" then .lit (.bool false)
  else if w = "null" then .lit .null
  else .var ⟨w, scope⟩

/-- One position of a line, blanks before it allowed. -/
def pattern (scope : Nat) (s : List Char) : Reads Pattern :=
  match word? (Text.skipBlanks s) with
  | some (w, r) => .ok (wordPattern scope w, r)
  | none =>
    match literal (Text.skipBlanks s) with
    | .ok (v, r) => .ok (.lit v, r)
    | .error stop => .error stop

theorem literal_shorter {s : List Char} {v : Value} {r : List Char}
    (h : literal s = .ok (v, r)) : r.length < s.length := by
  unfold literal at h
  simp only at h
  split at h
  · cases h
  · rename_i hraw
    split at h
    · cases h
    · split at h
      · cases h
        have hsplit := List.takeWhile_append_dropWhile (p := fun c => !endsLiteral c) (l := s)
        have hlen := congrArg List.length hsplit
        rw [List.length_append] at hlen
        cases ht : s.takeWhile fun c => !endsLiteral c with
        | nil => simp [ht, Text.trim, Text.skipBlanks, Text.trimEnd] at hraw
        | cons a t => simp only [ht, List.length_cons] at hlen; omega
      · cases h

theorem pattern_shorter {scope : Nat} {s : List Char} {p : Pattern} {r : List Char}
    (h : pattern scope s = .ok (p, r)) : r.length < s.length := by
  have hle := Text.skipBlanks_length_le s
  unfold pattern at h
  split at h
  · rename_i w r' hw
    have := word?_shorter hw
    cases h; omega
  · split at h
    · rename_i v r' hl
      have := literal_shorter hl
      cases h; omega
    · cases h

/-- The positions behind the first of a list, each led in by a comma. When no comma follows, the
blanks that were skipped in search of one are left unread. -/
def morePatterns (scope : Nat) (s : List Char) : Reads (List Pattern) :=
  match _hs : Text.skipBlanks s with
  | c :: r =>
    if c = ',' then
      match _hp : pattern scope r with
      | .error stop => .error stop
      | .ok (p, r') =>
        match morePatterns scope r' with
        | .error stop => .error stop
        | .ok (ps, r'') => .ok (p :: ps, r'')
    else .ok ([], s)
  | [] => .ok ([], s)
termination_by s.length
decreasing_by
  have hle := Text.skipBlanks_length_le s
  have := pattern_shorter _hp
  rw [_hs, List.length_cons] at hle
  omega

/-- One or more positions, separated by commas. -/
def patterns (scope : Nat) (s : List Char) : Reads (List Pattern) :=
  match pattern scope s with
  | .error stop => .error stop
  | .ok (p, r) =>
    match morePatterns scope r with
    | .error stop => .error stop
    | .ok (ps, r') => .ok (p :: ps, r')

theorem morePatterns_length_le (scope : Nat) (s : List Char) {ps : List Pattern} {r : List Char}
    (h : morePatterns scope s = .ok (ps, r)) : r.length ≤ s.length := by
  induction hn : s.length using Nat.strongRecOn generalizing s ps r with
  | _ n ih =>
    unfold morePatterns at h
    split at h
    · rename_i c t hs
      have hle := Text.skipBlanks_length_le s
      rw [hs, List.length_cons] at hle
      split at h
      · split at h
        · cases h
        · rename_i p t' hp
          have hlt := pattern_shorter hp
          split at h
          · cases h
          · rename_i qs t'' hm
            cases h
            have := ih t'.length (by omega) t' hm rfl
            omega
      · cases h; omega
    · cases h; omega

theorem patterns_shorter {scope : Nat} {s : List Char} {ps : List Pattern} {r : List Char}
    (h : patterns scope s = .ok (ps, r)) : r.length < s.length := by
  unfold patterns at h
  split at h
  · cases h
  · rename_i p t hp
    have := pattern_shorter hp
    split at h
    · cases h
    · rename_i qs t' hm
      have := morePatterns_length_le scope t hm
      cases h; omega

/-! ## Call lines -/

/-- The arguments of a call line, up to its closing parenthesis. -/
def arguments (scope : Nat) (s : List Char) : Reads (List Pattern) :=
  match Text.skipBlanks s with
  | ')' :: r => .ok ([], ')' :: r)
  | r => patterns scope r

/-- The return clause of a call line. When no arrow follows, the blanks that were skipped in search
of one are left unread. -/
def returnClause (scope : Nat) (s : List Char) : Reads (Option (List Pattern)) :=
  match Text.skipBlanks s with
  | '-' :: '>' :: r =>
    match patterns scope r with
    | .error stop => .error stop
    | .ok (ps, r') => .ok (some ps, r')
  | _ => .ok (none, s)

/-- One call line. -/
def call (scope : Nat) (s : List Char) : Reads Line :=
  match word? s with
  | none => .error ⟨.expectedName, s⟩
  | some (name, r) =>
    match expect '(' r with
    | .error stop => .error stop
    | .ok r =>
      match arguments scope r with
      | .error stop => .error stop
      | .ok (args, r) =>
        match expect ')' r with
        | .error stop => .error stop
        | .ok r =>
          match returnClause scope r with
          | .error stop => .error stop
          | .ok (returns, r) => .ok (⟨name, args, returns⟩, r)

theorem arguments_length_le {scope : Nat} {s : List Char} {ps : List Pattern} {r : List Char}
    (h : arguments scope s = .ok (ps, r)) : r.length ≤ s.length := by
  have hle := Text.skipBlanks_length_le s
  unfold arguments at h
  split at h
  · rename_i t hs
    cases h
    rw [hs] at hle
    exact hle
  · have := patterns_shorter h
    omega

theorem returnClause_length_le {scope : Nat} {s : List Char} {ps : Option (List Pattern)}
    {r : List Char} (h : returnClause scope s = .ok (ps, r)) : r.length ≤ s.length := by
  have hle := Text.skipBlanks_length_le s
  unfold returnClause at h
  split at h
  · rename_i t hs
    rw [hs] at hle
    simp only [List.length_cons] at hle
    split at h
    · cases h
    · rename_i qs t' hp
      have := patterns_shorter hp
      cases h; omega
  · cases h; omega

theorem call_shorter {scope : Nat} {s : List Char} {line : Line} {r : List Char}
    (h : call scope s = .ok (line, r)) : r.length < s.length := by
  unfold call at h
  split at h
  · cases h
  · rename_i name r₀ hw
    have h₀ := word?_shorter hw
    split at h
    · cases h
    · rename_i r₁ h1
      have h₁ := expect_shorter h1
      split at h
      · cases h
      · rename_i args r₂ h2
        have h₂ := arguments_length_le h2
        split at h
        · cases h
        · rename_i r₃ h3
          have h₃ := expect_shorter h3
          split at h
          · cases h
          · rename_i returns r₄ h4
            have h₄ := returnClause_length_le h4
            cases h; omega

/-- Call lines up to a keyword or the end of the text. -/
def calls (scope : Nat) (s : List Char) : Reads (List Line) :=
  if (Text.skipBlanks s).isEmpty || (keyword? (Text.skipBlanks s)).isSome then
    .ok ([], Text.skipBlanks s)
  else
    match _hl : call scope (Text.skipBlanks s) with
    | .error stop => .error stop
    | .ok (line, r) =>
      match calls scope r with
      | .error stop => .error stop
      | .ok (lines, r') => .ok (line :: lines, r')
termination_by s.length
decreasing_by
  have hle := Text.skipBlanks_length_le s
  have := call_shorter _hl
  omega

theorem calls_length_le (scope : Nat) (s : List Char) {lines : List Line} {r : List Char}
    (h : calls scope s = .ok (lines, r)) : r.length ≤ s.length := by
  induction hn : s.length using Nat.strongRecOn generalizing s lines r with
  | _ n ih =>
    have hle := Text.skipBlanks_length_le s
    unfold calls at h
    split at h
    · cases h; omega
    · split at h
      · cases h
      · rename_i line t hl
        have hlt := call_shorter hl
        split at h
        · cases h
        · rename_i more t' hm
          cases h
          have := ih t.length (by omega) t hm rfl
          omega

/-- The call lines of a clause, at least one. -/
def clause (k : Keyword) (scope : Nat) (s : List Char) : Reads (Line × List Line) :=
  match calls scope s with
  | .error stop => .error stop
  | .ok ([], r) => .error ⟨.emptyClause k, r⟩
  | .ok (line :: lines, r) => .ok ((line, lines), r)

/-! ## Rules -/

/-- The text line that starts where `rest` is what is left of `source`. -/
def lineAt (source rest : List Char) : Nat :=
  (source.take (source.length - rest.length)).count '\n' + 1

/-- One rule, the one with number `scope`. -/
def rule (source : List Char) (scope : Nat) (s : List Char) : Reads Rule :=
  match keyword .when s with
  | .error stop => .error stop
  | .ok r =>
    match clause .when scope r with
    | .error stop => .error stop
    | .ok ((trigger, guards), r) =>
      match keyword .sync r with
      | .error stop => .error stop
      | .ok r =>
        match clause .sync scope r with
        | .error stop => .error stop
        | .ok ((first, more), r) =>
          .ok (⟨trigger, guards, first :: more, lineAt source (Text.skipBlanks s)⟩, r)

theorem clause_length_le {k : Keyword} {scope : Nat} {s : List Char} {lines : Line × List Line}
    {r : List Char} (h : clause k scope s = .ok (lines, r)) : r.length ≤ s.length := by
  unfold clause at h
  split at h
  · cases h
  · cases h
  · rename_i line more t hl
    cases h
    exact calls_length_le scope s hl

theorem rule_shorter {source : List Char} {scope : Nat} {s : List Char} {found : Rule}
    {r : List Char} (h : rule source scope s = .ok (found, r)) : r.length < s.length := by
  unfold rule at h
  split at h
  · cases h
  · rename_i r₀ h0
    have h₀ := keyword_shorter h0
    split at h
    · cases h
    · rename_i trigger guards r₁ h1
      have h₁ := clause_length_le h1
      split at h
      · cases h
      · rename_i r₂ h2
        have h₂ := keyword_shorter h2
        split at h
        · cases h
        · rename_i first more r₃ h3
          have h₃ := clause_length_le h3
          cases h; omega

/-- All rules of what is left of a source, numbered from `scope` on. -/
def rules (source : List Char) (scope : Nat) (s : List Char) : Except Stop (List Rule) :=
  if (Text.skipBlanks s).isEmpty then .ok []
  else
    match _hr : rule source scope (Text.skipBlanks s) with
    | .error stop => .error stop
    | .ok (found, r) =>
      match rules source (scope + 1) r with
      | .error stop => .error stop
      | .ok more => .ok (found :: more)
termination_by s.length
decreasing_by
  have hle := Text.skipBlanks_length_le s
  have := rule_shorter _hr
  omega

end Synchrony.Source

namespace Synchrony

/-- An error in a source: the reason, its place, and the rest of the text line from there on. Lines
and columns count from one, and only a line feed starts a line. -/
structure SourceError where
  reason : Source.Reason
  line : Nat
  column : Nat
  text : String
  deriving DecidableEq, Repr

namespace SourceError

/-- The error for a reader that stopped. -/
def of (source : List Char) (stop : Source.Stop) : SourceError :=
  let before := source.take (source.length - stop.rest.length)
  { reason := stop.reason
    line := before.count '\n' + 1
    column := (before.reverse.takeWhile (· != '\n')).length + 1
    text := String.ofList (Text.trim (stop.rest.takeWhile (· != '\n'))) }

end SourceError

/-- Read a rule source. -/
def readRules (source : String) : Except SourceError (List Rule) :=
  match Source.rules source.toList 0 source.toList with
  | .ok rules => .ok rules
  | .error stop => .error (.of source.toList stop)

end Synchrony
