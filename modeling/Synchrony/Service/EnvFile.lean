import Synchrony.Keyed
import Synchrony.Text.Blank

/-!
# Environment files

An environment file gives values to names, one binding to a line: a name, an equals sign and a
value. Blank lines and comments, which start at a number sign, mean nothing, and the word `export`
may stand in front of a name.

## 1. Values

A value in quotes goes up to the closing quote, over line breaks if need be, and may hold escapes;
double quotes know more of them than single ones. A value without quotes goes to the end of the
line or to a comment with a blank before it. A name without an equals sign is bound to nothing.

## 2. What is not a binding

A line that cannot be read is skipped from the point where reading failed, and the next line is
read as if nothing had happened.

## 3. References

A value may refer to another name as `${NAME}`, or as `${NAME:-DEFAULT}` where the name may be
unknown. References see the bindings before them and, behind those, the environment.
-/

set_option autoImplicit false

namespace Synchrony.EnvFile

/-- A name, and its value if it has one. -/
abbrev Binding := String × Option String

/-- What a reader of one binding answers: the binding, if the line has one, and what is left. When
it fails, what was left at that point. -/
abbrev Reads (α : Type) := Except (List Char) (α × List Char)

/-- A line feed or a carriage return. -/
def isLineBreak (c : Char) : Bool :=
  c = '\n' || c = '\r'

/-- A blank within a line. -/
def isInnerBlank (c : Char) : Bool :=
  Text.isBlank c && !isLineBreak c

/-- What is left once the blanks within the line are gone. -/
def skipInner (s : List Char) : List Char :=
  s.dropWhile isInnerBlank

/-- What is left once the word `export` is gone, if a blank stands behind it. -/
def skipExport (s : List Char) : List Char :=
  match s with
  | 'e' :: 'x' :: 'p' :: 'o' :: 'r' :: 't' :: c :: r =>
    if isInnerBlank c then skipInner r else s
  | _ => s

/-- The characters of a name without quotes. -/
def isNameChar (c : Char) : Bool :=
  c != '=' && c != '#' && !Text.isBlank c

/-- The single quote, U+0027. -/
def singleQuote : Char := Char.ofNat 39

/-- A name. A comment has none. -/
def name (s : List Char) : Reads (Option String) :=
  match s with
  | '#' :: _ => .ok (none, s)
  | c :: r =>
    if c = singleQuote then
      match r.takeWhile (· != singleQuote), r.dropWhile (· != singleQuote) with
      | [], _ => .error s
      | _, [] => .error s
      | cs, _ :: rest => .ok (some (String.ofList cs), rest)
    else
      match s.takeWhile isNameChar with
      | [] => .error s
      | cs => .ok (some (String.ofList cs), s.dropWhile isNameChar)
  | [] => .error s

/-- The characters up to a closing quote, put behind those already read, which stand in reverse, and
the rest. A backslash and the character behind it go together, so a quote behind a backslash closes
nothing. -/
def quotedOnto (quote : Char) : List Char → List Char → Option (List Char × List Char)
  | _, [] => none
  | _, ['\\'] => none
  | done, '\\' :: c :: r => quotedOnto quote (c :: '\\' :: done) r
  | done, c :: r =>
    if c = quote then some (done.reverse, r) else quotedOnto quote (c :: done) r

/-- What an escape by letter stands for between double quotes. -/
def escapeChar? (c : Char) : Option Char :=
  if c = '\\' || c = '"' || c = singleQuote then some c
  else if c = 'a' then some (Char.ofNat 7)
  else if c = 'b' then some (Char.ofNat 8)
  else if c = 'f' then some (Char.ofNat 12)
  else if c = 'n' then some '\n'
  else if c = 'r' then some '\r'
  else if c = 't' then some '\t'
  else if c = 'v' then some (Char.ofNat 11)
  else none

/-- What an escape stands for between single quotes. -/
def singleEscape? (c : Char) : Option Char :=
  if c = '\\' || c = singleQuote then some c else none

/-- Replace escapes by what they stand for. A backslash that starts none stays. -/
def unescape (meaning? : Char → Option Char) : List Char → List Char
  | '\\' :: c :: r =>
    match meaning? c with
    | some d => d :: unescape meaning? r
    | none => '\\' :: unescape meaning? (c :: r)
  | c :: r => c :: unescape meaning? r
  | [] => []

/-- A value without quotes up to a comment: the first number sign that follows a blank. -/
def beforeComment : List Char → List Char
  | [] => []
  | c :: r =>
    if Text.isBlank c then
      match Text.skipBlanks r with
      | '#' :: _ => []
      | _ => c :: beforeComment r
    else c :: beforeComment r

/-- What stands behind an opening quote as a value, with the escapes that the quote knows. -/
def quotedValue (quote : Char) (meaning? : Char → Option Char) (s : List Char) : Reads String :=
  match quotedOnto quote [] s with
  | some (cs, rest) => .ok (String.ofList (unescape meaning? cs), rest)
  | none => .error (quote :: s)

/-- The value behind an equals sign. The blanks between the two are no part of it, but a comment may
start right behind them. -/
def value (s : List Char) : Reads String :=
  let unquoted := String.ofList (Text.trim (beforeComment (s.takeWhile fun c => !isLineBreak c)))
  match skipInner s with
  | c :: r =>
    if c = '"' then quotedValue c escapeChar? r
    else if c = singleQuote then quotedValue c singleEscape? r
    else .ok (unquoted, s.dropWhile fun c => !isLineBreak c)
  | [] => .ok (unquoted, [])

/-- The equals sign and the value behind it, if there is one. -/
def assignment (s : List Char) : Reads (Option String) :=
  match s with
  | '=' :: r =>
    match value r with
    | .ok (v, rest) => .ok (some v, rest)
    | .error rest => .error rest
  | s => .ok (none, s)

/-- What is left once a comment is skipped. -/
def skipComment (s : List Char) : List Char :=
  match skipInner s with
  | '#' :: r => r.dropWhile fun c => !isLineBreak c
  | _ => s

/-- What is left behind the end of the line. -/
def lineEnd (s : List Char) : Except (List Char) (List Char) :=
  match skipInner s with
  | '\r' :: '\n' :: r => .ok r
  | [] => .ok []
  | c :: r => if isLineBreak c then .ok r else .error s

/-- One binding, where something other than blanks is left. -/
def binding (s : List Char) : Reads (Option Binding) :=
  match name (skipExport s) with
  | .error rest => .error rest
  | .ok (name?, s) =>
    match assignment (skipInner s) with
    | .error rest => .error rest
    | .ok (value?, s) =>
      match lineEnd (skipComment s) with
      | .error rest => .error rest
      | .ok rest => .ok (name?.map fun name => (name, value?), rest)

/-- What is left behind the line on which reading failed. -/
def nextLine (s : List Char) : List Char :=
  (s.dropWhile fun c => !isLineBreak c).drop 1

/-- All bindings. The first argument bounds the number of lines. -/
def bindingsWithin : Nat → List Char → List Binding
  | 0, _ => []
  | fuel + 1, s =>
    match Text.skipBlanks s with
    | [] => []
    | s =>
      match binding s with
      | .ok (some found, rest) => found :: bindingsWithin fuel rest
      | .ok (none, rest) => bindingsWithin fuel rest
      | .error rest => bindingsWithin fuel (nextLine rest)

/-- All bindings of a file in order. Each takes up a character at least. -/
def bindings (source : List Char) : List Binding :=
  bindingsWithin (source.length + 1) source

/-! ## References -/

/-- A part of a value. -/
inductive Part where
  | char (c : Char)
  /-- A reference by name, and what stands in where the name is unknown. -/
  | reference (name fallback : String)

/-- The characters of the name in a reference. -/
def isReferenceChar (c : Char) : Bool :=
  c != '\x7d' && c != ':'

/-- The reference behind a dollar sign and an opening brace, and the rest. -/
def reference? (s : List Char) : Option (Part × List Char) :=
  let name := String.ofList (s.takeWhile isReferenceChar)
  match s.dropWhile isReferenceChar with
  | '\x7d' :: r => some (.reference name "", r)
  | ':' :: '-' :: r =>
    match r.dropWhile (· != '\x7d') with
    | _ :: rest =>
      some (.reference name (String.ofList (r.takeWhile (· != '\x7d'))), rest)
    | [] => none
  | _ => none

/-- The parts of a value. The first argument bounds their number. -/
def partsWithin : Nat → List Char → List Part
  | 0, _ => []
  | _ + 1, [] => []
  | fuel + 1, c :: r =>
    match c, r with
    | '$', '\x7b' :: inner =>
      match reference? inner with
      | some (part, rest) => part :: partsWithin fuel rest
      | none => .char c :: partsWithin fuel r
    | _, _ => .char c :: partsWithin fuel r

/-- The text of a part, where `known?` says what names stand for. -/
def Part.text (known? : String → Option String) : Part → String
  | .char c => String.singleton c
  | .reference name fallback => (known? name).getD fallback

/-- A value with its references replaced. -/
def resolveValue (known? : String → Option String) (value : String) : String :=
  String.join ((partsWithin value.length value.toList).map (Part.text known?))

/-- What a name stands for: the binding before it, or else the environment. A name that is bound to
nothing stands for an empty text. -/
def known? (environment : Keyed String) (before : Keyed (Option String)) (name : String) :
    Option String :=
  match before.get? name with
  | some value => some (value.getD "")
  | none => environment.get? name

/-- The bindings of a file with their references replaced: of two bindings of one name the later
one counts. -/
def read (environment : Keyed String) (source : List Char) : Keyed (Option String) :=
  (bindings source).foldl
    (fun before (name, value) =>
      before.put name (value.map (resolveValue (known? environment before)))) []

end Synchrony.EnvFile
