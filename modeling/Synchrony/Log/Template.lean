import Synchrony.Failure
import Synchrony.Number.Fixed
import Synchrony.Value.Shown

/-!
# Message templates

The message of a log record can be a template with **directives**, each of which takes the next of
the record's arguments and says how to write it. A directive is a percent sign, an optional key in
parentheses, flags, a minimal width, a precision, and one letter; a doubled percent sign stands for
itself.

## 1. Arguments

Arguments stand in a row, or they are the fields of one record. From a record a directive picks its
argument by key; a directive without a key takes the record as a whole, once. Arguments in a row
must be used up, and none may be missing.

## 2. What can go wrong

The template is worked off from left to right, so the first fault in it is the one that is reported,
be it in the template or in an argument.
-/

set_option autoImplicit false

namespace Synchrony.Template

/-- The arguments that are left. -/
inductive Arguments where
  /-- Arguments in a row. -/
  | row (rest : List Value)
  /-- The fields of a record, and what a directive without a key would take. -/
  | keyed (fields : List (String × Value)) (pending : Option Value)

/-- Arguments as they come with a log record. A record with fields that is the only argument is
taken for its fields. -/
def Arguments.of : List Value → Arguments
  | [.record (field :: fields)] => .keyed (field :: fields) (some (.record (field :: fields)))
  | args => .row args

/-- A fault of the wrong kind of argument. -/
def typeFault (message : String) : Failure :=
  .fault .type message

/-- A fault in the template itself. -/
def templateFault (message : String) : Failure :=
  .fault .value message

/-- Take the next argument. -/
def Arguments.next : Arguments → Except Failure (Value × Arguments)
  | .row (v :: rest) => .ok (v, .row rest)
  | .keyed fields (some v) => .ok (v, .keyed fields none)
  | _ => .error (typeFault "not enough arguments for format string")

/-- Pick the argument that the next directive takes. -/
def Arguments.pick (args : Arguments) (key : String) : Except Failure Arguments :=
  match args with
  | .row _ => .error (typeFault "format requires a mapping")
  | .keyed fields _ =>
    match Keyed.get? fields key with
    | some v => .ok (.keyed fields (some v))
    | none => .error (.missingKey key)

/-- How an argument is to be written. -/
structure Directive where
  flags : List Char
  width : Nat
  /-- Pad behind the text and not in front of it. -/
  left : Bool
  precision : Option Nat
  letter : Char

/-- Whether a flag is set. -/
def Directive.has (d : Directive) (flag : Char) : Bool :=
  d.flags.contains flag

/-! ## Reading directives -/

/-- The characters that are flags. -/
def isFlag (c : Char) : Bool :=
  c = '-' || c = '+' || c = ' ' || c = '#' || c = '0'

/-- The marks of sizes, which mean nothing. -/
def isSizeMark (c : Char) : Bool :=
  c = 'h' || c = 'l' || c = 'L'

/-- What is read and what is left of the template and of the arguments. -/
abbrev Reads (α : Type) := Except Failure (α × List Char × Arguments)

/-- The key up to the parenthesis that closes it, where `depth` more are open. -/
def keyText : Nat → List Char → Option (List Char × List Char)
  | _, [] => none
  | depth, c :: r =>
    if c = ')' then
      match depth with
      | 0 => some ([], r)
      | depth + 1 => (keyText depth r).map fun (key, r) => (c :: key, r)
    else (keyText (if c = '(' then depth + 1 else depth) r).map fun (key, r) => (c :: key, r)

/-- The key of a directive, if it has one. -/
def key (s : List Char) (args : Arguments) : Except Failure (List Char × Arguments) :=
  match s with
  | '(' :: r =>
    match args with
    | .row _ => .error (typeFault "format requires a mapping")
    | args =>
      match keyText 0 r with
      | none => .error (templateFault "incomplete format key")
      | some (key, r) =>
        match args.pick (String.ofList key) with
        | .ok args => .ok (r, args)
        | .error e => .error e
  | s => .ok (s, args)

/-- A number that is given by an argument. It has to fit a machine integer of `bits` bits, which
the fault that says otherwise calls by the name `machineName`. -/
def starred (bits : Nat) (machineName : String) (args : Arguments) :
    Except Failure (Int × Arguments) :=
  let fit := fun (n : Int) (args : Arguments) =>
    if fitsWord bits n then Except.ok (n, args)
    else .error (.fault .overflow ("Python int too large to convert to C " ++ machineName))
  match args.next with
  | .error e => .error e
  | .ok (.int n, args) => fit n args
  | .ok (.bool b, args) => .ok (if b then 1 else 0, args)
  | .ok _ => .error (typeFault "* wants int")

/-- The width of a directive, and whether it asks for padding behind the text. -/
def width (s : List Char) (args : Arguments) : Reads (Nat × Bool) :=
  match s with
  | '*' :: r =>
    match starred 64 "ssize_t" args with
    | .ok (n, args) => .ok ((n.natAbs, decide (n < 0)), r, args)
    | .error e => .error e
  | s =>
    let (ds, r) := (s.takeWhile Decimal.isDigit, s.dropWhile Decimal.isDigit)
    let n := Decimal.ofDigits ds
    if n < twoTo 63 then .ok ((n, false), r, args)
    else .error (templateFault "width too big")

/-- The precision of a directive, if it has one. -/
def precision (s : List Char) (args : Arguments) : Reads (Option Nat) :=
  match s with
  | '.' :: '*' :: r =>
    match starred 32 "int" args with
    | .ok (n, args) => .ok (some n.toNat, r, args)
    | .error e => .error e
  | '.' :: s =>
    let (ds, r) := (s.takeWhile Decimal.isDigit, s.dropWhile Decimal.isDigit)
    let n := Decimal.ofDigits ds
    if n < twoTo 31 then .ok (some n, r, args)
    else .error (templateFault "precision too big")
  | s => .ok (none, s, args)

/-- What is left once one mark of a size is skipped. -/
def skipSizeMark (s : List Char) : List Char :=
  match s with
  | c :: r => if isSizeMark c then r else c :: r
  | [] => []

/-- A directive behind its percent sign. -/
def directive (s : List Char) (args : Arguments) :
    Except Failure (Directive × List Char × Arguments) := do
  let (s, args) ← key s args
  let flags := s.takeWhile isFlag
  let ((width, left), s, args) ← width (s.dropWhile isFlag) args
  let (precision, s, args) ← precision s args
  match skipSizeMark s with
  | letter :: r => pure (⟨flags, width, left || flags.contains '-', precision, letter⟩, r, args)
  | [] => .error (templateFault "incomplete format")

/-! ## Writing arguments -/

/-- A number in a base, least significant digit last. The first argument bounds the digits. -/
def inBase (base : Nat) : Nat → Nat → List Char → List Char
  | 0, _, tail => tail
  | fuel + 1, n, tail =>
    let tail := Text.hexDigit (n % base) :: tail
    if n / base = 0 then tail else inBase base fuel (n / base) tail

/-- The digits of a number in a base. -/
def digitsIn (base n : Nat) : List Char :=
  inBase base (Nat.log2 n + 1) n []

/-- A character in upper case, for ASCII letters. -/
def upper (s : List Char) : List Char :=
  s.map Char.toUpper

/-- An integer: its sign, the mark of its base if asked for, and at least `precision` digits. -/
def integerText (d : Directive) (n : Int) : Except Failure (List Char) :=
  let sign := if n < 0 then ['-'] else []
  let finish := fun (mark ds : List Char) =>
    sign ++ (if d.has '#' then mark else []) ++
      List.replicate (d.precision.getD 0 - ds.length) '0' ++ ds
  match d.letter with
  | 'x' => .ok (finish ['0', 'x'] (digitsIn 16 n.natAbs))
  | 'X' => .ok (finish ['0', 'X'] (upper (digitsIn 16 n.natAbs)))
  | 'o' => .ok (finish ['0', 'o'] (digitsIn 8 n.natAbs))
  | _ =>
    if Decimal.hasText n then .ok (finish [] (Decimal.digits n.natAbs))
    else .error .tooManyDigits

/-- The integer that an argument of an integer directive stands for. Only a decimal directive takes
a floating point number, and drops its fraction. -/
def integerOf (d : Directive) (v : Value) : Except Failure Int :=
  let letter := "%" ++ String.singleton d.letter
  match v with
  | .int n => .ok n
  | .bool b => .ok (if b then 1 else 0)
  | v =>
    if d.letter = 'x' || d.letter = 'X' || d.letter = 'o' then
      .error (typeFault (letter ++ " format: an integer is required, not " ++ v.kindName))
    else match v with
      | .float (.nan _) => .error (templateFault "cannot convert float NaN to integer")
      | .float (.infinite _) =>
        .error (.fault .overflow "cannot convert float infinity to integer")
      | .float (.finite negative units) =>
        let whole : Int := units / Binary64.unitsPerOne
        .ok (if negative then -whole else whole)
      | v => .error (typeFault (letter ++ " format: a real number is required, not " ++ v.kindName))

/-- The floating point number that an argument stands for. -/
def floatOf (v : Value) : Except Failure Binary64 :=
  match v.numeric? with
  | some (.float x) => .ok x
  | some (.int n) =>
    match Binary64.ofInt? n with
    | some x => .ok x
    | none => .error (.fault .overflow "int too large to convert to float")
  | none => .error (typeFault ("must be real number, not " ++ v.kindName))

/-- A floating point number. -/
def floatText (d : Directive) (x : Binary64) : List Char :=
  let places := d.precision.getD 6
  let keep := d.has '#'
  let raw := match x with
    | .nan _ => ['n', 'a', 'n']
    | .infinite negative => Binary64.signed negative ['i', 'n', 'f']
    | .finite negative units =>
      Binary64.signed negative <|
        if d.letter = 'e' || d.letter = 'E' then Binary64.scientific keep places units
        else if d.letter = 'f' || d.letter = 'F' then Binary64.fixed keep places units
        else Binary64.general keep places units
  if d.letter.isUpper then upper raw else raw

/-- The one character that an argument stands for. -/
def charOf (v : Value) : Except Failure Char :=
  let ofCode := fun (n : Int) =>
    if 0 ≤ n && n < 0x110000 then Except.ok (Char.ofNat n.toNat)
    else .error (.fault .overflow "%c arg not in range(0x110000)")
  match v with
  | .text s =>
    match s.toList with
    | [c] => .ok c
    | _ => .error (typeFault "%c requires int or char")
  | .int n => ofCode n
  | .bool b => ofCode (if b then 1 else 0)
  | _ => .error (typeFault "%c requires int or char")

/-- A text with every character outside ASCII written by its code point. -/
def asciiOnly (s : List Char) : List Char :=
  s.flatMap fun c => if c.toNat < 128 then [c] else Text.codePointEscape c

/-- The text of an argument: as it is, or in the notation for values. -/
def textOf (d : Directive) (v : Value) : Except Failure (List Char) :=
  if v.hasText then
    .ok (match d.letter with
      | 's' => v.plain.toList
      | 'r' => v.shown.toList
      | _ => asciiOnly v.shown.toList)
  else .error .tooManyDigits

/-- Blanks or zeros. -/
def padding (c : Char) (count : Nat) : List Char :=
  List.replicate count c

/-- Bring a text to the width of its directive. -/
def pad (d : Directive) (s : List Char) : List Char :=
  let missing := d.width - s.length
  if d.left then s ++ padding ' ' missing else padding ' ' missing ++ s

/-- Bring a number to the width of its directive: zeros go behind its sign and the mark of its
base. -/
def padNumber (d : Directive) (s : List Char) : List Char :=
  let (sign, s) := match s with
    | '-' :: r => (['-'], r)
    | r => (if d.has '+' then ['+'] else if d.has ' ' then [' '] else [], r)
  let markLength := if d.has '#' && (d.letter = 'x' || d.letter = 'X' || d.letter = 'o') then 2
    else 0
  if d.has '0' && !d.left then
    let missing := d.width - (sign.length + s.length)
    sign ++ s.take markLength ++ padding '0' missing ++ s.drop markLength
  else pad d (sign ++ s)

/-- Write an argument. `index` is the place of the letter in the template. -/
def argument (d : Directive) (index : Nat) (v : Value) : Except Failure (List Char) :=
  if d.letter = 's' || d.letter = 'r' || d.letter = 'a' then do
    let s ← textOf d v
    pure (pad d (match d.precision with
      | some count => s.take count
      | none => s))
  else if ['d', 'i', 'u', 'o', 'x', 'X'].contains d.letter then do
    let n ← integerOf d v
    let s ← integerText d n
    pure (padNumber d s)
  else if ['e', 'E', 'f', 'F', 'g', 'G'].contains d.letter then do
    let x ← floatOf v
    pure (padNumber d (floatText d x))
  else if d.letter = 'c' then do
    let c ← charOf v
    pure (pad d [c])
  else
    let shown := if 31 ≤ d.letter.toNat && d.letter.toNat ≤ 126 then d.letter else '?'
    .error (templateFault ("unsupported format character '" ++ String.singleton shown ++ "' (0x" ++
      String.ofList (digitsIn 16 d.letter.toNat) ++ ") at index " ++ Decimal.natText index))

/-! ## Templates -/

/-- Work off what is left of a template of `length` characters. The first argument bounds the number
of steps, each of which takes a character at least. -/
def fill (length : Nat) : Nat → List Char → Arguments → Except Failure (List Char)
  | _, [], args =>
    match args with
    | .row (_ :: _) =>
      .error (typeFault "not all arguments converted during string formatting")
    | _ => .ok []
  | 0, _ :: _, _ => .ok []
  | fuel + 1, c :: r, args =>
    if c = '%' then
      match r with
      | '%' :: r => do
        let rest ← fill length fuel r args
        pure ('%' :: rest)
      | r => do
        let (d, r, args) ← directive r args
        let (v, args) ← args.next
        let s ← argument d (length - r.length - 1) v
        let rest ← fill length fuel r args
        pure (s ++ rest)
    else do
      let rest ← fill length fuel r args
      pure (c :: rest)

/-- The text of a template with these arguments. A template without arguments is not looked into. -/
def format (template : String) (args : List Value) : Except Failure String :=
  if args.isEmpty then .ok template
  else
    let s := template.toList
    (fill s.length s.length s (.of args)).map String.ofList

end Synchrony.Template
