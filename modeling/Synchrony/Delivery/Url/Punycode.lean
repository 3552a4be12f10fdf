import Synchrony.Number.Decimal

/-!
# Punycode

A label of any characters, written in ASCII: first its ASCII characters as they stand, then, behind
a hyphen, where the others go. Those come in the order of their code points. Each is told by a
number, its **step**: how many places there are to pass, all code points in between and all places
in the text so far counted, before it is put in. Steps are written in digits of base 36, where the
weight of a digit depends on a bias that follows the size of the steps.

Code points are plain numbers here, because what is read need not be a character.
-/

set_option autoImplicit false

namespace Synchrony.Url.Punycode

/-- The least digit that goes on to another one, by place and bias. -/
def threshold (place bias : Nat) : Nat :=
  min 26 (max 1 (36 * (place + 1) - bias))

theorem threshold_pos (place bias : Nat) : 1 ≤ threshold place bias := by
  unfold threshold; omega

/-- Scale a step down until it is small, and count 36 each time. -/
def scaled (step bias : Nat) : Nat :=
  if 455 < step then scaled (step / 35) (bias + 36) else bias + 36 * step / (step + 38)
termination_by step
decreasing_by omega

/-- The bias after a step, where `count` characters are in the text by then. -/
def adapt (step : Nat) (isFirst : Bool) (count : Nat) : Nat :=
  let halved := if isFirst then step / 700 else step / 2
  scaled (halved + halved / count) 0

/-! ## Writing -/

/-- A digit below 36: a letter, or a decimal digit from 26 on. -/
def digitChar (d : Nat) : Char :=
  if d < 26 then Char.ofNat (97 + d) else Char.ofNat (22 + d)

/-- A step in digits, from some place on. -/
def stepDigits (bias place step : Nat) : List Char :=
  let t := threshold place bias
  if step < t then [digitChar step]
  else digitChar (t + (step - t) % (36 - t)) :: stepDigits bias (place + 1) ((step - t) / (36 - t))
termination_by step
decreasing_by
  have h := threshold_pos place bias
  have hle := Nat.div_le_self (step - threshold place bias) (36 - threshold place bias)
  omega

/-- What is known while steps are written. -/
structure Writer where
  /-- The digits so far. -/
  digits : List Char := []
  /-- The step to come, as far as it is counted. -/
  step : Nat := 0
  bias : Nat := 72
  isFirst : Bool := true
  /-- How many characters are in the text. -/
  count : Nat

/-- Pass a place of the text while the characters with code point `n` are put in. -/
def Writer.pass (n : Nat) (writer : Writer) (place : Nat) : Writer :=
  if place < n then { writer with step := writer.step + 1 }
  else if place = n then
    { digits := writer.digits ++ stepDigits writer.bias 0 writer.step
      step := 0
      bias := adapt writer.step writer.isFirst (writer.count + 1)
      isFirst := false
      count := writer.count + 1 }
  else writer

/-- Write where the characters with each of some code points go, which rise from `least` on. -/
def writeAll (label : List Nat) : Nat → List Nat → Writer → Writer
  | _, [], writer => writer
  | least, n :: more, writer =>
    let writer := { writer with step := writer.step + (n - least) * (writer.count + 1) }
    let writer := label.foldl (Writer.pass n) writer
    writeAll label (n + 1) more { writer with step := writer.step + 1 }

/-- Put a number into a rising sequence. -/
def insertOnce (n : Nat) : List Nat → List Nat
  | [] => [n]
  | m :: more =>
    if n < m then n :: m :: more
    else if n = m then m :: more
    else m :: insertOnce n more

/-- A label in ASCII. -/
def encode (label : List Nat) : List Char :=
  let plain := label.filter (· < 128)
  let others := (label.filter (128 ≤ ·)).foldr insertOnce []
  let written := (writeAll label 128 others { count := plain.length }).digits
  (if plain.isEmpty then [] else plain.map Char.ofNat ++ ['-']) ++ written

/-! ## Reading -/

/-- Why a label cannot be read. -/
inductive Fault where
  /-- A step breaks off. -/
  | incomplete
  | badDigit (c : Char)
  /-- There is no such code point. -/
  | tooLarge (n : Nat)
  deriving DecidableEq, Repr

/-- A number in hexadecimal digits. -/
def hexText (n : Nat) : List Char :=
  Nat.toDigits 16 n

/-- The wording of a fault. -/
def Fault.message : Fault → String
  | .incomplete => "incomplete punicode string"
  | .badDigit c => "Invalid extended code point '" ++ String.singleton c ++ "'"
  | .tooLarge n => "Invalid character U+" ++ String.ofList (hexText n)

/-- What a digit counts for. Letters may be in any case. -/
def digitValue? (c : Char) : Option Nat :=
  let n := c.toUpper.toNat
  if 65 ≤ n && n ≤ 90 then some (n - 65)
  else if 48 ≤ n && n ≤ 57 then some (n - 22)
  else none

/-- Read a step from some place on, where `weight` is the weight of that place and `sum` what the
digits before it count for. -/
def readStep (bias : Nat) : Nat → Nat → Nat → List Char → Except Fault (Nat × List Char)
  | _, _, _, [] => .error .incomplete
  | place, weight, sum, c :: r =>
    match digitValue? c with
    | none => .error (.badDigit c.toUpper)
    | some d =>
      let t := threshold place bias
      if d < t then .ok (sum + d * weight, r)
      else readStep bias (place + 1) (weight * (36 - t)) (sum + d * weight) r

/-- Put the characters that the steps tell into a text. The first argument bounds their number; a
place is counted from the one in front of the text on. -/
def readAll : Nat → Nat → Nat → Nat → Bool → List Nat → List Char → Except Fault (List Nat)
  | 0, _, _, _, _, text, _ => .ok text
  | _, _, _, _, _, text, [] => .ok text
  | fuel + 1, n, place, bias, isFirst, text, c :: r => do
    let (step, rest) ← readStep bias 0 1 0 (c :: r)
    let passed := place + step
    let n := n + passed / (text.length + 1)
    if n > 0x10FFFF then .error (.tooLarge n)
    else
      let spot := passed % (text.length + 1)
      let text := text.take spot ++ n :: text.drop spot
      readAll fuel n (spot + 1) (adapt step isFirst text.length) false text rest

/-- The label behind its form in ASCII. -/
def decode (s : List Char) : Except Fault (List Nat) :=
  let steps := (s.reverse.takeWhile (· != '-')).reverse
  let plain := (s.take (s.length - steps.length)).dropLast
  readAll steps.length 128 0 72 true (plain.map Char.toNat) steps

end Synchrony.Url.Punycode
