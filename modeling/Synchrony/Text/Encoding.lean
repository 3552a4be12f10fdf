import Synchrony.Number.Decimal
import Synchrony.Text.Quoted

/-!
# Encoded texts

The text of a file is the UTF-8 encoding of its characters, strictly: a byte that cannot start a
character, a character that breaks off, and one that is written in too many bytes or lies outside
Unicode are all refused, and the refusal names the place (`decodeFile`). A byte order mark is a
character like any other, and whoever reads a text that may start with one takes it off
(`withoutMark`). Files of every system end lines in the same way once they are read: a carriage
return, with or without a line feed behind it, becomes a line feed.

Where nothing may be refused, the bytes that are at fault read as one replacement character
(`decodeLossy`).

The bytes of one character are told from its first byte (`shape?`): how many follow, the range of
the next one, and the bits that the first contributes. Only the second byte has a range of its own;
that is what rules out long forms, the halves of surrogate pairs, and everything past U+10FFFF.
-/

set_option autoImplicit false

namespace Synchrony.Encoding

/-- What the first byte of a character says about the rest of it. -/
structure Shape where
  /-- How many bytes follow. -/
  more : Nat
  /-- The least second byte. -/
  low : Nat
  /-- The greatest second byte. -/
  high : Nat
  /-- What the first byte contributes to the code point. -/
  bits : Nat

/-- The shape that a first byte announces, unless no character starts with it. -/
def shape? (b : Nat) : Option Shape :=
  if b < 0x80 then some ⟨0, 0x80, 0xBF, b⟩
  else if b < 0xC2 then none
  else if b < 0xE0 then some ⟨1, 0x80, 0xBF, b - 0xC0⟩
  else if b = 0xE0 then some ⟨2, 0xA0, 0xBF, 0⟩
  else if b = 0xED then some ⟨2, 0x80, 0x9F, 0xD⟩
  else if b < 0xF0 then some ⟨2, 0x80, 0xBF, b - 0xE0⟩
  else if b = 0xF0 then some ⟨3, 0x90, 0xBF, 0⟩
  else if b < 0xF4 then some ⟨3, 0x80, 0xBF, b - 0xF0⟩
  else if b = 0xF4 then some ⟨3, 0x80, 0x8F, 4⟩
  else none

/-- Why bytes are no text. -/
inductive Reason where
  | start
  | continuation
  | truncated
  deriving DecidableEq, Repr

/-- The wording of a reason. -/
def Reason.text : Reason → String
  | .start => "invalid start byte"
  | .continuation => "invalid continuation byte"
  | .truncated => "unexpected end of data"

/-- A refusal: the reason, and how many bytes from the first byte of the character on it is
about. -/
structure Stop where
  reason : Reason
  count : Nat
  deriving DecidableEq, Repr

/-- Read the bytes that follow a first byte: `seen` bytes of the character are read already, `more`
are to come, the next of them from `low` to `high`. The answer is the code point and the rest. -/
def continuation (bits seen : Nat) : Nat → Nat → Nat → List Nat → Except Stop (Nat × List Nat)
  | 0, _, _, bytes => .ok (bits, bytes)
  | _ + 1, _, _, [] => .error ⟨.truncated, seen⟩
  | more + 1, low, high, b :: bytes =>
    if low ≤ b && b ≤ high then
      continuation (bits * 64 + (b - 0x80)) (seen + 1) more 0x80 0xBF bytes
    else .error ⟨.continuation, seen⟩

/-- One character and the rest. -/
def character (b : Nat) (bytes : List Nat) : Except Stop (Char × List Nat) :=
  match shape? b with
  | none => .error ⟨.start, 1⟩
  | some shape =>
    match continuation shape.bits 1 shape.more shape.low shape.high bytes with
    | .ok (n, rest) => .ok (Char.ofNat n, rest)
    | .error stop => .error stop

theorem continuation_length_le {bits seen more low high : Nat} {bytes : List Nat} {n : Nat}
    {rest : List Nat} (h : continuation bits seen more low high bytes = .ok (n, rest)) :
    rest.length ≤ bytes.length := by
  induction more generalizing bits seen low high bytes with
  | zero => simp only [continuation] at h; cases h; omega
  | succ more ih =>
    cases bytes with
    | nil => simp [continuation] at h
    | cons b bytes =>
      simp only [continuation] at h
      split at h
      · have := ih h
        rw [List.length_cons]; omega
      · cases h

theorem character_length_le {b : Nat} {bytes : List Nat} {c : Char} {rest : List Nat}
    (h : character b bytes = .ok (c, rest)) : rest.length ≤ bytes.length := by
  unfold character at h
  split at h
  · cases h
  · split at h
    · rename_i hc
      have := continuation_length_le hc
      cases h; omega
    · cases h

/-- All characters, or a refusal together with the bytes that were left at its character. -/
def characters (bytes : List Nat) : Except (Stop × List Nat) (List Char) :=
  match bytes with
  | [] => .ok []
  | b :: more =>
    match _hc : character b more with
    | .error stop => .error (stop, b :: more)
    | .ok (c, rest) =>
      match characters rest with
      | .ok cs => .ok (c :: cs)
      | .error e => .error e
termination_by bytes.length
decreasing_by
  have := character_length_le _hc
  simp only [List.length_cons]; omega

/-- The wording of a refusal: the byte at fault, or the range of bytes if there are several. -/
def refusal (position byte : Nat) (stop : Stop) : String :=
  if stop.count ≤ 1 then
    "'utf-8' codec can't decode byte 0x" ++ String.ofList (Text.hexDigits 2 byte) ++
      " in position " ++ Decimal.natText position ++ ": " ++ stop.reason.text
  else
    "'utf-8' codec can't decode bytes in position " ++ Decimal.natText position ++ "-" ++
      Decimal.natText (position + stop.count - 1) ++ ": " ++ stop.reason.text

/-- A text without the byte order mark in front of it. -/
def withoutMark (s : List Char) : List Char :=
  match s with
  | c :: r => if c.toNat = 0xFEFF then r else s
  | [] => []

/-- Every line break becomes a line feed. -/
def unifyLineBreaks : List Char → List Char
  | [] => []
  | '\r' :: '\n' :: r => '\n' :: unifyLineBreaks r
  | '\r' :: r => '\n' :: unifyLineBreaks r
  | c :: r => c :: unifyLineBreaks r

/-- The characters of a file, or the wording of the refusal. -/
def decodeFile (bytes : List Nat) : Except String (List Char) :=
  match characters bytes with
  | .ok cs => .ok (unifyLineBreaks cs)
  | .error (stop, rest) =>
    .error (refusal (bytes.length - rest.length) (rest.headD 0) stop)

/-- The characters of any bytes. A fault is about one byte at least, and each fault reads as one
replacement character. The first argument bounds the number of characters. -/
def lossyWithin : Nat → List Nat → List Char
  | 0, _ => []
  | _ + 1, [] => []
  | fuel + 1, b :: more =>
    match character b more with
    | .ok (c, rest) => c :: lossyWithin fuel rest
    | .error stop => Char.ofNat 0xFFFD :: lossyWithin fuel ((b :: more).drop (max stop.count 1))

/-- The characters of any bytes. -/
def decodeLossy (bytes : List Nat) : List Char :=
  lossyWithin bytes.length bytes

/-- The bytes of one character. -/
def encodeChar (c : Char) : List Nat :=
  let n := c.toNat
  if n < 0x80 then [n]
  else if n < 0x800 then [0xC0 + n / 64, 0x80 + n % 64]
  else if n < 0x10000 then [0xE0 + n / 4096, 0x80 + n / 64 % 64, 0x80 + n % 64]
  else [0xF0 + n / 262144, 0x80 + n / 4096 % 64, 0x80 + n / 64 % 64, 0x80 + n % 64]

/-- The bytes of a text. -/
def encode (s : List Char) : List Nat :=
  s.flatMap encodeChar

end Synchrony.Encoding
