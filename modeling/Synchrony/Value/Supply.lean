import Synchrony.Value.Basic
import Synchrony.Text.Quoted

/-!
# Supplies

Three things have to be new each time they are asked for: the hex text of an identifier made from
nothing, the mark of an object, and the reading of the clock. A supply hands them out in order, so
that a run is a function of the supply it starts with.
-/

set_option autoImplicit false

namespace Synchrony

/-- What is handed out next. -/
structure Supply where
  /-- The number behind the next fresh hex text. -/
  nextHex : Nat := 1
  /-- The next mark. Mark 0 is left to not-a-number as read from JSON, which is one object however
  often it is read. -/
  nextMark : Nat := 1
  /-- The reading of the clock in whole seconds. Each reading moves it on by one. -/
  clock : Nat := 1700000000
  deriving Repr, Inhabited

namespace Supply

/-- The hex text of a fresh identifier: 32 digits. -/
def hexText (n : Nat) : String :=
  String.ofList (Text.hexDigits 32 n)

/-- A new mark. -/
def mark : StateM Supply Nat :=
  modifyGet fun s => (s.nextMark, { s with nextMark := s.nextMark + 1 })

/-- A new object that names the record `hex`, or a record of its own if `hex` is empty. -/
def ident (hex : String) : StateM Supply Ident := do
  let mark ← mark
  if hex.isEmpty then
    modifyGet fun s => (⟨hexText s.nextHex, mark⟩, { s with nextHex := s.nextHex + 1 })
  else
    pure ⟨hex, mark⟩

/-- A reading of the clock. -/
def now : StateM Supply Binary64 :=
  modifyGet fun s =>
    (.finite false (s.clock * Binary64.unitsPerOne), { s with clock := s.clock + 1 })

end Supply

end Synchrony
