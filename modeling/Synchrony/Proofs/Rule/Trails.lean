import Mathlib.Algebra.Order.Ring.Nat
import Synchrony.Proofs.Rule.Loops

/-!
# Trails

The readers of rule sources share one place in the text, which they move on and now and then move
back. A reader's **trail** is the record of what it does to that place, on texts that can be read
and on texts that cannot.

A place is given by what is left of the text there. A trail says of every move where it leads: on to
a place further along, back to a place that was marked, or that a rule, a line or a position of a
line has been made. It is written down reader by reader, and asks the reader itself what it left,
so a trail goes on exactly where its reader went on.

A move has a price, and what is made has a higher one. The price of a whole trail bounds both how
long it is and how much is made on it.
-/

set_option autoImplicit false

namespace Synchrony.Source

/-! ## Moves and trails -/

/-- What a reader does to its place. -/
inductive Move where
  /-- Go on to where this is left of the text. -/
  | on (rest : List Char)
  /-- Go back to where this was left of the text. -/
  | back (rest : List Char)
  /-- A rule, a line or a position of a line is finished. -/
  | made
  deriving DecidableEq

abbrev Trail := List Move

namespace Move

/-- Where a move leads. To finish something is not to move. -/
def place? : Move → Option (List Char)
  | on rest => some rest
  | back rest => some rest
  | made => none

/-- What is made costs as much as a character of the text is worth. -/
def price : Move → Nat
  | made => 7
  | _ => 1

theorem one_le_price (move : Move) : 1 ≤ move.price := by
  cases move <;> simp [price]

end Move

namespace Trail

/-- The places a trail comes to. -/
def places (t : Trail) : List (List Char) :=
  t.filterMap Move.place?

/-- How many rules, lines and positions are made on a trail. -/
def made (t : Trail) : Nat :=
  t.count .made

def price (t : Trail) : Nat :=
  (t.map Move.price).sum

@[simp] theorem places_append (t u : Trail) : places (t ++ u) = places t ++ places u :=
  List.filterMap_append

@[simp] theorem made_nil : made [] = 0 := rfl

@[simp] theorem made_append (t u : Trail) : made (t ++ u) = made t + made u :=
  List.count_append

@[simp] theorem made_on (rest : List Char) (t : Trail) : made (.on rest :: t) = made t := by
  simp [made]

@[simp] theorem made_back (rest : List Char) (t : Trail) : made (.back rest :: t) = made t := by
  simp [made]

@[simp] theorem made_made (t : Trail) : made (.made :: t) = made t + 1 := by
  simp [made]

@[simp] theorem price_nil : price [] = 0 := rfl

@[simp] theorem price_append (t u : Trail) : price (t ++ u) = price t + price u := by
  simp [price]

theorem length_le_price (t : Trail) : t.length ≤ t.price := by
  induction t with
  | nil => exact Nat.le_refl 0
  | cons move t ih =>
    have h := move.one_le_price
    simp only [price, List.map_cons, List.sum_cons, List.length_cons] at ih ⊢
    omega

theorem seven_mul_made_le_price (t : Trail) : 7 * t.made ≤ t.price := by
  induction t with
  | nil => exact Nat.le_refl 0
  | cons move t ih =>
    simp only [price] at ih
    cases move <;> simp only [made_on, made_back, made_made, price, List.map_cons, List.sum_cons,
      Move.price] <;> omega

end Trail

/-! ## The trails of the readers -/

/-- What is left behind a reader, if it does not stop. -/
def restOf {α : Type} (out : Reads α) : Except Stop (List Char) :=
  out.map Prod.snd

/-- The trail of a reader that leaves `left`, and of what reads on behind it. -/
def onward (left : Except Stop (List Char)) (t : Trail) (next : List Char → Trail) : Trail :=
  match left with
  | .ok r => t ++ next r
  | .error _ => t

@[simp] theorem onward_ok (r : List Char) (t : Trail) (next : List Char → Trail) :
    onward (.ok r) t next = t ++ next r := rfl

@[simp] theorem restOf_ok {α : Type} (a : α) (r : List Char) :
    restOf (.ok (a, r) : Reads α) = .ok r := rfl

/-- A keyword or a character, blanks before it allowed. -/
def tokenTrail (left : Except Stop (List Char)) (s : List Char) : Trail :=
  .on (Text.skipBlanks s) ::
    match left with
    | .ok r => [.on r]
    | .error _ => []

/-- A literal is gone through character by character. -/
def literalTrail : List Char → Trail
  | [] => []
  | c :: s => if endsLiteral c then [] else .on s :: literalTrail s

def patternTrail (s : List Char) : Trail :=
  .on (Text.skipBlanks s) ::
    match word? (Text.skipBlanks s) with
    | some (_, r) => [.on r, .made]
    | none =>
      onward (restOf (literal (Text.skipBlanks s))) (literalTrail (Text.skipBlanks s))
        fun _ => [.made]

def morePatternsTrail (scope : Nat) (s : List Char) : Trail :=
  match _hs : Text.skipBlanks s with
  | c :: r =>
    if c = ',' then
      .on (c :: r) :: .on r :: (patternTrail r ++
        match _hp : pattern scope r with
        | .error _ => []
        | .ok (_, r') => morePatternsTrail scope r')
    else [.on (c :: r), .back s]
  | [] => [.on [], .back s]
termination_by s.length
decreasing_by
  have hle := Text.skipBlanks_length_le s
  have := pattern_shorter _hp
  rw [_hs, List.length_cons] at hle
  omega

def patternsTrail (scope : Nat) (s : List Char) : Trail :=
  onward (restOf (pattern scope s)) (patternTrail s) (morePatternsTrail scope)

def argumentsTrail (scope : Nat) (s : List Char) : Trail :=
  .on (Text.skipBlanks s) ::
    match Text.skipBlanks s with
    | ')' :: _ => []
    | r => patternsTrail scope r

def returnClauseTrail (scope : Nat) (s : List Char) : Trail :=
  .on (Text.skipBlanks s) ::
    match Text.skipBlanks s with
    | '-' :: '>' :: r => .on r :: patternsTrail scope r
    | _ => [.back s]

def callTrail (scope : Nat) (s : List Char) : Trail :=
  match word? s with
  | none => []
  | some (_, r) =>
    .on r ::
      onward (expect '(' r) (tokenTrail (expect '(' r) r) fun r =>
      onward (restOf (arguments scope r)) (argumentsTrail scope r) fun r =>
      onward (expect ')' r) (tokenTrail (expect ')' r) r) fun r =>
      onward (restOf (returnClause scope r)) (returnClauseTrail scope r) fun _ => [.made]

def callsTrail (scope : Nat) (s : List Char) : Trail :=
  .on (Text.skipBlanks s) ::
    if (Text.skipBlanks s).isEmpty || (keyword? (Text.skipBlanks s)).isSome then []
    else callTrail scope (Text.skipBlanks s) ++
      match _hl : call scope (Text.skipBlanks s) with
      | .error _ => []
      | .ok (_, r) => callsTrail scope r
termination_by s.length
decreasing_by
  have hle := Text.skipBlanks_length_le s
  have := call_shorter _hl
  omega

def ruleTrail (scope : Nat) (s : List Char) : Trail :=
  onward (keyword .when s) (tokenTrail (keyword .when s) s) fun r =>
  onward (restOf (clause .when scope r)) (callsTrail scope r) fun r =>
  onward (keyword .sync r) (tokenTrail (keyword .sync r) r) fun r =>
  onward (restOf (clause .sync scope r)) (callsTrail scope r) fun _ => [.made]

def rulesTrail (source : List Char) (scope : Nat) (s : List Char) : Trail :=
  .on (Text.skipBlanks s) ::
    if (Text.skipBlanks s).isEmpty then []
    else ruleTrail scope (Text.skipBlanks s) ++
      match _hr : rule source scope (Text.skipBlanks s) with
      | .error _ => []
      | .ok (_, r) => rulesTrail source (scope + 1) r
termination_by s.length
decreasing_by
  have hle := Text.skipBlanks_length_le s
  have := rule_shorter _hr
  omega

section Unfolding

variable (scope : Nat) (s : List Char)

theorem morePatternsTrail_of_comma {r : List Char} (hs : Text.skipBlanks s = ',' :: r) :
    morePatternsTrail scope s = [.on (',' :: r), .on r] ++ patternsTrail scope r := by
  unfold morePatternsTrail
  split
  case h_2 hnil => rw [hs] at hnil; cases hnil
  case h_1 c t hcons =>
    rw [hs] at hcons
    cases hcons
    rw [if_pos rfl]
    unfold patternsTrail
    cases hp : pattern scope r <;> simp [onward, restOf, Except.map]

theorem morePatternsTrail_of_stops (hs : Stops (· = ',') (Text.skipBlanks s)) :
    morePatternsTrail scope s = [.on (Text.skipBlanks s), .back s] := by
  unfold morePatternsTrail
  split
  case h_2 hnil => rw [hnil]
  case h_1 c t hcons =>
    rw [hcons] at hs ⊢
    have hne : c ≠ ',' := by simpa using hs
    rw [if_neg hne]

theorem argumentsTrail_of_close {r : List Char} (hs : Text.skipBlanks s = ')' :: r) :
    argumentsTrail scope s = [.on (Text.skipBlanks s)] := by
  unfold argumentsTrail
  rw [hs]
  rfl

theorem argumentsTrail_of_stops (hs : Stops (· = ')') (Text.skipBlanks s)) :
    argumentsTrail scope s =
      [.on (Text.skipBlanks s)] ++ patternsTrail scope (Text.skipBlanks s) := by
  unfold argumentsTrail
  split
  · rename_i r hr
    rw [hr, stops_cons] at hs
    cases hs
  · rfl

theorem returnClauseTrail_of_arrow {r : List Char} (hs : Text.skipBlanks s = '-' :: '>' :: r) :
    returnClauseTrail scope s = [.on (Text.skipBlanks s), .on r] ++ patternsTrail scope r := by
  unfold returnClauseTrail
  rw [hs]
  rfl

theorem returnClauseTrail_of_not_arrow (hs : ¬['-', '>'] <+: Text.skipBlanks s) :
    returnClauseTrail scope s = [.on (Text.skipBlanks s), .back s] := by
  unfold returnClauseTrail
  split
  · rename_i r hr
    rw [hr] at hs
    exact absurd ⟨r, rfl⟩ hs
  · rfl

theorem callsTrail_of_atEnd (h : AtEnd (Text.skipBlanks s)) :
    callsTrail scope s = [.on (Text.skipBlanks s)] := by
  rw [callsTrail, if_pos (atEnd_iff.mp h)]

theorem callsTrail_of_not_atEnd (h : ¬AtEnd (Text.skipBlanks s)) :
    callsTrail scope s = [.on (Text.skipBlanks s)] ++
      onward (restOf (call scope (Text.skipBlanks s))) (callTrail scope (Text.skipBlanks s))
        (callsTrail scope) := by
  rw [callsTrail, if_neg (fun hend => h (atEnd_iff.mpr hend))]
  cases hl : call scope (Text.skipBlanks s) <;> simp [onward, restOf, Except.map]

theorem rulesTrail_of_nil (source : List Char) (h : Text.skipBlanks s = []) :
    rulesTrail source scope s = [.on []] := by
  rw [rulesTrail, h]
  rfl

theorem rulesTrail_of_ne_nil (source : List Char) (h : Text.skipBlanks s ≠ []) :
    rulesTrail source scope s = [.on (Text.skipBlanks s)] ++
      onward (restOf (rule source scope (Text.skipBlanks s))) (ruleTrail scope (Text.skipBlanks s))
        (rulesTrail source (scope + 1)) := by
  have hfull : (Text.skipBlanks s).isEmpty = false := List.isEmpty_eq_false_iff.mpr h
  rw [rulesTrail, hfull]
  cases hr : rule source scope (Text.skipBlanks s) <;> simp [onward, restOf, Except.map]

end Unfolding

end Synchrony.Source
