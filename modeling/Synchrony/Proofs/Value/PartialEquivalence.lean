import Synchrony.Proofs.Value.Members

/-!
# Agreeing is a partial equivalence

Values are compared in ways of their own by kind, and yet there is one order behind it all: it does
not matter which of two values was there first (`Value.same_symm`), and two values that agree with a
third one agree (`Value.same_trans`). Only not-a-number does not agree with itself, and so with
nothing.

Two readings of a value bring this out. A number stands for a **quantity**, and numbers of all kinds
are equal just if they stand for the same one (`Value.equalNumbers_iff`). An identifier and a text
bear a **label**, and values that bear one agree just if they bear the same (`Value.same_iff`). What
is left are containers, and there the members decide, so that the argument goes down the value.
-/

set_option autoImplicit false

namespace Synchrony

/-! ## Numbers -/

/-- What a number stands for: a count of units, or one of the two infinities. Not-a-number stands
for nothing. -/
def Numeric.quantity? : Numeric → Option (Int ⊕ Bool)
  | .int n => some (.inl (n * Binary64.unitsPerOne))
  | .float (.finite negative units) => some (.inl (Binary64.signedUnits negative units))
  | .float (.infinite negative) => some (.inr negative)
  | .float (.nan _) => none

theorem both_some_iff {α : Type} {x y : α} :
    (∃ z, some x = some z ∧ some y = some z) ↔ x = y := by
  simp [eq_comm]

theorem Numeric.equal_iff {m n : Numeric} :
    m.equal n = true ↔ ∃ q, m.quantity? = some q ∧ n.quantity? = some q := by
  have hinj {k l : Int} : k * Binary64.unitsPerOne = l * Binary64.unitsPerOne ↔ k = l :=
    Int.mul_eq_mul_right_iff (Int.natCast_ne_zero.mpr (Nat.ne_of_gt (twoTo_pos 1074)))
  cases m with
  | int k =>
    cases n with
    | int l =>
      simp only [equal, quantity?, both_some_iff, Sum.inl.injEq, hinj, beq_iff_eq]
    | float y =>
      cases y with
      | finite negative units =>
        simp only [equal, quantity?, both_some_iff, Sum.inl.injEq, Binary64.equalInt,
          beq_iff_eq]
        exact eq_comm
      | _ => simp only [equal, quantity?, both_some_iff, Binary64.equalInt, reduceCtorEq, and_false,
          exists_false, Bool.false_eq_true]
  | float x =>
    cases n with
    | int l =>
      cases x with
      | finite negative units =>
        simp only [equal, quantity?, both_some_iff, Sum.inl.injEq, Binary64.equalInt,
          beq_iff_eq]
      | _ => simp only [equal, quantity?, both_some_iff, Binary64.equalInt, reduceCtorEq, false_and,
          exists_false, Bool.false_eq_true]
    | float y =>
      cases x <;> cases y <;> simp only [equal, quantity?, both_some_iff, Sum.inl.injEq,
        Sum.inr.injEq, Binary64.equal, beq_iff_eq, reduceCtorEq, and_false, false_and, exists_false,
        Bool.false_eq_true]

namespace Value

/-- What a value stands for as a number. -/
def quantity? (value : Value) : Option (Int ⊕ Bool) :=
  value.numeric?.bind Numeric.quantity?

theorem equalNumbers_iff {a b : Value} :
    equalNumbers a b = true ↔ ∃ q, a.quantity? = some q ∧ b.quantity? = some q := by
  unfold equalNumbers quantity?
  cases a.numeric? with
  | none => simp
  | some m =>
    cases b.numeric? with
    | none => simp
    | some n => simpa using Numeric.equal_iff

theorem equalNumbers_symm {a b : Value} (h : equalNumbers a b = true) :
    equalNumbers b a = true := by
  obtain ⟨q, ha, hb⟩ := equalNumbers_iff.mp h
  exact equalNumbers_iff.mpr ⟨q, hb, ha⟩

theorem equalNumbers_trans {a b c : Value} (hab : equalNumbers a b = true)
    (hbc : equalNumbers b c = true) : equalNumbers a c = true := by
  obtain ⟨q, ha, hb⟩ := equalNumbers_iff.mp hab
  obtain ⟨r, hb', hc⟩ := equalNumbers_iff.mp hbc
  obtain rfl : q = r := Option.some.inj (hb.symm.trans hb')
  exact equalNumbers_iff.mpr ⟨q, ha, hc⟩

/-- What is equal to a number is a number, and is compared as one. -/
theorem equal_of_equalNumbers {a b : Value} (h : equalNumbers a b = true) (c : Value) :
    equal b c = equalNumbers b c := by
  cases b with
  | bool y => rw [equal]
  | int n => rw [equal]
  | float y => rw [equal]
  | _ => simp [equalNumbers, numeric?] at h

/-! ## Members -/

theorem sameMember_symm_of {x y : Value} (h : equal x y = true → equal y x = true)
    (hxy : sameMember x y = true) : sameMember y x = true := by
  rcases Bool.or_eq_true _ _ ▸ hxy with hnan | hequal
  · obtain ⟨mark, rfl, rfl⟩ := sameNan_iff.mp hnan
    exact hxy
  · rw [sameMember, h hequal, Bool.or_true]

/-- Not-a-number is the same object as itself only, so it cannot stand between two others. -/
theorem sameMember_trans_of {x y z : Value}
    (h : equal x y = true → equal y z = true → equal x z = true) (hxy : sameMember x y = true)
    (hyz : sameMember y z = true) : sameMember x z = true := by
  rcases Bool.or_eq_true _ _ ▸ hxy with hnan | hequal
  · obtain ⟨mark, rfl, rfl⟩ := sameNan_iff.mp hnan
    exact hyz
  · rcases Bool.or_eq_true _ _ ▸ hyz with hnan | hequal'
    · obtain ⟨mark, rfl, rfl⟩ := sameNan_iff.mp hnan
      exact hxy
    · rw [sameMember, h hequal hequal', Bool.or_true]

/-! ## Equality of data -/

mutual

theorem equal_trans (a b c : Value) (hab : equal a b = true) (hbc : equal b c = true) :
    equal a c = true := by
  cases a with
  | null => cases b <;> simp_all [equal]
  | text s => cases b <;> cases c <;> simp_all [equal]
  | ident i => cases b <;> cases c <;> simp_all [equal]
  | list xs =>
    cases b with
    | list ys =>
      cases c with
      | list zs => exact equalItems_trans xs ys zs hab hbc
      | _ => simp [equal] at hbc
    | _ => simp [equal] at hab
  | tuple xs =>
    cases b with
    | tuple ys =>
      cases c with
      | tuple zs => exact equalItems_trans xs ys zs hab hbc
      | _ => simp [equal] at hbc
    | _ => simp [equal] at hab
  | record fs =>
    cases b with
    | record gs =>
      cases c with
      | record hs =>
        simp only [equal, Bool.and_eq_true, beq_iff_eq] at hab hbc ⊢
        exact ⟨hab.1.trans hbc.1, equalFields_trans fs gs hs hab.2 hbc.2⟩
      | _ => simp [equal] at hbc
    | _ => simp [equal] at hab
  | bool x | int n | float x =>
    rw [equal] at hab ⊢
    rw [equal_of_equalNumbers hab] at hbc
    exact equalNumbers_trans hab hbc
termination_by structural a

theorem equalItems_trans (xs ys zs : List Value) (hxy : equalItems xs ys = true)
    (hyz : equalItems ys zs = true) : equalItems xs zs = true := by
  cases xs with
  | nil =>
    cases ys with
    | nil => exact hyz
    | cons y ys => cases hxy
  | cons x xs =>
    cases ys with
    | nil => cases hxy
    | cons y ys =>
      cases zs with
      | nil => cases hyz
      | cons z zs =>
        rw [equalItems, Bool.and_eq_true] at hxy hyz ⊢
        exact ⟨sameMember_trans_of (equal_trans x y z) hxy.1 hyz.1,
          equalItems_trans xs ys zs hxy.2 hyz.2⟩
termination_by structural xs

theorem equalFields_trans (fs gs hs : List (String × Value)) (hfg : equalFields fs gs = true)
    (hgh : equalFields gs hs = true) : equalFields fs hs = true := by
  cases fs with
  | nil => rfl
  | cons field fs =>
    obtain ⟨key, x⟩ := field
    obtain ⟨⟨y, hy, hxy⟩, hrest⟩ := List.forall_mem_cons.mp (equalFields_iff.mp hfg)
    obtain ⟨z, hz, hyz⟩ := equalFields_iff.mp hgh (key, y) (Keyed.mem_of_get? hy)
    have hxz : sameMember x z = true := sameMember_trans_of (equal_trans x y z) hxy hyz
    have hmore := equalFields_trans fs gs hs (equalFields_iff.mpr hrest) hgh
    exact equalFields_iff.mpr (List.forall_mem_cons.mpr ⟨⟨z, hz, hxz⟩, equalFields_iff.mp hmore⟩)
termination_by structural fs

end

theorem forall₂_flip_of_mem {r : Value → Value → Prop} {xs ys : List Value}
    (h : List.Forall₂ r xs ys) (hr : ∀ x ∈ xs, ∀ y ∈ ys, r x y → r y x) :
    List.Forall₂ r ys xs := by
  induction h with
  | nil => exact .nil
  | cons hxy _ ih =>
    refine .cons (hr _ List.mem_cons_self _ List.mem_cons_self hxy) (ih ?_)
    intro x hx y hy
    exact hr x (List.mem_cons_of_mem _ hx) y (List.mem_cons_of_mem _ hy)

/-- Members that are compared alike from both sides make lists that are. -/
theorem equalItems_symm_of {xs ys : List Value}
    (h : ∀ x ∈ xs, ∀ y ∈ ys, equal x y = true → equal y x = true)
    (hxy : equalItems xs ys = true) : equalItems ys xs = true := by
  refine equalItems_iff.mpr (forall₂_flip_of_mem (equalItems_iff.mp hxy) ?_)
  exact fun x hx y hy => sameMember_symm_of (h x hx y hy)

/-- A record is looked up in by the keys of the other, so this rests on both holding each key
once. -/
theorem equal_symm {a b : Value} (ha : a.WellFormed) (hb : b.WellFormed)
    (h : equal a b = true) : equal b a = true := by
  induction ha generalizing b with
  | null => cases b <;> simp_all [equal]
  | text s => cases b <;> simp_all [equal]
  | ident i => cases b <;> simp_all [equal]
  | bool | int | float =>
    rw [equal] at h
    rw [equal_of_equalNumbers h]
    exact equalNumbers_symm h
  | list _ ih =>
    cases hb with
    | list members => exact equalItems_symm_of (fun x hx y hy => ih x hx (members y hy)) h
    | _ => simp [equal] at h
  | tuple _ ih =>
    cases hb with
    | tuple members => exact equalItems_symm_of (fun x hx y hy => ih x hx (members y hy)) h
    | _ => simp [equal] at h
  | record nodup _ ih =>
    cases hb with
    | record nodup' members =>
      obtain ⟨hkeys, hmembers⟩ := (equal_record_iff nodup nodup').mp h
      refine (equal_record_iff nodup' nodup).mpr ⟨fun key => (hkeys key).symm, ?_⟩
      intro key y x hy hx
      have hfield := ih (key, x) (Keyed.mem_of_get? hx) (members (key, y) (Keyed.mem_of_get? hy))
      exact sameMember_symm_of hfield (hmembers key x y hx hy)
    | _ => simp [equal] at h

/-! ## Agreeing -/

/-- The text that an identifier or a text is known by. -/
def label? : Value → Option String
  | .ident id => some id.hex
  | .text s => some s
  | _ => none

theorem same_of_label {a b : Value} {hex : String} (h : b.label? = some hex) :
    same a b = true ↔ a.label? = some hex := by
  cases b with
  | ident j =>
    cases h
    cases a <;> simp [same, Ident.names, label?]
  | text s =>
    cases h
    cases a with
    | ident i => simpa [same, Ident.names, label?] using eq_comm
    | _ => simp [same, label?, isBool, equal, equalNumbers, numeric?]
  | _ => cases h

theorem same_of_label_none {a b : Value} (h : b.label? = none) :
    same a b = true ↔ a.label? = none ∧ a.isBool = b.isBool ∧ equal a b = true := by
  have hb : ∀ i, b ≠ .ident i := by
    rintro i rfl
    cases h
  cases a with
  | ident i => cases b <;> simp_all [same, Ident.names, label?]
  | text s => cases b <;> simp_all [same, label?, isBool, equal]
  | _ => simp [same_of_not_ident _ hb, label?]

/-- **When two values agree.** They bear the same label, or neither bears one and they are equal as
data, with truth values on both sides or on none. -/
theorem same_iff {a b : Value} :
    same a b = true ↔ (∃ hex, a.label? = some hex ∧ b.label? = some hex) ∨
      (a.label? = none ∧ b.label? = none ∧ a.isBool = b.isBool ∧ equal a b = true) := by
  cases hb : b.label? with
  | none => simp [same_of_label_none hb]
  | some hex =>
    rw [same_of_label hb]
    constructor
    · exact fun ha => Or.inl ⟨hex, ha, rfl⟩
    · rintro (⟨_, ha, hsome⟩ | ⟨-, hnone, -⟩)
      · exact ha.trans hsome.symm
      · cases hnone

theorem same_symm {a b : Value} (ha : a.WellFormed) (hb : b.WellFormed) (h : same a b = true) :
    same b a = true := by
  rcases same_iff.mp h with ⟨hex, hlabel, hlabel'⟩ | ⟨hlabel, hlabel', hbool, hequal⟩
  · exact same_iff.mpr (Or.inl ⟨hex, hlabel', hlabel⟩)
  · exact same_iff.mpr (Or.inr ⟨hlabel', hlabel, hbool.symm, equal_symm ha hb hequal⟩)

theorem same_trans {a b c : Value} (hab : same a b = true) (hbc : same b c = true) :
    same a c = true := by
  rcases same_iff.mp hab with ⟨hex, ha, hb⟩ | ⟨ha, hb, hbool, hequal⟩
  · rcases same_iff.mp hbc with ⟨_, hb', hc⟩ | ⟨hb', -⟩
    · obtain rfl := Option.some.inj (hb.symm.trans hb')
      exact same_iff.mpr (Or.inl ⟨hex, ha, hc⟩)
    · rw [hb] at hb'
      cases hb'
  · rcases same_iff.mp hbc with ⟨_, hb', -⟩ | ⟨-, hc, hbool', hequal'⟩
    · rw [hb] at hb'
      cases hb'
    · exact same_iff.mpr (Or.inr ⟨ha, hc, hbool.trans hbool', equal_trans a b c hequal hequal'⟩)

end Value

end Synchrony
