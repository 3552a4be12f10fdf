import Mathlib.Data.List.Forall2
import Mathlib.Data.List.Perm.Subperm
import Synchrony.Proofs.Value.SelfAgreement

/-!
# Comparing members

`Value.same` looks at two values and not into them. It keeps truth values apart from numbers, and it
lets two identifiers agree that name one record; but once it has come to two lists, two tuples or
two records, their members are compared in another way (`Value.sameMember`): as objects first, and
as data second. That is the comparison from there on, at every depth.

So there are two comparisons, one for the top and one for everything below it, and both go through
containers member by member (`Value.Memberwise`). They give different answers on four kinds of pairs
only (`Value.Differ`): a truth value and its number, two objects that name one record, an identifier
and its text, and one not-a-number met twice. Where no members are such a pair, containers are
compared as if by `Value.same` throughout, and where some are, that is so only if the containers are
not the same in either way (`Value.same_compares_members`).
-/

set_option autoImplicit false

namespace Synchrony.Value

/-- How members are compared, at every depth: as objects first and as data second. -/
def sameMember (a b : Value) : Bool :=
  sameNan a b || equal a b

/-- Records with the same keys, and under each key members that are related. -/
structure ByKey (related : Value → Value → Prop) (fs gs : Keyed Value) : Prop where
  keys : ∀ key, key ∈ fs.keys ↔ key ∈ gs.keys
  members : ∀ key x y, fs.get? key = some x → gs.get? key = some y → related x y

/-- Two lists, two tuples or two records. A record holds each key once. -/
inductive Kindred : Value → Value → Prop where
  | lists (xs ys : List Value) : Kindred (.list xs) (.list ys)
  | tuples (xs ys : List Value) : Kindred (.tuple xs) (.tuple ys)
  | records {fs gs : Keyed Value} (front : fs.keys.Nodup) (back : gs.keys.Nodup) :
      Kindred (.record fs) (.record gs)

/-- Two containers with their members related one by one: lists and tuples in order and of equal
length, records by their keys. -/
def Memberwise (related : Value → Value → Prop) : Value → Value → Prop
  | .list xs, .list ys => List.Forall₂ related xs ys
  | .tuple xs, .tuple ys => List.Forall₂ related xs ys
  | .record fs, .record gs => ByKey related fs gs
  | _, _ => False

/-- The pairs on which the comparison of members is not the comparison at the top. -/
inductive Differ : Value → Value → Prop
  /-- To name one record and to be one object are two things. -/
  | objects {i j : Ident} (h : ¬(i.hex = j.hex ↔ i.mark = j.mark)) : Differ (.ident i) (.ident j)
  | identText (i : Ident) : Differ (.ident i) (.text i.hex)
  | textIdent (i : Ident) : Differ (.text i.hex) (.ident i)
  /-- A truth value and a number, equal as data. -/
  | truth {a b : Value} (kinds : a.isBool ≠ b.isBool) (equal : equalNumbers a b = true) :
    Differ a b
  | nan (mark : Nat) : Differ (.float (.nan mark)) (.float (.nan mark))

/-! ## Lists and records -/

theorem equalItems_iff {xs ys : List Value} :
    equalItems xs ys = true ↔ List.Forall₂ (fun x y => sameMember x y = true) xs ys := by
  induction xs generalizing ys with
  | nil => cases ys <;> simp [equalItems]
  | cons x xs ih =>
    cases ys with
    | nil => simp [equalItems]
    | cons y ys => simp [equalItems, sameMember, ih]

theorem equalFields_iff {fs : List (String × Value)} {gs : Keyed Value} :
    equalFields fs gs = true ↔
      ∀ field ∈ fs, ∃ y, gs.get? field.1 = some y ∧ sameMember field.2 y = true := by
  induction fs with
  | nil => simp [equalFields]
  | cons field fs ih =>
    obtain ⟨key, x⟩ := field
    rw [List.forall_mem_cons, ← ih, equalFields, Bool.and_eq_true]
    cases gs.get? key <;> simp [sameMember]

theorem equal_record_iff {fs gs : Keyed Value} (hfs : fs.keys.Nodup) (hgs : gs.keys.Nodup) :
    equal (.record fs) (.record gs) = true ↔
      ByKey (fun x y => sameMember x y = true) fs gs := by
  simp only [equal, Bool.and_eq_true, beq_iff_eq, equalFields_iff]
  constructor
  · rintro ⟨hlength, hfields⟩
    have hsub : fs.keys ⊆ gs.keys := by
      intro key hkey
      obtain ⟨field, hfield, rfl⟩ := List.mem_map.mp hkey
      obtain ⟨y, hy, -⟩ := hfields field hfield
      exact Keyed.mem_keys_of_get? hy
    -- As many keys as the other record has, and all of them among its keys.
    have hperm : fs.keys.Perm gs.keys := by
      refine (List.subperm_of_subset hfs hsub).perm_of_length_le ?_
      simp [Keyed.keys, hlength]
    refine ⟨fun key => hperm.mem_iff, ?_⟩
    intro key x y hx hy
    obtain ⟨z, hz, hagree⟩ := hfields (key, x) (Keyed.mem_of_get? hx)
    rw [hy] at hz
    cases hz
    exact hagree
  · rintro ⟨hkeys, hmembers⟩
    have hperm : fs.keys.Perm gs.keys := (List.perm_ext_iff_of_nodup hfs hgs).mpr hkeys
    refine ⟨by simpa [Keyed.keys] using hperm.length_eq, ?_⟩
    intro field hfield
    have hkey : field.1 ∈ gs.keys := (hkeys field.1).mp (List.mem_map_of_mem hfield)
    obtain ⟨entry, hentry, hname⟩ := List.mem_map.mp hkey
    have hy : gs.get? field.1 = some entry.2 := by
      rw [← hname]
      exact Keyed.get?_of_mem hgs hentry
    exact ⟨entry.2, hy, hmembers _ _ _ (Keyed.get?_of_mem hfs hfield) hy⟩

/-! ## The two comparisons -/

theorem same_iff_memberwise {a b : Value} (h : Kindred a b) :
    same a b = true ↔ Memberwise (fun x y => sameMember x y = true) a b := by
  cases h with
  | lists xs ys => simp [same, isBool, equal, equalItems_iff, Memberwise]
  | tuples xs ys => simp [same, isBool, equal, equalItems_iff, Memberwise]
  | records hfs hgs =>
    show _ ↔ ByKey _ _ _
    rw [← equal_record_iff hfs hgs]
    simp [same, isBool]

/-- Below the top, the comparison does not change any more. -/
theorem sameMember_iff_memberwise {a b : Value} (h : Kindred a b) :
    sameMember a b = true ↔ Memberwise (fun x y => sameMember x y = true) a b := by
  cases h with
  | lists xs ys => simp [sameMember, sameNan, equal, equalItems_iff, Memberwise]
  | tuples xs ys => simp [sameMember, sameNan, equal, equalItems_iff, Memberwise]
  | records hfs hgs =>
    show _ ↔ ByKey _ _ _
    rw [← equal_record_iff hfs hgs]
    simp [sameMember, sameNan]

/-- What follows from two relations of members at one place follows at every place. -/
theorem Memberwise.both {r t u : Value → Value → Prop} {a b : Value} (hr : Memberwise r a b)
    (ht : Memberwise t a b) (h : ∀ x y, r x y → t x y → u x y) : Memberwise u a b := by
  have hitems {xs ys : List Value} (hr : List.Forall₂ r xs ys) (ht : List.Forall₂ t xs ys) :
      List.Forall₂ u xs ys := by
    induction hr with
    | nil => exact .nil
    | cons hxy _ ih =>
      cases ht with
      | cons hxy' hrest => exact .cons (h _ _ hxy hxy') (ih hrest)
  unfold Memberwise at hr
  split at hr
  · exact hitems hr ht
  · exact hitems hr ht
  · exact ⟨hr.keys, fun key x y hx hy => h x y (hr.members key x y hx hy)
      (ByKey.members ht key x y hx hy)⟩
  · cases hr

theorem same_of_not_ident {a b : Value} (ha : ∀ i, a ≠ .ident i) (hb : ∀ i, b ≠ .ident i) :
    same a b = (a.isBool == b.isBool && equal a b) := by
  have hsame : same a b = if a.isBool != b.isBool then false else equal a b := by
    unfold same
    split
    · exact absurd rfl (hb _)
    · exact absurd rfl (ha _)
    · rfl
  rw [hsame]
  cases a.isBool <;> cases b.isBool <;> rfl

/-- A truth value is data as the number it counts as, and as nothing else. -/
theorem equal_of_isBool_ne {a b : Value} (h : a.isBool ≠ b.isBool) :
    equal a b = equalNumbers a b := by
  cases a with
  | bool x => rw [equal]
  | int n => rw [equal]
  | float x => rw [equal]
  | _ =>
    cases b with
    | bool y => simp [equal, equalNumbers, numeric?]
    | _ => exact absurd rfl h

theorem equalNumbers_ident (i : Ident) (b : Value) :
    equalNumbers (.ident i) b = false ∧ equalNumbers b (.ident i) = false := by
  cases b <;> exact ⟨rfl, rfl⟩

theorem sameNan_iff {a b : Value} :
    sameNan a b = true ↔ ∃ mark, a = .float (.nan mark) ∧ b = .float (.nan mark) := by
  constructor
  · intro h
    unfold sameNan at h
    split at h
    next m n =>
      rw [beq_iff_eq] at h
      exact ⟨m, rfl, by rw [h]⟩
    next => cases h
  · rintro ⟨mark, rfl, rfl⟩
    simp [sameNan]

theorem Differ.ne {a b : Value} (h : Differ a b) : sameMember a b ≠ same a b := by
  cases h with
  | @objects i j h =>
    have hne : ¬(i.mark = j.mark ↔ i.hex = j.hex) := fun hiff => h hiff.symm
    simpa [sameMember, sameNan, equal, same, Ident.names] using hne
  | identText i => simp [sameMember, sameNan, equal, same, Ident.names]
  | textIdent i => simp [sameMember, sameNan, equal, same, Ident.names]
  | truth kinds hequal =>
    have hident (i : Ident) := equalNumbers_ident i
    have ha : ∀ i, a ≠ .ident i := by
      rintro i rfl
      simp [hident] at hequal
    have hb : ∀ i, b ≠ .ident i := by
      rintro i rfl
      simp [hident] at hequal
    rw [same_of_not_ident ha hb, beq_false_of_ne kinds, sameMember, equal_of_isBool_ne kinds,
      hequal]
    simp
  | nan mark =>
    simp [sameMember, sameNan, same, isBool, equal, equalNumbers, numeric?, Numeric.equal,
      Binary64.equal]

/-- Where no identifier is compared, the two differ on truth values and on not-a-number. -/
theorem sameMember_eq_same_of_not_ident {a b : Value} (ha : ∀ i, a ≠ .ident i)
    (hb : ∀ i, b ≠ .ident i) (h : ¬Differ a b) : sameMember a b = same a b := by
  rw [same_of_not_ident ha hb, sameMember]
  have hnan : sameNan a b = false := by
    rw [← Bool.not_eq_true, sameNan_iff]
    rintro ⟨mark, rfl, rfl⟩
    exact h (.nan mark)
  rw [hnan, Bool.false_or]
  by_cases hkinds : a.isBool = b.isBool
  · rw [hkinds, beq_self_eq_true, Bool.true_and]
  · rw [equal_of_isBool_ne hkinds, beq_false_of_ne hkinds, Bool.false_and, ← Bool.not_eq_true]
    exact fun hequal => h (.truth hkinds hequal)

theorem sameMember_eq_same_of_ident {i : Ident} {b : Value} (h : ¬Differ (.ident i) b) :
    sameMember (.ident i) b = same (.ident i) b := by
  cases b with
  | ident j =>
    have hiff : i.hex = j.hex ↔ i.mark = j.mark := Classical.not_not.mp fun hne => h (.objects hne)
    simpa [sameMember, sameNan, equal, same, Ident.names] using hiff.symm
  | text s =>
    have hne : s ≠ i.hex := by
      rintro rfl
      exact h (.identText i)
    simp [sameMember, sameNan, equal, same, Ident.names, hne]
  | _ => simp [sameMember, sameNan, equal, same, Ident.names]

theorem sameMember_eq_same_of_ident_right {a : Value} {i : Ident} (ha : ∀ j, a ≠ .ident j)
    (h : ¬Differ a (.ident i)) : sameMember a (.ident i) = same a (.ident i) := by
  cases a with
  | ident j => exact absurd rfl (ha j)
  | text s =>
    have hne : s ≠ i.hex := by
      rintro rfl
      exact h (.textIdent i)
    simp [sameMember, sameNan, equal, same, Ident.names, hne]
  | _ => simp [sameMember, sameNan, equal, equalNumbers, numeric?, same, Ident.names]

theorem sameMember_eq_same_iff (a b : Value) : sameMember a b = same a b ↔ ¬Differ a b := by
  constructor
  · exact fun heq h => h.ne heq
  · intro h
    by_cases ha : ∃ i, a = .ident i
    · obtain ⟨i, rfl⟩ := ha
      exact sameMember_eq_same_of_ident h
    · have ha' : ∀ i, a ≠ .ident i := fun i hi => ha ⟨i, hi⟩
      by_cases hb : ∃ i, b = .ident i
      · obtain ⟨i, rfl⟩ := hb
        exact sameMember_eq_same_of_ident_right ha' h
      · exact sameMember_eq_same_of_not_ident ha' (fun i hi => hb ⟨i, hi⟩) h

/-- **Values are compared in one way at the top and in another below it.** Lists, tuples and records
are the same if their members agree by the second comparison, which goes on in that way below them.
The two give different answers on a pair if and only if it is a truth value and its number, an
identifier and its text, one not-a-number met twice, or two identifiers of which one thing holds and
not the other: that they name one record, and that they are one object. So containers are the same
just if their members are, unless members are such a pair and the one or the other holds. -/
theorem same_compares_members {a b : Value} (h : Kindred a b) :
    (same a b = true ↔ Memberwise (fun x y => sameMember x y = true) a b) ∧
    (sameMember a b = true ↔ Memberwise (fun x y => sameMember x y = true) a b) ∧
    (∀ x y, sameMember x y ≠ same x y ↔ Differ x y) ∧
    ((same a b = true ↔ Memberwise (fun x y => same x y = true) a b) ↔
      (same a b = true ∨ Memberwise (fun x y => same x y = true) a b →
        Memberwise (fun x y => ¬Differ x y) a b)) := by
  have htop := same_iff_memberwise h
  refine ⟨htop, sameMember_iff_memberwise h, ?_, ?_⟩
  · intro x y
    rw [ne_eq, sameMember_eq_same_iff, Classical.not_not]
  · constructor
    · intro hdeep hsome
      have hsame : same a b = true := hsome.elim id hdeep.mpr
      refine (htop.mp hsame).both (hdeep.mp hsame) ?_
      intro x y hmember hxy
      exact (sameMember_eq_same_iff x y).mp (hmember.trans hxy.symm)
    · intro hnone
      constructor
      · intro hsame
        refine (htop.mp hsame).both (hnone (Or.inl hsame)) ?_
        intro x y hmember hdiffer
        rwa [(sameMember_eq_same_iff x y).mpr hdiffer] at hmember
      · intro hmembers
        refine htop.mpr (hmembers.both (hnone (Or.inr hmembers)) ?_)
        intro x y hxy hdiffer
        rwa [← (sameMember_eq_same_iff x y).mpr hdiffer] at hxy

/-- A list with an identifier and a text in it. -/
def labelled : Value :=
  .list [.ident ⟨"a", 0⟩, .text "b"]

/-- With the same object on both sides, the members are the same too. -/
theorem same_compares_members_labelled :
    Kindred labelled labelled ∧ same labelled labelled = true ∧
      Memberwise (fun x y => same x y = true) labelled labelled := by
  have hkindred : Kindred labelled labelled := .lists _ _
  have hident : ¬Differ (.ident ⟨"a", 0⟩) (.ident ⟨"a", 0⟩) := (sameMember_eq_same_iff _ _).mp rfl
  have htext : ¬Differ (.text "b") (.text "b") := (sameMember_eq_same_iff _ _).mp rfl
  have hsame : same labelled labelled = true := rfl
  obtain ⟨-, -, -, hdeep⟩ := same_compares_members hkindred
  exact ⟨hkindred, hsame, (hdeep.mpr fun _ => .cons hident (.cons htext .nil)).mp hsame⟩

/-- What holds at the top does not hold below it: a list with a truth value in it is the same as one
with a number, and a list with an identifier in it is not the same as one with another object for
the same record. -/
theorem same_not_deep :
    (¬∀ a b, Kindred a b → (same a b = true ↔ Memberwise (fun x y => same x y = true) a b)) ∧
    (same (.list [.bool true]) (.list [.int 1]) = true ∧ same (.bool true) (.int 1) = false) ∧
    same (.list [.ident ⟨"a", 0⟩]) (.list [.ident ⟨"a", 1⟩]) = false ∧
      same (.ident ⟨"a", 0⟩) (.ident ⟨"a", 1⟩) = true := by
  refine ⟨?_, ⟨rfl, rfl⟩, rfl, rfl⟩
  intro h
  have hitems : List.Forall₂ _ _ _ := (h _ _ (.lists [.bool true] [.int 1])).mp rfl
  cases hitems with
  | cons hmember _ => cases hmember

end Synchrony.Value
