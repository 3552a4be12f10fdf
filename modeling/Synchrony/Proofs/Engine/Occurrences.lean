import Mathlib.Data.List.Induction
import Synchrony.Proofs.Engine.Unifying
import Synchrony.Proofs.Value.PartialEquivalence

/-!
# Which occurrence comes first

A variable takes the value at its first position, and what comes later has to agree with that. Since
agreeing is a partial equivalence (`Value.same_symm`, `Value.same_trans`), this asks no more of the
first position than of the others: positions unify just if every two of one new variable agree, in
either order (`Bindings.unifies_iff`). Nothing in that depends on the order of the positions, so
they fit in one order if and only if they fit in any other, and what their variables are bound to is
the same up to agreement (`Bindings.fitAll_in_any_order`).
-/

set_option autoImplicit false

namespace Synchrony

namespace Bindings

/-- What is asked of a position whatever comes before it: that its value agrees with the literal
there, or with what the variable there was bound to from the start. -/
def Stands (bindings : Bindings) : Value × Pattern → Prop
  | (actual, .lit expected) => actual.same expected = true
  | (actual, .var v) => ∀ bound, bindings.get? v = some bound → actual.same bound = true

/-- If two positions are of one new variable, their values agree from both sides. -/
def Concurs (bindings : Bindings) (p q : Value × Pattern) : Prop :=
  ∀ v, p.2.asVariable? = some v → q.2.asVariable? = some v → bindings.get? v = none →
    p.1.same q.1 = true ∧ q.1.same p.1 = true

theorem Concurs.symm {bindings : Bindings} {p q : Value × Pattern} (h : bindings.Concurs p q) :
    bindings.Concurs q p :=
  fun v hq hp hnew => (h v hp hq hnew).symm

/-- Bound to the same values, or to values that agree. -/
def Resembles (bindings bindings' : Bindings) : Prop :=
  ∀ v, Option.Rel (fun x y => x = y ∨ x.same y = true) (bindings.get? v) (bindings'.get? v)

variable {bindings : Bindings} {pairs pairs' : List (Value × Pattern)}

/-! ## First positions -/

theorem mem_of_firstValue? {v : Variable} {first : Value}
    (h : firstValue? pairs v = some first) :
    ∃ pattern, (first, pattern) ∈ pairs ∧ pattern.asVariable? = some v := by
  induction pairs with
  | nil => cases h
  | cons pair pairs ih =>
    obtain ⟨actual, pattern⟩ := pair
    by_cases hv : pattern.asVariable? = some v
    · rw [firstValue?, if_pos hv] at h
      cases h
      exact ⟨pattern, List.mem_cons_self, hv⟩
    · rw [firstValue?, if_neg hv] at h
      obtain ⟨other, hmem, hother⟩ := ih h
      exact ⟨other, List.mem_cons_of_mem _ hmem, hother⟩

/-- Where every two positions concur, each is the first of its variable or agrees with it. -/
theorem firstValue?_concurs {v : Variable} {actual : Value} {pattern : Pattern}
    (h : pairs.Pairwise bindings.Concurs) (hmem : (actual, pattern) ∈ pairs)
    (hv : pattern.asVariable? = some v) (hnew : bindings.get? v = none) :
    ∃ first, firstValue? pairs v = some first ∧
      (actual = first ∨ actual.same first = true ∧ first.same actual = true) := by
  induction pairs with
  | nil => cases hmem
  | cons pair pairs ih =>
    obtain ⟨first, firstPattern⟩ := pair
    obtain ⟨hfirst, hrest⟩ := List.pairwise_cons.mp h
    by_cases hvar : firstPattern.asVariable? = some v
    · refine ⟨first, by rw [firstValue?, if_pos hvar], ?_⟩
      rcases List.mem_cons.mp hmem with heq | hmem
      · cases heq
        exact Or.inl rfl
      · exact Or.inr (hfirst _ hmem v hvar hv hnew).symm
    · rcases List.mem_cons.mp hmem with heq | hmem
      · cases heq
        exact absurd hv hvar
      · rw [firstValue?, if_neg hvar]
        exact ih hrest hmem

theorem firstValue?_ne_none {v : Variable} {actual : Value} {pattern : Pattern}
    (hmem : (actual, pattern) ∈ pairs) (hv : pattern.asVariable? = some v) :
    firstValue? pairs v ≠ none := by
  induction pairs with
  | nil => cases hmem
  | cons pair pairs ih =>
    obtain ⟨first, firstPattern⟩ := pair
    by_cases hvar : firstPattern.asVariable? = some v
    · simp [firstValue?, hvar]
    · rcases List.mem_cons.mp hmem with heq | hmem
      · cases heq
        exact absurd hv hvar
      · rw [firstValue?, if_neg hvar]
        exact ih hmem

/-! ## Unifying without an order -/

theorem unifies_snoc_iff {position : Value × Pattern} :
    bindings.Unifies (pairs ++ [position]) ↔
      bindings.Unifies pairs ∧ bindings.Suits pairs position := by
  constructor
  · intro h
    refine ⟨?_, h pairs position [] rfl⟩
    intro before other after heq
    exact h before other (after ++ [position]) (by rw [heq, List.append_assoc, List.cons_append])
  · rintro ⟨hpairs, hposition⟩
    exact hpairs.snoc hposition

/-- Behind positions that concur, a position suits if it stands on its own and concurs with each of
them. -/
theorem suits_iff {position : Value × Pattern} (hwell : ∀ pair ∈ pairs, pair.1.WellFormed)
    (hposition : position.1.WellFormed) (h : pairs.Pairwise bindings.Concurs) :
    bindings.Suits pairs position ↔
      bindings.Stands position ∧ ∀ pair ∈ pairs, bindings.Concurs pair position := by
  obtain ⟨actual, pattern⟩ := position
  cases pattern with
  | lit expected =>
    refine ⟨fun hsame => ⟨hsame, ?_⟩, fun hstands => hstands.1⟩
    intro pair _ v _ hv
    cases hv
  | var v =>
    cases hget : bindings.get? v with
    | some bound =>
      rw [Suits, Stands, hget]
      refine ⟨fun hsame => ⟨fun other hother => Option.some.inj hother ▸ hsame, ?_⟩,
        fun hstands => hstands.1 bound rfl⟩
      intro pair _ w _ hw hnew
      cases hw
      rw [hget] at hnew
      cases hnew
    | none =>
      rw [Suits, Stands, hget]
      constructor
      · intro hsuits
        refine ⟨fun bound hbound => absurd hbound (Option.some_ne_none bound).symm, ?_⟩
        rintro ⟨other, otherPattern⟩ hmem w hother hw hnew
        cases hw
        obtain ⟨first, hfirst, hagrees⟩ := firstValue?_concurs h hmem hother hnew
        have hsame := hsuits first hfirst
        obtain ⟨firstPattern, hfirstMem, -⟩ := mem_of_firstValue? hfirst
        have hback := Value.same_symm hposition (hwell _ hfirstMem) hsame
        rcases hagrees with rfl | ⟨hother, hfirst⟩
        · exact ⟨hback, hsame⟩
        · exact ⟨Value.same_trans hother hback, Value.same_trans hsame hfirst⟩
      · rintro ⟨-, hconcurs⟩ first hfirst
        obtain ⟨pattern, hmem, hv⟩ := mem_of_firstValue? hfirst
        exact (hconcurs _ hmem v hv rfl hget).2

/-- **Positions unify just if each stands on its own and every two concur.** -/
theorem unifies_iff (hwell : ∀ pair ∈ pairs, pair.1.WellFormed) :
    bindings.Unifies pairs ↔
      (∀ pair ∈ pairs, bindings.Stands pair) ∧ pairs.Pairwise bindings.Concurs := by
  induction pairs using List.reverseRecOn with
  | nil => simp [unifies_nil]
  | append_singleton pairs position ih =>
    have hpairs : ∀ pair ∈ pairs, pair.1.WellFormed :=
      fun pair hmem => hwell pair (List.mem_append_left _ hmem)
    have hposition : position.1.WellFormed := hwell position (by simp)
    rw [unifies_snoc_iff, ih hpairs, List.forall_mem_append, List.pairwise_append]
    constructor
    · rintro ⟨⟨hstands, hconcur⟩, hsuits⟩
      obtain ⟨hown, hothers⟩ := (suits_iff hpairs hposition hconcur).mp hsuits
      refine ⟨⟨hstands, by simpa using hown⟩, hconcur, List.pairwise_singleton _ _, ?_⟩
      simpa using hothers
    · rintro ⟨⟨hstands, hown⟩, hconcur, -, hothers⟩
      refine ⟨⟨hstands, hconcur⟩, (suits_iff hpairs hposition hconcur).mpr ⟨?_, ?_⟩⟩
      · exact hown position (List.mem_singleton_self _)
      · exact fun pair hmem => hothers pair hmem position (List.mem_singleton_self _)

theorem Unifies.perm (hwell : ∀ pair ∈ pairs, pair.1.WellFormed) (hperm : pairs.Perm pairs')
    (h : bindings.Unifies pairs) : bindings.Unifies pairs' := by
  obtain ⟨hstands, hconcur⟩ := (unifies_iff hwell).mp h
  refine (unifies_iff fun pair hmem => hwell pair (hperm.mem_iff.mpr hmem)).mpr ⟨?_, ?_⟩
  · exact fun pair hmem => hstands pair (hperm.mem_iff.mpr hmem)
  · exact (hperm.pairwise_iff Concurs.symm).mp hconcur

/-! ## Fitting -/

theorem fitAll_iff (bindings : Bindings) (positions : List Position) :
    (bindings.fitAll positions).1 = none ↔ bindings.Unifies (positions.map Position.pair) := by
  rcases fitAll_cases (unifies_nil bindings) (adds_nil bindings) positions with
    ⟨after, hfit, hunifies, -⟩ | ⟨e, after, taken, position, rest, hfit, hpairs, -, hunsuited, -⟩
  · simpa [hfit] using hunifies
  · simp only [hfit, hpairs, reduceCtorEq, false_iff]
    exact fun hunifies => hunsuited (hunifies taken position rest rfl)

theorem adds_of_fitAll {positions : List Position}
    (h : (bindings.fitAll positions).1 = none) :
    bindings.Adds (positions.map Position.pair) (bindings.fitAll positions).2 := by
  rcases fitAll_cases (unifies_nil bindings) (adds_nil bindings) positions with
    ⟨after, hfit, -, hadds⟩ | ⟨e, after, taken, position, rest, hfit, -⟩
  · rw [hfit]
    exact hadds
  · rw [hfit] at h
    cases h

/-- A variable is bound to its first value in the one order and to its first value in the other. -/
theorem Adds.resembles {after after' : Bindings} (hconcur : pairs'.Pairwise bindings.Concurs)
    (hperm : pairs.Perm pairs') (h : bindings.Adds pairs after)
    (h' : bindings.Adds pairs' after') : after.Resembles after' := by
  intro v
  rw [h v, h' v]
  cases hget : bindings.get? v with
  | some bound => exact .some (Or.inl rfl)
  | none =>
    rw [Option.none_or, Option.none_or]
    cases hfirst : firstValue? pairs v with
    | some first =>
      obtain ⟨pattern, hmem, hv⟩ := mem_of_firstValue? hfirst
      obtain ⟨first', hfirst', hagrees⟩ :=
        firstValue?_concurs hconcur (hperm.mem_iff.mp hmem) hv hget
      rw [hfirst']
      exact .some (hagrees.imp_right And.left)
    | none =>
      cases hfirst' : firstValue? pairs' v with
      | none => exact .none
      | some first' =>
        obtain ⟨pattern, hmem, hv⟩ := mem_of_firstValue? hfirst'
        exact absurd hfirst (firstValue?_ne_none (hperm.mem_iff.mpr hmem) hv)

/-- **Positions fit in any order if they fit in one**, and their variables are then bound to the
same values up to agreement. -/
theorem fitAll_in_any_order {positions positions' : List Position}
    (hwell : ∀ position ∈ positions, position.actual.WellFormed)
    (hperm : positions.Perm positions') (h : (bindings.fitAll positions).1 = none) :
    (bindings.fitAll positions').1 = none ∧
      (bindings.fitAll positions).2.Resembles (bindings.fitAll positions').2 := by
  have hpairs := hperm.map Position.pair
  have hwell' : ∀ pair ∈ positions.map Position.pair, pair.1.WellFormed := by
    intro pair hmem
    obtain ⟨position, hposition, rfl⟩ := List.mem_map.mp hmem
    exact hwell position hposition
  have hconcur := ((unifies_iff hwell').mp ((fitAll_iff _ _).mp h)).2
  have hother : (bindings.fitAll positions').1 = none :=
    (fitAll_iff _ _).mpr (((fitAll_iff _ _).mp h).perm hwell' hpairs)
  exact ⟨hother, (adds_of_fitAll h).resembles ((hpairs.pairwise_iff Concurs.symm).mp hconcur) hpairs
    (adds_of_fitAll hother)⟩

end Bindings

/-- **Agreeing is a partial equivalence**, for all values there are: which of two was expected and
which was met makes no difference, and what agrees with one value agrees with whatever that agrees
with. So positions can be taken in any order: they fit in one if and only if they fit in another,
and what the variables are bound to then is the same up to agreement. -/
theorem Value.same_partial_equivalence :
    (∀ a b : Value, a.WellFormed → b.WellFormed → a.same b = true → b.same a = true) ∧
    (∀ a b c : Value, a.same b = true → b.same c = true → a.same c = true) ∧
    ∀ (bindings : Bindings) (positions positions' : List Position),
      (∀ position ∈ positions, position.actual.WellFormed) → positions.Perm positions' →
      ((bindings.fitAll positions).1 = none ↔ (bindings.fitAll positions').1 = none) ∧
      ((bindings.fitAll positions).1 = none →
        (bindings.fitAll positions).2.Resembles (bindings.fitAll positions').2) := by
  refine ⟨fun a b => Value.same_symm, fun a b c => Value.same_trans, ?_⟩
  intro bindings positions positions' hwell hperm
  have hwell' : ∀ position ∈ positions', position.actual.WellFormed :=
    fun position hmem => hwell position (hperm.mem_iff.mpr hmem)
  refine ⟨⟨?_, ?_⟩, ?_⟩
  · exact fun h => (Bindings.fitAll_in_any_order hwell hperm h).1
  · exact fun h => (Bindings.fitAll_in_any_order hwell' hperm.symm h).1
  · exact fun h => (Bindings.fitAll_in_any_order hwell hperm h).2

/-- Three occurrences of one variable: two objects that name one record, and its text. -/
def threefold : List Position :=
  [⟨"first", .ident ⟨"a", 0⟩, .var ⟨"x", 0⟩⟩, ⟨"second", .text "a", .var ⟨"x", 0⟩⟩,
    ⟨"third", .ident ⟨"a", 1⟩, .var ⟨"x", 0⟩⟩]

/-- Whichever of the three is bound first, the others agree with it. -/
theorem Value.same_partial_equivalence_threefold :
    (Value.text "a").same (.ident ⟨"a", 0⟩) = true ∧
    (Value.ident ⟨"a", 0⟩).same (.ident ⟨"a", 1⟩) = true ∧
    (Bindings.empty.fitAll threefold.reverse).1 = none ∧
    (Bindings.empty.fitAll threefold).2.Resembles (Bindings.empty.fitAll threefold.reverse).2 := by
  obtain ⟨hsymm, htrans, horder⟩ := Value.same_partial_equivalence
  have hwell : ∀ position ∈ threefold, position.actual.WellFormed := by
    intro position hmem
    simp only [threefold, List.mem_cons, List.not_mem_nil, or_false] at hmem
    rcases hmem with rfl | rfl | rfl
    · exact .ident _
    · exact .text _
    · exact .ident _
  have hfits : (Bindings.empty.fitAll threefold).1 = none := rfl
  obtain ⟨hiff, hbound⟩ :=
    horder Bindings.empty threefold threefold.reverse hwell threefold.reverse_perm.symm
  refine ⟨?_, ?_, hiff.mp hfits, hbound hfits⟩
  · exact hsymm (.ident ⟨"a", 0⟩) (.text "a") (.ident _) (.text _) rfl
  · exact htrans _ (.text "a") _ rfl rfl

end Synchrony
