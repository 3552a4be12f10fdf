import Synchrony.Json.Read
import Synchrony.Proofs.Value.SelfAgreement

/-!
# What is read is well-formed

An object may give one of its names twice, and the reader keeps the last member of that name at the
place of the first. So what is read is well-formed whatever the text (`read?_wellFormed`), and with
it all that comes from clients.

Not-a-number is well-formed, too. It is read from its name and from nothing else, for a number
whose magnitude is out of range is infinite (`head_of_read?_nan`).
-/

set_option autoImplicit false

namespace Synchrony

namespace Keyed

variable {α : Type}

/-- What holds of nothing and survives a write holds of what is made from pairs. -/
theorem ofPairs_induction {P : Keyed α → Prop} {pairs : List (String × α)} (hnil : P [])
    (hput : ∀ s, ∀ entry ∈ pairs, P s → P (s.put entry.1 entry.2)) : P (ofPairs pairs) := by
  have hfold : ∀ s, P s → ∀ rest, rest ⊆ pairs →
      P (rest.foldl (fun s entry => s.put entry.1 entry.2) s) := by
    intro s hs rest hrest
    induction rest generalizing s with
    | nil => exact hs
    | cons entry rest ih =>
      obtain ⟨hentry, hrest⟩ := List.cons_subset.mp hrest
      exact ih _ (hput s entry hentry hs) hrest
  exact hfold [] hnil pairs (List.Subset.refl pairs)

theorem nodup_ofPairs (pairs : List (String × α)) : (ofPairs pairs).keys.Nodup :=
  ofPairs_induction (P := fun s => s.keys.Nodup) List.nodup_nil
    fun _ entry _ h => nodup_put h entry.1 entry.2

theorem ofPairs_subset (pairs : List (String × α)) : ofPairs pairs ⊆ pairs := by
  have hput : ∀ s : Keyed α, ∀ entry ∈ pairs, s ⊆ pairs → s.put entry.1 entry.2 ⊆ pairs := by
    intro s entry hentry hs other hother
    rcases mem_put hother with rfl | hmem
    · exact hentry
    · exact hs hmem
  exact ofPairs_induction (P := (· ⊆ pairs)) (List.nil_subset pairs) hput

end Keyed

namespace Json

/-- What holds of all that a reader makes of something it has read. -/
theorem holds_of_map {α : Type} {P : Value → Prop} {make : α × List Char → Value × List Char}
    {found : Option (α × List Char)} {v : Value} {rest : List Char}
    (h : found.map make = some (v, rest)) (hmake : ∀ read, found = some read → P (make read).1) :
    P v := by
  obtain ⟨read, hread, hv⟩ := Option.map_eq_some_iff.mp h
  have hholds := hmake read hread
  rwa [hv] at hholds

/-! ## Values without members -/

theorem name?_wellFormed {s rest : List Char} {v : Value} (h : name? s = some (v, rest)) :
    v.WellFormed := by
  unfold name? at h
  split at h
  all_goals cases h
  · exact .null
  · exact .bool true
  · exact .bool false
  · exact .float _
  · exact .float _
  · exact .float _

theorem numberOf?_wellFormed {negative : Bool} {whole : List Char} {fraction : Option (List Char)}
    {exponent : Option Int} {v : Value} (h : numberOf? negative whole fraction exponent = some v) :
    v.WellFormed := by
  unfold numberOf? at h
  split at h
  · split at h
    · cases h
      exact .int _
    · cases h
  · cases h
    exact .float _

theorem number?_wellFormed {s rest : List Char} {v : Value} (h : number? s = some (v, rest)) :
    v.WellFormed := by
  simp only [number?, Option.bind_eq_bind, Option.bind_eq_some_iff] at h
  obtain ⟨⟨whole, behind⟩, -, w, hw, h⟩ := h
  cases h
  exact numberOf?_wellFormed hw

theorem scalar?_wellFormed {s rest : List Char} {v : Value} (h : scalar? s = some (v, rest)) :
    v.WellFormed := by
  unfold scalar? at h
  split at h
  next => exact holds_of_map h fun read _ => .text read.1
  next =>
    split at h
    next hname =>
      rw [h] at hname
      exact name?_wellFormed hname
    next => exact number?_wellFormed h

/-! ## Values with members -/

/-- What the three readers promise, each within its bound. -/
structure ReadsWellFormed (fuel : Nat) : Prop where
  value : ∀ {s rest v}, value fuel s = some (v, rest) → v.WellFormed
  elements : ∀ {s rest vs}, elements fuel s = some (vs, rest) → ∀ v ∈ vs, v.WellFormed
  members : ∀ {s rest fs}, members fuel s = some (fs, rest) → ∀ f ∈ fs, f.2.WellFormed

variable {fuel : Nat} {s rest : List Char}

theorem ReadsWellFormed.value_succ (ih : ReadsWellFormed fuel) {v : Value}
    (h : Json.value (fuel + 1) s = some (v, rest)) : v.WellFormed := by
  rw [Json.value.eq_def] at h
  dsimp only at h
  split at h
  next =>
    split at h
    · cases h
      exact .list (by simp)
    · exact holds_of_map h fun read hread => .list (ih.elements hread)
  next =>
    split at h
    · cases h
      exact .record List.nodup_nil (by simp)
    · refine holds_of_map h fun read hread => ?_
      refine .record (Keyed.nodup_ofPairs read.1) ?_
      intro f hf
      exact ih.members hread f (Keyed.ofPairs_subset read.1 hf)
  next => exact scalar?_wellFormed h

theorem ReadsWellFormed.elements_succ (ih : ReadsWellFormed fuel) {vs : List Value}
    (h : Json.elements (fuel + 1) s = some (vs, rest)) : ∀ v ∈ vs, v.WellFormed := by
  rw [Json.elements.eq_def] at h
  dsimp only at h
  split at h
  · cases h
  next first r hfirst =>
    have hwell := ih.value hfirst
    split at h
    · cases h
      simpa using hwell
    · obtain ⟨⟨more, r⟩, hread, hvs⟩ := Option.map_eq_some_iff.mp h
      cases hvs
      exact List.forall_mem_cons.mpr ⟨hwell, ih.elements hread⟩
    · cases h

theorem ReadsWellFormed.members_succ (ih : ReadsWellFormed fuel) {fs : List (String × Value)}
    (h : Json.members (fuel + 1) s = some (fs, rest)) : ∀ f ∈ fs, f.2.WellFormed := by
  rw [Json.members.eq_def] at h
  dsimp only at h
  split at h
  · split at h
    · cases h
    · split at h
      · split at h
        · cases h
        next first r hfirst =>
          have hwell := ih.value hfirst
          split at h
          · cases h
            simpa using hwell
          · obtain ⟨⟨more, r⟩, hread, hfs⟩ := Option.map_eq_some_iff.mp h
            cases hfs
            exact List.forall_mem_cons.mpr ⟨hwell, ih.members hread⟩
          · cases h
      · cases h
  · cases h

theorem readsWellFormed (fuel : Nat) : ReadsWellFormed fuel := by
  induction fuel with
  | zero =>
    constructor
    · intro s rest v h
      rw [value] at h
      cases h
    · intro s rest vs h
      rw [elements] at h
      cases h
    · intro s rest fs h
      rw [members] at h
      cases h
  | succ fuel ih => exact ⟨ih.value_succ, ih.elements_succ, ih.members_succ⟩

/-- **Every value that is read is well-formed.** -/
theorem read?_wellFormed {v : Value} (h : read? s = some v) : v.WellFormed := by
  unfold read? at h
  dsimp only at h
  split at h
  next w r hw =>
    split at h
    · cases h
      exact (readsWellFormed _).value hw
    · cases h
  next => cases h

/-! ## Not-a-number -/

theorem ofDecimal_ne_nan (negative : Bool) (mantissa : Nat) (exponent : Int) (mark : Nat) :
    Binary64.ofDecimal negative mantissa exponent ≠ .nan mark := by
  have hnearest : ∀ num den, Binary64.nearest negative num den ≠ .nan mark := by
    intro num den h
    unfold Binary64.nearest at h
    dsimp only at h
    split at h <;> cases h
  intro h
  unfold Binary64.ofDecimal at h
  dsimp only at h
  split at h
  · cases h
  split at h
  · cases h
  split at h
  · cases h
  split at h
  · exact hnearest _ _ h
  · exact hnearest _ _ h

theorem number?_ne_nan {v : Value} (h : number? s = some (v, rest)) : ¬v.IsNan := by
  simp only [number?, Option.bind_eq_bind, Option.bind_eq_some_iff] at h
  obtain ⟨⟨whole, behind⟩, -, w, hw, h⟩ := h
  cases h
  unfold numberOf? at hw
  split at hw
  · split at hw
    · cases hw
      exact id
    · cases hw
  · cases hw
    unfold Value.IsNan
    split
    next mark heq =>
      injection heq with heq
      exact absurd heq (ofDecimal_ne_nan _ _ _ mark)
    next => exact id

theorem head_of_scalar?_nan {v : Value} (h : scalar? s = some (v, rest)) (hnan : v.IsNan) :
    s.head? = some 'N' := by
  unfold scalar? at h
  split at h
  next => exact (holds_of_map (P := fun v => ¬v.IsNan) h (fun _ _ => id) hnan).elim
  next =>
    split at h
    next hname =>
      rw [h] at hname
      unfold name? at hname
      split at hname
      all_goals cases hname
      · cases hnan
      · cases hnan
      · cases hnan
      · rfl
      · cases hnan
      · cases hnan
    next => exact absurd hnan (number?_ne_nan h)

theorem scalar?_of_value_nan {v : Value} (h : value fuel s = some (v, rest)) (hnan : v.IsNan) :
    scalar? s = some (v, rest) := by
  rw [value.eq_def] at h
  split at h
  · cases h
  split at h
  next =>
    split at h
    · cases h
      cases hnan
    · exact (holds_of_map (P := fun v => ¬v.IsNan) h (fun _ _ => id) hnan).elim
  next =>
    split at h
    · cases h
      cases hnan
    · exact (holds_of_map (P := fun v => ¬v.IsNan) h (fun _ _ => id) hnan).elim
  next => exact h

/-- Only a text that starts with its name is read as not-a-number. -/
theorem head_of_read?_nan {v : Value} (h : read? s = some v) (hnan : v.IsNan) :
    (skipSpace s).head? = some 'N' := by
  unfold read? at h
  dsimp only at h
  split at h
  next w r hw =>
    split at h
    · cases h
      exact head_of_scalar?_nan (scalar?_of_value_nan hw hnan) hnan
    · cases h
  next => cases h

end Json

end Synchrony
