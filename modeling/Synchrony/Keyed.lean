/-!
# Keyed sequences

A keyed sequence holds one entry for each key and remembers the order in which keys first arrived.
Records, stores and indexes are all kept this way, because their order is shown to clients: a new
key goes to the end, and writing to a present key keeps its place.

Look-up is the view through which the other operations are described: `get?_put_self` and
`get?_put_of_ne` say what `put` changes and that it changes nothing else.
-/

set_option autoImplicit false

namespace Synchrony

/-- Entries in order of first arrival. -/
abbrev Keyed (α : Type) := List (String × α)

namespace Keyed

variable {α : Type}

/-- The entry under a key. -/
def get? : Keyed α → String → Option α
  | [], _ => none
  | (k, a) :: rest, key => if k = key then some a else get? rest key

/-- Write an entry: in place when the key is present, at the end otherwise. -/
def put : Keyed α → String → α → Keyed α
  | [], key, a => [(key, a)]
  | (k, b) :: rest, key, a => if k = key then (k, a) :: rest else (k, b) :: put rest key a

/-- Remove the entry under a key. -/
def erase (s : Keyed α) (key : String) : Keyed α :=
  s.filter fun entry => entry.1 != key

/-- Whether a key is present. -/
def has (s : Keyed α) (key : String) : Bool :=
  s.any fun entry => entry.1 == key

/-- The keys in order. -/
def keys (s : Keyed α) : List String :=
  s.map Prod.fst

/-- A keyed sequence from pairs: of two pairs with one key the later entry counts, at the place of
the earlier. -/
def ofPairs (pairs : List (String × α)) : Keyed α :=
  pairs.foldl (fun s entry => s.put entry.1 entry.2) []

/-- Apply a function to every entry. -/
def mapValues {β : Type} (f : α → β) (s : Keyed α) : Keyed β :=
  s.map fun entry => (entry.1, f entry.2)

@[simp] theorem get?_put_self (s : Keyed α) (key : String) (a : α) :
    (s.put key a).get? key = some a := by
  induction s with
  | nil => simp [put, get?]
  | cons entry rest ih =>
    obtain ⟨k, b⟩ := entry
    by_cases h : k = key <;> simp [put, get?, h, ih]

theorem get?_put_of_ne {s : Keyed α} {key other : String} {a : α} (h : key ≠ other) :
    (s.put key a).get? other = s.get? other := by
  induction s with
  | nil => simp [put, get?, h]
  | cons entry rest ih =>
    obtain ⟨k, b⟩ := entry
    by_cases hk : k = key
    · subst hk
      simp [put, get?, h]
    · by_cases ho : k = other
      · subst ho
        simp [put, get?, hk]
      · simp [put, get?, hk, ho, ih]

theorem mem_of_get? {s : Keyed α} {key : String} {a : α} (h : s.get? key = some a) :
    (key, a) ∈ s := by
  induction s with
  | nil => cases h
  | cons entry rest ih =>
    obtain ⟨k, b⟩ := entry
    by_cases hk : k = key
    · subst hk
      simp only [get?, if_true, Option.some.injEq] at h
      exact List.mem_cons.mpr (Or.inl (by rw [h]))
    · rw [get?, if_neg hk] at h
      exact List.mem_cons_of_mem _ (ih h)

/-- If each key is held once, every entry is the one under its key. -/
theorem get?_of_mem {s : Keyed α} {entry : String × α} (hnodup : s.keys.Nodup)
    (h : entry ∈ s) : s.get? entry.1 = some entry.2 := by
  induction s with
  | nil => cases h
  | cons first rest ih =>
    obtain ⟨k, a⟩ := first
    obtain ⟨hfirst, hrest⟩ := List.nodup_cons.mp hnodup
    rcases List.mem_cons.mp h with rfl | hmem
    · rw [get?, if_pos rfl]
    · have hne : k ≠ entry.1 := by
        rintro rfl
        have hkey : entry.1 ∈ rest.map Prod.fst := List.mem_map_of_mem hmem
        exact hfirst hkey
      rw [get?, if_neg hne]
      exact ih hrest hmem

theorem mem_keys_of_get? {s : Keyed α} {key : String} {a : α} (h : s.get? key = some a) :
    key ∈ s.keys :=
  List.mem_map_of_mem (mem_of_get? h)

/-- A key is present if there is an entry under it. -/
theorem has_eq (s : Keyed α) (key : String) : s.has key = (s.get? key).isSome := by
  induction s with
  | nil => rfl
  | cons entry rest ih =>
    obtain ⟨k, a⟩ := entry
    rw [has] at ih ⊢
    by_cases hk : k = key <;> simp [get?, hk, ih]

theorem has_iff {s : Keyed α} {key : String} : s.has key = true ↔ key ∈ s.keys := by
  simp [has, keys]

/-- Writing adds a key at most once, and only at the end. -/
theorem keys_put (s : Keyed α) (key : String) (a : α) :
    (s.put key a).keys = if key ∈ s.keys then s.keys else s.keys ++ [key] := by
  induction s with
  | nil => simp [put, keys]
  | cons entry rest ih =>
    obtain ⟨k, b⟩ := entry
    by_cases h : k = key
    · simp [put, keys, h]
    · simp only [keys] at ih
      have h' : ¬ key = k := fun e => h e.symm
      by_cases hm : key ∈ rest.map Prod.fst <;> simp_all [put, keys]

theorem mem_put {s : Keyed α} {key : String} {a : α} {entry : String × α}
    (h : entry ∈ s.put key a) : entry = (key, a) ∨ entry ∈ s := by
  induction s with
  | nil => exact Or.inl (List.mem_singleton.mp h)
  | cons first rest ih =>
    obtain ⟨k, b⟩ := first
    rw [put] at h
    split at h
    next hk =>
      subst hk
      rcases List.mem_cons.mp h with rfl | hmem
      · exact Or.inl rfl
      · exact Or.inr (List.mem_cons_of_mem _ hmem)
    next =>
      rcases List.mem_cons.mp h with rfl | hmem
      · exact Or.inr List.mem_cons_self
      · exact (ih hmem).imp_right (List.mem_cons_of_mem _)

theorem nodup_put {s : Keyed α} (h : s.keys.Nodup) (key : String) (a : α) :
    (s.put key a).keys.Nodup := by
  rw [keys_put]
  by_cases hmem : key ∈ s.keys
  · rwa [if_pos hmem]
  · rw [if_neg hmem, List.nodup_append]
    refine ⟨h, by simp, ?_⟩
    intro k hk other hother
    rw [List.mem_singleton.mp hother]
    intro heq
    exact hmem (heq ▸ hk)

end Keyed

end Synchrony
