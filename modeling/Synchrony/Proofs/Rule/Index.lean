import Mathlib.Data.List.Induction
import Mathlib.Data.List.Sort
import Mathlib.Logic.Equiv.Defs
import Synchrony.Rule.Rulebook

/-!
# What the index holds

The index of a rulebook is a rearrangement of its rules and nothing else (`Rulebook.Indexes`): under
each anchor it holds the rules with that anchor in source order, the anchors stand in the order in
which the source first comes to them, and each rule is filed once. All views of the index, as a
look-up, a set of anchors, a sequence or a number, are views of that.

What it leaves out is how rules with different anchors stand to each other. Lists that differ in
nothing else (`Rearrangement`) are filed in the same way (`Rearrangement.under_eq`).
-/

set_option autoImplicit false

namespace Synchrony

/-! ## First appearances -/

theorem eraseDups_snoc (names : List String) (name : String) :
    (names ++ [name]).eraseDups =
      if name ∈ names then names.eraseDups else names.eraseDups ++ [name] := by
  rw [List.eraseDups_append]
  by_cases h : name ∈ names
  · simp [List.removeAll, h]
  · simp [List.removeAll, h, List.eraseDups_cons]

theorem pairwise_eraseDups (names : List String) :
    names.eraseDups.Pairwise fun a b => names.idxOf a < names.idxOf b := by
  induction names using List.reverseRecOn with
  | nil => exact .nil
  | append_singleton names name ih =>
    have hfront : names.eraseDups.Pairwise fun a b =>
        (names ++ [name]).idxOf a < (names ++ [name]).idxOf b := by
      refine ih.imp_of_mem fun ha hb hlt => ?_
      rwa [List.idxOf_append_of_mem (List.mem_eraseDups.mp ha),
        List.idxOf_append_of_mem (List.mem_eraseDups.mp hb)]
    rw [eraseDups_snoc]
    by_cases hname : name ∈ names
    · rwa [if_pos hname]
    · rw [if_neg hname, List.pairwise_append]
      refine ⟨hfront, List.pairwise_singleton _ _, ?_⟩
      intro a ha b hb
      rw [List.mem_singleton.mp hb, List.idxOf_append_of_mem (List.mem_eraseDups.mp ha),
        List.idxOf_append_of_notMem hname]
      exact Nat.lt_add_right _ (List.idxOf_lt_length_iff.mpr (List.mem_eraseDups.mp ha))

/-- Entries under different keys are told by their keys. -/
theorem Keyed.eq_map_keys {α : Type} {s : Keyed α} (hnodup : s.keys.Nodup) (d : α) :
    s = s.keys.map fun key => (key, (s.get? key).getD d) := by
  rw [Keyed.keys, List.map_map]
  refine (List.map_id s).symm.trans (List.map_congr_left fun entry hentry => ?_)
  simp [Keyed.get?_of_mem hnodup hentry]

namespace Rulebook

variable (book : Rulebook)

/-- The anchors are those of the rules, each where it appears first. -/
theorem anchors_eq : book.anchors = (book.rules.map Rule.anchor).eraseDups := by
  rw [anchors, book.index_eq, indexRules]
  induction book.rules using List.reverseRecOn with
  | nil => rfl
  | append_singleton rules rule ih =>
    rw [List.foldl_append, List.map_append, List.map_singleton, eraseDups_snoc, List.foldl_cons,
      List.foldl_nil, fileRule, Keyed.keys_put, ih]
    simp

variable {book}

theorem mem_anchors_iff {anchor : String} :
    anchor ∈ book.anchors ↔ ∃ rule ∈ book.rules, rule.anchor = anchor := by
  rw [anchors_eq, List.mem_eraseDups, List.mem_map]

theorem mem_under_iff {anchor : String} {rule : Rule} :
    rule ∈ book.under anchor ↔ rule ∈ book.rules ∧ rule.anchor = anchor := by
  rw [under_eq_filter, List.mem_filter, decide_eq_true_iff]

variable (book)

theorem pairwise_anchors : book.anchors.Pairwise fun a b =>
    (book.rules.map Rule.anchor).idxOf a < (book.rules.map Rule.anchor).idxOf b := by
  rw [anchors_eq]
  exact pairwise_eraseDups _

theorem nodup_anchors : book.anchors.Nodup :=
  book.pairwise_anchors.imp fun {a b} hlt (heq : a = b) =>
    Nat.ne_of_lt hlt (congrArg (List.idxOf · (book.rules.map Rule.anchor)) heq)

theorem index_eq_map : book.index = book.anchors.map fun anchor => (anchor, book.under anchor) :=
  Keyed.eq_map_keys book.nodup_anchors []

theorem contains_iff_mem {anchor : String} : book.contains anchor = true ↔ anchor ∈ book.anchors :=
  Keyed.has_iff

theorem get?_eq (anchor : String) :
    book.get? anchor = if anchor ∈ book.anchors then some (book.under anchor) else none := by
  have hhas : (book.get? anchor).isSome = true ↔ anchor ∈ book.anchors := by
    rw [get?, ← Keyed.has_eq]
    exact book.contains_iff_mem
  rw [under]
  cases hget : book.get? anchor with
  | none => simp [← hhas, hget]
  | some rules => simp [← hhas, hget]

/-- Rules filed under all their anchors are those rules again. -/
theorem perm_flatMap_filter {anchors : List String} {rules : List Rule} (hnodup : anchors.Nodup)
    (hall : ∀ rule ∈ rules, rule.anchor ∈ anchors) :
    (anchors.flatMap fun anchor => rules.filter fun rule => rule.anchor = anchor).Perm rules := by
  -- The rules of the first anchor are taken out, and the others are filed under the rest.
  induction anchors generalizing rules with
  | nil =>
    have hnil : rules = [] := List.eq_nil_iff_forall_not_mem.mpr fun rule hrule =>
      List.not_mem_nil (hall rule hrule)
    rw [hnil]
    exact .nil
  | cons anchor anchors ih =>
    obtain ⟨hanchor, hnodup⟩ := List.nodup_cons.mp hnodup
    have hothers : anchors.flatMap (fun other => rules.filter fun rule => rule.anchor = other) =
        anchors.flatMap fun other =>
          (rules.filter fun rule => !decide (rule.anchor = anchor)).filter
            fun rule => rule.anchor = other := by
      refine List.flatMap_congr fun other hother => ?_
      rw [List.filter_filter]
      refine List.filter_congr fun rule _ => ?_
      have hne : other ≠ anchor := fun heq => hanchor (heq ▸ hother)
      by_cases hrule : rule.anchor = other
      · simp [hrule, hne]
      · simp [hrule]
    rw [List.flatMap_cons, hothers]
    refine ((ih hnodup ?_).append_left _).trans (List.filter_append_perm _ rules)
    intro rule hrule
    obtain ⟨hmem, hne⟩ := List.mem_filter.mp hrule
    exact (List.mem_cons.mp (hall rule hmem)).resolve_left (by simpa using hne)

/-- What the index of a rulebook has to do with its rules. -/
structure Indexes : Prop where
  under : ∀ anchor, book.under anchor = book.rules.filter fun rule => rule.anchor = anchor
  anchors : ∀ anchor, anchor ∈ book.anchors ↔ ∃ rule ∈ book.rules, rule.anchor = anchor
  anchors_nodup : book.anchors.Nodup
  anchors_ordered : book.anchors.Pairwise fun a b =>
    (book.rules.map Rule.anchor).idxOf a < (book.rules.map Rule.anchor).idxOf b
  filed_once : (book.anchors.flatMap book.under).Perm book.rules
  one_anchor : ∀ rule ∈ book.rules, ∃! anchor, anchor ∈ book.anchors ∧ rule ∈ book.under anchor
  contains : ∀ anchor, book.contains anchor = true ↔ anchor ∈ book.anchors
  get? : ∀ anchor,
    book.get? anchor = if anchor ∈ book.anchors then some (book.under anchor) else none
  entries : book.index = book.anchors.map fun anchor => (anchor, book.under anchor)
  size : book.size = book.anchors.length

/-- **The index is that of the rules**, whatever they are. -/
theorem indexes : book.Indexes where
  under := book.under_eq_filter
  anchors _ := mem_anchors_iff
  anchors_nodup := book.nodup_anchors
  anchors_ordered := book.pairwise_anchors
  filed_once := by
    rw [funext book.under_eq_filter]
    exact perm_flatMap_filter book.nodup_anchors fun rule hrule =>
      mem_anchors_iff.mpr ⟨rule, hrule, rfl⟩
  one_anchor := by
    intro rule hrule
    have hanchor := mem_anchors_iff.mpr ⟨rule, hrule, rfl⟩
    refine ⟨rule.anchor, ⟨hanchor, mem_under_iff.mpr ⟨hrule, rfl⟩⟩, ?_⟩
    rintro anchor ⟨-, hunder⟩
    exact (mem_under_iff.mp hunder).2.symm
  contains _ := book.contains_iff_mem
  get? := book.get?_eq
  entries := book.index_eq_map
  size := (List.length_map _).symm

end Rulebook

/-! ## Other orders -/

/-- The same rules in another order, in which those with one anchor stand as they stood. -/
structure Rearrangement (rules rules' : List Rule) where
  place : Fin rules.length ≃ Fin rules'.length
  rule_at : ∀ i, rules'[place i] = rules[i]
  ordered : ∀ i j, i < j → rules[i].anchor = rules[j].anchor → place i < place j

namespace Rearrangement

variable {rules rules' : List Rule}

/-- The places of the rules with an anchor, in order. -/
def places (rules : List Rule) (anchor : String) : List (Fin rules.length) :=
  (List.finRange rules.length).filter fun i => rules[i].anchor = anchor

theorem mem_places {anchor : String} {i : Fin rules.length} :
    i ∈ places rules anchor ↔ rules[i].anchor = anchor := by
  simp [places]

theorem pairwise_places (rules : List Rule) (anchor : String) :
    (places rules anchor).Pairwise (· < ·) :=
  (List.pairwise_lt_finRange _).filter _

theorem map_places (rules : List Rule) (anchor : String) :
    (places rules anchor).map (fun i => rules[i]) =
      rules.filter fun rule => rule.anchor = anchor := by
  conv => rhs; rw [← List.map_getElem_finRange rules, List.filter_map]
  rfl

/-- The rules with an anchor go to the places of the rules with that anchor. -/
theorem places_eq (h : Rearrangement rules rules') (anchor : String) :
    (places rules anchor).map h.place = places rules' anchor := by
  refine List.Pairwise.eq_of_mem_iff (r := (· < ·)) ?_ (pairwise_places rules' anchor) fun i => ?_
  · rw [List.pairwise_map]
    refine (pairwise_places rules anchor).imp_of_mem fun hi hj hlt => h.ordered _ _ hlt ?_
    rw [mem_places.mp hi, mem_places.mp hj]
  · rw [mem_places, List.mem_map]
    constructor
    · rintro ⟨j, hj, rfl⟩
      rw [h.rule_at, mem_places.mp hj]
    · intro hi
      obtain ⟨j, rfl⟩ := h.place.surjective i
      exact ⟨j, mem_places.mpr (by rw [← h.rule_at, hi]), rfl⟩

/-- **A rearrangement files the same rules under every anchor**, in the same order. -/
theorem under_eq (h : Rearrangement rules rules') (anchor : String) :
    (Rulebook.ofRules rules').under anchor = (Rulebook.ofRules rules).under anchor := by
  rw [Rulebook.under_eq_filter, Rulebook.under_eq_filter]
  change rules'.filter _ = rules.filter _
  rw [← map_places, ← map_places, ← h.places_eq, List.map_map]
  exact List.map_congr_left fun i _ => h.rule_at i

end Rearrangement

end Synchrony
