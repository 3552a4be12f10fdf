import Synchrony.Proofs.Json.ReadBack
import Synchrony.Value.Shown

/-!
# The round trip of a value

A value that has no more in it than JSON can say is written and read back unchanged, with its lists
and records at any depth (`read?_write`). Left out are identifiers and tuples, which JSON writes as
something else, and floating point numbers.

What is written has no control character in it, so it is one line whatever the value says
(`printable_write`).
-/

set_option autoImplicit false

namespace Synchrony

/-- A value that JSON says in full. Its integers do not have too many digits, and each record holds
a key once. -/
inductive Value.Lossless : Value → Prop
  | null : Lossless .null
  | bool (b : Bool) : Lossless (.bool b)
  | int {n : Int} (few : (Decimal.digits n.natAbs).length ≤ Decimal.digitLimit) :
    Lossless (.int n)
  | text (s : String) : Lossless (.text s)
  | list {items : List Value} (members : ∀ item ∈ items, Lossless item) : Lossless (.list items)
  | record {fields : List (String × Value)} (once : (Keyed.keys fields).Nodup)
    (members : ∀ field ∈ fields, Lossless field.2) : Lossless (.record fields)

namespace Json

/-! ## How texts of values start -/

/-- What a reader of values can be sent to: no space, and no end of a list. -/
def StartsValue (s : List Char) : Prop :=
  ∃ c t, s = c :: t ∧ isSpace c = false ∧ c ≠ ']'

theorem StartsValue.append {s : List Char} (h : StartsValue s) (rest : List Char) :
    StartsValue (s ++ rest) := by
  obtain ⟨c, t, rfl, hspace, hclose⟩ := h
  exact ⟨c, t ++ rest, rfl, hspace, hclose⟩

theorem StartsValue.skipSpace {s : List Char} (h : StartsValue s) : skipSpace s = s := by
  obtain ⟨c, t, rfl, hspace, -⟩ := h
  exact skipSpace_cons hspace t

theorem StartsValue.skipSpace_behind_blank {s : List Char} (h : StartsValue s) :
    Json.skipSpace (' ' :: s) = s := by
  have hblank : Json.skipSpace (' ' :: s) = Json.skipSpace s := List.dropWhile_cons_of_pos rfl
  rw [hblank, h.skipSpace]

theorem startsValue_write {v : Value} (h : v.Lossless) : StartsValue (write v) := by
  cases h with
  | null => exact ⟨'n', _, rfl, rfl, by decide⟩
  | bool b => cases b <;> exact ⟨_, _, rfl, rfl, by decide⟩
  | int few =>
    obtain ⟨c, t, hc, hspace, -, -, hclose⟩ := ofInt_head _
    exact ⟨c, t, hc, hspace, hclose⟩
  | text s => exact ⟨'"', _, rfl, rfl, by decide⟩
  | list members => exact ⟨'[', _, rfl, rfl, by decide⟩
  | record once members => exact ⟨'\x7b', _, rfl, rfl, by decide⟩

theorem startsValue_writeItems {v : Value} (h : v.Lossless) (items : List Value) :
    StartsValue (writeItems (v :: items)) := by
  cases items with
  | nil => exact startsValue_write h
  | cons next items => exact (startsValue_write h).append _

/-! ## Lists -/

/-- The value is read back in front of whatever can stand behind one. -/
def ReadsBack (v : Value) : Prop :=
  ∀ fuel rest, EndsValue rest → 2 * (write v).length ≤ fuel →
    value fuel (write v ++ rest) = some (v, rest)

theorem ReadsBack.of_succ {v : Value} (hvalue : v.Lossless)
    (h : ∀ fuel rest, EndsValue rest → 2 * (write v).length ≤ fuel + 1 →
      value (fuel + 1) (write v ++ rest) = some (v, rest)) : ReadsBack v := by
  intro fuel rest hrest hfuel
  obtain ⟨c, t, hc, -⟩ := startsValue_write hvalue
  cases fuel with
  | zero =>
    rw [hc] at hfuel
    cases hfuel
  | succ fuel => exact h fuel rest hrest hfuel

theorem elements_last {fuel : Nat} {s rest : List Char} {v : Value}
    (h : value fuel s = some (v, ']' :: rest)) : elements (fuel + 1) s = some ([v], rest) := by
  rw [elements, h]
  simp only [skipSpace_cons (c := ']') rfl]

theorem elements_next {fuel : Nat} {s rest rest' : List Char} {v : Value} {items : List Value}
    (h : value fuel s = some (v, ',' :: ' ' :: rest)) (hstarts : StartsValue rest)
    (hmore : elements fuel rest = some (items, rest')) :
    elements (fuel + 1) s = some (v :: items, rest') := by
  rw [elements, h]
  simp only [skipSpace_cons (c := ',') rfl, hstarts.skipSpace_behind_blank, hmore]
  rfl

theorem elements_writeItems {v : Value} {items : List Value}
    (hread : ∀ item ∈ v :: items, ReadsBack item) (hvalue : ∀ item ∈ v :: items, item.Lossless)
    {fuel : Nat} (hfuel : 2 * (writeItems (v :: items)).length < fuel) (rest : List Char) :
    elements fuel (writeItems (v :: items) ++ ']' :: rest) = some (v :: items, rest) := by
  -- Every member takes one from the bound, and is written by one character at least.
  induction items generalizing v fuel with
  | nil =>
    cases fuel with
    | zero => cases hfuel
    | succ fuel =>
      apply elements_last
      apply hread v List.mem_cons_self
      · exact endsValue_cons (Or.inr (Or.inl rfl)) rest
      · exact Nat.le_of_lt_succ hfuel
  | cons next items ih =>
    cases fuel with
    | zero => cases hfuel
    | succ fuel =>
      obtain ⟨hfirst, hmore⟩ := List.forall_mem_cons.mp hread
      obtain ⟨-, hvalues⟩ := List.forall_mem_cons.mp hvalue
      have hwrite : writeItems (v :: next :: items) =
          write v ++ ',' :: ' ' :: writeItems (next :: items) := rfl
      rw [hwrite, List.length_append, List.length_cons, List.length_cons] at hfuel
      rw [hwrite, List.append_assoc, List.cons_append, List.cons_append]
      refine elements_next (hfirst fuel _ ?_ (by omega)) ?_ (ih hmore hvalues (by omega))
      · exact endsValue_cons (Or.inl rfl) _
      · exact (startsValue_writeItems (hvalues next List.mem_cons_self) items).append _

theorem value_list {r : List Char} (h : StartsValue r) (fuel : Nat) :
    value (fuel + 1) ('[' :: r) = (elements fuel r).map fun found => (.list found.1, found.2) := by
  rw [value, h.skipSpace]
  obtain ⟨c, t, rfl, -, hclose⟩ := h
  split
  · rename_i r' hr
    exact absurd (List.cons.inj hr).1 hclose
  · rfl

theorem readsBack_list {items : List Value} (hread : ∀ item ∈ items, ReadsBack item)
    (hvalue : ∀ item ∈ items, item.Lossless) : ReadsBack (.list items) := by
  apply ReadsBack.of_succ (.list hvalue)
  intro fuel rest _ hfuel
  have hwrite : write (.list items) ++ rest = '[' :: (writeItems items ++ ']' :: rest) := by
    simp [write]
  have hlength : (write (.list items)).length = (writeItems items).length + 2 := by
    simp [write]
  rw [hwrite]
  rw [hlength] at hfuel
  cases items with
  | nil =>
    rw [writeItems, List.nil_append, value, skipSpace_cons rfl]
    rfl
  | cons v items =>
    have hstarts := startsValue_writeItems (hvalue v List.mem_cons_self) items
    rw [value_list (hstarts.append _), elements_writeItems hread hvalue (by omega)]
    rfl

/-! ## Records -/

/-- A key and what leads over to its value. -/
def writeKey (k : String) : List Char :=
  string k ++ [':', ' ']

theorem writeFields_one (k : String) (v : Value) : writeFields [(k, v)] = writeKey k ++ write v := by
  simp [writeFields, writeKey]

theorem writeFields_cons (k : String) (v : Value) (field : String × Value)
    (fields : List (String × Value)) :
    writeFields ((k, v) :: field :: fields) =
      writeKey k ++ (write v ++ ',' :: ' ' :: writeFields (field :: fields)) := by
  rw [writeFields]
  simp [writeKey]

theorem writeFields_head (field : String × Value) (fields : List (String × Value)) :
    ∃ t, writeFields (field :: fields) = '"' :: t := by
  obtain ⟨k, v⟩ := field
  cases fields with
  | nil => exact ⟨_, writeFields_one k v⟩
  | cons next fields => exact ⟨_, writeFields_cons k v next fields⟩

/-- What is left of a key and its value once the opening quote is read. -/
theorem writeKey_append (k : String) (s : List Char) :
    writeKey k ++ s = '"' :: (k.toList.flatMap escapeChar ++ '"' :: ':' :: ' ' :: s) := by
  simp [writeKey, string]

theorem members_last {fuel : Nat} {s rest : List Char} {k : String} {v : Value}
    (hstarts : StartsValue s) (h : value fuel s = some (v, '\x7d' :: rest)) :
    members (fuel + 1) (writeKey k ++ s) = some ([(k, v)], rest) := by
  rw [writeKey_append, members, string?_of_stands escapeChar_stands]
  simp only [skipSpace_cons (c := ':') rfl, hstarts.skipSpace_behind_blank, h,
    skipSpace_cons (c := '\x7d') rfl]

theorem members_next {fuel : Nat} {s rest rest' : List Char} {k : String} {v : Value}
    {fields : List (String × Value)} (hstarts : StartsValue s)
    (h : value fuel s = some (v, ',' :: ' ' :: rest)) (hnext : StartsValue rest)
    (hmore : members fuel rest = some (fields, rest')) :
    members (fuel + 1) (writeKey k ++ s) = some ((k, v) :: fields, rest') := by
  rw [writeKey_append, members, string?_of_stands escapeChar_stands]
  simp only [skipSpace_cons (c := ':') rfl, hstarts.skipSpace_behind_blank, h,
    skipSpace_cons (c := ',') rfl, hnext.skipSpace_behind_blank, hmore]
  rfl

theorem startsValue_writeFields (field : String × Value) (fields : List (String × Value)) :
    StartsValue (writeFields (field :: fields)) := by
  obtain ⟨t, ht⟩ := writeFields_head field fields
  exact ⟨'"', t, ht, rfl, by decide⟩

theorem members_writeFields {field : String × Value} {fields : List (String × Value)}
    (hread : ∀ f ∈ field :: fields, ReadsBack f.2)
    (hvalue : ∀ f ∈ field :: fields, f.2.Lossless) {fuel : Nat}
    (hfuel : 2 * (writeFields (field :: fields)).length < fuel) (rest : List Char) :
    members fuel (writeFields (field :: fields) ++ '\x7d' :: rest) =
      some (field :: fields, rest) := by
  induction fields generalizing field fuel with
  | nil =>
    obtain ⟨k, v⟩ := field
    cases fuel with
    | zero => cases hfuel
    | succ fuel =>
      have hstarts : StartsValue (write v) := startsValue_write (hvalue (k, v) List.mem_cons_self)
      have hfirst : ReadsBack v := hread (k, v) List.mem_cons_self
      rw [writeFields_one, List.length_append] at hfuel
      rw [writeFields_one, List.append_assoc]
      refine members_last (hstarts.append _) (hfirst fuel _ ?_ (by omega))
      exact endsValue_cons (Or.inr (Or.inr rfl)) rest
  | cons next fields ih =>
    obtain ⟨k, v⟩ := field
    cases fuel with
    | zero => cases hfuel
    | succ fuel =>
      obtain ⟨hread, hmore⟩ := List.forall_mem_cons.mp hread
      obtain ⟨hlossless, hvalues⟩ := List.forall_mem_cons.mp hvalue
      have hfirst : ReadsBack v := hread
      have hstarts : StartsValue (write v) := startsValue_write hlossless
      rw [writeFields_cons, List.length_append, List.length_append, List.length_cons,
        List.length_cons] at hfuel
      rw [writeFields_cons, List.append_assoc, List.append_assoc, List.cons_append,
        List.cons_append]
      refine members_next (hstarts.append _) (hfirst fuel _ ?_ (by omega)) ?_
        (ih hmore hvalues (by omega))
      · exact endsValue_cons (Or.inl rfl) _
      · exact (startsValue_writeFields next fields).append _

end Json

namespace Keyed

variable {α : Type}

theorem put_of_not_mem {s : Keyed α} {key : String} (h : key ∉ s.keys) (a : α) :
    s.put key a = s ++ [(key, a)] := by
  induction s with
  | nil => rfl
  | cons entry rest ih =>
    obtain ⟨k, b⟩ := entry
    rw [keys, List.map_cons, List.mem_cons, not_or] at h
    rw [put, if_neg (Ne.symm h.1), ih h.2]
    rfl

/-- Pairs that hold each key once are a keyed sequence as they stand. -/
theorem ofPairs_of_nodup {pairs : List (String × α)} (h : (keys pairs).Nodup) :
    ofPairs pairs = pairs := by
  have hfold : ∀ rest s : List (String × α), (keys (s ++ rest)).Nodup →
      rest.foldl (fun s entry => put s entry.1 entry.2) s = s ++ rest := by
    intro rest
    induction rest with
    | nil =>
      intro s _
      exact (List.append_nil s).symm
    | cons entry rest ih =>
      intro s hnodup
      have hnew : entry.1 ∉ keys s := by
        rw [keys, List.map_append, List.map_cons, List.nodup_append] at hnodup
        intro hmem
        exact hnodup.2.2 entry.1 hmem entry.1 List.mem_cons_self rfl
      have happend : s ++ entry :: rest = (s ++ [entry]) ++ rest := by simp
      rw [List.foldl_cons, put_of_not_mem hnew, happend]
      exact ih (s ++ [entry]) (happend ▸ hnodup)
  exact hfold pairs [] h

end Keyed

namespace Json

theorem value_record (r : List Char) (fuel : Nat) :
    value (fuel + 1) ('\x7b' :: '"' :: r) =
      (members fuel ('"' :: r)).map fun found => (.record (Keyed.ofPairs found.1), found.2) := by
  rw [value, skipSpace_cons rfl]
  rfl

theorem readsBack_record {fields : List (String × Value)} (honce : (Keyed.keys fields).Nodup)
    (hread : ∀ field ∈ fields, ReadsBack field.2)
    (hvalue : ∀ field ∈ fields, field.2.Lossless) : ReadsBack (.record fields) := by
  apply ReadsBack.of_succ (.record honce hvalue)
  intro fuel rest _ hfuel
  have hwrite : write (.record fields) ++ rest =
      '\x7b' :: (writeFields fields ++ '\x7d' :: rest) := by
    simp [write]
  have hlength : (write (.record fields)).length = (writeFields fields).length + 2 := by
    simp [write]
  rw [hwrite]
  rw [hlength] at hfuel
  cases fields with
  | nil =>
    rw [writeFields, List.nil_append, value, skipSpace_cons rfl]
    rfl
  | cons field fields =>
    have hmembers : members fuel (writeFields (field :: fields) ++ '\x7d' :: rest) =
        some (field :: fields, rest) := members_writeFields hread hvalue (by omega) rest
    obtain ⟨t, ht⟩ := writeFields_head field fields
    rw [ht, List.cons_append] at hmembers ⊢
    rw [value_record, hmembers, Option.map_some, Keyed.ofPairs_of_nodup honce]

/-! ## All values -/

theorem readsBack {v : Value} (h : v.Lossless) : ReadsBack v := by
  induction h with
  | null =>
    apply ReadsBack.of_succ .null
    intro fuel rest _ _
    exact value_of_scalar rfl (by decide) (by decide) fuel
  | bool b =>
    apply ReadsBack.of_succ (.bool b)
    intro fuel rest _ _
    cases b <;> exact value_of_scalar rfl (by decide) (by decide) fuel
  | @int n few =>
    apply ReadsBack.of_succ (.int few)
    intro fuel rest hrest _
    obtain ⟨c, t, hc, -, hlist, hrecord, -⟩ := ofInt_head n
    have hscalar := scalar?_ofInt hrest few
    rw [hc] at hscalar
    rw [write, hc]
    exact value_of_scalar hscalar hlist hrecord fuel
  | text s =>
    apply ReadsBack.of_succ (.text s)
    intro fuel rest _ _
    have hwrite : write (.text s) ++ rest =
        '"' :: (s.toList.flatMap escapeChar ++ '"' :: rest) := by
      simp [write, string]
    have hscalar : scalar? ('"' :: (s.toList.flatMap escapeChar ++ '"' :: rest)) =
        some (.text s, rest) := by
      rw [scalar?, string?_of_stands escapeChar_stands]
      rfl
    rw [hwrite]
    exact value_of_scalar hscalar (by decide) (by decide) fuel
  | list members ih => exact readsBack_list ih members
  | record once members ih => exact readsBack_record once ih members

/-- **What is written of a lossless value is read back.** -/
theorem read?_write {v : Value} (h : v.Lossless) : read? (write v) = some v := by
  have hskip := (startsValue_write h).skipSpace
  have hread := readsBack h (2 * (write v).length + 2) [] endsValue_nil (by omega)
  rw [List.append_nil] at hread
  rw [read?, hskip, hread]
  rfl

/-! ## Printable texts -/

/-- No control character is in the text, and so no line break. -/
def Printable (s : List Char) : Prop :=
  ∀ c ∈ s, 32 ≤ c.toNat

theorem Printable.nil : Printable [] := by
  intro c hc
  cases hc

theorem Printable.cons {c : Char} {s : List Char} (hc : 32 ≤ c.toNat) (hs : Printable s) :
    Printable (c :: s) :=
  List.forall_mem_cons.mpr ⟨hc, hs⟩

theorem Printable.append {s t : List Char} (hs : Printable s) (ht : Printable t) :
    Printable (s ++ t) :=
  List.forall_mem_append.mpr ⟨hs, ht⟩

theorem printable_hexDigits (width n : Nat) : Printable (Text.hexDigits width n) := by
  have hall : ∀ d : Fin 16, 32 ≤ (Text.hexDigit d.val).toNat := by decide
  intro c hc
  obtain ⟨k, hk, rfl⟩ := Text.mem_hexDigits hc
  exact hall ⟨k, hk⟩

/-- What is escaped is written with a backslash and printable characters behind it. -/
theorem printable_escapeChar (c : Char) : Printable (escapeChar c) := by
  have hletter (letter : Char) (h : 32 ≤ letter.toNat) : Printable ['\\', letter] := by
    exact .cons (by decide) (.cons h .nil)
  unfold escapeChar
  split
  · exact hletter _ (by decide)
  split
  · exact hletter _ (by decide)
  split
  · exact hletter _ (by decide)
  split
  · exact hletter _ (by decide)
  split
  · exact hletter _ (by decide)
  split
  · exact hletter _ (by decide)
  split
  · exact hletter _ (by decide)
  split
  · exact .cons (by decide) (.cons (by decide) (printable_hexDigits 4 c.toNat))
  · rename_i hcontrol
    exact .cons (Nat.le_of_not_lt hcontrol) .nil

theorem printable_string (s : String) : Printable (string s) := by
  apply Printable.cons (by decide)
  apply Printable.append
  · intro c hc
    obtain ⟨d, -, hmem⟩ := List.mem_flatMap.mp hc
    exact printable_escapeChar d c hmem
  · exact .cons (by decide) .nil

theorem printable_ofInt (n : Int) : Printable (Decimal.ofInt n) := by
  have hdigits (m : Nat) : Printable (Decimal.digits m) := by
    intro c hc
    have hdigit := Decimal.isDigit_of_mem_digits hc
    simp only [Decimal.isDigit, Bool.and_eq_true, decide_eq_true_eq] at hdigit
    omega
  cases n with
  | ofNat n => exact hdigits n
  | negSucc n => exact .cons (by decide) (hdigits (n + 1))

theorem printable_writeItems {items : List Value} (h : ∀ item ∈ items, Printable (write item)) :
    Printable (writeItems items) := by
  induction items with
  | nil => exact .nil
  | cons v items ih =>
    obtain ⟨hfirst, hmore⟩ := List.forall_mem_cons.mp h
    cases items with
    | nil => exact hfirst
    | cons next items => exact hfirst.append (.cons (by decide) (.cons (by decide) (ih hmore)))

theorem printable_writeFields {fields : List (String × Value)}
    (h : ∀ field ∈ fields, Printable (write field.2)) : Printable (writeFields fields) := by
  have hkey (k : String) : Printable (writeKey k) :=
    (printable_string k).append (.cons (by decide) (.cons (by decide) .nil))
  induction fields with
  | nil => exact .nil
  | cons field fields ih =>
    obtain ⟨k, v⟩ := field
    obtain ⟨hfirst, hmore⟩ := List.forall_mem_cons.mp h
    cases fields with
    | nil =>
      rw [writeFields_one]
      exact (hkey k).append hfirst
    | cons next fields =>
      rw [writeFields_cons]
      exact (hkey k).append (hfirst.append (.cons (by decide) (.cons (by decide) (ih hmore))))

/-- **A lossless value is written on one line**, without any control character. -/
theorem printable_write {v : Value} (h : v.Lossless) : Printable (write v) := by
  have hclosed {s : List Char} (hs : Printable s) {c : Char} (hc : 32 ≤ c.toNat) :
      Printable (s ++ [c]) := hs.append (.cons hc .nil)
  have hname {a b c d : Char} {s : List Char} (h : 32 ≤ a.toNat ∧ 32 ≤ b.toNat ∧ 32 ≤ c.toNat ∧
      32 ≤ d.toNat) (hs : Printable s) : Printable (a :: b :: c :: d :: s) :=
    .cons h.1 (.cons h.2.1 (.cons h.2.2.1 (.cons h.2.2.2 hs)))
  induction h with
  | null => exact hname (by decide) .nil
  | bool b =>
    cases b with
    | false => exact hname (by decide) (.cons (by decide) .nil)
    | true => exact hname (by decide) .nil
  | int few => exact printable_ofInt _
  | text s => exact printable_string s
  | list members ih => exact .cons (by decide) (hclosed (printable_writeItems ih) (by decide))
  | record once members ih =>
    exact .cons (by decide) (hclosed (printable_writeFields ih) (by decide))

end Json

theorem Value.Lossless.hasText {v : Value} (h : v.Lossless) : v.hasText = true := by
  induction h with
  | int few => exact Decimal.hasText_of_length_le few
  | list members ih => exact Value.itemsHaveText_iff.mpr ih
  | record once members ih => exact Value.fieldsHaveText_iff.mpr ih
  | _ => rfl

end Synchrony
