import Mathlib.Algebra.Group.Nat.Defs
import Synchrony.Proofs.Value.SelfAgreement
import Synchrony.Value.Shown
import Synchrony.Value.Supply

/-!
# Which record a value names

An identifier names the record of its hex, and any other value names the record of its text, if it
has a text and that is not empty (`Value.record?`). Each call of an action makes identifiers of its
arguments anew; a value that names a record becomes an identifier of that record every time.

Rules compare what was said before with what is said now, and one value does not even agree with
itself: not-a-number. It names a record all the same, that of the text `nan`. No record made from
nothing goes by that name, so whatever names one of those agrees with itself (`Value.same_self`).
-/

set_option autoImplicit false

namespace Synchrony

/-- The hex of the record that a value names. -/
def Value.record? : Value → Option String
  | .ident id => some id.hex
  | value => if value.hasText && !value.plain.isEmpty then some value.plain else none

/-! ## Values that are shown as nothing -/

/-- Some text is shown for every number. -/
theorem Binary64.text_ne_empty (x : Binary64) : x.text ≠ "" := by
  have hsigned (negative : Bool) {s : List Char} (hs : s ≠ []) :
      String.ofList (signed negative s) ≠ "" := by
    intro hempty
    have hnil : signed negative s = [] := by simpa using congrArg String.toList hempty
    cases negative with
    | true => cases hnil
    | false => exact hs hnil
  cases x with
  | finite negative units =>
    refine hsigned negative ?_
    rw [magnitudeText]
    split
    · exact List.cons_ne_nil _ _
    · dsimp only
      split
      · rw [positional]
        split
        · exact List.cons_ne_nil _ _
        · exact List.append_ne_nil_of_right_ne_nil _ (List.cons_ne_nil _ _)
      · rw [exponential.eq_def]
        split <;> exact List.cons_ne_nil _ _
  | infinite negative => exact hsigned negative (List.cons_ne_nil _ _)
  | nan mark => rw [text]; decide

namespace Value

/-- Of the values that are no identifiers, only the empty text is shown as nothing. -/
theorem plain_ne_empty {value : Value} (hident : ∀ id, value ≠ .ident id)
    (hempty : value ≠ .text "") : value.plain ≠ "" := by
  intro hplain
  have hnil : value.plain.toList = [] := by rw [hplain]; rfl
  cases value with
  | null => exact absurd hplain (by decide)
  | bool b => cases b <;> exact absurd hplain (by decide)
  | int n =>
    simp only [plain, shown, Decimal.intText, String.toList_ofList] at hnil
    cases n with
    | ofNat n => exact Decimal.digits_ne_nil n hnil
    | negSucc n => cases hnil
  | float x => exact x.text_ne_empty hplain
  | text s => exact hempty (congrArg Value.text hplain)
  | ident id => exact hident id rfl
  | list items => simp [plain, shown] at hnil
  | tuple items =>
    simp only [plain, shown] at hnil
    split at hnil <;> simp at hnil
  | record fields => simp [plain, shown] at hnil

/-- Every value with a text names a record, but for the empty text. -/
theorem exists_record {value : Value} (htext : value.hasText = true) (hempty : value ≠ .text "") :
    ∃ hex, value.record? = some hex := by
  by_cases hident : ∃ id, value = .ident id
  · obtain ⟨id, rfl⟩ := hident
    exact ⟨id.hex, rfl⟩
  · have hplain := plain_ne_empty (fun id heq => hident ⟨id, heq⟩) hempty
    refine ⟨value.plain, ?_⟩
    cases value with
    | ident id => exact absurd ⟨id, rfl⟩ hident
    | _ => simp [record?, htext, hplain]

end Value

/-! ## Fresh hex texts -/

theorem Text.length_hexDigits (width n : Nat) : (Text.hexDigits width n).length = width := by
  induction width generalizing n with
  | zero => rfl
  | succ width ih => simp [Text.hexDigits, ih]

theorem Text.hexDigit_inj {m n : Nat} (hm : m < 16) (hn : n < 16)
    (h : Text.hexDigit m = Text.hexDigit n) : m = n := by
  have hall : ∀ k l : Fin 16, Text.hexDigit k = Text.hexDigit l → k = l := by decide
  exact congrArg Fin.val (hall ⟨m, hm⟩ ⟨n, hn⟩ h)

theorem Text.hexDigits_inj {width m n : Nat} (hm : m < 16 ^ width) (hn : n < 16 ^ width)
    (h : Text.hexDigits width m = Text.hexDigits width n) : m = n := by
  induction width generalizing m n with
  | zero => omega
  | succ width ih =>
    obtain ⟨hfront, hlast⟩ := List.append_inj' h rfl
    have hdiv := ih (by omega) (by omega) hfront
    have hmod := Text.hexDigit_inj (Nat.mod_lt m (by decide)) (Nat.mod_lt n (by decide))
      (List.singleton_inj.mp hlast)
    omega

namespace Supply

theorem not_mem_hexText {c : Char} (h : ∀ k, k < 16 → c ≠ Text.hexDigit k) (n : Nat) :
    c ∉ (hexText n).toList := by
  rw [hexText, String.toList_ofList]
  intro hmem
  obtain ⟨k, hk, rfl⟩ := Text.mem_hexDigits hmem
  exact h k hk rfl

/-- A text that was handed out for a number in this range. -/
def Issued (first next : Nat) (hex : String) : Prop :=
  ∃ n, first ≤ n ∧ n < next ∧ hex = hexText n

theorem Issued.mono {first next later : Nat} {hex : String} (h : Issued first next hex)
    (hle : next ≤ later) : Issued first later hex := by
  obtain ⟨n, hfirst, hlt, heq⟩ := h
  exact ⟨n, hfirst, Nat.lt_of_lt_of_le hlt hle, heq⟩

/-- The texts of two numbers in this range differ. -/
def NoRepeat (first last : Nat) : Prop :=
  ∀ m n, first ≤ m → m < n → n < last → hexText m ≠ hexText n

theorem NoRepeat.mono {first last sooner : Nat} (h : NoRepeat first last) (hle : sooner ≤ last) :
    NoRepeat first sooner :=
  fun m n hm hlt hn => h m n hm hlt (Nat.lt_of_lt_of_le hn hle)

theorem NoRepeat.ne_of_issued {first next n last : Nat} {hex : String} (h : NoRepeat first last)
    (hissued : Issued first next hex) (hle : next ≤ n) (hlt : n < last) : hex ≠ hexText n := by
  obtain ⟨m, hfirst, hm, rfl⟩ := hissued
  exact h m n hfirst (Nat.lt_of_lt_of_le hm hle) hlt

/-- Nothing repeats until all texts of 32 digits have been handed out. -/
theorem noRepeat_of_le {first last : Nat} (h : last ≤ 16 ^ 32) : NoRepeat first last := by
  intro m n _ hlt hlast heq
  have hdigits := String.ofList_injective heq
  exact Nat.ne_of_lt hlt (Text.hexDigits_inj (by omega) (by omega) hdigits)

theorem run_ident_of_named {hex : String} (h : hex.isEmpty = false) (u : Supply) :
    (ident hex).run u = (⟨hex, u.nextMark⟩, { u with nextMark := u.nextMark + 1 }) := by
  simp [ident, mark, h]
  rfl

theorem run_ident_of_empty {hex : String} (h : hex.isEmpty = true) (u : Supply) :
    (ident hex).run u = (⟨hexText u.nextHex, u.nextMark⟩,
      { u with nextMark := u.nextMark + 1, nextHex := u.nextHex + 1 }) := by
  simp [ident, mark, h]
  rfl

theorem ident_advances (hex : String) (u : Supply) :
    u.nextHex ≤ ((ident hex).run u).2.nextHex := by
  cases hempty : hex.isEmpty with
  | true => simp [run_ident_of_empty hempty]
  | false => simp [run_ident_of_named hempty]

end Supply

/-! ## Agreeing with oneself -/

namespace Value

theorem plain_of_record {value : Value} {hex : String} (h : value.record? = some hex) :
    value.plain = hex := by
  cases value <;> simp_all [record?, plain]

/-- A value that names a record made from nothing agrees with itself. -/
theorem same_self {value : Value} {n : Nat} (h : value.record? = some (Supply.hexText n)) :
    value.same value = true := by
  have hplain := plain_of_record h
  cases value with
  | null => rfl
  | bool b => cases b <;> rfl
  | int n => simp [same, isBool, equal, equalNumbers, numeric?, Numeric.equal]
  | float x =>
    have hnan (mark : Nat) : x ≠ .nan mark := by
      rintro rfl
      have hlength := congrArg (fun s => s.toList.length) hplain
      simp [Supply.hexText, Text.length_hexDigits, plain, shown, Binary64.text] at hlength
    simp [same, isBool, equal_self_float hnan]
  | text s => simp [same, isBool, equal]
  | ident id => simp [same, Ident.names]
  | list items =>
    refine absurd ?_ (Supply.not_mem_hexText (c := '[') (by decide) n)
    rw [← hplain]
    simp [plain, shown]
  | tuple items =>
    refine absurd ?_ (Supply.not_mem_hexText (c := '(') (by decide) n)
    rw [← hplain]
    simp only [plain, shown]
    split <;> simp
  | record fields =>
    refine absurd ?_ (Supply.not_mem_hexText (c := '\x7b') (by decide) n)
    rw [← hplain]
    simp [plain, shown]

end Value

end Synchrony
