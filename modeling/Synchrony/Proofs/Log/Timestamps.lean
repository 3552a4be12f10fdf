import Synchrony.Proofs.Log.Calendar

/-!
# Timestamps are read back

A timestamp is read by its places: a date that there is, a time of day, microseconds if any are
written, and no distance from universal time (`Timestamp.read?`). What is read is the seconds and
microseconds that were written (`Timestamp.read?_stamp`).

These tell the moment (`Timestamp.Tells`): whole seconds exactly, and fractions of them to the
nearest microsecond. The fraction is multiplied by a million in floating point before it is rounded,
so the nearest microsecond may be missed by what that multiplication is off, which is less than
2^-33 of one.

Every moment from the beginning of the year 1 to the end of the year 9999 has a timestamp
(`Timestamp.exists_stamp`).
-/

set_option autoImplicit false

namespace Synchrony.Timestamp

variable {rest : List Char} {seconds : Int} {micros : Nat}

/-! ## Reading -/

/-- A number of so many digits, and the rest. -/
def number? (count : Nat) (s : List Char) : Option (Nat × List Char) :=
  if (s.take count).length = count ∧ (s.take count).all Decimal.isDigit then
    some (Decimal.ofDigits (s.take count), s.drop count)
  else none

/-- What is behind a character. -/
def behind? (c : Char) : List Char → Option (List Char)
  | [] => none
  | d :: s => if d = c then some s else none

/-- A date that there is, by its number. -/
def date? (s : List Char) : Option (Int × List Char) := do
  let (year, s) ← number? 4 s
  let s ← behind? '-' s
  let (month, s) ← number? 2 s
  let s ← behind? '-' s
  let (day, s) ← number? 2 s
  let date : Date := ⟨year, month, day⟩
  if date.Valid then some (date.number, s) else none

/-- A time of day in seconds. -/
def time? (s : List Char) : Option (Nat × List Char) := do
  let (hour, s) ← number? 2 s
  let s ← behind? ':' s
  let (minute, s) ← number? 2 s
  let s ← behind? ':' s
  let (second, s) ← number? 2 s
  if hour < 24 ∧ minute < 60 ∧ second < 60 then some (3600 * hour + 60 * minute + second, s)
  else none

/-- Microseconds behind a point. Where there is no point there are none. -/
def micros? : List Char → Option (Nat × List Char)
  | '.' :: s => number? 6 s
  | s => some (0, s)

/-- The seconds and microseconds of a timestamp. -/
def read? (s : List Char) : Option (Int × Nat) := do
  let (day, s) ← date? s
  let s ← behind? 'T' s
  let (second, s) ← time? s
  let (micros, s) ← micros? s
  if s = "+00:00".toList then some (86400 * day + second, micros) else none

/-! ## Reading what was written -/

theorem number?_padded {count n : Nat} (h : n < tenTo (count + 1)) (rest : List Char) :
    number? (count + 1) ((padded (count + 1) n).toList ++ rest) = some (n, rest) := by
  have hlength := Decimal.length_digits_le h
  have hpadded : (padded (count + 1) n).toList =
      List.replicate (count + 1 - (Decimal.digits n).length) '0' ++ Decimal.digits n := by
    rw [padded, String.toList_ofList]
  have hwidth : (padded (count + 1) n).toList.length = count + 1 := by
    rw [hpadded, List.length_append, List.length_replicate]
    omega
  have hdigits : (padded (count + 1) n).toList.all Decimal.isDigit = true := by
    rw [List.all_eq_true]
    intro c hc
    rw [hpadded, List.mem_append] at hc
    rcases hc with hzero | hdigit
    · rw [List.eq_of_mem_replicate hzero]
      rfl
    · exact Decimal.isDigit_of_mem_digits hdigit
  have hvalue : Decimal.ofDigits (padded (count + 1) n).toList = n := by
    rw [hpadded, Decimal.ofDigits_zeros, Decimal.ofDigits_digits]
  unfold number?
  rw [List.take_left' hwidth, List.drop_left' hwidth, if_pos ⟨hwidth, hdigits⟩, hvalue]

@[simp] theorem behind?_cons (c : Char) (s : List Char) : behind? c (c :: s) = some s :=
  if_pos rfl

theorem date?_written {date : Date} (hvalid : date.Valid) (hfirst : 1 ≤ date.year)
    (hlast : date.year ≤ 9999) (rest : List Char) :
    date? ((padded 4 date.year.toNat).toList ++ '-' :: ((padded 2 date.month).toList ++
      '-' :: ((padded 2 date.day).toList ++ rest))) = some (date.number, rest) := by
  have hyear : date.year.toNat < tenTo 4 := by
    have hpow : tenTo 4 = 10000 := rfl
    omega
  have hmonth : date.month < tenTo 2 := by
    have hpow : tenTo 2 = 100 := rfl
    have hmonths := hvalid.1.2
    omega
  have hday : date.day < tenTo 2 := by
    have hpow : tenTo 2 = 100 := rfl
    have hdays := hvalid.day_le
    omega
  have hsame : (⟨(date.year.toNat : Nat), date.month, date.day⟩ : Date) = date := by
    obtain ⟨year, month, day⟩ := date
    simp only [Date.mk.injEq, and_true]
    exact Int.toNat_of_nonneg (Int.le_trans (by decide) hfirst)
  simp only [date?, number?_padded hyear, number?_padded hmonth, number?_padded hday,
    behind?_cons, Option.bind_eq_bind, Option.bind_some, hsame]
  rw [if_pos hvalid]

theorem time?_written {second : Nat} (h : second < 86400) (rest : List Char) :
    time? ((padded 2 (second / 3600)).toList ++ ':' :: ((padded 2 (second / 60 % 60)).toList ++
      ':' :: ((padded 2 (second % 60)).toList ++ rest))) = some (second, rest) := by
  have hpow : tenTo 2 = 100 := rfl
  have hhour : second / 3600 < tenTo 2 := by omega
  have hminute : second / 60 % 60 < tenTo 2 := by omega
  have hsecond : second % 60 < tenTo 2 := by omega
  have hsum : 3600 * (second / 3600) + 60 * (second / 60 % 60) + second % 60 = second := by omega
  simp only [time?, number?_padded hhour, number?_padded hminute, number?_padded hsecond,
    behind?_cons, Option.bind_eq_bind, Option.bind_some, hsum]
  rw [if_pos (by omega)]

theorem micros?_written (h : micros < 1000000) (rest : List Char) :
    micros? ((if micros = 0 then "" else "." ++ padded 6 micros).toList ++ '+' :: rest) =
      some (micros, '+' :: rest) := by
  by_cases hnone : micros = 0
  · rw [if_pos hnone, hnone]
    rfl
  · have hsix : micros < tenTo 6 := h
    rw [if_neg hnone, String.toList_append, List.append_assoc]
    exact number?_padded hsix ('+' :: rest)

/-- What is written for a moment in whole seconds. -/
theorem text_cases {separator front : String} (h : text seconds separator = .ok front) :
    1 ≤ (civil (seconds / 86400)).year ∧ (civil (seconds / 86400)).year ≤ 9999 ∧
    front.toList = (padded 4 (civil (seconds / 86400)).year.toNat).toList ++
      '-' :: ((padded 2 (civil (seconds / 86400)).month).toList ++
      '-' :: ((padded 2 (civil (seconds / 86400)).day).toList ++ (separator.toList ++
      ((padded 2 ((seconds % 86400).toNat / 3600)).toList ++
      ':' :: ((padded 2 ((seconds % 86400).toNat / 60 % 60)).toList ++
      ':' :: (padded 2 ((seconds % 86400).toNat % 60)).toList))))) := by
  unfold text at h
  rw [Int.fdiv_eq_ediv_of_nonneg _ (by decide), Int.fmod_eq_emod_of_nonneg _ (by decide)] at h
  split at h
  · cases h
  simp only at h
  split at h
  · cases h
  split at h
  · cases h
  · rename_i hyears
    simp only [Bool.or_eq_true, decide_eq_true_eq, not_or] at hyears
    cases h
    refine ⟨by omega, by omega, ?_⟩
    simp only [String.toList_append, List.append_assoc]
    rfl

/-! ## What the parts of a moment tell -/

/-- Seconds and microseconds tell a moment. Twice the distance of the two, in units of 2^-1074
millionths of a second, is no more than a microsecond and 2^-33 of one. -/
inductive Tells : Numeric → Int → Nat → Prop
  | int (n : Int) : Tells (.int n) n 0
  | float {negative : Bool} {units : Nat} {seconds : Int} {micros : Nat}
    (fraction : micros < 1000000)
    (near : 2 * ((seconds * 1000000 + micros) * Binary64.unitsPerOne -
      1000000 * Binary64.signedUnits negative units).natAbs ≤
        Binary64.unitsPerOne + twoTo 1041) :
    Tells (.float (.finite negative units)) seconds micros

theorem Tells.fraction_lt {moment : Numeric} (h : Tells moment seconds micros) :
    micros < 1000000 := by
  cases h with
  | int n => decide
  | float fraction near => exact fraction

/-- The fraction of a second in microseconds. -/
theorem micros_near (negative : Bool) {units : Nat} (h : units < Binary64.unitsPerOne) :
    ∃ scaled micros, Binary64.nearest negative (units * 1000000) 1 = .finite negative scaled ∧
      Binary64.divideToEven scaled Binary64.unitsPerOne = micros ∧
      2 * (1000000 * units) ≤ 2 * (micros * Binary64.unitsPerOne) +
        (Binary64.unitsPerOne + twoTo 1041) ∧
      2 * (micros * Binary64.unitsPerOne) ≤ 2 * (1000000 * units) +
        (Binary64.unitsPerOne + twoTo 1041) := by
  have hbits : units * 1000000 < twoTo 1094 := by
    have htwenty : twoTo 20 = 1048576 := rfl
    rw [show 1094 = 1074 + 20 from rfl, twoTo_add, htwenty]
    unfold Binary64.unitsPerOne at h
    omega
  have hpositive : 0 < Binary64.unitsPerOne := twoTo_pos 1074
  obtain ⟨scaled, hscaled, hbelow, habove⟩ :=
    Binary64.nearest_near negative hbits (by decide) (by decide)
  obtain ⟨hbelow', habove'⟩ := Binary64.divideToEven_near scaled hpositive
  rw [show 1094 - 53 = 1041 from rfl] at hbelow habove
  exact ⟨scaled, _, hscaled, rfl, by omega, by omega⟩

theorem split_tells (negative : Bool) (units : Nat) :
    Tells (.float (.finite negative units)) (split negative units).1 (split negative units).2 := by
  have hpositive : 0 < Binary64.unitsPerOne := twoTo_pos 1074
  obtain ⟨scaled, micros, hscaled, hmicros, hbelow, habove⟩ :=
    micros_near negative (Nat.mod_lt units hpositive)
  have hunits := Nat.div_add_mod units Binary64.unitsPerOne
  simp only [split, hscaled, hmicros, ← Int.natCast_ediv]
  rw [Int.fdiv_eq_ediv_of_nonneg _ (by decide), Int.fmod_eq_emod_of_nonneg _ (by decide)]
  generalize units / Binary64.unitsPerOne = whole at hunits ⊢
  generalize units % Binary64.unitsPerOne = fraction at hunits hbelow habove
  -- The whole seconds are told exactly, so what is missed is missed in the fraction.
  have hfraction : ((whole : Int) * 1000000 + micros) * Binary64.unitsPerOne - 1000000 * units =
      (micros * Binary64.unitsPerOne : Nat) - 1000000 * fraction := by
    rw [← hunits]
    push_cast
    ring
  have hjoin (total : Int) :
      total / 1000000 * 1000000 + ((total % 1000000).toNat : Int) = total := by
    omega
  refine .float (by omega) ?_
  rw [hjoin]
  cases negative with
  | false =>
    simp only [Binary64.signedUnits, Bool.false_eq_true, if_false, hfraction]
    omega
  | true =>
    have hnegative :
        -((whole : Int) * 1000000 + micros) * Binary64.unitsPerOne - 1000000 * -(units : Int) =
          -((micros * Binary64.unitsPerOne : Nat) - 1000000 * fraction) := by
      rw [← hfraction]
      ring
    simp only [Binary64.signedUnits, if_true, hnegative]
    omega

theorem parts_tells {moment : Numeric} (h : parts moment = .ok (seconds, micros)) :
    Tells moment seconds micros := by
  unfold parts at h
  split at h
  next =>
    cases h
    exact .int _
  next => cases h
  next => cases h
  next negative units =>
    have htells := split_tells negative units
    rw [Except.ok.inj h] at htells
    exact htells

/-- **What is read is what was written.** -/
theorem read?_stamp {moment : Numeric} {written : String}
    (hparts : parts moment = .ok (seconds, micros)) (hstamp : stamp moment = .ok written) :
    read? written.toList = some (seconds, micros) := by
  have hfraction := (parts_tells hparts).fraction_lt
  cases htext : text seconds "T" with
  | error e =>
    simp only [stamp, hparts, htext, bind, Except.bind] at hstamp
    cases hstamp
  | ok front =>
    simp only [stamp, hparts, htext, bind, Except.bind, pure, Except.pure] at hstamp
    cases hstamp
    obtain ⟨hfirst, hlast, hfront⟩ := text_cases htext
    have hsecond : (seconds % 86400).toNat < 86400 := by omega
    have hseconds : 86400 * (seconds / 86400) + ((seconds % 86400).toNat : Int) = seconds := by
      omega
    have hzone : "+00:00".toList = '+' :: "00:00".toList := rfl
    have hmark : "T".toList = ['T'] := rfl
    simp only [read?, String.toList_append, hfront, List.append_assoc, List.cons_append, hmark,
      List.nil_append, date?_written (valid_civil _) hfirst hlast, number_civil, behind?_cons,
      time?_written hsecond, hzone, micros?_written hfraction, Option.bind_eq_bind,
      Option.bind_some, hseconds, if_true]

/-! ## Moments in the calendar -/

/-- The moment is in one of the years 1 to 9999, to the microsecond. The bounds are the first seconds
of the years 1 and 10000. -/
def InCalendar (moment : Numeric) : Prop :=
  (∃ seconds micros, Tells moment seconds micros) ∧
    ∀ seconds micros, Tells moment seconds micros →
      -62135596800 ≤ seconds ∧ seconds < 253402300800

theorem InCalendar.exists_parts {moment : Numeric} (h : InCalendar moment) :
    ∃ seconds micros, parts moment = .ok (seconds, micros) ∧
      -62135596800 ≤ seconds ∧ seconds < 253402300800 := by
  obtain ⟨⟨_, _, htells⟩, hbounds⟩ := h
  have hparts : ∃ seconds micros, parts moment = .ok (seconds, micros) := by
    cases htells with
    | int => exact ⟨_, _, rfl⟩
    | float => exact ⟨_, _, rfl⟩
  obtain ⟨seconds, micros, hparts⟩ := hparts
  exact ⟨seconds, micros, hparts, hbounds _ _ (parts_tells hparts)⟩

/-- Of the year 9999 it is enough to leave out the last microsecond, in which there is no floating
point number. -/
theorem inCalendar_float {negative : Bool} {units : Nat}
    (hfirst : -62135596800 * (Binary64.unitsPerOne : Int) ≤ Binary64.signedUnits negative units)
    (hlast : 1000000 * Binary64.signedUnits negative units + Binary64.unitsPerOne ≤
      253402300800000000 * Binary64.unitsPerOne) :
    InCalendar (.float (.finite negative units)) := by
  refine ⟨⟨_, _, split_tells negative units⟩, ?_⟩
  intro seconds micros htells
  have hlittle : twoTo 1041 < Binary64.unitsPerOne := twoTo_lt (by decide)
  cases htells with
  | float fraction near =>
    generalize Binary64.signedUnits negative units = value at hfirst hlast near
    generalize Binary64.unitsPerOne = one at hfirst hlast near hlittle
    generalize twoTo 1041 = little at near hlittle
    constructor
    · by_contra hbefore
      have htotal : seconds * 1000000 + micros + 1 ≤ -62135596800000000 := by omega
      have hmul := Int.mul_le_mul_of_nonneg_right htotal (Int.natCast_nonneg one)
      rw [Int.add_mul, Int.one_mul] at hmul
      omega
    · by_contra hbehind
      have htotal : 253402300800000000 ≤ seconds * 1000000 + micros := by omega
      have hmul := Int.mul_le_mul_of_nonneg_right htotal (Int.natCast_nonneg one)
      omega

/-- Years are counted from March, so the first and the last of them are only there in part. -/
theorem civil_year {days : Int} (hfirst : -719162 ≤ days) (hlast : days ≤ 2932896) :
    1 ≤ (civil days).year ∧ (civil days).year ≤ 9999 := by
  simp only [civil]
  rw [Int.fdiv_eq_ediv_of_nonneg _ (by decide), Int.fmod_eq_emod_of_nonneg _ (by decide)]
  generalize hera : (days + 719468) / 146097 = era
  generalize hday : ((days + 719468) % 146097).toNat = dayOfEra
  generalize hyear : (dayOfEra - dayOfEra / 1460 + dayOfEra / 36524 - dayOfEra / 146096) / 365 =
    yearOfEra
  generalize hrest : dayOfEra - (365 * yearOfEra + yearOfEra / 4 - yearOfEra / 100) = dayOfYear
  have hera : 0 ≤ era ∧ era ≤ 24 := by omega
  have hyear : yearOfEra ≤ 399 := by omega
  constructor
  · by_cases h : era = 0 ∧ yearOfEra = 0
    · -- Of the year that began in March of the year 0 there are January and February.
      obtain ⟨rfl, rfl⟩ := h
      have hday : 306 ≤ dayOfEra := by omega
      split <;> split <;> omega
    · split <;> split <;> omega
  · by_cases h : era = 24 ∧ yearOfEra = 399
    · -- Of the year that began in March of the year 9999 these two are missing.
      obtain ⟨rfl, rfl⟩ := h
      have hday : dayOfEra ≤ 146036 := by omega
      split <;> split <;> omega
    · split <;> split <;> omega

theorem exists_text (hfirst : -62135596800 ≤ seconds)
    (hlast : seconds < 253402300800) (separator : String) :
    ∃ front, text seconds separator = .ok front := by
  have hdays : -719162 ≤ seconds / 86400 ∧ seconds / 86400 ≤ 2932896 := by omega
  obtain ⟨hleast, hmost⟩ := civil_year hdays.1 hdays.2
  have hword : fitsWord 64 seconds = true := by
    have h63 : ((twoTo (64 - 1) : Nat) : Int) = 9223372036854775808 := rfl
    simp only [fitsWord, h63, Bool.and_eq_true, decide_eq_true_eq]
    omega
  have hyears : fitsWord 32 ((civil (seconds / 86400)).year - 1900) = true := by
    have h31 : ((twoTo (32 - 1) : Nat) : Int) = 2147483648 := rfl
    simp only [fitsWord, h31, Bool.and_eq_true, decide_eq_true_eq]
    omega
  have hrange : ((civil (seconds / 86400)).year < 1 || (civil (seconds / 86400)).year > 9999) =
      false := by
    simp only [Bool.or_eq_false_iff, decide_eq_false_iff_not]
    omega
  unfold text
  rw [Int.fdiv_eq_ediv_of_nonneg _ (by decide)]
  simp only [hword, hyears, hrange]
  exact ⟨_, rfl⟩

theorem exists_stamp {moment : Numeric} (h : InCalendar moment) :
    ∃ text, stamp moment = .ok text := by
  obtain ⟨seconds, micros, hparts, hfirst, hlast⟩ := h.exists_parts
  obtain ⟨front, hfront⟩ := exists_text hfirst hlast "T"
  simp only [stamp, hparts, hfront, bind, Except.bind]
  exact ⟨_, rfl⟩

end Synchrony.Timestamp
