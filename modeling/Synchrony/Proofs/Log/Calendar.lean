import Mathlib.Order.Monotone.Basic
import Mathlib.Tactic.Ring
import Synchrony.Log.Timestamp

/-!
# The calendar

A date is the right one for a day if the years, months and days before it add up to that day
(`Date.number`). The years are those of the Gregorian calendar, which is carried on before it was
introduced: every fourth year is a leap year, of the full centuries only every fourth.

Timestamps find the date by another way of counting, in which years begin with March and come in
eras of 400. This module shows that they find the right one, for days before 1970 as well
(`number_civil`), and that the month has that day (`valid_civil`).
-/

set_option autoImplicit false

namespace Synchrony.Timestamp

/-! ## Years and months -/

def isLeap (year : Int) : Bool :=
  year % 4 = 0 && (year % 100 ≠ 0 || year % 400 = 0)

/-- How many days there are from the beginning of the year 1 to the beginning of a year. -/
def daysBefore (year : Int) : Int :=
  365 * (year - 1) + (year - 1) / 4 - (year - 1) / 100 + (year - 1) / 400

/-- A leap year has a day more than others. -/
theorem daysBefore_succ (year : Int) :
    daysBefore (year + 1) = daysBefore year + 365 + (if isLeap year then 1 else 0) := by
  simp only [daysBefore, isLeap, Bool.and_eq_true, Bool.or_eq_true, decide_eq_true_eq]
  split <;> omega

/-- The lengths of the months of a leap year, or of another one. -/
def monthLengths (leap : Bool) : List Nat :=
  [31, if leap then 29 else 28, 31, 30, 31, 30, 31, 31, 30, 31, 30, 31]

namespace Date

/-- The number of a date: how many days it is behind the first of January 1970. -/
def number (date : Date) : Int :=
  daysBefore date.year + ((monthLengths (isLeap date.year)).take (date.month - 1)).sum +
    (date.day - 1) - daysBefore 1970

/-- There is such a month, and it has such a day. -/
def Valid (date : Date) : Prop :=
  (1 ≤ date.month ∧ date.month ≤ 12) ∧
    1 ≤ date.day ∧ date.day ≤ (monthLengths (isLeap date.year)).getD (date.month - 1) 0

instance (date : Date) : Decidable date.Valid :=
  inferInstanceAs (Decidable (_ ∧ _))

theorem Valid.day_le {date : Date} (h : date.Valid) : date.day ≤ 31 := by
  obtain ⟨⟨-, hlast⟩, -, hday⟩ := h
  have hlengths : ∀ leap, ∀ month ≤ 12, (monthLengths leap).getD (month - 1) 0 ≤ 31 := by decide
  exact Nat.le_trans hday (hlengths _ _ hlast)

end Date

/-! ## Years from March on -/

/-- The date of a day of the year that begins with the first of March of `year`. -/
def fromMarch (year : Int) (dayOfYear : Nat) : Date :=
  let monthFromMarch := (5 * dayOfYear + 2) / 153
  let month := if monthFromMarch < 10 then monthFromMarch + 3 else monthFromMarch - 9
  { year := year + (if month ≤ 2 then 1 else 0)
    month := month
    day := dayOfYear - (153 * monthFromMarch + 2) / 5 + 1 }

/-- The leap day is the last day of such a year. -/
def HasDay (year : Int) (dayOfYear : Nat) : Prop :=
  dayOfYear ≤ 364 ∨ dayOfYear = 365 ∧ isLeap (year + 1) = true

/-- The months from March to December begin and end where the formula says. -/
theorem months_from_march : ∀ leap, ∀ month ≤ 9,
    ((monthLengths leap).take (month + 2)).sum =
      (if leap then 60 else 59) + (153 * month + 2) / 5 ∧
    (153 * month + 2) / 5 + (monthLengths leap).getD (month + 2) 0 =
      (153 * (month + 1) + 2) / 5 := by
  decide

/-- From March to December there are 306 days. -/
theorem fromMarch_of_le {year : Int} {dayOfYear month : Nat}
    (hmonth : (5 * dayOfYear + 2) / 153 = month) (h : month ≤ 9) :
    (fromMarch year dayOfYear).number =
        daysBefore (year + 1) - 306 + dayOfYear - daysBefore 1970 ∧
      (fromMarch year dayOfYear).Valid := by
  have hsucc := daysBefore_succ year
  obtain ⟨hsum, hlength⟩ := months_from_march (isLeap year) month h
  have hdate : fromMarch year dayOfYear =
      ⟨year, month + 3, dayOfYear - (153 * month + 2) / 5 + 1⟩ := by
    have hbehind : ¬month + 3 ≤ 2 := by omega
    simp only [fromMarch, hmonth, if_pos (Nat.lt_succ_of_le h), if_neg hbehind, Int.add_zero]
  have hbefore : month + 3 - 1 = month + 2 := rfl
  simp only [hdate, Date.number, Date.Valid, hbefore, hsum]
  constructor
  · cases hleap : isLeap year
    all_goals
      rw [hleap] at hsucc
      simp only [Bool.false_eq_true, if_false, if_true] at hsucc ⊢
      omega
  · omega

/-- January and February belong to the next year, and whether that is a leap year matters. -/
theorem fromMarch_of_lt {year : Int} {dayOfYear month : Nat} (h : HasDay year dayOfYear)
    (hmonth : (5 * dayOfYear + 2) / 153 = month) (hlast : 9 < month) :
    (fromMarch year dayOfYear).number =
        daysBefore (year + 1) - 306 + dayOfYear - daysBefore 1970 ∧
      (fromMarch year dayOfYear).Valid := by
  unfold HasDay at h
  have hcases : month = 10 ∨ month = 11 := by omega
  rcases hcases with rfl | rfl
  · have hdate : fromMarch year dayOfYear = ⟨year + 1, 1, dayOfYear - 306 + 1⟩ := by
      simp only [fromMarch, hmonth]
      rfl
    have hlength : (monthLengths (isLeap (year + 1))).getD 0 0 = 31 := rfl
    simp only [hdate, Date.number, Date.Valid, Nat.sub_self, List.take_zero, List.sum_nil, hlength]
    omega
  · have hdate : fromMarch year dayOfYear = ⟨year + 1, 2, dayOfYear - 337 + 1⟩ := by
      simp only [fromMarch, hmonth]
      rfl
    have hsum : ((monthLengths (isLeap (year + 1))).take 1).sum = 31 := rfl
    have hlength : (monthLengths (isLeap (year + 1))).getD 1 0 =
        if isLeap (year + 1) then 29 else 28 := rfl
    have hbefore : 2 - 1 = 1 := rfl
    simp only [hdate, Date.number, Date.Valid, hbefore, hsum, hlength]
    constructor
    · omega
    · rcases h with hplain | ⟨hday, hleap⟩
      · split <;> omega
      · rw [if_pos hleap]
        omega

theorem fromMarch_date {year : Int} {dayOfYear : Nat} (h : HasDay year dayOfYear) :
    (fromMarch year dayOfYear).number =
        daysBefore (year + 1) - 306 + dayOfYear - daysBefore 1970 ∧
      (fromMarch year dayOfYear).Valid := by
  rcases Nat.lt_or_ge 9 ((5 * dayOfYear + 2) / 153) with hlast | hmonth
  · exact fromMarch_of_lt h rfl hlast
  · exact fromMarch_of_le rfl hmonth

/-! ## Eras -/

/-- The number of the day of an era with which a year of it begins. -/
def yearStart (year : Nat) : Nat :=
  365 * year + year / 4 - year / 100

/-- The number of a day if leap days do not count, give or take the one at the end of a year. -/
def plainDay (day : Nat) : Nat :=
  day - day / 1460 + day / 36524 - day / 146096

theorem plainDay_mono : Monotone plainDay := by
  apply monotone_nat_of_le_succ
  intro day
  unfold plainDay
  omega

/-- Counted in that way each of the 400 years has 365 days. -/
theorem plainDay_yearStart : ∀ year ≤ 399, 365 * year ≤ plainDay (yearStart year) ∧
    (0 < year → plainDay (yearStart year - 1) < 365 * year) := by
  decide +kernel

theorem yearStart_of_day {day year : Nat} (hday : day ≤ 146096) (h : plainDay day / 365 = year) :
    year ≤ 399 ∧ yearStart year ≤ day ∧ (year < 399 → day < yearStart (year + 1)) := by
  have hyear : year ≤ 399 := by
    unfold plainDay at h
    omega
  refine ⟨hyear, ?_, ?_⟩
  · by_contra hbefore
    have hpositive : 0 < year := by
      rcases Nat.eq_zero_or_pos year with rfl | hpositive
      · exact absurd (Nat.zero_le day) hbefore
      · exact hpositive
    have hmono := plainDay_mono (show day ≤ yearStart year - 1 by omega)
    have hlast := (plainDay_yearStart year hyear).2 hpositive
    omega
  · intro hlast
    by_contra hbehind
    have hmono := plainDay_mono (show yearStart (year + 1) ≤ day by omega)
    have hfirst := (plainDay_yearStart (year + 1) hlast).1
    omega

theorem daysBefore_era (era : Int) {year : Nat} (h : year ≤ 399) :
    daysBefore (year + era * 400 + 1) = 146097 * era + yearStart year := by
  unfold daysBefore yearStart
  omega

theorem isLeap_era (era year : Int) : isLeap (year + era * 400) = isLeap year := by
  have hfour : (year + era * 400) % 4 = year % 4 := by omega
  have hcentury : (year + era * 400) % 100 = year % 100 := by omega
  have hera : (year + era * 400) % 400 = year % 400 := by omega
  simp only [isLeap, hfour, hcentury, hera]

theorem hasDay_era (era : Int) {year dayOfYear : Nat} (h : year ≤ 399)
    (hnext : year < 399 → yearStart year + dayOfYear < yearStart (year + 1))
    (hlast : yearStart year + dayOfYear ≤ 146096) : HasDay (year + era * 400) dayOfYear := by
  have hyear : (year : Int) + era * 400 + 1 = year + 1 + era * 400 := by ring
  simp only [HasDay, hyear, isLeap_era]
  simp only [isLeap, Bool.and_eq_true, Bool.or_eq_true, decide_eq_true_eq]
  unfold yearStart at hnext hlast
  have hfour : (year + 1) / 4 = year / 4 ∨ (year + 1) % 4 = 0 := by omega
  have hcentury : (year + 1) / 100 = year / 100 ∨
      (year + 1) / 100 = year / 100 + 1 ∧ (year + 1) % 100 = 0 := by omega
  have hstep : (year + 1) / 4 ≤ year / 4 + 1 := by omega
  by_cases hend : year = 399
  · subst hend
    omega
  · have hnext := hnext (by omega)
    omega

/-! ## Dates -/

/-- A day is a day of a year that begins with March. -/
theorem civil_cases (days : Int) : ∃ year dayOfYear, civil days = fromMarch year dayOfYear ∧
    HasDay year dayOfYear ∧
    days = daysBefore (year + 1) - 306 + dayOfYear - daysBefore 1970 := by
  have hepoch : daysBefore 1970 = 719162 := rfl
  simp only [civil]
  rw [Int.fdiv_eq_ediv_of_nonneg _ (by decide), Int.fmod_eq_emod_of_nonneg _ (by decide), hepoch]
  generalize hera : (days + 719468) / 146097 = era
  generalize hday : ((days + 719468) % 146097).toNat = dayOfEra
  have hdays : days = 146097 * era + dayOfEra - 719468 ∧ dayOfEra ≤ 146096 := by omega
  generalize hyear : (dayOfEra - dayOfEra / 1460 + dayOfEra / 36524 - dayOfEra / 146096) / 365 =
    year
  obtain ⟨hyears, hstart, hnext⟩ := yearStart_of_day hdays.2 hyear
  refine ⟨year + era * 400, dayOfEra - yearStart year, rfl, ?_, ?_⟩
  · apply hasDay_era era hyears
    · intro hlast
      have hbefore := hnext hlast
      omega
    · omega
  · rw [daysBefore_era era hyears]
    omega

/-- **The date of a day is the right one.** -/
theorem number_civil (days : Int) : (civil days).number = days := by
  obtain ⟨year, dayOfYear, hcivil, hday, hdays⟩ := civil_cases days
  rw [hcivil, (fromMarch_date hday).1, ← hdays]

/-- The month of a date has its day. -/
theorem valid_civil (days : Int) : (civil days).Valid := by
  obtain ⟨year, dayOfYear, hcivil, hday, -⟩ := civil_cases days
  rw [hcivil]
  exact (fromMarch_date hday).2

/-- The last day of February 2000, which is a leap year although it is a full century. -/
example : civil 11016 = ⟨2000, 2, 29⟩ := by decide

end Synchrony.Timestamp
