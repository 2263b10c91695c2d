/-
The proleptic Gregorian calendar over days since 1970-01-01, by the formulas of ECMAScript. Months count from 0, days of
a month from 1.
-/
import Mathlib.Tactic

namespace Calendar

/-- `DayFromYear`: the first day of a year. -/
def dayFromYear (y : Int) : Int := 365 * (y - 1970) + (y - 1969) / 4 - (y - 1901) / 100 + (y - 1601) / 400

/-- The years with a 29 February. -/
def isLeap (y : Int) : Bool := y % 4 = 0 && (y % 100 ≠ 0 || y % 400 = 0)

/-- `InLeapYear`. -/
def leapDays (y : Int) : Int := if isLeap y then 1 else 0

/-- `YearFromTime`: the last year that has begun. Every 400 years have 146097 days, so the guess is at most two years
late. -/
def yearFromDay (day : Int) : Int :=
  let guess := 400 * day / 146097 + 1971
  if dayFromYear guess ≤ day then guess
  else if dayFromYear (guess - 1) ≤ day then guess - 1
  else guess - 2

/-- The days of a year before one of its months. -/
def monthStart (y : Int) : Nat → Int
  | 0 => 0
  | 1 => 31
  | 2 => 59 + leapDays y
  | 3 => 90 + leapDays y
  | 4 => 120 + leapDays y
  | 5 => 151 + leapDays y
  | 6 => 181 + leapDays y
  | 7 => 212 + leapDays y
  | 8 => 243 + leapDays y
  | 9 => 273 + leapDays y
  | 10 => 304 + leapDays y
  | 11 => 334 + leapDays y
  | _ => 365 + leapDays y

/-- `DayWithinYear`. -/
def dayWithinYear (day : Int) : Int := day - dayFromYear (yearFromDay day)

/-- `MonthFromTime`: the last month that has begun. -/
def monthFromDay (day : Int) : Nat := Nat.findGreatest (fun m => monthStart (yearFromDay day) m ≤ dayWithinYear day) 11

/-- `DateFromTime`. -/
def dateFromDay (day : Int) : Int := dayWithinYear day - monthStart (yearFromDay day) (monthFromDay day) + 1

/-- `MakeDay`: months outside of the year lie in the years before and after. -/
def makeDay (y m date : Int) : Int := dayFromYear (y + m / 12) + monthStart (y + m / 12) (m % 12).toNat + date - 1

/-- The days of a month. -/
def daysInMonth (y : Int) (m : Nat) : Int := monthStart y (m + 1) - monthStart y m

variable (y day : Int)

theorem leapDays_cases : leapDays y = 0 ∨ leapDays y = 1 := by
  unfold leapDays
  split
  · exact Or.inr rfl
  · exact Or.inl rfl

/-- A year has 365 days, or 366 if it is a leap year. -/
theorem dayFromYear_succ : dayFromYear (y + 1) = dayFromYear y + 365 + leapDays y := by
  unfold dayFromYear leapDays isLeap
  by_cases h4 : y % 4 = 0 <;> by_cases h100 : y % 100 = 0 <;> by_cases h400 : y % 400 = 0 <;> simp [h4, h100, h400] <;> omega

/-- The year of a day has begun and has not ended. -/
theorem yearFromDay_spec : dayFromYear (yearFromDay day) ≤ day ∧ day < dayFromYear (yearFromDay day + 1) := by
  have hguess : dayFromYear (400 * day / 146097 + 1971 - 2) ≤ day ∧ day < dayFromYear (400 * day / 146097 + 1971 + 1) := by
    unfold dayFromYear
    omega
  unfold yearFromDay
  dsimp only
  split
  · rename_i h
    exact ⟨h, hguess.2⟩
  · rename_i h
    split
    · rename_i h'
      refine ⟨h', ?_⟩
      rw [Int.sub_add_cancel]
      omega
    · rename_i h'
      refine ⟨hguess.1, ?_⟩
      rw [show 400 * day / 146097 + 1971 - 2 + 1 = 400 * day / 146097 + 1971 - 1 by omega]
      omega

theorem dayFromYear_mono {y y' : Int} (h : y ≤ y') : dayFromYear y ≤ dayFromYear y' := by
  unfold dayFromYear
  omega

theorem yearFromDay_mono {day day' : Int} (h : day ≤ day') : yearFromDay day ≤ yearFromDay day' := by
  by_contra hlt
  have hmono := dayFromYear_mono (show yearFromDay day' + 1 ≤ yearFromDay day by omega)
  have hlow := (yearFromDay_spec day).1
  have hhigh := (yearFromDay_spec day').2
  omega

theorem dayWithinYear_bounds : 0 ≤ dayWithinYear day ∧ dayWithinYear day < monthStart (yearFromDay day) 12 := by
  obtain ⟨hlow, hhigh⟩ := yearFromDay_spec day
  rw [dayFromYear_succ] at hhigh
  have hyear : monthStart (yearFromDay day) 12 = 365 + leapDays (yearFromDay day) := rfl
  unfold dayWithinYear
  omega

theorem monthFromDay_le : monthFromDay day ≤ 11 := Nat.findGreatest_le 11

/-- The month of a day has begun and has not ended. -/
theorem monthFromDay_spec : monthStart (yearFromDay day) (monthFromDay day) ≤ dayWithinYear day ∧
    dayWithinYear day < monthStart (yearFromDay day) (monthFromDay day + 1) := by
  obtain ⟨hlow, hhigh⟩ := dayWithinYear_bounds day
  constructor
  · exact Nat.findGreatest_spec (P := fun m => monthStart (yearFromDay day) m ≤ dayWithinYear day) (Nat.zero_le 11) hlow
  · rcases Nat.lt_or_eq_of_le (monthFromDay_le day) with hlt | heq
    · have hnot := Nat.findGreatest_is_greatest (P := fun m => monthStart (yearFromDay day) m ≤ dayWithinYear day)
        (Nat.lt_succ_self (monthFromDay day)) hlt
      exact Int.not_le.1 hnot
    · rw [heq]
      exact hhigh

/-- A day of a month. -/
theorem dateFromDay_bounds : 1 ≤ dateFromDay day ∧ dateFromDay day ≤ daysInMonth (yearFromDay day) (monthFromDay day) := by
  obtain ⟨hlow, hhigh⟩ := monthFromDay_spec day
  unfold dateFromDay daysInMonth
  omega

theorem daysInMonth_le {m : Nat} (hm : m ≤ 11) : daysInMonth y m ≤ 31 := by
  have hleap := leapDays_cases y
  unfold daysInMonth
  interval_cases m <;> simp only [monthStart] <;> omega

/-- Days added to the date of a day are added to the day. -/
theorem makeDay_add (offset : Int) :
    makeDay (yearFromDay day) (monthFromDay day) (dateFromDay day + offset) = day + offset := by
  have hmonth := monthFromDay_le day
  unfold makeDay
  rw [show (monthFromDay day : Int) / 12 = 0 by omega, show ((monthFromDay day : Int) % 12).toNat = monthFromDay day by omega,
    Int.add_zero]
  unfold dateFromDay dayWithinYear
  omega

theorem makeDay_self : makeDay (yearFromDay day) (monthFromDay day) (dateFromDay day) = day := by
  have h := makeDay_add day 0
  rwa [Int.add_zero, Int.add_zero] at h

end Calendar
