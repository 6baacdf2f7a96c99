import Mathlib.Data.List.Defs
import Mathlib.Tactic.IntervalCases

/-! The Gregorian calendar, extended to every year before and after its introduction.
Days are counted from 1 January 1970. -/

namespace Philo

def isLeapYear (year : Int) : Bool :=
  year % 400 == 0 || (year % 4 == 0 && year % 100 != 0)

def monthLengths (year : Int) : List Nat :=
  [31, if isLeapYear year then 29 else 28, 31, 30, 31, 30, 31, 31, 30, 31, 30, 31]

/-- How many of the years 1 to `year` are leap years, less those of `year + 1` to 0. -/
def leapYearsUntil (year : Int) : Int := year / 4 - year / 100 + year / 400

theorem leapYearsUntil_eq (year : Int) :
    leapYearsUntil year = leapYearsUntil (year - 1) + if isLeapYear year then 1 else 0 := by
  unfold leapYearsUntil isLeapYear
  by_cases leap : year % 400 = 0 ∨ year % 4 = 0 ∧ year % 100 ≠ 0
  · rw [if_pos (by simpa using leap)]
    omega
  · rw [if_neg (by simpa using leap)]
    omega

structure CivilDate where
  year : Int
  month : Nat
  day : Nat
  deriving DecidableEq

namespace CivilDate

def monthLength (date : CivilDate) : Nat := (monthLengths date.year).getD (date.month - 1) 0

structure Valid (date : CivilDate) : Prop where
  month : 1 ≤ date.month ∧ date.month ≤ 12
  day : 1 ≤ date.day ∧ date.day ≤ date.monthLength

theorem Valid.day_le {date : CivilDate} (valid : date.Valid) : date.day ≤ 31 := by
  refine valid.day.2.trans ?_
  rcases date with ⟨year, month, day⟩
  rcases valid with ⟨⟨one, twelve⟩, _⟩
  simp only at one twelve
  cases isLeap : isLeapYear year <;> interval_cases month <;>
    simp [monthLength, monthLengths, isLeap]

def tomorrow (date : CivilDate) : CivilDate :=
  if date.day < date.monthLength then { date with day := date.day + 1 }
  else if date.month < 12 then ⟨date.year, date.month + 1, 1⟩
  else ⟨date.year + 1, 1, 1⟩

/-- The days of the years, of the months and of the month before the date; 1 January of
the year 1 is day -719162. -/
def dayNumber (date : CivilDate) : Int :=
  365 * (date.year - 1) + leapYearsUntil (date.year - 1) +
    ((monthLengths date.year).take (date.month - 1)).sum + date.day - 719163

theorem dayNumber_epoch : dayNumber ⟨1970, 1, 1⟩ = 0 := by decide

/-- With `dayNumber_epoch`, this is what makes the numbers those of the calendar. -/
theorem dayNumber_tomorrow {date : CivilDate} (valid : date.Valid) :
    date.tomorrow.dayNumber = date.dayNumber + 1 := by
  rcases date with ⟨year, month, day⟩
  rcases valid with ⟨⟨one, twelve⟩, _, inMonth⟩
  simp only at one twelve inMonth
  unfold tomorrow
  split
  · simp only [dayNumber]
    omega
  · next last =>
      have isLast : day = monthLength ⟨year, month, day⟩ := by
        simp only at last
        omega
      have leap := leapYearsUntil_eq year
      rw [isLast]
      cases isLeap : isLeapYear year <;> interval_cases month <;>
        simp [dayNumber, monthLength, monthLengths, isLeap] at leap ⊢ <;> omega

/-- The number of a date in years that begin in March, so that the leap day comes last. -/
theorem dayNumber_fromMarch {date : CivilDate} (valid : date.Valid) {year month : Int}
    (isYear : year = date.year - if date.month ≤ 2 then 1 else 0)
    (isMonth : month = date.month + if 2 < date.month then -3 else 9) :
    date.dayNumber =
      365 * year + leapYearsUntil year + ((153 * month + 2) / 5 + date.day - 1) - 719468 := by
  rcases date with ⟨civilYear, civilMonth, day⟩
  rcases valid with ⟨⟨one, twelve⟩, _⟩
  have leap := leapYearsUntil_eq civilYear
  simp only at one twelve isYear isMonth
  subst isYear isMonth
  cases isLeap : isLeapYear civilYear <;> interval_cases civilMonth <;>
    simp [dayNumber, monthLengths, isLeap] at leap ⊢ <;> omega

end CivilDate

end Philo
