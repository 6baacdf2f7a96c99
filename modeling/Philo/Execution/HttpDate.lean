import Philo.Domain.LlmError
import Philo.Foundation.Calendar

/-! The date form of `Retry-After`, read with the arithmetic of a build that checks
for overflow. -/

namespace Philo

open Result

namespace Text

def isAsciiWhitespace (character : Char) : Bool :=
  [' ', '\t', '\n', '\r', '\x0C'].contains character

def splitAsciiWhitespace (text : String) : List String :=
  ((text.toList.splitOnP isAsciiWhitespace).filter (· ≠ [])).map String.ofList

def split (text : String) (separator : Char) : List String :=
  (text.toList.splitOn separator).map String.ofList

def decimal (digits : List Char) : Option Nat :=
  if digits ≠ [] ∧ digits.all Char.isDigit = true then
    some (digits.foldl (fun value digit => 10 * value + (digit.toNat - '0'.toNat)) 0)
  else none

def parseUnsigned (bits : Nat) (text : String) : Option Nat :=
  (match text.toList with
    | '+' :: digits => decimal digits
    | digits => decimal digits).filter (· < 2 ^ bits)

def parseI32 (text : String) : Option Int :=
  match text.toList with
  | '-' :: digits => ((decimal digits).filter (· ≤ 2 ^ 31)).map fun size : Nat => -(size : Int)
  | _ => (parseUnsigned 31 text).map fun size : Nat => (size : Int)

theorem isI32_of_parseI32 {text : String} {value : Int} (parsed : parseI32 text = some value) :
    -2 ^ 31 ≤ value ∧ value < 2 ^ 31 := by
  unfold parseI32 parseUnsigned at parsed
  split at parsed <;>
    rcases Option.map_eq_some_iff.mp parsed with ⟨size, filtered, rfl⟩ <;>
    have bound := (Option.filter_eq_some_iff.mp filtered).2 <;>
    simp only [decide_eq_true_eq] at bound <;> omega

end Text

/-! ## Checked arithmetic -/

/-- Why there is no date: a `None` of the source, or a failed overflow check. -/
inductive Halt where
  | absent
  | overflow
  deriving DecidableEq

def checkedI32 (value : Int) : Except Halt Int :=
  if -2 ^ 31 ≤ value ∧ value < 2 ^ 31 then .ok value else .error .overflow

def i32TryFrom (value : Nat) : Except Halt Int :=
  if value < 2 ^ 31 then .ok value else .error .absent

def checkedI64 (value : Int) : Option Int :=
  if -2 ^ 63 ≤ value ∧ value < 2 ^ 63 then some value else none

def daysInMonth (year : Int) : Nat → Option Nat
  | 1 | 3 | 5 | 7 | 8 | 10 | 12 => some 31
  | 4 | 6 | 9 | 11 => some 30
  | 2 => some (if year.tmod 400 = 0 ∨ year.tmod 4 = 0 ∧ year.tmod 100 ≠ 0 then 29 else 28)
  | _ => none

def monthNames : List String :=
  ["Jan", "Feb", "Mar", "Apr", "May", "Jun", "Jul", "Aug", "Sep", "Oct", "Nov", "Dec"]

def parseMonth (value : String) : Option Nat := (monthNames.idxOf? value).map (· + 1)

def daysFromCivil (year : Int) (month day : Nat) : Except Halt Int := do
  let adjustedYear ← checkedI32 (year - if month ≤ 2 then 1 else 0)
  let numerator ← checkedI32 (if 0 ≤ adjustedYear then adjustedYear else adjustedYear - 399)
  let era := numerator.tdiv 400
  let yearOfEra ← checkedI32 (adjustedYear - (← checkedI32 (era * 400)))
  let shiftedMonth ← checkedI32 ((← i32TryFrom month) + if 2 < month then -3 else 9)
  let months ← checkedI32 ((← checkedI32 (153 * shiftedMonth)) + 2)
  let dayOfYear ← checkedI32 ((← checkedI32 (months.tdiv 5 + (← i32TryFrom day))) - 1)
  let years ← checkedI32 ((← checkedI32 (yearOfEra * 365)) + yearOfEra.tdiv 4)
  let dayOfEra ← checkedI32 ((← checkedI32 (years - yearOfEra.tdiv 100)) + dayOfYear)
  checkedI32 ((← checkedI32 ((← checkedI32 (era * 146097)) + dayOfEra)) - 719468)

theorem checkedI32_eq_ok {value : Int} (fits : -2 ^ 31 ≤ value ∧ value < 2 ^ 31) :
    checkedI32 value = .ok value := if_pos fits

theorem checkedI32_eq_error {value : Int} (beyond : ¬ (-2 ^ 31 ≤ value ∧ value < 2 ^ 31)) :
    checkedI32 value = .error .overflow := if_neg beyond

/-- The division rounds down, also for the years before the first era. -/
theorem era_eq (year : Int) : (if 0 ≤ year then year else year - 399).tdiv 400 = year / 400 := by
  split
  · exact Int.tdiv_eq_ediv_of_nonneg ‹_›
  · have flipped : year - 399 = -(399 - year) := by omega
    rw [flipped, Int.neg_tdiv, Int.tdiv_eq_ediv_of_nonneg (by omega)]
    omega

def CivilDate.dayFits (date : CivilDate) : Bool :=
  -2 ^ 31 ≤ date.dayNumber ∧ date.dayNumber + 719468 < 2 ^ 31

/-- Only the last three operations, and the years before the first era, can overflow. -/
theorem daysFromCivil_eq {date : CivilDate} (valid : date.Valid)
    (isI32 : -2 ^ 31 ≤ date.year ∧ date.year < 2 ^ 31) :
    daysFromCivil date.year date.month date.day =
      if date.dayFits then .ok date.dayNumber else .error .overflow := by
  have dayLe := valid.day_le
  have monthLe := valid.month
  have dayPos := valid.day.1
  generalize isYear : date.year - (if date.month ≤ 2 then 1 else 0) = year
  generalize isMonth : (date.month : Int) + (if 2 < date.month then -3 else 9) = shifted
  have number := CivilDate.dayNumber_fromMarch valid isYear.symm isMonth.symm
  have months : 0 ≤ shifted ∧ shifted ≤ 11 := by
    rw [← isMonth]
    split <;> omega
  have yearLt : year < 2 ^ 31 := by
    rw [← isYear]
    split <;> omega
  unfold leapYearsUntil at number
  rw [daysFromCivil, isYear]
  simp only [CivilDate.dayFits, decide_eq_true_eq]
  by_cases inEra : -2 ^ 31 + 399 ≤ year
  · have numerator : checkedI32 (if 0 ≤ year then year else year - 399) =
        .ok (if 0 ≤ year then year else year - 399) := by
      apply checkedI32_eq_ok
      split <;> omega
    rw [checkedI32_eq_ok (by omega), ok_bind, numerator, ok_bind]
    simp (disch := omega) only [checkedI32_eq_ok, ok_bind, era_eq, i32TryFrom, if_pos, isMonth,
      Int.tdiv_eq_ediv_of_nonneg]
    generalize isDay : (153 * shifted + 2) / 5 + (date.day : Int) - 1 = dayOfYear
    generalize isEra : (year - year / 400 * 400) * 365 + (year - year / 400 * 400) / 4 -
      (year - year / 400 * 400) / 100 + dayOfYear = dayOfEra
    have total : date.dayNumber = year / 400 * 146097 + dayOfEra - 719468 := by omega
    rw [total]
    unfold checkedI32
    split
    · rw [ok_bind]
      split
      · exact if_congr (by omega) rfl rfl
      · exact (if_neg (by omega)).symm
    · exact (if_neg (by omega)).symm
  · refine Eq.trans ?_ (if_neg (by omega)).symm
    by_cases atLeast : -2 ^ 31 ≤ year
    · rw [checkedI32_eq_ok (by omega), ok_bind, if_neg (by omega),
        checkedI32_eq_error (by omega), error_bind]
    · rw [checkedI32_eq_error (by omega), error_bind]

/-- Nanoseconds from the Unix epoch on. -/
abbrev SystemTime := Int

/-- `SystemTime::checked_add`: the whole seconds are an `i64`. -/
def SystemTime.checkedAdd (time : SystemTime) (delay : Duration) : Option SystemTime :=
  let sum : Int := time + (delay : Nat)
  if sum / 1000000000 < 2 ^ 63 then some sum else none

def Duration.fromSecs (seconds : Nat) : Duration := seconds * 1000000000

/-! ## The language -/

structure Moment extends CivilDate where
  hour : Nat
  minute : Nat
  second : Nat

namespace Moment

structure Valid (moment : Moment) : Prop extends moment.toCivilDate.Valid where
  hour : moment.hour ≤ 23
  minute : moment.minute ≤ 59
  second : moment.second ≤ 59

def unixSeconds (moment : Moment) : Int :=
  moment.dayNumber * 86400 + (moment.hour * 3600 + moment.minute * 60 + moment.second)

end Moment

def readMoment (value : String) : Option Moment := do
  let [weekday, day, month, year, time, zone] := Text.splitAsciiWhitespace value | none
  let day ← Text.parseUnsigned 32 day
  let month ← parseMonth month
  let year ← Text.parseI32 year
  guard (Text.endsWith weekday "," ∧ zone = "GMT")
  let [hour, minute, second] := Text.split time ':' | none
  let hour ← Text.parseUnsigned 32 hour
  let minute ← Text.parseUnsigned 32 minute
  let second ← Text.parseUnsigned 32 second
  let length ← daysInMonth year month
  guard ¬ (day = 0 ∨ length < day ∨ 23 < hour ∨ 59 < minute ∨ 59 < second)
  some ⟨⟨year, month, day⟩, hour, minute, second⟩

def Moment.systemTime (moment : Moment) : Except Halt SystemTime := do
  let days ← daysFromCivil moment.year moment.month moment.day
  let dayStart ← okOr (checkedI64 (days * 86400)) .absent
  let seconds ← okOr (checkedI64
    (dayStart + (moment.hour * 3600 + moment.minute * 60 + moment.second))) .absent
  reject (seconds < 0) .absent
  okOr (SystemTime.checkedAdd 0 (Duration.fromSecs seconds.toNat)) .absent

def parseHttpDate (value : String) : Except Halt SystemTime := do
  (← okOr (readMoment value) .absent).systemTime

example : parseHttpDate "Sun, 06 Nov 1994 08:49:37 GMT" = .ok (784111777 * 1000000000) := by
  decide +kernel

theorem daysInMonth_eq_some {date : CivilDate} {length : Nat} :
    daysInMonth date.year date.month = some length ↔
      (1 ≤ date.month ∧ date.month ≤ 12) ∧ date.monthLength = length := by
  rcases date with ⟨year, month, day⟩
  by_cases named : 1 ≤ month ∧ month ≤ 12
  · have divides (part : Int) : year.tmod part = 0 ↔ year % part = 0 := by
      rw [← Int.dvd_iff_tmod_eq_zero, Int.dvd_iff_emod_eq_zero]
    have leap : (year.tmod 400 = 0 ∨ year.tmod 4 = 0 ∧ year.tmod 100 ≠ 0) ↔
        isLeapYear year = true := by
      simp only [isLeapYear, divides, ne_eq, Bool.or_eq_true, Bool.and_eq_true, beq_iff_eq,
        bne_iff_ne]
    rcases named with ⟨one, twelve⟩
    interval_cases month <;>
      simp [daysInMonth, CivilDate.monthLength, monthLengths, leap]
  · simp only [named, false_and, iff_false]
    unfold daysInMonth
    split <;> simp_all

theorem valid_of_readMoment {text : String} {moment : Moment}
    (read : readMoment text = some moment) :
    moment.Valid ∧ -2 ^ 31 ≤ moment.year ∧ moment.year < 2 ^ 31 := by
  unfold readMoment at read
  split at read
  case h_2 => cases read
  simp only [Option.bind_eq_bind, Option.bind_eq_some_iff] at read
  rcases read with ⟨day, _, month, _, year, isYear, _, _, read⟩
  split at read
  case h_2 => cases read
  simp only [Option.bind_eq_some_iff, Option.guard_eq_some', exists_const, Option.some.injEq,
    not_or, Nat.not_lt] at read
  rcases read with ⟨_, _, _, _, _, _, length, isLength,
    ⟨notZero, inMonth, hour, minute, second⟩, rfl⟩
  rcases (@daysInMonth_eq_some ⟨year, month, day⟩ length).mp isLength with ⟨named, rfl⟩
  exact ⟨⟨⟨named, Nat.one_le_iff_ne_zero.mpr notZero, inMonth⟩, hour, minute, second⟩,
    Text.isI32_of_parseI32 isYear⟩

theorem fromEpoch {seconds : Int} (notNegative : 0 ≤ seconds) (fits : seconds < 2 ^ 63) :
    SystemTime.checkedAdd 0 (Duration.fromSecs seconds.toNat) =
      some (seconds * 1000000000) := by
  have nanos : (0 : Int) + ((seconds.toNat * 1000000000 : Nat) : Int) =
      seconds * 1000000000 := by omega
  simp only [SystemTime.checkedAdd, Duration.fromSecs, nanos]
  exact if_pos (by omega)

theorem systemTime_eq {moment : Moment} (valid : moment.Valid)
    (isI32 : -2 ^ 31 ≤ moment.year ∧ moment.year < 2 ^ 31) :
    moment.systemTime =
      if moment.dayFits then
        if moment.unixSeconds < 0 then .error .absent
        else .ok (moment.unixSeconds * 1000000000)
      else .error .overflow := by
  have hour := valid.hour
  have minute := valid.minute
  have second := valid.second
  unfold Moment.systemTime
  rw [daysFromCivil_eq valid.toValid isI32]
  split
  case isFalse => rfl
  case isTrue fits =>
    simp only [CivilDate.dayFits, decide_eq_true_eq] at fits
    have seconds : moment.unixSeconds = moment.dayNumber * 86400 +
        (moment.hour * 3600 + moment.minute * 60 + moment.second) := rfl
    rw [ok_bind, checkedI64, if_pos (by omega), okOr, ok_bind, checkedI64, if_pos (by omega), okOr,
      ok_bind, ← seconds, reject]
    split
    · rfl
    · rw [ok_bind, fromEpoch (by omega) (by omega), okOr]

end Philo
