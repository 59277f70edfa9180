import FitzDestroyer.Js.Division
import FitzDestroyer.Js.Text

/-!
# Dates

A time is a count of milliseconds since the start of 1970, in UTC and without leap seconds.

* `yearFromDay`, `monthFromDay`, `dateFromDay` : the calendar of a day;
* `newDate`, `getUTCFullYear`, .. : a `Date` and its fields;
* `toISOString` : the text of a time;
* `dayFromYear_le`, `lt_dayFromYear` : a day lies in its year;
* `day_injective` : a day is known by its year, its month and its date.
-/

namespace FitzDestroyer

namespace Js

/-! ### The calendar -/

/-- The day of a time. -/
def day (t : ℤ) : ℤ := t / 86400000

def hourFromTime (t : ℤ) : ℕ := (t / 3600000 % 24).toNat

def minFromTime (t : ℤ) : ℕ := (t / 60000 % 60).toNat

def secFromTime (t : ℤ) : ℕ := (t / 1000 % 60).toNat

def msFromTime (t : ℤ) : ℕ := (t % 1000).toNat

/-- The day of the week, from Sunday on. -/
def weekDay (t : ℤ) : ℕ := ((day t + 4) % 7).toNat

/-- The first day of a year. -/
def dayFromYear (y : ℤ) : ℤ :=
  365 * (y - 1970) + (y - 1969) / 4 - (y - 1901) / 100 + (y - 1601) / 400

/-- The year of a day: 400 years have 146097 days. -/
def yearFromDay (d : ℤ) : ℤ :=
  let y := 1970 + 400 * d / 146097
  if d < dayFromYear y then y - 1 else if d < dayFromYear (y + 1) then y else y + 1

def inLeapYear (y : ℤ) : Bool := dayFromYear (y + 1) - dayFromYear y = 366

/-- The days of a year before each month after January. -/
def monthStarts (leap : Bool) : List ℕ :=
  if leap then [31, 60, 91, 121, 152, 182, 213, 244, 274, 305, 335]
  else [31, 59, 90, 120, 151, 181, 212, 243, 273, 304, 334]

/-- The day in its year, from 0 on. -/
def dayWithinYear (d : ℤ) : ℕ := (d - dayFromYear (yearFromDay d)).toNat

/-- The month of a day, from 0 on. -/
def monthFromDay (d : ℤ) : ℕ :=
  (monthStarts (inLeapYear (yearFromDay d))).countP (· ≤ dayWithinYear d)

/-- The days of its year before the month of a day. -/
def monthStart (d : ℤ) : ℕ :=
  (0 :: monthStarts (inLeapYear (yearFromDay d))).getD (monthFromDay d) 0

/-- The day in its month, from 1 on. -/
def dateFromDay (d : ℤ) : ℕ := dayWithinYear d - monthStart d + 1

example : (yearFromDay 11016, monthFromDay 11016, dateFromDay 11016) = (2000, 1, 29) := by decide
example : (yearFromDay (-1), monthFromDay (-1), dateFromDay (-1)) = (1969, 11, 31) := by decide

/-- **A day lies in its year.** -/
theorem dayFromYear_le (d : ℤ) : dayFromYear (yearFromDay d) ≤ d := by
  unfold yearFromDay
  dsimp only
  split_ifs with hbefore hlast
  · unfold dayFromYear
    omega
  · exact not_lt.mp hbefore
  · exact not_lt.mp hlast

theorem lt_dayFromYear (d : ℤ) : d < dayFromYear (yearFromDay d + 1) := by
  unfold yearFromDay
  dsimp only
  split_ifs with hbefore hlast
  · rwa [sub_add_cancel]
  · exact hlast
  · unfold dayFromYear
    omega

theorem dayWithinYear_le (d : ℤ) : dayWithinYear d ≤ 365 := by
  have hlast := lt_dayFromYear d
  have hyear : dayFromYear (yearFromDay d + 1) ≤ dayFromYear (yearFromDay d) + 366 := by
    unfold dayFromYear
    omega
  unfold dayWithinYear
  omega

theorem monthFromDay_le (d : ℤ) : monthFromDay d ≤ 11 := by
  refine List.countP_le_length.trans ?_
  cases inLeapYear (yearFromDay d) <;> decide

/-- The start that as many starts as are not after a day lead to is not after it. -/
theorem getD_countP_le {start n : ℕ} {starts : List ℕ}
    (hsorted : (start :: starts).Pairwise (· < ·)) (h : start ≤ n) :
    (start :: starts).getD (starts.countP (· ≤ n)) 0 ≤ n := by
  induction starts generalizing start with
  | nil => exact h
  | cons next starts ih =>
    rw [List.countP_cons]
    by_cases hnext : next ≤ n
    · rw [if_pos (decide_eq_true hnext), List.getD_cons_succ]
      exact ih hsorted.of_cons hnext
    · have hlater : starts.countP (· ≤ n) = 0 := by
        refine List.countP_eq_zero.mpr fun later hmem => ?_
        have := (List.pairwise_cons.mp hsorted.of_cons).1 later hmem
        simp
        omega
      rw [if_neg (by simpa using hnext), hlater]
      exact h

theorem monthStart_le (d : ℤ) : monthStart d ≤ dayWithinYear d := by
  refine getD_countP_le ?_ (Nat.zero_le _)
  cases inLeapYear (yearFromDay d) <;> decide

/-- **A day is known** by its year, its month and its date. -/
theorem day_injective {d e : ℤ} (hyear : yearFromDay d = yearFromDay e)
    (hmonth : monthFromDay d = monthFromDay e) (hdate : dateFromDay d = dateFromDay e) : d = e := by
  have hstart : monthStart d = monthStart e := by rw [monthStart, hyear, hmonth, monthStart]
  have hwithin : dayWithinYear d = dayWithinYear e := by
    have hd := monthStart_le d
    have he := monthStart_le e
    unfold dateFromDay at hdate
    omega
  have hd := dayFromYear_le d
  have he := dayFromYear_le e
  unfold dayWithinYear at hwithin
  rw [hyear] at hd hwithin
  omega

/-- A date has at most two digits. -/
theorem dateFromDay_lt (d : ℤ) : dateFromDay d < 100 := by
  have hall : ∀ leap, ∀ n < 366,
      n - (0 :: monthStarts leap).getD ((monthStarts leap).countP (· ≤ n)) 0 < 99 := by
    decide +kernel
  have hwithin := hall (inLeapYear (yearFromDay d)) (dayWithinYear d)
    (Nat.lt_succ_of_le (dayWithinYear_le d))
  exact Nat.succ_lt_succ hwithin

/-- A second is known by its day and its clock. -/
theorem second_injective {t u : ℤ} (hday : day t = day u) (hhour : hourFromTime t = hourFromTime u)
    (hmin : minFromTime t = minFromTime u) (hsec : secFromTime t = secFromTime u) :
    t / 1000 = u / 1000 := by
  unfold day at hday
  unfold hourFromTime at hhour
  unfold minFromTime at hmin
  unfold secFromTime at hsec
  omega

/-! ### Dates -/

/-- The last time of a `Date`. -/
def maxTime : ℕ := 8640000000000000

/-- A `Date`: its time, unless it is invalid. -/
abbrev Date := Option ℤ

/-- `new Date(value)`. -/
def newDate : Number → Date
  | .fin q =>
    if |q| ≤ maxTime then some (if q < 0 then q.ceil else q.floor) else none
  | _ => none

/-- A field of a date. -/
def Date.field (date : Date) (value : ℤ → Number) : Number := (date.map value).getD .nan

def Date.getUTCFullYear (date : Date) : Number := date.field fun t => .fin (yearFromDay (day t))

def Date.getUTCMonth (date : Date) : Number := date.field fun t => (monthFromDay (day t) : ℕ)

def Date.getUTCDate (date : Date) : Number := date.field fun t => (dateFromDay (day t) : ℕ)

def Date.getUTCHours (date : Date) : Number := date.field fun t => (hourFromTime t : ℕ)

def Date.getUTCMinutes (date : Date) : Number := date.field fun t => (minFromTime t : ℕ)

/-- The year of a time has four digits, or six with a sign. -/
def isoYear (y : ℤ) : List Char :=
  if 0 ≤ y ∧ y ≤ 9999 then pad y.toNat 4
  else (if y < 0 then '-' else '+') :: pad y.natAbs 6

/-- `toISOString()`, of a valid date. -/
def toISOString (t : ℤ) : String :=
  String.ofList (isoYear (yearFromDay (day t)) ++
    '-' :: pad (monthFromDay (day t) + 1) 2 ++ '-' :: pad (dateFromDay (day t)) 2 ++
    'T' :: pad (hourFromTime t) 2 ++ ':' :: pad (minFromTime t) 2 ++ ':' :: pad (secFromTime t) 2 ++
    '.' :: pad (msFromTime t) 3 ++ ['Z'])

example : toISOString 951782400000 = "2000-02-29T00:00:00.000Z" := by decide +kernel
example : toISOString (-62198755200000) = "-000001-01-01T00:00:00.000Z" := by decide +kernel

/-- The years of dates. -/
theorem year_bounds {t : ℤ} (h : |t| ≤ maxTime) :
    -271821 ≤ yearFromDay (day t) ∧ yearFromDay (day t) ≤ 275760 := by
  have hfirst := dayFromYear_le (day t)
  have hlast := lt_dayFromYear (day t)
  obtain ⟨hlow, hhigh⟩ := abs_le.mp h
  have hday : -100000000 ≤ day t ∧ day t ≤ 100000000 := by
    unfold day
    unfold maxTime at hlow hhigh
    omega
  unfold dayFromYear at hfirst hlast
  omega

/-- Only an invalid date has a field that is no number. -/
theorem Date.exists_of_field_ne {date : Date} {value : ℤ → Number} (h : date.field value ≠ .nan) :
    ∃ t, date = some t := by
  cases date with
  | none => exact absurd rfl h
  | some t => exact ⟨t, rfl⟩

theorem newDate_natCast (n : ℕ) :
    newDate (n : Number) = if n ≤ maxTime then some (n : ℤ) else none := by
  have hfloor : (n : ℚ).floor = n := Rat.floor_intCast n
  simp only [newDate, abs_of_nonneg (Nat.cast_nonneg (α := ℚ) n), Nat.cast_le,
    not_lt.mpr (Nat.cast_nonneg (α := ℚ) n), if_false, hfloor]

end Js

end FitzDestroyer
