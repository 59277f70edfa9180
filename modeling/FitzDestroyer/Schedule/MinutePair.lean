import FitzDestroyer.Js.Error
import FitzDestroyer.Js.NumberString
import FitzDestroyer.Schedule.Cron
import Mathlib.Order.Bounds.Basic

/-!
# Two consecutive minutes

The schedules that a `schedule-outage` run repeats fall due at two consecutive minutes.  The host
picks the first one (`orchestration/schedule-outage.ts`), and a worker makes the cron expression of
both (`workloads/schedule-outage.ts`).

* `nextConsecutiveMinutePair`, `consecutiveMinuteCronAt` : the model;
* `consecutiveMinuteCronAt_natCast`, `exists_cronAt_iff` : the minutes that the worker takes;
* `nextConsecutiveMinutePair_natCast` : the minute that the host picks;
* `fires_minutePair_iff` : when the expression fires;
* `consecutiveMinutes_exact` : all together.
-/

namespace FitzDestroyer

namespace Schedule

open Js

/-! ### The model -/

def nextWholeMinute (timestampMs : Number) : Number :=
  (timestampMs.div (60000 : ℕ)).ceil.mul (60000 : ℕ)

def nextConsecutiveMinutePair (timestampMs : Number) : Number :=
  let candidate := nextWholeMinute timestampMs
  if (newDate candidate).getUTCMinutes = (59 : ℕ) then candidate.add (60000 : ℕ) else candidate

def consecutiveMinuteCronAt (firstAtMs : Number) : Except Thrown String :=
  let secondAtMs := firstAtMs.add (60000 : ℕ)
  let first := newDate firstAtMs
  let second := newDate secondAtMs
  if firstAtMs.isSafeInteger = false ∨ firstAtMs.lessEq (0 : ℕ) = true ∨
      (remainder firstAtMs 60000).differs (0 : ℕ) = true ∨
      first.getUTCFullYear.differs second.getUTCFullYear = true ∨
      first.getUTCMonth.differs second.getUTCMonth = true ∨
      first.getUTCDate.differs second.getUTCDate = true ∨
      first.getUTCHours.differs second.getUTCHours = true then
    .error (newError "Repeated Schedule occurrences must be consecutive minutes in one UTC hour")
  else
    let firstMinute := numberText first.getUTCMinutes
    let secondMinute := numberText second.getUTCMinutes
    let hour := numberText first.getUTCHours
    let date := numberText first.getUTCDate
    let month := numberText (first.getUTCMonth.add (1 : ℕ))
    .ok s!"{firstMinute},{secondMinute} {hour} {date} {month} *"

/-! ### The worker -/

/-- The expression of a minute and the minute after it. -/
def minutePair (t : ℤ) : Cron where
  minutes := .values [minFromTime t, minFromTime (t + 60000)]
  hours := .values [hourFromTime t]
  dates := .values [dateFromDay (day t)]
  months := .values [monthFromDay (day t) + 1]
  weekDays := .any

theorem day_minutes (k : ℤ) : day (60000 * k) = k / 1440 := by
  unfold day
  omega

theorem hourFromTime_minutes (k : ℤ) : hourFromTime (60000 * k) = (k / 60 % 24).toNat := by
  unfold hourFromTime
  omega

theorem minFromTime_minutes (k : ℤ) : minFromTime (60000 * k) = (k % 60).toNat := by
  unfold minFromTime
  omega

/-- The hour is known by its day. -/
theorem hours_inj {j k : ℤ} (hday : j / 1440 = k / 1440)
    (hhour : hourFromTime (60000 * j) = hourFromTime (60000 * k)) : j / 60 = k / 60 := by
  rw [hourFromTime_minutes, hourFromTime_minutes] at hhour
  have hj : j / 1440 = j / 60 / 24 := by omega
  have hk : k / 1440 = k / 60 / 24 := by omega
  rw [hj, hk] at hday
  generalize j / 60 = a at *
  generalize k / 60 = b at *
  omega

/-- A minute that is not the last one of its hour. -/
theorem minute_ne_iff {t : ℤ} (h : 60000 ∣ t) :
    minFromTime t ≠ 59 ↔ day (t + 60000) = day t ∧ hourFromTime (t + 60000) = hourFromTime t := by
  obtain ⟨k, rfl⟩ := h
  have hnext : 60000 * k + 60000 = 60000 * (k + 1) := by ring
  simp only [hnext, day_minutes, hourFromTime_minutes, minFromTime_minutes]
  omega

theorem numbers_minutePair {t : ℤ} {n : ℕ} (h : n ∈ [minFromTime t, minFromTime (t + 60000),
    hourFromTime t, dateFromDay (day t), monthFromDay (day t) + 1]) : n ≤ 366 := by
  have hwithin := dayWithinYear_le (day t)
  have hmonth := monthFromDay_le (day t)
  simp only [List.mem_cons, List.not_mem_nil, or_false] at h
  unfold minFromTime hourFromTime dateFromDay at h
  omega

theorem text_minutePair (t : ℤ) : (minutePair t).text =
    toString (minFromTime t) ++ "," ++ toString (minFromTime (t + 60000)) ++ " " ++
      toString (hourFromTime t) ++ " " ++ toString (dateFromDay (day t)) ++ " " ++
        toString (monthFromDay (day t) + 1) ++ " *" := by
  rw [← String.toList_inj]
  simp [minutePair, Cron.text, Cron.fields, CronField.text]

/-- **What the worker makes** of a natural number. -/
theorem consecutiveMinuteCronAt_natCast {n : ℕ} (hpos : 0 < n) (hminute : 60000 ∣ n)
    (hmax : n + 60000 ≤ maxTime) (hlast : minFromTime n ≠ 59) :
    consecutiveMinuteCronAt n = .ok (minutePair n).text := by
  have hmaxTime : maxTime + 60000 ≤ maxSafeInteger := by decide
  obtain ⟨hday, hhour⟩ := (minute_ne_iff (by exact_mod_cast hminute)).mp hlast
  have hfirst : newDate (n : Number) = some (n : ℤ) := by
    rw [newDate_natCast, if_pos (by omega)]
  have hsecond : newDate ((n : Number).add (60000 : ℕ)) = some ((n : ℤ) + 60000) := by
    rw [Number.add_natCast (by omega), newDate_natCast, if_pos hmax, Nat.cast_add]
    rfl
  have hsafe : (n : Number).isSafeInteger = true :=
    (Number.isSequence_natCast.mpr (by omega)).1
  have hzero : (n : Number).lessEq (0 : ℕ) = false := by
    refine decide_eq_false ?_
    rw [not_le]
    exact_mod_cast hpos
  have hremainder : (remainder n 60000).differs (0 : ℕ) = false := by
    rw [remainder_natCast (by decide), Nat.mod_eq_zero_of_dvd hminute]
    rfl
  have htext : ∀ m ∈ [minFromTime n, minFromTime (n + 60000), hourFromTime n,
      dateFromDay (day n), monthFromDay (day n) + 1], numberText (m : Number) = toString m :=
    fun m hm => numberText_natCast ((numbers_minutePair hm).trans (by decide))
  have hmonth : (monthFromDay (day n) : Number).add (1 : ℕ) =
      ((monthFromDay (day n) + 1 : ℕ) : Number) :=
    Number.add_natCast ((numbers_minutePair (t := n) (by simp)).trans (by decide))
  have hsame : ∀ q : ℚ, (Number.fin q).differs (.fin q) = false := fun q => by
    simp [Number.differs]
  unfold consecutiveMinuteCronAt
  simp only [hfirst, hsecond, hsafe, hzero, hremainder, Date.getUTCFullYear, Date.getUTCMonth,
    Date.getUTCDate, Date.getUTCHours, Date.getUTCMinutes, Date.field, Option.map_some,
    Option.getD_some, hday, hhour, hsame, hmonth, Bool.true_eq_false, Bool.false_eq_true, or_self,
    if_false]
  simp only [List.forall_mem_cons] at htext
  obtain ⟨hfirstMinute, hsecondMinute, hhours, hdates, hmonths, -⟩ := htext
  simp only [hfirstMinute, hsecondMinute, hhours, hdates, hmonths]
  exact congrArg Except.ok (text_minutePair n).symm

/-- **The minutes that the worker takes.** -/
theorem exists_cronAt_iff {n : ℕ} : (∃ text, consecutiveMinuteCronAt n = .ok text) ↔
    0 < n ∧ 60000 ∣ n ∧ n + 60000 ≤ maxTime ∧ minFromTime n ≠ 59 := by
  have hmaxTime : maxTime + 60000 ≤ maxSafeInteger := by decide
  constructor
  · rintro ⟨text, h⟩
    unfold consecutiveMinuteCronAt at h
    dsimp only at h
    split_ifs at h with hguard
    simp only [not_or, Bool.not_eq_true, Number.differs_eq_false] at hguard
    obtain ⟨-, hzero, ⟨hremainder, -⟩, ⟨hyear, hvalid⟩, ⟨hmonth, -⟩, ⟨hdate, -⟩, ⟨hhour, -⟩⟩ :=
      hguard
    have hpos : 0 < n := by
      have := of_decide_eq_false hzero
      exact_mod_cast not_le.mp this
    have hminute : 60000 ∣ n := by
      rw [remainder_natCast (by decide)] at hremainder
      exact Nat.dvd_of_mod_eq_zero (Number.natCast_injective hremainder)
    -- Both dates are valid.
    obtain ⟨t, ht⟩ := Date.exists_of_field_ne hvalid
    obtain ⟨u, hu⟩ := Date.exists_of_field_ne (hyear ▸ hvalid)
    rw [newDate_natCast] at ht
    split_ifs at ht with hfirst
    rw [Number.add_natCast (by omega), newDate_natCast] at hu
    split_ifs at hu with hsecond
    rw [Number.add_natCast (by omega), newDate_natCast, newDate_natCast, if_pos hfirst,
      if_pos hsecond] at hyear hmonth hdate hhour
    have hday : day ((n + 60000 : ℕ) : ℤ) = day n :=
      day_injective (by exact_mod_cast (Number.fin.inj hyear).symm)
        (Number.natCast_injective hmonth.symm) (Number.natCast_injective hdate.symm)
    refine ⟨hpos, hminute, hsecond, (minute_ne_iff (by exact_mod_cast hminute)).mpr ⟨?_, ?_⟩⟩
    · exact_mod_cast hday
    · exact_mod_cast Number.natCast_injective hhour.symm
  · rintro ⟨hpos, hminute, hmax, hlast⟩
    exact ⟨_, consecutiveMinuteCronAt_natCast hpos hminute hmax hlast⟩

/-! ### The host -/

/-- The whole minute that is not before a time. -/
theorem nextWholeMinute_natCast {t k : ℕ} (hmax : t ≤ maxTime) (hlow : k * 60000 < t)
    (hhigh : t ≤ (k + 1) * 60000) :
    nextWholeMinute (t : Number) = (((k + 1) * 60000 : ℕ) : Number) := by
  have hmaxTime : maxTime + 60000 ≤ maxSafeInteger := by decide
  rw [nextWholeMinute, Number.ceil_div (by omega) (by decide) (by decide) hlow hhigh]
  show Number.round ((k + 1 : ℕ) * (60000 : ℕ)) = _
  rw [← Nat.cast_mul, Number.round_natCast (by omega)]

/-- The minutes that a pair can start at from a time on. -/
def starts (t : ℕ) : Set ℕ :=
  { n | t ≤ n ∧ 60000 ∣ n ∧ ∃ text, consecutiveMinuteCronAt n = .ok text }

theorem minFromTime_mul (j : ℕ) : minFromTime ((j * 60000 : ℕ) : ℤ) = j % 60 := by
  unfold minFromTime
  omega

theorem mem_starts {t n : ℕ} : n ∈ starts t ↔
    t ≤ n ∧ ∃ j : ℕ, n = j * 60000 ∧ 0 < j ∧ n + 60000 ≤ maxTime ∧ j % 60 ≠ 59 := by
  simp only [starts, Set.mem_ofPred_eq, exists_cronAt_iff]
  constructor
  · rintro ⟨hle, ⟨j, rfl⟩, hpos, -, hmax, hlast⟩
    rw [mul_comm, minFromTime_mul] at hlast
    exact ⟨hle, j, mul_comm _ _, by omega, hmax, hlast⟩
  · rintro ⟨hle, j, rfl, hpos, hmax, hlast⟩
    rw [minFromTime_mul]
    exact ⟨hle, Dvd.intro_left j rfl, by omega, Dvd.intro_left j rfl, hmax, hlast⟩

/-- **The minute that the host picks.** -/
theorem nextConsecutiveMinutePair_natCast {t : ℕ} (hpos : 0 < t) (hmax : t + 120000 ≤ maxTime) :
    ∃ m : ℕ, nextConsecutiveMinutePair t = m ∧ IsLeast (starts t) m := by
  have hmaxTime : maxTime = 60000 * 144000000000 := rfl
  have hsafe : maxTime + 60000 ≤ maxSafeInteger := by decide
  obtain ⟨k, hlow, hhigh⟩ : ∃ k, k * 60000 < t ∧ t ≤ (k + 1) * 60000 :=
    ⟨(t - 1) / 60000, by omega, by omega⟩
  have hnext := nextWholeMinute_natCast (by omega) hlow hhigh
  have hminutes : (newDate (nextWholeMinute (t : Number))).getUTCMinutes =
      (((k + 1) % 60 : ℕ) : Number) := by
    rw [hnext, newDate_natCast, if_pos (by omega), ← minFromTime_mul]
    rfl
  unfold nextConsecutiveMinutePair
  dsimp only
  rw [hminutes]
  by_cases hlast : (k + 1) % 60 = 59
  · -- The pair starts with the next hour.
    have hsum : (k + 1) * 60000 + 60000 = (k + 2) * 60000 := by omega
    have hadd := Number.add_natCast (m := (k + 1) * 60000) (n := 60000) (by omega)
    rw [hsum] at hadd
    have hle := hhigh.trans (Nat.mul_le_mul_right 60000 (Nat.le_succ (k + 1)))
    have hmem : (k + 2) * 60000 ∈ starts t :=
      mem_starts.mpr ⟨hle, k + 2, rfl, by omega, by omega, by omega⟩
    rw [hlast, if_pos rfl, hnext, hadd]
    refine ⟨(k + 2) * 60000, rfl, hmem, ?_⟩
    intro n hn
    obtain ⟨hle, j, rfl, -, -, hj⟩ := mem_starts.mp hn
    have hne : j ≠ k + 1 := fun heq => hj (heq ▸ hlast)
    omega
  · rw [if_neg fun heq => hlast (Number.natCast_injective heq), hnext]
    refine ⟨_, rfl, mem_starts.mpr ⟨hhigh, k + 1, rfl, by omega, by omega, hlast⟩, ?_⟩
    intro n hn
    obtain ⟨hle, j, rfl, -⟩ := mem_starts.mp hn
    omega

/-! ### The expression -/

/-- **The expression fires** at both minutes, and at no other time of their day. -/
theorem fires_minutePair_iff {t u : ℤ} (hminute : 60000 ∣ t)
    (hhour : hourFromTime (t + 60000) = hourFromTime t) (hday : day u = day t) :
    (minutePair t).Fires u ↔ u = t ∨ u = t + 60000 := by
  have hfires : (minutePair t).Fires u ↔ 60000 ∣ u ∧ hourFromTime u = hourFromTime t ∧
      (minFromTime u = minFromTime t ∨ minFromTime u = minFromTime (t + 60000)) := by
    have hfields : (minutePair t).HasDay u ∧
        (minutePair t).months.Has (monthFromDay (day u) + 1) := by
      simp [Cron.HasDay, minutePair, CronField.Has, hday]
    constructor
    · intro h
      exact ⟨h.minuteStart, List.mem_singleton.mp h.hour, by
        simpa [minutePair, CronField.Has] using h.minute⟩
    · rintro ⟨hstart, hhours, hminutes⟩
      exact ⟨hstart, by simpa [minutePair, CronField.Has] using hminutes,
        List.mem_singleton.mpr hhours, hfields.1, hfields.2⟩
  rw [hfires]
  obtain ⟨k, rfl⟩ := hminute
  have hnext : 60000 * k + 60000 = 60000 * (k + 1) := by ring
  rw [hnext] at hhour
  constructor
  · rintro ⟨⟨j, rfl⟩, hhours, hminutes⟩
    rw [day_minutes, day_minutes] at hday
    rw [hnext, minFromTime_minutes, minFromTime_minutes, minFromTime_minutes] at hminutes
    -- All three minutes are in one hour.
    have hsame := hours_inj hday hhours
    have hsucc : (k + 1) / 60 = k / 60 := by
      rw [hourFromTime_minutes, hourFromTime_minutes] at hhour
      clear hday hhours hminutes
      omega
    clear hday hhour hhours
    omega
  · rintro (rfl | rfl)
    · exact ⟨Int.dvd_mul_right .., rfl, .inl rfl⟩
    · rw [hnext]
      exact ⟨Int.dvd_mul_right .., hhour, .inr rfl⟩

/-- **The two minutes are exact**, unless the last two minutes of a `Date` are reached. -/
theorem consecutiveMinutes_exact {t : ℕ} (hpos : 0 < t) (hmax : t + 120000 ≤ maxTime) :
    ∃ m : ℕ, nextConsecutiveMinutePair t = m ∧ IsLeast (starts t) m ∧
      ∃ text, consecutiveMinuteCronAt m = .ok text ∧ cron? text = some (minutePair m) ∧
        hourFromTime (m + 60000) = hourFromTime m ∧ day (m + 60000) = day m ∧
        ∀ u : ℤ, day u = day m → ((minutePair m).Fires u ↔ u = m ∨ u = m + 60000) := by
  obtain ⟨m, hm, hleast⟩ := nextConsecutiveMinutePair_natCast hpos hmax
  obtain ⟨hstart, hmin, hend, hlast⟩ := exists_cronAt_iff.mp hleast.1.2.2
  have hmin' : (60000 : ℤ) ∣ m := by exact_mod_cast hmin
  obtain ⟨hday, hhour⟩ := (minute_ne_iff hmin').mp hlast
  refine ⟨m, hm, hleast, _, consecutiveMinuteCronAt_natCast hstart hmin hend hlast,
    cron?_text ?_, hhour, hday, fun u hu => fires_minutePair_iff hmin' hhour hu⟩
  simp [Cron.fields, minutePair, CronField.Given]

/-- A time in the last minute but one of an hour. -/
theorem consecutiveMinutes_hourEnd :
    ∃ m : ℕ, nextConsecutiveMinutePair (3480001 : ℕ) = m ∧ IsLeast (starts 3480001) m ∧
      ∃ text, consecutiveMinuteCronAt m = .ok text ∧ cron? text = some (minutePair m) ∧
        hourFromTime (m + 60000) = hourFromTime m ∧ day (m + 60000) = day m ∧
        ∀ u : ℤ, day u = day m → ((minutePair m).Fires u ↔ u = m ∨ u = m + 60000) :=
  consecutiveMinutes_exact (by decide) (by decide)

/-- From the last time of a `Date` on, no pair can start. -/
theorem not_consecutiveMinutes_exact : ¬∀ t : ℕ, 0 < t → t ≤ maxTime →
    ∃ m : ℕ, nextConsecutiveMinutePair t = m ∧ IsLeast (starts t) m := by
  intro h
  obtain ⟨m, -, hmem, -⟩ := h maxTime (by decide) le_rfl
  obtain ⟨hle, j, -, -, hmax, -⟩ := mem_starts.mp hmem
  omega

end Schedule

end FitzDestroyer
