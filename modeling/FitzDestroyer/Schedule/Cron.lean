import FitzDestroyer.Js.CodeUnits
import FitzDestroyer.Js.Date
import FitzDestroyer.Js.IntegerText

/-!
# Cron expressions

An expression has five fields: minutes, hours, dates, months and days of the week.  A field is `*`
or a list of numbers.

* `cron?` : the expression of a text;
* `Cron.Fires` : the minutes that it names;
* `cron?_text` : an expression is read from its text.
-/

namespace FitzDestroyer

namespace Schedule

open Js

inductive CronField where
  | any
  | values (numbers : List ℕ)
  deriving DecidableEq

def CronField.Has : CronField → ℕ → Prop
  | any, _ => True
  | values numbers, n => n ∈ numbers

structure Cron where
  minutes : CronField
  hours : CronField
  dates : CronField
  months : CronField
  weekDays : CronField
  deriving DecidableEq

/-- If the date and the day of the week are both given, one of them is enough. -/
def Cron.HasDay (cron : Cron) (t : ℤ) : Prop :=
  if cron.dates = .any ∨ cron.weekDays = .any then
    cron.dates.Has (dateFromDay (day t)) ∧ cron.weekDays.Has (weekDay t)
  else cron.dates.Has (dateFromDay (day t)) ∨ cron.weekDays.Has (weekDay t)

/-- The expression fires at a time, which is the start of a minute. -/
structure Cron.Fires (cron : Cron) (t : ℤ) : Prop where
  minuteStart : 60000 ∣ t
  minute : cron.minutes.Has (minFromTime t)
  hour : cron.hours.Has (hourFromTime t)
  hasDay : cron.HasDay t
  month : cron.months.Has (monthFromDay (day t) + 1)

/-! ### Texts -/

def number? (text : List Char) : Option ℕ :=
  if text ≠ [] ∧ text.all Char.isDigit then some (Nat.ofDigitChars 10 text 0) else none

def cronField? (text : List Char) : Option CronField :=
  if text = ['*'] then some .any else ((text.splitOn ',').mapM number?).map .values

def cron? (text : String) : Option Cron :=
  match (text.toList.splitOn ' ').mapM cronField? with
  | some [minutes, hours, dates, months, weekDays] =>
    some ⟨minutes, hours, dates, months, weekDays⟩
  | _ => none

def CronField.text : CronField → List Char
  | any => ['*']
  | values numbers => [','].intercalate (numbers.map (Nat.toDigits 10))

/-- The field is `*`, or some number is listed. -/
def CronField.Given (cronField : CronField) : Prop := cronField ≠ .values []

def Cron.fields (cron : Cron) : List CronField :=
  [cron.minutes, cron.hours, cron.dates, cron.months, cron.weekDays]

def Cron.text (cron : Cron) : String :=
  String.ofList ([' '].intercalate (cron.fields.map CronField.text))

theorem number?_toDigits (n : ℕ) : number? (Nat.toDigits 10 n) = some n := by
  rw [number?, if_pos, Nat.ofDigitChars_ten_toDigits]
  exact ⟨Nat.toDigits_ne_nil, List.all_eq_true.mpr fun _ => isDigit_of_mem_toDigits⟩

/-- The characters of a field. -/
theorem CronField.mem_text {cronField : CronField} {c : Char} (h : c ∈ cronField.text) :
    c.isDigit = true ∨ c ∈ ['*', ','] := by
  cases cronField with
  | any => exact .inr (List.mem_cons.mpr (.inl (List.mem_singleton.mp h)))
  | values numbers =>
    rcases mem_of_mem_intercalate h with hcomma | ⟨piece, hpiece, hc⟩
    · exact .inr (List.mem_cons_of_mem _ hcomma)
    · obtain ⟨n, -, rfl⟩ := List.mem_map.mp hpiece
      exact .inl (isDigit_of_mem_toDigits hc)

/-- **A field** is read from its text. -/
theorem cronField?_text {cronField : CronField} (h : cronField.Given) :
    cronField? cronField.text = some cronField := by
  cases cronField with
  | any => rfl
  | values numbers =>
    have hne : numbers.map (Nat.toDigits 10) ≠ [] := fun hnil =>
      h (congrArg _ (List.map_eq_nil_iff.mp hnil))
    have hdigits : ∀ text ∈ numbers.map (Nat.toDigits 10), ∀ c ∈ text, c.isDigit = true := by
      intro text hmem c hc
      obtain ⟨n, -, rfl⟩ := List.mem_map.mp hmem
      exact isDigit_of_mem_toDigits hc
    have hsplit : (CronField.values numbers).text.splitOn ',' = numbers.map (Nat.toDigits 10) :=
      List.splitOn_intercalate ',' (fun text hmem hcomma =>
        absurd (hdigits text hmem _ hcomma) (by decide)) hne
    have hstar : (CronField.values numbers).text ≠ ['*'] := by
      intro htext
      rw [htext] at hsplit
      have hmem : ['*'] ∈ numbers.map (Nat.toDigits 10) := hsplit ▸ List.mem_cons_self
      exact absurd (hdigits _ hmem _ List.mem_cons_self) (by decide)
    have hread : number? ∘ Nat.toDigits 10 = fun n => pure (id n) := funext number?_toDigits
    rw [cronField?, if_neg hstar, hsplit, List.mapM_map, hread, List.mapM_pure, List.map_id]
    rfl

/-- **An expression** is read from its text. -/
theorem cron?_text {cron : Cron} (h : ∀ cronField ∈ cron.fields, cronField.Given) :
    cron? cron.text = some cron := by
  have hsplit : cron.text.toList.splitOn ' ' = cron.fields.map CronField.text := by
    rw [Cron.text, String.toList_ofList]
    refine List.splitOn_intercalate ' ' ?_ (by simp [Cron.fields])
    intro text hmem hblank
    obtain ⟨cronField, -, rfl⟩ := List.mem_map.mp hmem
    rcases CronField.mem_text hblank with hdigit | hstar
    · exact absurd hdigit (by decide)
    · exact absurd hstar (by decide)
  have hread : (cron.fields.map CronField.text).mapM cronField? = some cron.fields := by
    simp only [Cron.fields, List.forall_mem_cons] at h
    simp [Cron.fields, cronField?_text, h]
  rw [cron?, hsplit, hread]
  rfl

end Schedule

end FitzDestroyer
