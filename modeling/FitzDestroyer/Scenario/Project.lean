import FitzDestroyer.Js.Date
import FitzDestroyer.Scenario.Segment

/-!
# Compose projects

A run gets its id from its scenario, the time and three random bytes; the Compose project is made
from the id and cut at 63 characters (`scenario.ts`).

* `RunIdentity`, `RunIdentity.runId`, `RunIdentity.project` : the names of a run;
* `RunIdentity.runId_eq_iff`, `RunIdentity.project_eq_iff` : when two runs have the same;
* `RunIdentity.isolated_iff` : when different ids get different projects.

A time stamp loses the sign of a negative year, and a segment loses that of a late one.
-/

namespace FitzDestroyer

namespace Scenario

open Js

/-- What the names of a run are made from. -/
structure RunIdentity where
  scenario : ConcreteScenario
  createdAt : ℤ
  valid : |createdAt| ≤ maxTime
  random : List UInt8
  three : random.length = 3

/-- `bytes.toString("hex")` -/
def hexText (bytes : List UInt8) : List Char :=
  bytes.flatMap fun byte => [Nat.digitChar (byte.toNat / 16), Nat.digitChar (byte.toNat % 16)]

namespace RunIdentity

def runId (x : RunIdentity) : String :=
  createRunId x.scenario (toISOString x.createdAt) (String.ofList (hexText x.random))

def project (x : RunIdentity) : String := projectName (routeSegment x.runId)

/-- What the isolation of two runs asks of their projects. -/
structure Isolated (x y : RunIdentity) : Prop where
  different : x.runId ≠ y.runId → x.project ≠ y.project
  length : x.project.toList.length ≤ 63
  first : ∃ c ∈ x.project.toList.head?, isPieceChar c = true
  chars : ∀ c ∈ x.project.toList, isPieceChar c = true ∨ c = '-'
  last : x.project.toList.getLast? ≠ some '-'

/-! ### Conditions -/

/-- The digits of a year in an id. -/
def yearDigits (y : ℤ) : ℕ := if 0 ≤ y ∧ y ≤ 9999 then 4 else 6

/-- The clock shows the same at both times, to the second and but for the sign of the year. -/
structure SameClock (t u : ℤ) : Prop where
  digits : yearDigits (yearFromDay (day t)) = yearDigits (yearFromDay (day u))
  year : (yearFromDay (day t)).natAbs = (yearFromDay (day u)).natAbs
  month : monthFromDay (day t) = monthFromDay (day u)
  date : dateFromDay (day t) = dateFromDay (day u)
  hour : hourFromTime t = hourFromTime u
  min : minFromTime t = minFromTime u
  sec : secFromTime t = secFromTime u

/-- The count of the random digits that are not cut off. -/
def visibleDigits (x : RunIdentity) : ℕ :=
  34 - yearDigits (yearFromDay (day x.createdAt)) - x.scenario.name.toList.length

/-- The runs differ in nothing that is not cut off. -/
structure Collides (x y : RunIdentity) : Prop where
  scenario : x.scenario = y.scenario
  clock : SameClock x.createdAt y.createdAt
  random : (hexText x.random).take x.visibleDigits = (hexText y.random).take x.visibleDigits

/-- The runs start in the same second of the same scenario, with the same random bytes. -/
structure Same (x y : RunIdentity) : Prop where
  scenario : x.scenario = y.scenario
  second : x.createdAt / 1000 = y.createdAt / 1000
  random : x.random = y.random

/-! ### Time stamps -/

/-- The digits of a time, with the given letter between date and clock. -/
def clockText (letter : Char) (t : ℤ) : List Char :=
  pad (yearFromDay (day t)).natAbs (yearDigits (yearFromDay (day t))) ++
    (pad (monthFromDay (day t) + 1) 2 ++ (pad (dateFromDay (day t)) 2 ++
      letter :: (pad (hourFromTime t) 2 ++ (pad (minFromTime t) 2 ++ pad (secFromTime t) 2))))

theorem filter_pad (value width : ℕ) :
    (pad value width).filter (fun c => c != '-' && c != ':') = pad value width := by
  refine List.filter_eq_self.mpr fun c hc => ?_
  have hdigit := isDigit_of_mem_pad hc
  rw [Bool.and_eq_true, bne_iff_ne, bne_iff_ne]
  constructor
  all_goals
    rintro rfl
    exact absurd hdigit (by decide)

theorem filter_isoYear (y : ℤ) : (isoYear y).filter (fun c => c != '-' && c != ':') =
    (if 9999 < y then ['+'] else []) ++ pad y.natAbs (yearDigits y) := by
  rw [isoYear, yearDigits]
  by_cases hfour : 0 ≤ y ∧ y ≤ 9999
  · rw [if_pos hfour, if_pos hfour, if_neg (not_lt.mpr hfour.2), filter_pad,
      show y.toNat = y.natAbs by omega]
    rfl
  · rw [if_neg hfour, if_neg hfour]
    by_cases hneg : y < 0
    · rw [if_pos hneg, if_neg (by omega), List.filter_cons, if_neg (by decide), filter_pad]
      rfl
    · rw [if_neg hneg, if_pos (by omega), List.filter_cons, if_pos (by decide), filter_pad]
      rfl

/-- A text that ends in milliseconds loses them. -/
theorem compactTimestamp_eq {iso : String} {text : List Char} {a b c : Char}
    (h : iso.toList.filter (fun c => c != '-' && c != ':') = text ++ ['.', a, b, c, 'Z'])
    (hdigits : (a.isDigit && b.isDigit && c.isDigit) = true) :
    compactTimestamp iso = String.ofList (text ++ ['z']) := by
  have hswap : (c.isDigit && b.isDigit && a.isDigit) = true := by
    rw [Bool.and_eq_true, Bool.and_eq_true] at hdigits ⊢
    exact ⟨⟨hdigits.2, hdigits.1.2⟩, hdigits.1.1⟩
  have hreverse : (text ++ ['.', a, b, c, 'Z']).reverse =
      'Z' :: c :: b :: a :: '.' :: text.reverse := by simp
  unfold compactTimestamp
  simp only [h, hreverse, hswap, if_true, List.reverse_reverse]

/-- The compact time stamp: only the sign of a late year is kept. -/
theorem toList_compactTimestamp (t : ℤ) : (compactTimestamp (toISOString t)).toList =
    (if 9999 < yearFromDay (day t) then ['+'] else []) ++ (clockText 'T' t ++ ['z']) := by
  have hms : (pad (msFromTime t) 3).length = 3 :=
    length_pad (by decide) (by unfold msFromTime; omega)
  obtain ⟨a, b, c, habc⟩ := List.length_eq_three.mp hms
  have hdigit : ∀ d ∈ [a, b, c], d.isDigit = true := by
    rw [← habc]
    exact fun d hd => isDigit_of_mem_pad hd
  have hfilter : (toISOString t).toList.filter (fun c => c != '-' && c != ':') =
      ((if 9999 < yearFromDay (day t) then ['+'] else []) ++ clockText 'T' t) ++
        ['.', a, b, c, 'Z'] := by
    simp only [toISOString, String.toList_ofList, List.filter_append, List.filter_cons,
      List.filter_nil, filter_isoYear, filter_pad, clockText]
    simp [habc]
  rw [compactTimestamp_eq hfilter (by simp [hdigit]), String.toList_ofList, List.append_assoc]

/-! ### Names -/

theorem isPieceChar_of_mem_pad {value width : ℕ} {c : Char} (h : c ∈ pad value width) :
    isPieceChar c = true := by
  rw [isPieceChar, isDigit_of_mem_pad h, Bool.or_true]

theorem isPieceChar_of_mem_clockText {t : ℤ} {c : Char} (h : c ∈ clockText 't' t) :
    isPieceChar c = true := by
  simp only [clockText, List.mem_append, List.mem_cons] at h
  rcases h with h | h | h | rfl | h | h | h
  any_goals exact isPieceChar_of_mem_pad h
  rfl

theorem flatMap_clockText (t : ℤ) : (clockText 'T' t).flatMap segmentChar = clockText 't' t := by
  have hpad : ∀ value width, (pad value width).flatMap segmentChar = pad value width := fun _ _ =>
    flatMap_segmentChar_of_kept fun _ hc => .inl (isPieceChar_of_mem_pad hc)
  have hletter : segmentChar 'T' = ['t'] := by decide
  simp only [clockText, List.flatMap_append, List.flatMap_cons, hpad, hletter,
    List.singleton_append]

theorem isPieceChar_of_mem_hexText {bytes : List UInt8} {c : Char} (h : c ∈ hexText bytes) :
    isPieceChar c = true := by
  have hdigit : ∀ n < 16, isPieceChar (Nat.digitChar n) = true := by decide
  obtain ⟨byte, -, hc⟩ := List.mem_flatMap.mp h
  have hbyte := byte.toNat_lt
  simp only [List.mem_cons, List.not_mem_nil, or_false] at hc
  rcases hc with rfl | rfl
  · exact hdigit _ (by omega)
  · exact hdigit _ (by omega)

theorem length_hexText (bytes : List UInt8) : (hexText bytes).length = 2 * bytes.length := by
  induction bytes with
  | nil => rfl
  | cons byte bytes ih =>
    rw [hexText, List.flatMap_cons, List.length_append, ← hexText, ih, List.length_cons]
    exact Nat.add_comm _ _

theorem hexText_injective : Function.Injective hexText := by
  have hdigit : ∀ n < 16, ∀ m < 16, Nat.digitChar n = Nat.digitChar m → n = m := by decide
  intro bytes bytes' h
  induction bytes generalizing bytes' with
  | nil =>
    have hlength := congrArg List.length h
    rw [length_hexText, length_hexText, List.length_nil] at hlength
    exact (List.length_eq_zero_iff.mp (by omega)).symm
  | cons byte bytes ih =>
    cases bytes' with
    | nil => cases h
    | cons byte' bytes' =>
      obtain ⟨hfirst, h⟩ := List.cons.inj h
      obtain ⟨hsecond, h⟩ := List.cons.inj h
      have hbyte := byte.toNat_lt
      have hbyte' := byte'.toNat_lt
      have hhigh := hdigit _ (by omega) _ (by omega) hfirst
      have hlow := hdigit _ (by omega) _ (by omega) hsecond
      rw [ih h, UInt8.toNat_inj.mp (show byte.toNat = byte'.toNat by omega)]

theorem isSegment_of_chars {cs : List Char} (hne : cs ≠ [])
    (h : ∀ c ∈ cs, isPieceChar c = true) : IsSegment (String.ofList cs) := by
  refine ⟨[cs], List.cons_ne_nil _ _, ?_, ?_⟩
  · simpa using ⟨hne, h⟩
  · rw [String.toList_ofList, List.intercalate_singleton]

variable (x : RunIdentity)

/-- The time stamp in the names of a run. -/
def stamp : String := String.ofList (clockText 't' x.createdAt ++ ['z'])

/-- The random digits in the names of a run. -/
def digits : String := String.ofList (hexText x.random)

theorem isSegment_stamp : IsSegment x.stamp := by
  refine isSegment_of_chars (by simp) fun c hc => ?_
  rcases List.mem_append.mp hc with hc | hc
  · exact isPieceChar_of_mem_clockText hc
  · rw [List.mem_singleton.mp hc]
    rfl

theorem isSegment_digits : IsSegment x.digits := by
  refine isSegment_of_chars (fun hnil => ?_) fun c => isPieceChar_of_mem_hexText
  have hlength := length_hexText x.random
  rw [hnil, x.three] at hlength
  cases hlength

/-- The namespace of a run. -/
theorem routeSegment_runId :
    routeSegment x.runId = x.stamp ++ "-" ++ x.scenario.name ++ "-" ++ x.digits := by
  have hsegment := ((isSegment_stamp x).append (isSegment_name x.scenario)).append
    (isSegment_digits x)
  have htext : (x.stamp ++ "-" ++ x.scenario.name ++ "-" ++ x.digits).toList =
      clockText 't' x.createdAt ++ ('z' :: '-' :: (x.scenario.name.toList ++
        '-' :: hexText x.random)) := by
    simp [stamp, digits]
  have hid : x.runId.toList = (if 9999 < yearFromDay (day x.createdAt) then ['+'] else []) ++
      (clockText 'T' x.createdAt ++ ('z' :: '-' :: (x.scenario.name.toList ++
        '-' :: hexText x.random))) := by
    simp [runId, createRunId, toString, toList_compactTimestamp]
  have hrest : ('z' :: '-' :: (x.scenario.name.toList ++ '-' :: hexText x.random)).flatMap
      segmentChar = 'z' :: '-' :: (x.scenario.name.toList ++ '-' :: hexText x.random) := by
    refine flatMap_segmentChar_of_kept fun c hc => ?_
    refine hsegment.kept c ?_
    rw [htext]
    exact List.mem_append_right _ hc
  have hkept : (clockText 'T' x.createdAt ++ ('z' :: '-' :: (x.scenario.name.toList ++
      '-' :: hexText x.random))).flatMap segmentChar =
      (x.stamp ++ "-" ++ x.scenario.name ++ "-" ++ x.digits).toList := by
    rw [List.flatMap_append, flatMap_clockText, hrest, htext]
  have hplus : segmentChar '+' = ['-'] := by decide
  apply String.toList_inj.mp
  rw [routeSegment, String.toList_ofList, hid, List.flatMap_append, hkept]
  split_ifs
  · rw [List.flatMap_singleton, hplus, List.singleton_append]
    exact (trimmed_dash _).trans hsegment.trimmed
  · rw [List.flatMap_nil, List.nil_append]
    exact hsegment.trimmed

/-! ### The clock -/

/-- The digits of the year. -/
theorem length_yearText {t : ℤ} (h : |t| ≤ maxTime) :
    (pad (yearFromDay (day t)).natAbs (yearDigits (yearFromDay (day t)))).length =
      yearDigits (yearFromDay (day t)) := by
  have hyear := year_bounds h
  unfold yearDigits
  split_ifs
  · exact length_pad (by decide) (by omega)
  · exact length_pad (by decide) (by omega)

theorem length_monthText (t : ℤ) : (pad (monthFromDay (day t) + 1) 2).length = 2 := by
  have hmonth := monthFromDay_le (day t)
  exact length_pad (by decide) (by omega)

theorem length_dateText (t : ℤ) : (pad (dateFromDay (day t)) 2).length = 2 :=
  length_pad (by decide) (dateFromDay_lt (day t))

theorem length_hourText (t : ℤ) : (pad (hourFromTime t) 2).length = 2 :=
  length_pad (by decide) (by unfold hourFromTime; omega)

theorem length_minText (t : ℤ) : (pad (minFromTime t) 2).length = 2 :=
  length_pad (by decide) (by unfold minFromTime; omega)

theorem length_secText (t : ℤ) : (pad (secFromTime t) 2).length = 2 :=
  length_pad (by decide) (by unfold secFromTime; omega)

theorem length_clockText (letter : Char) {t : ℤ} (h : |t| ≤ maxTime) :
    (clockText letter t).length = yearDigits (yearFromDay (day t)) + 11 := by
  simp only [clockText, List.length_append, List.length_cons, length_yearText h, length_monthText,
    length_dateText, length_hourText, length_minText, length_secText]

/-- The digits before the letter. -/
theorem takeWhile_clockText {letter : Char} (hletter : letter.isDigit = false) (t : ℤ)
    (rest : List Char) : (clockText letter t ++ rest).takeWhile Char.isDigit =
      pad (yearFromDay (day t)).natAbs (yearDigits (yearFromDay (day t))) ++
        (pad (monthFromDay (day t) + 1) 2 ++ pad (dateFromDay (day t)) 2) := by
  have hpad : ∀ value width, ∀ c ∈ pad value width, c.isDigit = true := fun _ _ _ =>
    isDigit_of_mem_pad
  simp only [clockText, List.append_assoc, List.cons_append]
  rw [List.takeWhile_append_of_pos (hpad _ _), List.takeWhile_append_of_pos (hpad _ _),
    List.takeWhile_append_of_pos (hpad _ _), List.takeWhile_cons_of_neg (by simp [hletter]),
    List.append_nil]

/-- What the clock shows is read back from a text that starts with it. -/
theorem clockText_append_inj {letter : Char} (hletter : letter.isDigit = false) {t u : ℤ}
    (ht : |t| ≤ maxTime) (hu : |u| ≤ maxTime) {rest rest' : List Char}
    (h : clockText letter t ++ rest = clockText letter u ++ rest') :
    SameClock t u ∧ rest = rest' := by
  have hdigits := congrArg (List.takeWhile Char.isDigit) h
  rw [takeWhile_clockText hletter, takeWhile_clockText hletter] at hdigits
  have hlength := congrArg List.length hdigits
  simp only [List.length_append, length_yearText ht, length_yearText hu, length_monthText,
    length_dateText] at hlength
  have hyears : yearDigits (yearFromDay (day t)) = yearDigits (yearFromDay (day u)) := by omega
  obtain ⟨hclock, hrest⟩ := List.append_inj h
    (by rw [length_clockText _ ht, length_clockText _ hu, hyears])
  obtain ⟨hyear, hclock⟩ := List.append_inj hclock
    (by rw [length_yearText ht, length_yearText hu, hyears])
  obtain ⟨hmonth, hclock⟩ := List.append_inj hclock
    (by rw [length_monthText, length_monthText])
  obtain ⟨hdate, hclock⟩ := List.append_inj hclock (by rw [length_dateText, length_dateText])
  obtain ⟨hhour, hclock⟩ := List.append_inj (List.cons.inj hclock).2
    (by rw [length_hourText, length_hourText])
  obtain ⟨hmin, hsec⟩ := List.append_inj hclock (by rw [length_minText, length_minText])
  rw [hyears] at hyear
  exact ⟨⟨hyears, pad_inj hyear, Nat.succ_injective (pad_inj hmonth), pad_inj hdate,
    pad_inj hhour, pad_inj hmin, pad_inj hsec⟩, hrest⟩

theorem SameClock.clockText_eq {t u : ℤ} (h : SameClock t u) (letter : Char) :
    clockText letter t = clockText letter u := by
  rw [clockText, h.year, h.digits, h.month, h.date, h.hour, h.min, h.sec, clockText]

/-- Times of the same second show the same clock, and the other way round if their years have the
same sign. -/
theorem sameClock_iff {t u : ℤ} : SameClock t u ∧
    (9999 < yearFromDay (day t) ↔ 9999 < yearFromDay (day u)) ↔ t / 1000 = u / 1000 := by
  constructor
  · rintro ⟨h, hsign⟩
    have hyear : yearFromDay (day t) = yearFromDay (day u) := by
      have hdigits := h.digits
      have habs := h.year
      unfold yearDigits at hdigits
      split_ifs at hdigits
      all_goals omega
    exact second_injective (day_injective hyear h.month h.date) h.hour h.min h.sec
  · intro h
    have hday : day t = day u := by
      unfold day
      omega
    have hhour : hourFromTime t = hourFromTime u := by
      unfold hourFromTime
      omega
    have hmin : minFromTime t = minFromTime u := by
      unfold minFromTime
      omega
    have hsec : secFromTime t = secFromTime u := by
      unfold secFromTime
      omega
    rw [hday]
    exact ⟨⟨by rw [hday], by rw [hday], by rw [hday], by rw [hday], hhour, hmin, hsec⟩, Iff.rfl⟩

/-! ### Ids -/

theorem mem_allScenarios (scenario : ConcreteScenario) : scenario ∈ allScenarios := by
  cases scenario <;> decide +kernel

theorem toNat_lt_of_kept {c : Char} (h : isPieceChar c = true ∨ c = '-') : c.toNat < 128 := by
  rcases h with h | rfl
  · have hc := Bool.or_eq_true _ _ ▸ h
    rw [isLower_iff, isDigit_iff] at hc
    omega
  · decide

/-- No name starts like another: 24 characters tell them apart. -/
theorem scenario_eq_of_isPrefix_name {s s' : ConcreteScenario}
    (h : s.name.toList.take 24 <+: s'.name.toList.take 24) : s = s' := by
  have hall : ∀ s ∈ allScenarios, ∀ s' ∈ allScenarios,
      ((encode s.name).take 24).isPrefixOf ((encode s'.name).take 24) = true → s = s' := by
    decide +kernel
  have hbytes : ∀ s : ConcreteScenario, ((encode s.name).take 24).map UInt8.toNat =
      (s.name.toList.take 24).map Char.toNat := by
    intro s
    rw [List.map_take, List.map_take,
      map_toNat_encode fun c hc => toNat_lt_of_kept ((isSegment_name s).kept c hc)]
  have hmap := h.map Char.toNat
  rw [← hbytes, ← hbytes] at hmap
  have hstart := (List.prefix_map_iff_of_injective fun _ _ => UInt8.toNat_inj.mp).mp hmap
  exact hall s (mem_allScenarios s) s' (mem_allScenarios s')
    (List.isPrefixOf_iff_prefix.mpr hstart)

/-- What follows the time stamp in the names of a run. -/
def rest (x : RunIdentity) : List Char := x.scenario.name.toList ++ '-' :: hexText x.random

theorem toList_runId : x.runId.toList =
    (if 9999 < yearFromDay (day x.createdAt) then ['+'] else []) ++
      (clockText 'T' x.createdAt ++ ('z' :: '-' :: x.rest)) := by
  simp [runId, createRunId, toString, toList_compactTimestamp, rest]

theorem rest_injective {x y : RunIdentity} (h : x.rest = y.rest) :
    x.scenario = y.scenario ∧ x.random = y.random := by
  obtain ⟨hname, hrandom⟩ := List.append_inj' h
    (by simp only [List.length_cons, length_hexText, x.three, y.three])
  refine ⟨?_, hexText_injective (List.cons.inj hrandom).2⟩
  apply scenario_eq_of_isPrefix_name
  rw [hname]

/-- The sign of a late year is seen. -/
theorem plus_ne_clockText {t : ℤ} {text rest : List Char} :
    ['+'] ++ text ≠ [] ++ (clockText 'T' t ++ rest) := by
  intro h
  have hdigits := congrArg (List.takeWhile Char.isDigit) h
  rw [List.nil_append, takeWhile_clockText (by decide), List.singleton_append,
    List.takeWhile_cons_of_neg (by decide)] at hdigits
  have hlength := congrArg List.length hdigits
  simp only [List.length_append, length_monthText, List.length_nil] at hlength
  omega

/-- **Two runs have the same id** iff they start in the same second, of the same scenario, with the
same random bytes. -/
theorem runId_eq_iff {x y : RunIdentity} : x.runId = y.runId ↔ Same x y := by
  rw [← String.toList_inj, toList_runId, toList_runId]
  constructor
  · intro h
    have hsign : 9999 < yearFromDay (day x.createdAt) ↔ 9999 < yearFromDay (day y.createdAt) :=
      ⟨fun hx => by_contra fun hy => plus_ne_clockText (by rwa [if_pos hx, if_neg hy] at h),
        fun hy => by_contra fun hx =>
          plus_ne_clockText (by rwa [if_neg hx, if_pos hy, eq_comm] at h)⟩
    simp only [hsign] at h
    obtain ⟨hclock, hrest⟩ :=
      clockText_append_inj (by decide) x.valid y.valid (List.append_cancel_left h)
    obtain ⟨hscenario, hrandom⟩ := rest_injective (List.cons.inj (List.cons.inj hrest).2).2
    exact ⟨hscenario, sameClock_iff.mp ⟨hclock, hsign⟩, hrandom⟩
  · rintro ⟨hscenario, hsecond, hrandom⟩
    obtain ⟨hclock, hsign⟩ := sameClock_iff.mpr hsecond
    rw [hclock.clockText_eq, rest, hscenario, hrandom, rest]
    simp only [hsign]

/-! ### Projects -/

/-- The text that the project of a run ends with. -/
def projectRest (x : RunIdentity) : List Char :=
  trimEnd (x.rest.take (35 - yearDigits (yearFromDay (day x.createdAt))))

theorem yearDigits_eq (y : ℤ) : yearDigits y = 4 ∨ yearDigits y = 6 := by
  unfold yearDigits
  split_ifs
  · exact .inl rfl
  · exact .inr rfl

/-- The name that every project starts with. -/
def projectStart : String := "fitz-destroyer-"

theorem length_projectStart : projectStart.toList.length = 15 := rfl

theorem toList_projectName (namespaceName : String) : (projectName namespaceName).toList =
    trimEnd ((projectStart.toList ++ namespaceName.toList).take 63) := by
  simp [projectName, trimEnd, projectStart, toString]

/-- The project of a run is cut off after its time stamp. -/
theorem toList_project : x.project.toList =
    projectStart.toList ++ (clockText 't' x.createdAt ++ (['z', '-'] ++ x.projectRest)) := by
  have hyear := yearDigits_eq (yearFromDay (day x.createdAt))
  have htext : (routeSegment x.runId).toList =
      clockText 't' x.createdAt ++ (['z', '-'] ++ x.rest) := by
    simp [routeSegment_runId, stamp, digits, rest]
  have hlength : projectStart.toList.length + ((clockText 't' x.createdAt).length +
      (['z', '-'].length + (35 - yearDigits (yearFromDay (day x.createdAt))))) = 63 := by
    rw [length_projectStart, length_clockText 't' x.valid, List.length_cons, List.length_singleton]
    omega
  have hne : x.rest.take (35 - yearDigits (yearFromDay (day x.createdAt))) ≠ [] := by
    rw [Ne, List.take_eq_nil_iff, rest]
    simp
    omega
  rw [project, toList_projectName, htext, ← hlength, List.take_length_add_append,
    List.take_length_add_append, List.take_length_add_append, trimEnd_append (by simp),
    trimEnd_append (by simp), trimEnd_append hne, projectRest]

/-- What is not cut off: the name, then random digits if there is room for them. -/
theorem take_rest : x.rest.take (35 - yearDigits (yearFromDay (day x.createdAt))) =
    (x.scenario.name.toList ++ ['-']).take (35 - yearDigits (yearFromDay (day x.createdAt))) ++
      (hexText x.random).take x.visibleDigits := by
  have hrest : x.rest = (x.scenario.name.toList ++ ['-']) ++ hexText x.random := by simp [rest]
  have hvisible : 35 - yearDigits (yearFromDay (day x.createdAt)) -
      (x.scenario.name.toList ++ ['-']).length = x.visibleDigits := by
    rw [visibleDigits, List.length_append, List.length_singleton]
    omega
  rw [hrest, List.take_append, hvisible]

/-- Random digits are not trimmed. -/
theorem projectRest_of_visible (h : 0 < x.visibleDigits) : x.projectRest =
    (x.scenario.name.toList ++ ['-']).take (35 - yearDigits (yearFromDay (day x.createdAt))) ++
      (hexText x.random).take x.visibleDigits := by
  have hne : (hexText x.random).take x.visibleDigits ≠ [] := by
    have hlength := length_hexText x.random
    rw [x.three] at hlength
    rw [Ne, List.take_eq_nil_iff, ← List.length_eq_zero_iff]
    omega
  have hlast : ((hexText x.random).take x.visibleDigits).getLast? ≠ some '-' := by
    intro hdash
    have hmem := List.mem_of_mem_take (List.mem_of_getLast? hdash)
    exact absurd (isPieceChar_of_mem_hexText hmem) (by decide)
  have htrim : trimEnd ((hexText x.random).take x.visibleDigits) =
      (hexText x.random).take x.visibleDigits := by
    rcases trimEnd_cases ((hexText x.random).take x.visibleDigits) with ⟨-, h⟩ | h
    · exact h
    · exact absurd (by rw [h]; simp) hlast
  rw [projectRest, take_rest, trimEnd_append hne, htrim]

/-- The start of the name is not cut off. -/
theorem isPrefix_name : x.scenario.name.toList.take 24 <+: x.projectRest := by
  have hyear := yearDigits_eq (yearFromDay (day x.createdAt))
  have hname : x.scenario.name.toList.take 24 <+: x.rest :=
    (List.take_prefix _ _).trans (List.prefix_append _ _)
  have hrest : x.projectRest <+: x.rest := (trimEnd_isPrefix_self _).trans (List.take_prefix _ _)
  have htrim := length_trimEnd (x.rest.take (35 - yearDigits (yearFromDay (day x.createdAt))))
  have hlength : x.rest.length = x.scenario.name.toList.length + 7 := by
    rw [rest, List.length_append, List.length_cons, length_hexText, x.three]
  rw [← projectRest, List.length_take, hlength] at htrim
  refine List.prefix_of_prefix_length_le hname hrest ?_
  rw [List.length_take]
  omega

/-- **Two runs have the same project** iff they differ in nothing that is not cut off. -/
theorem project_eq_iff {x y : RunIdentity} : x.project = y.project ↔ Collides x y := by
  rw [← String.toList_inj, toList_project, toList_project, List.append_cancel_left_eq]
  constructor
  · intro h
    obtain ⟨hclock, hrest⟩ := clockText_append_inj (by decide) x.valid y.valid h
    have hrest := List.append_cancel_left hrest
    have hx := isPrefix_name x
    rw [hrest] at hx
    have hscenario : x.scenario = y.scenario := by
      rcases List.prefix_or_prefix_of_prefix hx (isPrefix_name y) with h | h
      · exact scenario_eq_of_isPrefix_name h
      · exact (scenario_eq_of_isPrefix_name h).symm
    refine ⟨hscenario, hclock, ?_⟩
    have hvisible : y.visibleDigits = x.visibleDigits := by
      rw [visibleDigits, visibleDigits, hscenario, hclock.digits]
    rcases Nat.eq_zero_or_pos x.visibleDigits with hzero | hpos
    · rw [hzero, List.take_zero, List.take_zero]
    · rw [projectRest_of_visible x hpos, projectRest_of_visible y (by rwa [hvisible]), hvisible,
        hscenario, hclock.digits] at hrest
      exact List.append_cancel_left hrest
  · rintro ⟨hscenario, hclock, hrandom⟩
    have hvisible : y.visibleDigits = x.visibleDigits := by
      rw [visibleDigits, visibleDigits, hscenario, hclock.digits]
    have hrest : x.projectRest = y.projectRest := by
      rw [projectRest, projectRest, take_rest, take_rest, hrandom, hvisible, hscenario,
        hclock.digits]
    rw [hclock.clockText_eq, hrest]

theorem isSegment_fitzDestroyer : IsSegment "fitz-destroyer" :=
  ⟨[['f', 'i', 't', 'z'], ['d', 'e', 's', 't', 'r', 'o', 'y', 'e', 'r']], by decide, by decide, rfl⟩

/-- A project is the start of a segment, without a dash at its end. -/
theorem exists_isPrefix_project : ∃ text, IsSegment text ∧
    x.project.toList = trimEnd (text.toList.take 63) := by
  have hnamespace : IsSegment (routeSegment x.runId) := by
    rw [routeSegment_runId]
    exact ((isSegment_stamp x).append (isSegment_name _)).append (isSegment_digits x)
  have htext : ("fitz-destroyer" ++ "-" ++ routeSegment x.runId).toList =
      projectStart.toList ++ (routeSegment x.runId).toList := by
    rw [String.toList_append]
    rfl
  refine ⟨_, isSegment_fitzDestroyer.append hnamespace, ?_⟩
  rw [htext, project, toList_projectName]

theorem project_head? : x.project.toList.head? = some 'f' := by
  have hstart : projectStart.toList = 'f' :: "itz-destroyer-".toList := rfl
  rw [toList_project, hstart, List.cons_append, List.head?_cons]

/-- **Different ids get different projects** iff the difference is not cut off.  In every case
Compose takes the name of the project. -/
theorem isolated_iff (x y : RunIdentity) : Isolated x y ↔ (Collides x y → Same x y) := by
  constructor
  · intro h hcollides
    by_contra hsame
    exact h.different (mt runId_eq_iff.mp hsame) (project_eq_iff.mpr hcollides)
  · intro h
    obtain ⟨text, htext, hproject⟩ := exists_isPrefix_project x
    have hcut := List.take_prefix 63 text.toList
    refine ⟨?_, ?_, ⟨'f', project_head? x, by decide⟩, ?_, ?_⟩
    · intro hid heq
      exact hid (runId_eq_iff.mpr (h (project_eq_iff.mp heq)))
    · rw [hproject]
      exact (trimEnd_isPrefix_self _).length_le.trans (List.length_take_le _ _)
    · intro c hc
      rw [hproject] at hc
      exact htext.kept c (hcut.subset ((trimEnd_isPrefix_self _).subset hc))
    · rw [hproject]
      exact htext.getLast?_trimEnd hcut

/-- A run of the scenario with the longest name, with the given random bytes. -/
def longestRun (random : List UInt8) (three : random.length = 3) : RunIdentity where
  scenario := .familyActorInflightConcurrentFailure
  createdAt := 1787659205000
  valid := by decide
  random
  three

/-- Two such runs that start in the same second share their project. -/
theorem not_isolated : ¬∀ x y, Isolated x y := by
  intro h
  have hisolated := h (longestRun [0, 0, 0] rfl) (longestRun [255, 255, 255] rfl)
  have hcollides : Collides (longestRun [0, 0, 0] rfl) (longestRun [255, 255, 255] rfl) := by
    have hvisible : (longestRun [0, 0, 0] rfl).visibleDigits = 0 := by decide +kernel
    refine ⟨rfl, ⟨rfl, rfl, rfl, rfl, rfl, rfl, rfl⟩, ?_⟩
    rw [hvisible, List.take_zero, List.take_zero]
  have hdifferent : ¬Same (longestRun [0, 0, 0] rfl) (longestRun [255, 255, 255] rfl) :=
    fun hsame => absurd hsame.random (by decide)
  exact hisolated.different (mt runId_eq_iff.mp hdifferent) (project_eq_iff.mpr hcollides)

end RunIdentity

end Scenario

end FitzDestroyer
