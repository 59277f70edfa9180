import FitzDestroyer.Pressure.Progress
import Mathlib.Data.Rat.Floor

/-!
# What the progress windows are

* `windowCount`, `InWindow` : the full windows of an interval, of which the last takes the rest;
* `progressWindows_intCast`, `progressIndex_intCast` : the check computes them, for whole numbers of
  milliseconds;
* `assertProgressWindows_iff` : so it passes iff each window has progress.
-/

namespace FitzDestroyer

namespace Pressure

open Js Workload Check

/-! ### Windows -/

/-- The number of full windows of the interval, or one if none is full. -/
def windowCount (startedAtMs completedAtMs windowMs : ℚ) : ℕ :=
  max 1 ((completedAtMs - startedAtMs) / windowMs).floor.toNat

/-- The timestamp is in a window, of which the last has no end of its own. -/
def InWindow (startedAtMs completedAtMs windowMs : ℚ) (index : ℕ) (timestamp : ℚ) : Prop :=
  startedAtMs + index * windowMs ≤ timestamp ∧
    (timestamp < startedAtMs + (index + 1) * windowMs ∨
      index + 1 = windowCount startedAtMs completedAtMs windowMs)

section Covered

variable (dateParse : String → Option ℤ) (domains : List Domain)
  (startedAtMs completedAtMs windowMs : ℚ)

/-- The record is a progress record of a time in the closed interval. -/
def At (record : Record) (timestamp : ℤ) : Prop :=
  progressTimestamp? dateParse record = some timestamp ∧
    startedAtMs ≤ timestamp ∧ timestamp ≤ completedAtMs

/-- Each window has a record of progress in each domain. -/
def Covered (log : Log) : Prop :=
  ∀ domain ∈ domains, ∀ index < windowCount startedAtMs completedAtMs windowMs,
    ∃ record ∈ parseJsonRecords log, ∃ timestamp, At dateParse startedAtMs completedAtMs record
      timestamp ∧ InWindow startedAtMs completedAtMs windowMs index timestamp ∧
        ∃ n, successOf record domain = some n ∧ 0 < n

/-- The records in the interval are well formed. -/
def WellFormed (log : Log) : Prop :=
  ∀ record ∈ parseJsonRecords log, ∀ timestamp,
    At dateParse startedAtMs completedAtMs record timestamp → Readable domains record

end Covered

/-! ### Whole numbers of milliseconds -/

section Whole

variable {s e : ℤ} {w : ℕ}

theorem windowCount_intCast (hw : 0 < w) : windowCount s e w = max 1 ((e - s).toNat / w) := by
  have hfloor : (((e : ℚ) - s) / w).floor = (e - s) / (w : ℤ) := by
    rw [← Int.cast_sub]
    exact Rat.floor_intCast_div_natCast _ _
  rw [windowCount, hfloor]
  rcases le_total 0 (e - s) with hle | hle
  · obtain ⟨n, hn⟩ := Int.eq_ofNat_of_zero_le hle
    rw [hn, ← Int.natCast_div, Int.toNat_natCast, Int.toNat_natCast]
  · rw [Int.toNat_of_nonpos hle, Nat.zero_div,
      Int.toNat_of_nonpos (Int.ediv_nonpos_of_nonpos_of_neg hle (by exact_mod_cast hw))]

theorem windowCount_pos (s e w : ℚ) : 0 < windowCount s e w := Nat.lt_of_lt_of_le one_pos
  (le_max_left 1 _)

theorem greater_intCast {s t : ℤ} : (Number.fin s).greater (.fin t) = false ↔ s ≤ t := by
  simp [Number.greater, Number.lessEq]

/-- `Math.max(1, value)`. -/
theorem max_one_natCast (n : ℕ) :
    Number.max ((1 : ℕ) : Number) (n : Number) = ((max 1 n : ℕ) : Number) := by
  show Number.fin _ = .fin _
  rw [Nat.cast_max]

theorem max_one_round {q : ℚ} (h : q ≤ 0) :
    Number.max ((1 : ℕ) : Number) (Number.round q) = .fin 1 := by
  have hatMost := Number.round_atMost (n := 0) (by exact_mod_cast h) (Nat.zero_le _)
  cases hround : Number.round q with
  | fin p =>
    rw [hround] at hatMost
    have hp : p ≤ 0 := by exact_mod_cast hatMost
    show Number.fin (max ((1 : ℕ) : ℚ) p) = .fin 1
    rw [Nat.cast_one, max_eq_left (hp.trans zero_le_one)]
  | negInf => exact congrArg Number.fin Nat.cast_one
  | _ =>
    rw [hround] at hatMost
    exact hatMost.elim

/-- The windows that the check computes. -/
theorem progressWindows_intCast (hw : 0 < w) (hsafe : w ≤ maxSafeInteger)
    (hlength : e - s ≤ maxSafeInteger) :
    progressWindows (.fin s) (.fin e) (w : Number) = (windowCount s e w : Number) := by
  have hduration : Number.max ((1 : ℕ) : Number) ((Number.fin e).sub (.fin s)) =
      ((max 1 (e - s).toNat : ℕ) : Number) := by
    rcases le_total s e with hle | hle
    · rw [Number.sub_intCast hle hlength, max_one_natCast]
    · -- The interval is empty.
      have hneg : (e : ℚ) + -s ≤ 0 := by
        rw [← sub_eq_add_neg, sub_nonpos]
        exact_mod_cast hle
      rw [Int.toNat_of_nonpos (sub_nonpos.mpr hle)]
      exact max_one_round hneg
  have hmax : max 1 (e - s).toNat ≤ maxSafeInteger :=
    max_le (by decide) (Int.toNat_le.mpr hlength)
  rw [progressWindows, hduration, Number.floor_div hmax hw hsafe, max_one_natCast,
    windowCount_intCast hw]
  congr 2
  rcases Nat.eq_zero_or_pos (e - s).toNat with hzero | hpos
  · have hone : 1 / w ≤ 1 := Nat.div_le_self 1 w
    rw [hzero, Nat.zero_div]
    simpa using hone
  · rw [(max_eq_right hpos : max 1 (e - s).toNat = (e - s).toNat)]

/-- The index that it computes. -/
theorem progressIndex_intCast {t : ℤ} (hw : 0 < w) (hsafe : w ≤ maxSafeInteger)
    (hlength : e - s ≤ maxSafeInteger) (hs : s ≤ t) (he : t ≤ e) :
    progressIndex (windowCount s e w : Number) (.fin s) (w : Number) (.fin t) =
      (min (windowCount s e w - 1) ((t - s).toNat / w) : ℕ) := by
  have hpos := windowCount_pos s e w
  have hcount : windowCount s e w ≤ maxSafeInteger := by
    rw [windowCount_intCast hw]
    exact max_le (by decide) ((Nat.div_le_self _ _).trans (Int.toNat_le.mpr hlength))
  have hlast : ((windowCount s e w : ℕ) : Number).sub ((1 : ℕ) : Number) =
      ((windowCount s e w - 1 : ℕ) : Number) := by
    have hsub := Number.sub_intCast (s := 1) (t := windowCount s e w) (by omega) (by omega)
    rw [show ((windowCount s e w : ℤ) - 1).toNat = windowCount s e w - 1 by omega] at hsub
    exact_mod_cast hsub
  rw [progressIndex, hlast, Number.sub_intCast hs (by omega),
    Number.floor_div (by omega) hw hsafe]
  show Number.fin _ = .fin _
  rw [Nat.cast_min]

/-- A timestamp of the interval is in the window of its index. -/
theorem inWindow_intCast {t : ℤ} {index : ℕ} (hw : 0 < w) (hs : s ≤ t)
    (hindex : index < windowCount s e w) : InWindow s e w index t ↔
      min (windowCount s e w - 1) ((t - s).toNat / w) = index := by
  obtain ⟨n, hn⟩ := Int.eq_ofNat_of_zero_le (sub_nonneg.mpr hs)
  obtain rfl : t = s + n := by omega
  have hlow : (s : ℚ) + index * w ≤ (s + n : ℤ) ↔ index ≤ n / w := by
    rw [Nat.le_div_iff_mul_le hw]
    push_cast
    rw [add_le_add_iff_left]
    exact_mod_cast Iff.rfl
  have hhigh : ((s + n : ℤ) : ℚ) < s + (index + 1) * w ↔ n / w < index + 1 := by
    rw [Nat.div_lt_iff_lt_mul hw]
    push_cast
    rw [add_lt_add_iff_left]
    exact_mod_cast Iff.rfl
  rw [InWindow, hlow, hhigh, hn, Int.toNat_natCast]
  omega

theorem timeIn_intCast {dateParse : String → Option ℤ} {record : Record} {timestamp : ℤ} :
    TimeIn dateParse (.fin s) (.fin e) record timestamp ↔ At dateParse s e record timestamp := by
  rw [TimeIn, At, greater_intCast, greater_intCast, Int.cast_le, Int.cast_le]

/-- The index of a timestamp is one of a window. -/
theorem index_lt_windowCount (s e w : ℚ) (n : ℕ) :
    min (windowCount s e w - 1) n < windowCount s e w := by
  have := windowCount_pos s e w
  omega

/-- **A container** misses no window iff its log is well formed and covers them. -/
theorem missingProgress_intCast {dateParse : String → Option ℤ} {container : String}
    {domains : List Domain} {log : Log} (hw : 0 < w) (hsafe : w ≤ maxSafeInteger)
    (hlength : e - s ≤ maxSafeInteger) :
    missingProgress dateParse container domains (.fin s) (.fin e) (w : Number) log = .ok [] ↔
      windowCount s e w < 2 ^ 32 ∧ WellFormed dateParse domains s e log ∧
        Covered dateParse domains s e w log := by
  have hwindows := progressWindows_intCast hw hsafe hlength
  have hfloor : ((windowCount s e w : ℚ)).floor.toNat = windowCount s e w := by
    rw [Number.floor_eq (k := windowCount s e w) (by norm_cast) (by push_cast; linarith)]
    exact Int.toNat_natCast _
  by_cases hcount : windowCount s e w < 2 ^ 32
  · have harray : (progressWindows (.fin s) (.fin e) (w : Number)).arrayLength? =
        some (windowCount s e w) := by
      rw [hwindows]
      simp only [Number.arrayLength?, hfloor, hcount, if_true]
    rw [missingProgress_eq_nil harray (hcount.le.trans (by decide)) fun t hs he =>
      ⟨_, index_lt_windowCount s e w _, by
        rw [hwindows]
        exact progressIndex_intCast hw hsafe hlength (greater_intCast.mp hs)
          (greater_intCast.mp he)⟩]
    simp only [hcount, true_and, timeIn_intCast]
    refine and_congr_right fun _ => ?_
    -- A record is progress in a window iff its timestamp is.
    have hcredits : ∀ i < windowCount s e w, ∀ domain record,
        Credits dateParse (.fin s) (.fin e) (w : Number)
            (progressWindows (.fin s) (.fin e) (w : Number)) i domain record ↔
          ∃ timestamp, At dateParse s e record timestamp ∧ InWindow s e w i timestamp ∧
            ∃ n, successOf record domain = some n ∧ 0 < n := by
      intro i hi domain record
      unfold Credits
      refine exists_congr fun t => ?_
      rw [timeIn_intCast]
      refine and_congr_right fun ⟨_, hs, he⟩ => and_congr_left fun _ => ?_
      rw [hwindows, progressIndex_intCast hw hsafe hlength (by exact_mod_cast hs)
        (by exact_mod_cast he), inWindow_intCast hw (by exact_mod_cast hs) hi,
        Number.natCast_injective.eq_iff]
    constructor
    · intro h domain hdomain i hi
      obtain ⟨record, hrecord, hcredit⟩ := h i hi domain hdomain
      exact ⟨record, hrecord, (hcredits i hi domain record).mp hcredit⟩
    · intro h i hi domain hdomain
      obtain ⟨record, hrecord, hcovers⟩ := h domain hdomain i hi
      exact ⟨record, hrecord, (hcredits i hi domain record).mpr hcovers⟩
  · have harray : (progressWindows (.fin s) (.fin e) (w : Number)).arrayLength? = none := by
      rw [hwindows]
      simp only [Number.arrayLength?, hfloor, hcount, if_false]
    simp only [missingProgress, harray, hcount, reduceCtorEq, false_and]

end Whole

/-- The check sees the records of the interval only. -/
theorem assertProgressWindows_congr {dateParse : String → Option ℤ}
    {logs logs' : List (String × Log)} {domains : List Domain}
    {startedAtMs completedAtMs windowMs : Number}
    (h : List.Forall₂ (fun p q => p.1 = q.1 ∧
      (parseJsonRecords p.2).filter (inInterval dateParse startedAtMs completedAtMs) =
        (parseJsonRecords q.2).filter (inInterval dateParse startedAtMs completedAtMs))
      logs logs') :
    assertProgressWindows dateParse logs' domains startedAtMs completedAtMs windowMs =
      assertProgressWindows dateParse logs domains startedAtMs completedAtMs windowMs := by
  have hmissing : logs'.mapM (fun p =>
        missingProgress dateParse p.1 domains startedAtMs completedAtMs windowMs p.2) =
      logs.mapM fun p =>
        missingProgress dateParse p.1 domains startedAtMs completedAtMs windowMs p.2 := by
    induction h with
    | nil => rfl
    | @cons p q logs logs' hsame _ ih =>
      have hhead : missingProgress dateParse q.1 domains startedAtMs completedAtMs windowMs q.2 =
          missingProgress dateParse p.1 domains startedAtMs completedAtMs windowMs p.2 := by
        simp only [missingProgress, ← foldlM_addProgress_filter (parseJsonRecords p.2),
          ← foldlM_addProgress_filter (parseJsonRecords q.2), hsame.1, hsame.2]
      rw [List.mapM_cons, List.mapM_cons, ih, hhead]
  rw [assertProgressWindows, hmissing]
  rfl

/-- **The check of progress windows.**  For whole numbers of milliseconds it passes iff the number
of windows is the length of an array, the records of the interval are well formed, and each window
has progress in each domain.  Each timestamp of the interval is in one window, and records outside
it have no effect. -/
theorem assertProgressWindows_iff (dateParse : String → Option ℤ) (logs : List (String × Log))
    (domains : List Domain) {startedAtMs completedAtMs : ℤ} {windowMs : ℕ} (hpos : 0 < windowMs)
    (hsafe : windowMs ≤ maxSafeInteger) (hlength : completedAtMs - startedAtMs ≤ maxSafeInteger) :
    (Passes (assertProgressWindows dateParse logs domains (.fin startedAtMs) (.fin completedAtMs)
        (windowMs : Number)) ↔
      ∀ p ∈ logs, windowCount startedAtMs completedAtMs windowMs < 2 ^ 32 ∧
        WellFormed dateParse domains startedAtMs completedAtMs p.2 ∧
        Covered dateParse domains startedAtMs completedAtMs windowMs p.2) ∧
    (∀ timestamp : ℤ, startedAtMs ≤ timestamp → timestamp ≤ completedAtMs →
      ∃! index, index < windowCount startedAtMs completedAtMs windowMs ∧
        InWindow startedAtMs completedAtMs windowMs index timestamp) ∧
    ∀ logs', List.Forall₂ (fun p q => p.1 = q.1 ∧
        (parseJsonRecords p.2).filter
            (inInterval dateParse (.fin startedAtMs) (.fin completedAtMs)) =
          (parseJsonRecords q.2).filter
            (inInterval dateParse (.fin startedAtMs) (.fin completedAtMs))) logs logs' →
      assertProgressWindows dateParse logs' domains (.fin startedAtMs) (.fin completedAtMs)
          (windowMs : Number) =
        assertProgressWindows dateParse logs domains (.fin startedAtMs) (.fin completedAtMs)
          (windowMs : Number) := by
  refine ⟨?_, fun t hs he => ?_, fun logs' hsame => ?_⟩
  · rw [assertProgressWindows_passes]
    exact forall₂_congr fun p _ => missingProgress_intCast hpos hsafe hlength
  · refine ⟨_, ⟨index_lt_windowCount _ _ _ _,
      (inWindow_intCast hpos hs (index_lt_windowCount _ _ _ _)).mpr rfl⟩, fun index hindex => ?_⟩
    exact ((inWindow_intCast hpos hs hindex.1).mp hindex.2).symm
  · exact assertProgressWindows_congr hsame

/-- A record of a queue worker that has made progress at the start of 1970. -/
def progressLog : Log :=
  [logLine "progress" [("timestamp", .str "1970-01-01T00:00:00.000Z"),
    ("window", .obj [("queue", .obj [("success", .count 1), ("error", .count 0)])])]]

/-- The times of this text. -/
def parseProgressDate (text : String) : Option ℤ :=
  if text = "1970-01-01T00:00:00.000Z" then some 0 else none

/-- The worker has made progress in the only window. -/
theorem progressLog_covered :
    windowCount (0 : ℤ) (9999 : ℤ) (10000 : ℕ) < 2 ^ 32 ∧
      WellFormed parseProgressDate [.queue] (0 : ℤ) (9999 : ℤ) progressLog ∧
      Covered parseProgressDate [.queue] (0 : ℤ) (9999 : ℤ) (10000 : ℕ) progressLog :=
  (assertProgressWindows_iff parseProgressDate [("client", progressLog)] [.queue] (by decide)
    (by decide) (by decide)).1.mp ⟨(), by decide +kernel⟩ ("client", progressLog)
      List.mem_cons_self

/-- **Windows of half a millisecond** are more than the interval has: an empty interval counts as
a millisecond. -/
theorem not_exact_halfMillisecond :
    ¬∀ dateParse logs domains (startedAtMs completedAtMs windowMs : ℚ), 0 < windowMs →
      (∀ p ∈ logs, WellFormed dateParse domains startedAtMs completedAtMs p.2) →
        (Passes (assertProgressWindows dateParse logs domains (.fin startedAtMs)
            (.fin completedAtMs) (.fin windowMs)) ↔
          ∀ p ∈ logs, Covered dateParse domains startedAtMs completedAtMs windowMs p.2) := by
  intro hexact
  have hwellFormed : WellFormed parseProgressDate [.queue] 0 0 progressLog := by
    intro record hrecord timestamp _
    obtain rfl := List.mem_singleton.mp hrecord
    refine ⟨⟨_, rfl⟩, fun domain hdomain => ⟨1, ?_⟩⟩
    obtain rfl := List.mem_singleton.mp hdomain
    decide +kernel
  -- No window is full, so the interval is one window.
  have hcount : windowCount 0 0 (1 / 2) = 1 := by decide +kernel
  have hcovered : Covered parseProgressDate [.queue] 0 0 (1 / 2) progressLog := by
    intro domain hdomain index hindex
    obtain rfl := List.mem_singleton.mp hdomain
    obtain rfl : index = 0 := by omega
    refine ⟨_, List.mem_cons_self, 0, ⟨by decide +kernel, by norm_num, by norm_num⟩,
      ⟨by norm_num, by norm_num⟩, 1, by decide +kernel, one_pos⟩
  have hpasses := (hexact parseProgressDate [("client", progressLog)] [.queue] 0 0 (1 / 2)
    (by norm_num) fun p hp => by rwa [List.mem_singleton.mp hp]).mpr fun p hp => by
      rwa [List.mem_singleton.mp hp]
  rw [passes_unit] at hpasses
  revert hpasses
  decide +kernel

end Pressure

end FitzDestroyer
