import FitzDestroyer.Check.Fold
import FitzDestroyer.Js.Division
import FitzDestroyer.Pressure.Evidence

/-!
# Progress windows

A bombard worker logs its progress from time to time.  The host divides the run into windows, and
wants each worker to have made progress in each window and domain (`orchestration/pressure.ts`).

* `assertProgressWindows` : the check;
* `Credits` : a record is progress in a window and a domain;
* `assertProgressWindows_passes` : the check passes iff every window has such a record.
-/

namespace FitzDestroyer

namespace Pressure

open Js Workload Check

/-! ### The check -/

/-- `windows`: the number of full windows, and at least one. -/
def progressWindows (startedAtMs completedAtMs windowMs : Number) : Number :=
  let duration := Number.max (1 : ℕ) (completedAtMs.sub startedAtMs)
  Number.max (1 : ℕ) (duration.div windowMs).floor

/-- `index`: the window of a timestamp. -/
def progressIndex (windows startedAtMs windowMs timestamp : Number) : Number :=
  (windows.sub (1 : ℕ)).min ((timestamp.sub startedAtMs).div windowMs).floor

/-- The successes of one window. -/
abbrev WindowTotals := Domain → ℕ

/-- `totals[index]`, where the array has it. -/
def windowAt? (totals : List WindowTotals) (index : Number) : Option ℕ :=
  index.sequence?.filter (· < totals.length)

/-- A time, if the record is a progress record that tells it.  `dateParse` is `Date.parse`, which
returns a whole number or `NaN`. -/
def progressTimestamp? (dateParse : String → Option ℤ) (record : Record) : Option ℤ :=
  if IsEvent record "progress" then
    ((field record "timestamp").bind Json.text?).bind dateParse
  else none

section Check

variable (dateParse : String → Option ℤ) (container : String) (domains : List Domain)
  (startedAtMs completedAtMs windowMs : Number)

/-- The successes of a domain, which the window of a record tells.  Their sum is zero iff all of
them are, however it is rounded. -/
def addSuccess (window : Dict Json) (index : Number) (totals : List WindowTotals)
    (domain : Domain) : Except Thrown (List WindowTotals) := do
  let value ← objectValue (field window domain.name) s!"{container} {domain.name} progress"
  match windowAt? totals index with
  | none => throw (.error "TypeError"
      s!"Cannot read properties of undefined (reading '{domain.name}')" none)
  | some index =>
    let success ← numericValue (field value "success") s!"{container} {domain.name}.success"
    return totals.modify index fun total =>
      Function.update total domain (total domain + success)

/-- A record of the log. -/
def addProgress (windows : Number) (totals : List WindowTotals) (record : Record) :
    Except Thrown (List WindowTotals) :=
  match progressTimestamp? dateParse record with
  | none => .ok totals
  | some timestamp =>
    let timestamp : Number := .fin timestamp
    if startedAtMs.greater timestamp ∨ timestamp.greater completedAtMs then .ok totals
    else do
      let index := progressIndex windows startedAtMs windowMs timestamp
      let window ← objectValue (field record "window") s!"{container} progress window"
      domains.foldlM (addSuccess container window index) totals

/-- The windows without progress. -/
def missingWindows (totals : List WindowTotals) : List String :=
  totals.zipIdx.flatMap fun p =>
    (domains.filter fun domain => p.1 domain = 0).map fun domain =>
      s!"{container}/{domain.name}/window-{p.2}"

/-- The windows that the log of a container misses. -/
def missingProgress (log : Log) : Except Thrown (List String) :=
  let windows := progressWindows startedAtMs completedAtMs windowMs
  match windows.arrayLength? with
  | none => .error (.error "RangeError" "Invalid array length" none)
  | some length => do
    let totals ← (parseJsonRecords log).foldlM
      (addProgress dateParse container domains startedAtMs completedAtMs windowMs windows)
      (List.replicate length fun _ => 0)
    return missingWindows container domains totals

end Check

def assertProgressWindows (dateParse : String → Option ℤ) (logs : List (String × Log))
    (domains : List Domain) (startedAtMs completedAtMs windowMs : Number) :
    Except Thrown Unit := do
  let missing ← logs.mapM fun p =>
    missingProgress dateParse p.1 domains startedAtMs completedAtMs windowMs p.2
  let text := ", ".intercalate (missing.flatten.take 50)
  Check.failIf (missing.flatten ≠ []) (newError s!"Missing required pressure progress: {text}")

/-- The end of the interval that is checked: a longer sampling does not extend it. -/
def pressureVerificationCompletedAtMs (startedAtMs completedAtMs requestedDurationMs : Number) :
    Number :=
  completedAtMs.min (startedAtMs.add requestedDurationMs)

/-! ### One record -/

/-- The successes of a domain that a window tells, if it is well formed. -/
def successIn (window : Dict Json) (domain : Domain) : Option ℕ :=
  match field window domain.name with
  | some (.obj value) => (field value "success").bind Json.sequence?
  | _ => none

/-- The successes of a domain that a record tells, if it is well formed. -/
def successOf (record : Record) (domain : Domain) : Option ℕ :=
  match field record "window" with
  | some (.obj window) => successIn window domain
  | _ => none

/-- The record tells its window and the successes of all domains. -/
def Readable (domains : List Domain) (record : Record) : Prop :=
  (∃ window, field record "window" = some (.obj window)) ∧
    ∀ domain ∈ domains, ∃ n, successOf record domain = some n

/-- The successes that are summed up. -/
def totalAt (totals : List WindowTotals) (i : ℕ) (domain : Domain) : ℕ :=
  totals[i]?.elim 0 fun total => total domain

section Record

variable {dateParse : String → Option ℤ} {container : String} {domains : List Domain}
  {startedAtMs completedAtMs windowMs : Number}

theorem objectValue_eq_ok {value : Option Json} {label : String} {fields : Dict Json} :
    objectValue value label = .ok fields ↔ value = some (.obj fields) := by
  rcases value with _ | value
  · simp [objectValue]
  · cases value <;> simp [objectValue]

theorem successIn_eq_some {window : Dict Json} {domain : Domain} {n : ℕ} :
    successIn window domain = some n ↔ ∃ value, field window domain.name = some (.obj value) ∧
      (field value "success").bind Json.sequence? = some n := by
  unfold successIn
  rcases field window domain.name with _ | value
  · simp
  · cases value <;> simp

theorem totalAt_modify {totals : List WindowTotals} {i : ℕ} (hi : i < totals.length) (m i' : ℕ)
    (domain domain' : Domain) :
    totalAt (totals.modify i fun total => Function.update total domain (total domain + m)) i'
        domain' ≠ 0 ↔ totalAt totals i' domain' ≠ 0 ∨ i' = i ∧ domain' = domain ∧ 0 < m := by
  unfold totalAt
  rw [List.getElem?_modify]
  by_cases hindex : i = i'
  · subst hindex
    rw [List.getElem?_eq_getElem hi]
    by_cases hdomain : domain' = domain
    · subst hdomain
      simp only [if_true, Option.map_eq_map, Option.map_some, Option.elim_some,
        Function.update_self, true_and]
      omega
    · simp [hdomain]
  · simp [hindex, Ne.symm hindex]

theorem lt_of_windowAt? {totals : List WindowTotals} {index : Number} {i : ℕ}
    (h : windowAt? totals index = some i) : i < totals.length := by
  simpa using (Option.filter_eq_some_iff.mp h).2

theorem windowAt?_natCast {totals : List WindowTotals} {i : ℕ}
    (hlength : totals.length ≤ maxSafeInteger) (hi : i < totals.length) :
    windowAt? totals (i : Number) = some i := by
  rw [windowAt?, Number.sequence?_natCast (hi.le.trans hlength), Option.filter_some,
    if_pos (decide_eq_true hi)]

theorem addSuccess_eq_ok {window : Dict Json} {index : Number} {totals totals' : List WindowTotals}
    {domain : Domain} {i : ℕ} (hindex : windowAt? totals index = some i) :
    addSuccess container window index totals domain = .ok totals' ↔
      ∃ n, successIn window domain = some n ∧ totals' = totals.modify i fun total =>
        Function.update total domain (total domain + n) := by
  rw [addSuccess, hindex, bind_eq, bind_eq_ok]
  simp only [objectValue_eq_ok, bind_eq, bind_eq_ok, numericValue_eq_ok, pure_eq, Except.ok.injEq,
    successIn_eq_some]
  constructor
  · rintro ⟨value, hvalue, n, hn, rfl⟩
    exact ⟨n, ⟨value, hvalue, hn⟩, rfl⟩
  · rintro ⟨n, ⟨value, hvalue, hn⟩, rfl⟩
    exact ⟨value, hvalue, n, hn, rfl⟩

/-- The successes of a window have been added to the totals, for the domains before. -/
def Added (window : Dict Json) (i : ℕ) (totals totals' : List WindowTotals)
    (before : List Domain) : Prop :=
  totals'.length = totals.length ∧ ∀ i' domain,
    totalAt totals' i' domain ≠ 0 ↔ totalAt totals i' domain ≠ 0 ∨
      i' = i ∧ domain ∈ before ∧ ∃ n, successIn window domain = some n ∧ 0 < n

theorem added_nil (window : Dict Json) (i : ℕ) (totals : List WindowTotals) :
    Added window i totals totals [] := ⟨rfl, fun i' domain => by simp⟩

/-- **The domains of a record** are all read, and each of its successes is counted once. -/
theorem decides_addSuccess {window : Dict Json} {index : Number} {totals : List WindowTotals}
    {i : ℕ} (hindex : windowAt? totals index = some i) :
    Decides (addSuccess container window index) (Added window i totals)
      fun _ domain => ∃ n, successIn window domain = some n where
  sound := by
    rintro totals₁ totals₂ before domain ⟨hlength, hcounts⟩ hok
    have hindex₁ : windowAt? totals₁ index = some i := by
      rw [windowAt?, hlength]
      exact hindex
    obtain ⟨n, hn, rfl⟩ := (addSuccess_eq_ok hindex₁).mp hok
    refine ⟨⟨n, hn⟩, by rw [List.length_modify, hlength], fun i' domain' => ?_⟩
    rw [totalAt_modify (lt_of_windowAt? hindex₁), hcounts, List.mem_append, List.mem_singleton,
      or_assoc]
    refine or_congr_right ?_
    constructor
    · rintro (⟨hi, hbefore, hsuccess⟩ | ⟨rfl, rfl, hpos⟩)
      · exact ⟨hi, .inl hbefore, hsuccess⟩
      · exact ⟨rfl, .inr rfl, n, hn, hpos⟩
    · rintro ⟨hi, hbefore | rfl, hsuccess⟩
      · exact .inl ⟨hi, hbefore, hsuccess⟩
      · obtain ⟨m, hm, hpos⟩ := hsuccess
        obtain rfl := Option.some.inj (hn.symm.trans hm)
        exact .inr ⟨hi, rfl, hpos⟩
  complete := by
    rintro totals₁ before domain ⟨hlength, -⟩ ⟨n, hn⟩
    have hindex₁ : windowAt? totals₁ index = some i := by
      rw [windowAt?, hlength]
      exact hindex
    exact ⟨_, (addSuccess_eq_ok hindex₁).mpr ⟨n, hn, rfl⟩⟩

variable (dateParse startedAtMs completedAtMs) in
/-- The time of a progress record in the closed interval. -/
def TimeIn (record : Record) (timestamp : ℤ) : Prop :=
  progressTimestamp? dateParse record = some timestamp ∧
    startedAtMs.greater (.fin timestamp) = false ∧
    (Number.fin timestamp).greater completedAtMs = false

variable (dateParse startedAtMs completedAtMs windowMs) in
/-- The record is progress in the window and the domain. -/
def Credits (windows : Number) (i : ℕ) (domain : Domain) (record : Record) : Prop :=
  ∃ timestamp, TimeIn dateParse startedAtMs completedAtMs record timestamp ∧
    progressIndex windows startedAtMs windowMs (.fin timestamp) = (i : Number) ∧
    ∃ n, successOf record domain = some n ∧ 0 < n

/-- A record outside the interval is not read. -/
theorem addProgress_of_not_timeIn {windows : Number} {totals : List WindowTotals} {record : Record}
    (h : ∀ timestamp, ¬TimeIn dateParse startedAtMs completedAtMs record timestamp) :
    addProgress dateParse container domains startedAtMs completedAtMs windowMs windows totals
      record = .ok totals := by
  unfold addProgress
  split
  · rfl
  · rename_i timestamp htimestamp
    rw [if_pos]
    by_contra hin
    rw [not_or, Bool.not_eq_true, Bool.not_eq_true] at hin
    exact h timestamp ⟨htimestamp, hin⟩

theorem addProgress_of_timeIn {windows : Number} {totals : List WindowTotals} {record : Record}
    {timestamp : ℤ} (h : TimeIn dateParse startedAtMs completedAtMs record timestamp) :
    addProgress dateParse container domains startedAtMs completedAtMs windowMs windows totals
      record = (objectValue (field record "window") s!"{container} progress window").bind
        fun window => domains.foldlM (addSuccess container window
          (progressIndex windows startedAtMs windowMs (.fin timestamp))) totals := by
  obtain ⟨htimestamp, hstart, hend⟩ := h
  rw [addProgress, htimestamp]
  simp only [hstart, hend, Bool.false_eq_true, or_self, if_false]
  rfl

/-- **A log** is read iff its records in the interval are well formed, and each is counted in the
window of its timestamp. -/
theorem decides_addProgress {windows : Number} {length : ℕ} (hlength : length ≤ maxSafeInteger)
    (hindex : ∀ timestamp : ℤ, startedAtMs.greater (.fin timestamp) = false →
      (Number.fin timestamp).greater completedAtMs = false → ∃ i < length,
        progressIndex windows startedAtMs windowMs (.fin timestamp) = (i : Number)) :
    Decides
      (addProgress dateParse container domains startedAtMs completedAtMs windowMs windows)
      (fun totals before => totals.length = length ∧ ∀ i, ∀ domain ∈ domains,
        totalAt totals i domain ≠ 0 ↔ ∃ record ∈ before,
          Credits dateParse startedAtMs completedAtMs windowMs windows i domain record)
      fun _ record => ∀ timestamp, TimeIn dateParse startedAtMs completedAtMs record timestamp →
        Readable domains record where
  sound := by
    rintro totals totals' before record ⟨rfl, hcounts⟩ hok
    by_cases htime : ∃ timestamp, TimeIn dateParse startedAtMs completedAtMs record timestamp
    · -- The record falls into one window, and its successes are added there.
      obtain ⟨timestamp, htime⟩ := htime
      obtain ⟨i, hi, hprogress⟩ := hindex timestamp htime.2.1 htime.2.2
      rw [addProgress_of_timeIn htime, hprogress] at hok
      obtain ⟨window, hwindow, hfold⟩ := bind_eq_ok.mp hok
      have hwindow := objectValue_eq_ok.mp hwindow
      have hsuccess : ∀ domain, successOf record domain = successIn window domain := by
        intro domain
        rw [successOf, hwindow]
      obtain ⟨heach, hsum⟩ := (decides_addSuccess (windowAt?_natCast hlength hi)).foldlM_sound
        (added_nil window i totals) hfold
      refine ⟨fun _ _ => ⟨⟨window, hwindow⟩, fun domain hdomain => ?_⟩, hsum.1,
        fun i' domain hdomain => ?_⟩
      · rw [hsuccess]
        exact each_iff_forall.mp heach domain hdomain
      · rw [hsum.2, hcounts i' domain hdomain, List.nil_append]
        simp only [List.mem_append, List.mem_singleton, or_and_right, exists_or, exists_eq_left]
        refine or_congr_right ?_
        constructor
        · rintro ⟨rfl, -, hpos⟩
          exact ⟨timestamp, htime, hprogress, by rwa [hsuccess]⟩
        · rintro ⟨timestamp', htime', hprogress', hpos⟩
          obtain rfl := Option.some.inj (htime.1.symm.trans htime'.1)
          refine ⟨Number.natCast_injective (hprogress'.symm.trans hprogress), hdomain, ?_⟩
          rwa [← hsuccess]
    · -- A record outside the interval changes nothing.
      rw [addProgress_of_not_timeIn (not_exists.mp htime)] at hok
      obtain rfl := Except.ok.inj hok
      refine ⟨fun timestamp h => absurd ⟨timestamp, h⟩ htime, rfl, fun i domain hdomain => ?_⟩
      rw [hcounts i domain hdomain]
      simp only [List.mem_append, List.mem_singleton, or_and_right, exists_or, exists_eq_left]
      exact (or_iff_left fun hcredits => htime ⟨_, hcredits.choose_spec.1⟩).symm
  complete := by
    rintro totals before record ⟨rfl, -⟩ hreadable
    by_cases htime : ∃ timestamp, TimeIn dateParse startedAtMs completedAtMs record timestamp
    · obtain ⟨timestamp, htime⟩ := htime
      obtain ⟨i, hi, hprogress⟩ := hindex timestamp htime.2.1 htime.2.2
      obtain ⟨⟨window, hwindow⟩, hdomains⟩ := hreadable timestamp htime
      rw [addProgress_of_timeIn htime, hprogress, passes_bind]
      refine ⟨window, objectValue_eq_ok.mpr hwindow, ?_⟩
      refine (decides_addSuccess (windowAt?_natCast hlength hi)).foldlM_complete
        (added_nil window i totals) (each_iff_forall.mpr fun domain hdomain => ?_)
      have hsuccess := hdomains domain hdomain
      rwa [successOf, hwindow] at hsuccess
    · rw [addProgress_of_not_timeIn (not_exists.mp htime)]
      exact passes_ok _

/-! ### All records -/

variable (dateParse startedAtMs completedAtMs) in
/-- The record is a progress record in the closed interval. -/
def inInterval (record : Record) : Bool :=
  (progressTimestamp? dateParse record).any fun timestamp : ℤ =>
    !startedAtMs.greater (.fin timestamp) && !(Number.fin timestamp).greater completedAtMs

theorem inInterval_iff {record : Record} :
    inInterval dateParse startedAtMs completedAtMs record = true ↔
      ∃ timestamp, TimeIn dateParse startedAtMs completedAtMs record timestamp := by
  simp [inInterval, TimeIn, Option.any_eq_true]

/-- Records outside the interval have no effect. -/
theorem foldlM_addProgress_filter {windows : Number} (records : List Record)
    (totals : List WindowTotals) :
    (records.filter (inInterval dateParse startedAtMs completedAtMs)).foldlM
        (addProgress dateParse container domains startedAtMs completedAtMs windowMs windows)
        totals =
      records.foldlM
        (addProgress dateParse container domains startedAtMs completedAtMs windowMs windows)
        totals := by
  induction records generalizing totals with
  | nil => rfl
  | cons record records ih =>
    rw [List.filter_cons]
    split_ifs with hin
    · rw [List.foldlM_cons, List.foldlM_cons]
      exact congrArg _ (funext ih)
    · rw [List.foldlM_cons, addProgress_of_not_timeIn
        (not_exists.mp fun htime => hin (inInterval_iff.mpr htime)), ih]
      rfl

theorem missingWindows_eq_nil {totals : List WindowTotals} :
    missingWindows container domains totals = [] ↔
      ∀ i < totals.length, ∀ domain ∈ domains, totalAt totals i domain ≠ 0 := by
  simp only [missingWindows, List.flatMap_eq_nil_iff, List.map_eq_nil_iff,
    List.filter_eq_nil_iff, decide_eq_true_eq]
  constructor
  · intro h i hi domain hdomain
    have hmem : (totals[i], i) ∈ totals.zipIdx := List.mk_mem_zipIdx_iff_getElem?.mpr (by simp)
    simpa [totalAt, hi] using h _ hmem domain hdomain
  · rintro h ⟨total, i⟩ hmem domain hdomain
    have hget := List.mk_mem_zipIdx_iff_getElem?.mp hmem
    obtain ⟨hi, rfl⟩ := List.getElem?_eq_some_iff.mp hget
    simpa [totalAt, hi] using h i hi domain hdomain

/-- **A container** misses no window iff its records in the interval are well formed, and one of
them is progress in each window and domain. -/
theorem missingProgress_eq_nil {log : Log} {length : ℕ}
    (hlength : (progressWindows startedAtMs completedAtMs windowMs).arrayLength? = some length)
    (hsafe : length ≤ maxSafeInteger)
    (hindex : ∀ timestamp : ℤ, startedAtMs.greater (.fin timestamp) = false →
      (Number.fin timestamp).greater completedAtMs = false → ∃ i < length,
        progressIndex (progressWindows startedAtMs completedAtMs windowMs) startedAtMs windowMs
          (.fin timestamp) = (i : Number)) :
    missingProgress dateParse container domains startedAtMs completedAtMs windowMs log = .ok [] ↔
      (∀ record ∈ parseJsonRecords log, ∀ timestamp,
        TimeIn dateParse startedAtMs completedAtMs record timestamp → Readable domains record) ∧
      ∀ i < length, ∀ domain ∈ domains, ∃ record ∈ parseJsonRecords log,
        Credits dateParse startedAtMs completedAtMs windowMs
          (progressWindows startedAtMs completedAtMs windowMs) i domain record := by
  have hdecides : Decides (addProgress dateParse container domains startedAtMs completedAtMs
      windowMs (progressWindows startedAtMs completedAtMs windowMs)) _ _ :=
    decides_addProgress hsafe hindex
  have hstart : (List.replicate length fun _ => 0 : List WindowTotals).length = length ∧
      ∀ i, ∀ domain ∈ domains, totalAt (List.replicate length fun _ => 0) i domain ≠ 0 ↔
        ∃ record ∈ ([] : List Record), Credits dateParse startedAtMs completedAtMs windowMs
          (progressWindows startedAtMs completedAtMs windowMs) i domain record := by
    refine ⟨List.length_replicate, fun i domain _ => ?_⟩
    simp only [totalAt, List.getElem?_replicate, List.not_mem_nil, false_and, exists_false,
      iff_false, not_not]
    split_ifs <;> rfl
  rw [missingProgress]
  simp only [hlength, bind_eq, bind_eq_ok, pure_eq, Except.ok.injEq, missingWindows_eq_nil]
  constructor
  · rintro ⟨totals, hfold, hcovered⟩
    obtain ⟨heach, hlength', hcounts⟩ := hdecides.foldlM_sound hstart hfold
    rw [List.nil_append] at hcounts
    refine ⟨each_iff_forall.mp heach, fun i hi domain hdomain => ?_⟩
    exact (hcounts i domain hdomain).mp (hcovered i (hi.trans_eq hlength'.symm) domain hdomain)
  · rintro ⟨hreadable, hcovered⟩
    obtain ⟨totals, hfold⟩ := hdecides.foldlM_complete hstart (each_iff_forall.mpr hreadable)
    obtain ⟨-, hlength', hcounts⟩ := hdecides.foldlM_sound hstart hfold
    rw [List.nil_append] at hcounts
    exact ⟨totals, hfold, fun i hi domain hdomain =>
      (hcounts i domain hdomain).mpr (hcovered i (hi.trans_eq hlength') domain hdomain)⟩

end Record

/-- **The check passes** iff no container misses a window. -/
theorem assertProgressWindows_passes {dateParse : String → Option ℤ} {logs : List (String × Log)}
    {domains : List Domain} {startedAtMs completedAtMs windowMs : Number} :
    Passes (assertProgressWindows dateParse logs domains startedAtMs completedAtMs windowMs) ↔
      ∀ p ∈ logs,
        missingProgress dateParse p.1 domains startedAtMs completedAtMs windowMs p.2 = .ok [] := by
  simp only [assertProgressWindows, bind_eq, passes_bind, passes_unit, failIf_eq_ok, not_not,
    List.flatten_eq_nil_iff, exists_mapM_forall, exists_eq_right]

end Pressure

end FitzDestroyer
