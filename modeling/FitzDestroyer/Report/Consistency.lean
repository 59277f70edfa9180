import FitzDestroyer.Report.Build

/-!
# Consistency of a report

The tallies of a report are made in separate passes over its entries.

* `Consistent` : the tallies agree with each other and with the summaries;
* `countVerdict_sum`, `cleanup_sum`, `slowest_spec` : the tallies that always agree;
* `classes_iff` : the failure classes agree iff every failure has a declared class;
* `report_consistent_iff` : when a report is consistent.
-/

namespace FitzDestroyer

namespace Report

open Js Workload Scenario

/-! ### Consistency -/

/-- The scenarios with exactly one summary, with their durations. -/
def recorded (expected : List ConcreteScenario) (results : List ScenarioSummary) :
    List (ConcreteScenario × Number) :=
  expected.filterMap fun scenario => (reportEntry results scenario).durationMs.map (scenario, ·)

/-- The first entry of maximal duration. -/
def FirstMaximal (entries : List (ConcreteScenario × Number))
    (slowest : ConcreteScenario × Number) : Prop :=
  ∃ before after, entries = before ++ slowest :: after ∧
    (∀ entry ∈ before, slowest.2.greater entry.2 = true) ∧
      ∀ entry ∈ after, entry.2.lessEq slowest.2 = true

/-- **A report is consistent** with the summaries it is made of. -/
structure Consistent (expected : List ConcreteScenario) (results : List ScenarioSummary)
    (report : DestroyerReport) : Prop where
  totals : report.totals.passed + report.totals.failed + report.totals.missing = expected.length
  verdict : report.verdict = .passed ↔
    report.analysisResult = "success" ∧ report.matrixResult = "success" ∧
      ∀ scenario ∈ expected, ∃ result, matching results scenario = [result] ∧
        result.verdict = .passed
  classes : report.failureClasses.map Prod.fst = failureClassOrder
  counts : ∃ counts : List ℕ, report.failureClasses.map Prod.snd = counts.map some ∧
    counts.sum = report.totals.failed + report.totals.missing
  cleanup : report.cleanup.total = expected.length
  total : report.timing.recordedTotalMs =
    ((recorded expected results).map Prod.snd).foldl Number.add (.fin 0)
  slowest : report.timing.slowest = none ∧ recorded expected results = [] ∨
    ∃ slowest, report.timing.slowest = some slowest ∧
      FirstMaximal (recorded expected results) slowest

/-! ### The loop over the entries -/

section Tally

variable (entries : List DestroyerReportEntry) (t : Tallies)

/-- The keys of the failure classes that are counted. -/
def classKeys (entries : List DestroyerReportEntry) : List String :=
  entries.filterMap fun entry =>
    if entry.verdict = .passed then none else classKey entry.failureClassification

theorem failureClasses_foldl : (entries.foldl tally t).failureClasses =
    (classKeys entries).foldl countClass t.failureClasses := by
  induction entries generalizing t with
  | nil => rfl
  | cons entry entries ih =>
    rw [List.foldl_cons, ih, tally]
    simp only [classKeys, List.filterMap_cons]
    by_cases hpassed : entry.verdict = .passed
    · simp only [hpassed, if_true]
    · simp only [hpassed, if_false]
      cases classKey entry.failureClassification <;> rfl

theorem total_countCleanup (cleanup : CleanupCounts) (state : Option CleanupState) :
    (countCleanup cleanup state).total = cleanup.total + 1 := by
  rcases state with _ | _ | _ | _ <;> simp only [countCleanup, CleanupCounts.total] <;> omega

theorem cleanup_foldl : (entries.foldl tally t).cleanup.total =
    t.cleanup.total + entries.length := by
  induction entries generalizing t with
  | nil => rfl
  | cons entry entries ih =>
    rw [List.foldl_cons, ih, tally, total_countCleanup, List.length_cons]
    omega

/-- The durations of the entries. -/
def durations (entries : List DestroyerReportEntry) : List (ConcreteScenario × Number) :=
  entries.filterMap fun entry => entry.durationMs.map (entry.scenario, ·)

theorem timing_foldl : (entries.foldl tally t).timing =
    (durations entries).foldl (fun timing p => addDuration timing p.1 p.2) t.timing := by
  induction entries generalizing t with
  | nil => rfl
  | cons entry entries ih =>
    rw [List.foldl_cons, ih, tally]
    simp only [durations, List.filterMap_cons]
    cases entry.durationMs <;> rfl

end Tally

/-! ### Durations -/

theorem recordedTotalMs_foldl (entries : List (ConcreteScenario × Number)) (timing : Timing) :
    (entries.foldl (fun timing p => addDuration timing p.1 p.2) timing).recordedTotalMs =
      (entries.map Prod.snd).foldl Number.add timing.recordedTotalMs := by
  induction entries generalizing timing with
  | nil => rfl
  | cons entry entries ih => rw [List.foldl_cons, ih, List.map_cons, List.foldl_cons, addDuration]

theorem lessEq_of_not_greater {x y : Number} (hx : x ≠ .nan) (hy : y ≠ .nan)
    (h : ¬x.greater y = true) : x.lessEq y = true := by
  simpa [Number.greater, hx, hy] using h

theorem greater_trans_lessEq {x y z : Number} (hxy : x.greater y = true)
    (hzy : z.lessEq y = true) : x.greater z = true := by
  cases x <;> cases y <;> cases z <;> simp_all [Number.greater, Number.lessEq]
  exact hzy.trans_lt hxy

theorem lessEq_of_greater {x y : Number} (h : x.greater y = true) : y.lessEq x = true := by
  cases x <;> cases y <;> simp_all [Number.greater, Number.lessEq]
  exact h.le

/-- One more entry. -/
theorem FirstMaximal.append {entries : List (ConcreteScenario × Number)}
    {slowest entry : ConcreteScenario × Number} (h : FirstMaximal entries slowest)
    (hslowest : slowest.2 ≠ .nan) (hentry : entry.2 ≠ .nan) :
    FirstMaximal (entries ++ [entry])
      (if entry.2.greater slowest.2 then entry else slowest) := by
  obtain ⟨before, after, rfl, hbefore, hafter⟩ := h
  split_ifs with hgreater
  · refine ⟨before ++ slowest :: after, [], rfl, fun p hp => ?_, fun p hp => ?_⟩
    · obtain hp | hp := List.mem_append.mp hp
      · exact greater_trans_lessEq hgreater (lessEq_of_greater (hbefore p hp))
      · obtain rfl | hp := List.mem_cons.mp hp
        · exact hgreater
        · exact greater_trans_lessEq hgreater (hafter p hp)
    · exact absurd hp List.not_mem_nil
  · refine ⟨before, after ++ [entry], by simp, hbefore, fun p hp => ?_⟩
    obtain hp | hp := List.mem_append.mp hp
    · exact hafter p hp
    · obtain rfl := List.mem_singleton.mp hp
      exact lessEq_of_not_greater hentry hslowest hgreater

/-- **The slowest entry** is the first one of maximal duration. -/
theorem slowest_foldl {entries : List (ConcreteScenario × Number)}
    (h : ∀ p ∈ entries, p.2 ≠ .nan) :
    let timing := entries.foldl (fun timing p => addDuration timing p.1 p.2) ⟨.fin 0, none⟩
    timing.slowest = none ∧ entries = [] ∨
      ∃ slowest ∈ entries, timing.slowest = some slowest ∧ FirstMaximal entries slowest := by
  induction entries using List.reverseRecOn with
  | nil => exact .inl ⟨rfl, rfl⟩
  | append_singleton entries entry ih =>
    right
    have hentry : entry.2 ≠ .nan := h entry (by simp)
    have hentries : ∀ p ∈ entries, p.2 ≠ .nan := fun p hp => h p (List.mem_append_left _ hp)
    rw [List.foldl_append, List.foldl_cons, List.foldl_nil, addDuration]
    obtain ⟨hnone, rfl⟩ | ⟨slowest, hmem, hsome, hmaximal⟩ := ih hentries
    · exact ⟨entry, by simp, rfl, [], [], rfl, by simp, by simp⟩
    · rw [hsome]
      refine ⟨if entry.2.greater slowest.2 then entry else slowest, ?_, ?_,
        hmaximal.append (hentries slowest hmem) hentry⟩
      · split_ifs
        · exact List.mem_append_right _ List.mem_cons_self
        · exact List.mem_append_left _ hmem
      · dsimp only
        split_ifs <;> rfl

/-! ### Failure classes -/

/-- A table with the declared classes, whose counts have this sum. -/
def Declared (classes : Dict (Option ℕ)) (total : ℕ) : Prop :=
  classes.map Prod.fst = failureClassOrder ∧
    ∃ counts : List ℕ, classes.map Prod.snd = counts.map some ∧ counts.sum = total

theorem nodup_failureClassOrder : failureClassOrder.Nodup := by decide

theorem Declared.countClass {classes : Dict (Option ℕ)} {total : ℕ} {key : String}
    (h : Declared classes total) (hkey : key ∈ failureClassOrder) :
    Declared (countClass classes key) (total + 1) := by
  obtain ⟨hkeys, counts, hcounts, hsum⟩ := h
  have hproto : key ≠ "__proto__" := by
    rintro rfl
    revert hkey
    decide
  have hsome : (Dict.get? classes key).isSome := by
    rw [← not_not (a := (Dict.get? classes key).isSome = true), Option.not_isSome_iff_eq_none,
      Dict.get?_eq_none, hkeys]
    exact not_not.mpr hkey
  obtain ⟨value, hvalue⟩ := Option.isSome_iff_exists.mp hsome
  obtain ⟨l, r, -, rfl, hset⟩ :=
    Dict.set_of_get? (hkeys ▸ nodup_failureClassOrder) hvalue
  rw [Report.countClass, if_neg hproto, hvalue, Option.getD_some, hset]
  -- The count of the class stands among the others.
  rw [List.map_append, List.map_cons] at hcounts
  obtain ⟨left, rest, rfl, hleft, hrest⟩ := List.map_eq_append_iff.mp hcounts.symm
  obtain ⟨n, right, rfl, hn, hright⟩ := List.map_eq_cons_iff.mp hrest
  dsimp only at hn
  subst hn
  refine ⟨by simpa using hkeys, left ++ (n + 1) :: right, ?_, ?_⟩
  · rw [List.map_append, List.map_cons, List.map_append, List.map_cons, hleft, hright]
    rfl
  · simp only [List.sum_append, List.sum_cons] at hsum ⊢
    omega

/-- What is counted for a table stays in it. -/
theorem mem_countClass {classes : Dict (Option ℕ)} {key key' : String} :
    (key' ∈ classes.map Prod.fst → key' ∈ (countClass classes key).map Prod.fst) ∧
      (key ≠ "__proto__" → key ∈ (countClass classes key).map Prod.fst) := by
  unfold countClass
  split_ifs with hproto
  · exact ⟨id, fun h => absurd hproto h⟩
  · generalize ((Dict.get? classes key).getD none |>.map (· + 1)) = value
    unfold Dict.set
    split_ifs with hany
    · have hmap : (classes.map fun p => if p.1 = key then (key, value) else p).map Prod.fst =
          classes.map Prod.fst := by
        rw [List.map_map]
        refine List.map_congr_left fun p _ => ?_
        rw [Function.comp_apply]
        split_ifs with hp
        · exact hp.symm
        · rfl
      rw [hmap]
      refine ⟨id, fun _ => ?_⟩
      obtain ⟨p, hp, hpkey⟩ := List.any_eq_true.mp hany
      exact List.mem_map.mpr ⟨p, hp, of_decide_eq_true hpkey⟩
    · rw [List.map_append]
      exact ⟨List.mem_append_left _, fun _ => List.mem_append_right _ (List.mem_singleton.mpr rfl)⟩

theorem mem_foldl_countClass {keys : List String} {classes : Dict (Option ℕ)} {key : String}
    (h : key ∈ classes.map Prod.fst ∨ key ∈ keys ∧ key ≠ "__proto__") :
    key ∈ (keys.foldl countClass classes).map Prod.fst := by
  induction keys generalizing classes with
  | nil => exact h.resolve_right fun h => absurd h.1 List.not_mem_nil
  | cons key' keys ih =>
    refine ih ?_
    obtain h | ⟨h, hproto⟩ := h
    · exact .inl (mem_countClass.1 h)
    · obtain rfl | h := List.mem_cons.mp h
      · exact .inl ((@mem_countClass classes key key).2 hproto)
      · exact .inr ⟨h, hproto⟩

/-- The declared keys are counted, and `__proto__` is not. -/
theorem Declared.foldl {keys : List String} {classes : Dict (Option ℕ)} {total : ℕ}
    (h : Declared classes total)
    (hkeys : ∀ key ∈ keys, key ∈ failureClassOrder ∨ key = "__proto__") :
    Declared (keys.foldl Report.countClass classes)
      (total + keys.countP (· ∈ failureClassOrder)) := by
  induction keys generalizing classes total with
  | nil => exact h
  | cons key keys ih =>
    obtain ⟨hkey, hkeys⟩ := List.forall_mem_cons.mp hkeys
    rw [List.foldl_cons, List.countP_cons]
    by_cases hdeclared : key ∈ failureClassOrder
    · have hrest := ih (h.countClass hdeclared) hkeys
      rw [if_pos (decide_eq_true hdeclared)]
      rwa [Nat.add_right_comm, Nat.add_assoc] at hrest
    · rw [if_neg (by simpa using hdeclared), hkey.resolve_left hdeclared]
      exact ih h hkeys

theorem Declared.total_unique {classes : Dict (Option ℕ)} {m n : ℕ} (hm : Declared classes m)
    (hn : Declared classes n) : m = n := by
  obtain ⟨-, counts, hcounts, rfl⟩ := hm
  obtain ⟨-, counts', hcounts', rfl⟩ := hn
  rw [List.map_injective_iff.mpr (Option.some_injective _) (hcounts.symm.trans hcounts')]

/-- **The failure classes are consistent** iff every failure has a declared class. -/
theorem classes_iff (entries : List DestroyerReportEntry) :
    Declared ((classKeys entries).foldl countClass emptyTallies.failureClasses)
        (entries.countP fun entry => entry.verdict ≠ .passed) ↔
      ∀ entry ∈ entries, entry.verdict ≠ .passed →
        ∃ key ∈ failureClassOrder, classKey entry.failureClassification = some key := by
  have hempty : Declared emptyTallies.failureClasses 0 := ⟨by decide, [0, 0, 0, 0, 0, 0], by decide⟩
  -- A failure with a declared class is counted.
  have hcount : (classKeys entries).countP (· ∈ failureClassOrder) =
      entries.countP fun entry => entry.verdict ≠ .passed ∧
        ∃ key ∈ failureClassOrder, classKey entry.failureClassification = some key := by
    rw [classKeys, List.countP_filterMap]
    refine List.countP_congr fun entry _ => ?_
    by_cases hpassed : entry.verdict = .passed
    · simp [hpassed]
    · cases classKey entry.failureClassification <;> simp [hpassed]
  constructor
  · intro h
    have hkeys : ∀ key ∈ classKeys entries, key ∈ failureClassOrder ∨ key = "__proto__" := by
      intro key hkey
      by_contra hbad
      obtain ⟨hbad, hproto⟩ := not_or.mp hbad
      refine hbad (h.1 ▸ mem_foldl_countClass (.inr ⟨hkey, hproto⟩))
    have htotal := h.total_unique (hempty.foldl hkeys)
    have hfilter : (entries.countP fun entry => entry.verdict ≠ .passed ∧
        ∃ key ∈ failureClassOrder, classKey entry.failureClassification = some key) =
          (entries.filter fun entry => entry.verdict ≠ .passed).countP fun entry =>
            ∃ key ∈ failureClassOrder, classKey entry.failureClassification = some key := by
      rw [List.countP_filter]
      refine List.countP_congr fun entry _ => ?_
      simp only [Bool.and_eq_true, decide_eq_true_eq]
      exact and_comm
    rw [Nat.zero_add, hcount, hfilter, List.countP_eq_length_filter, eq_comm,
      List.countP_eq_length] at htotal
    exact fun entry hentry hfailed =>
      of_decide_eq_true (htotal entry (List.mem_filter.mpr ⟨hentry, decide_eq_true hfailed⟩))
  · intro h
    have hkeys : ∀ key ∈ classKeys entries, key ∈ failureClassOrder ∨ key = "__proto__" := by
      intro key hkey
      obtain ⟨entry, hentry, hsome⟩ := List.mem_filterMap.mp hkey
      split_ifs at hsome with hpassed
      obtain ⟨key', hkey', hsome'⟩ := h entry hentry hpassed
      obtain rfl := Option.some.inj (hsome.symm.trans hsome')
      exact .inl hkey'
    have hdeclared := hempty.foldl hkeys
    rw [Nat.zero_add, hcount] at hdeclared
    have hall : (entries.countP fun entry => entry.verdict ≠ .passed ∧
        ∃ key ∈ failureClassOrder, classKey entry.failureClassification = some key) =
          entries.countP fun entry => entry.verdict ≠ .passed :=
      List.countP_congr fun entry hentry => by
        simp only [decide_eq_true_eq]
        exact and_iff_left_of_imp (h entry hentry)
    rwa [hall] at hdeclared

/-! ### The report -/

section Report

variable {expected : List ConcreteScenario} {results : List ScenarioSummary}

theorem countVerdict_sum (entries : List DestroyerReportEntry) :
    countVerdict entries .passed + countVerdict entries .failed + countVerdict entries .missing =
      entries.length := by
  induction entries with
  | nil => rfl
  | cons entry entries ih =>
    simp only [countVerdict, List.countP_cons, List.length_cons] at ih ⊢
    cases entry.verdict <;> simp <;> omega

/-- What has not passed has failed or is missing. -/
theorem countP_ne_passed (entries : List DestroyerReportEntry) :
    (entries.countP fun entry => entry.verdict ≠ .passed) =
      countVerdict entries .failed + countVerdict entries .missing := by
  induction entries with
  | nil => rfl
  | cons entry entries ih =>
    simp only [countVerdict, List.countP_cons] at ih ⊢
    rw [ih]
    cases entry.verdict <;> simp <;> omega

theorem countVerdict_eq_zero {entries : List DestroyerReportEntry} :
    (countVerdict entries .failed = 0 ∧ countVerdict entries .missing = 0) ↔
      ∀ entry ∈ entries, entry.verdict = .passed := by
  rw [← Nat.add_eq_zero_iff, ← countP_ne_passed, List.countP_eq_zero]
  simp only [decide_eq_true_eq, not_not]

theorem scenario_reportEntry (scenario : ConcreteScenario) :
    (reportEntry results scenario).scenario = scenario := by
  rcases hmatching : matching results scenario with _ | ⟨result, _ | ⟨_, _⟩⟩ <;>
    rw [reportEntry, hmatching] <;> rfl

/-- An entry has passed iff its only summary has. -/
theorem reportEntry_passed {scenario : ConcreteScenario} :
    (reportEntry results scenario).verdict = .passed ↔
      ∃ result, matching results scenario = [result] ∧ result.verdict = .passed := by
  rcases hmatching : matching results scenario with _ | ⟨result, _ | ⟨_, _⟩⟩ <;>
    rw [reportEntry, hmatching]
  · simp [emptyEntry]
  · cases hverdict : result.verdict <;> simp [summaryEntry, hverdict]
  · simp [emptyEntry]

theorem durations_reportEntry :
    durations (expected.map (reportEntry results)) = recorded expected results := by
  rw [durations, recorded, List.filterMap_map]
  refine List.filterMap_congr fun scenario _ => ?_
  rw [Function.comp_apply, scenario_reportEntry]

theorem recorded_ne_nan : ∀ p ∈ recorded expected results, p.2 ≠ .nan := by
  intro p hp
  obtain ⟨scenario, -, hsome⟩ := List.mem_filterMap.mp hp
  obtain ⟨x, hx, rfl⟩ := Option.map_eq_some_iff.mp hsome
  rcases hmatching : matching results scenario with _ | ⟨result, _ | ⟨_, _⟩⟩ <;>
    rw [reportEntry, hmatching] at hx
  · cases hx
  · obtain rfl := Option.some.inj hx
    have haccepted := result.accepted
    simp only [isScenarioResult, Bool.and_eq_true] at haccepted
    obtain ⟨duration, hduration⟩ := Option.isSome_iff_exists.mp haccepted.1.1.1.1.2
    have hparsed := result.parsed
    rw [hduration] at hparsed
    dsimp only
    rw [ScenarioSummary.durationMs, hduration, Option.getD_some]
    exact fun hnan => hparsed (congrArg some hnan)
  · cases hx

/-- The classification of an entry is declared, unless it is one that a summary tells. -/
theorem classKey_reportEntry {scenario : ConcreteScenario} :
    ((reportEntry results scenario).verdict ≠ .passed →
      ∃ key ∈ failureClassOrder,
        classKey (reportEntry results scenario).failureClassification = some key) ↔
      ∀ result, matching results scenario = [result] → result.verdict = .failed →
        ∃ key ∈ failureClassOrder, classKey result.failureClassification = some key := by
  rcases hmatching : matching results scenario with _ | ⟨result, _ | ⟨_, _⟩⟩ <;>
    rw [reportEntry, hmatching]
  · refine iff_of_true (fun _ => ⟨"missing", by decide, rfl⟩) fun _ h => ?_
    cases h
  · have hverdict : (summaryEntry scenario result).verdict ≠ .passed ↔
        result.verdict = .failed := by
      cases hverdict : result.verdict <;> simp [summaryEntry, hverdict]
    simp only [hverdict, List.cons.injEq, and_true, forall_eq']
    rfl
  · refine iff_of_true (fun _ => ⟨"setup", by decide, rfl⟩) fun _ h => ?_
    cases h

/-- **When a report is consistent.**  The failure classes count the failures iff every scenario
whose only summary is a failure has a declared class there; everything else always agrees. -/
theorem report_consistent_iff (expected : List ConcreteScenario) (results : List ScenarioSummary)
    (analysisResult matrixResult generatedAt : String) (run : DestroyerReportRun) :
    Consistent expected results
        (buildDestroyerReport expected results analysisResult matrixResult generatedAt run) ↔
      ∀ scenario ∈ expected, ∀ result, matching results scenario = [result] →
        result.verdict = .failed →
          ∃ key ∈ failureClassOrder, classKey result.failureClassification = some key := by
  have hclasses := classes_iff (expected.map (reportEntry results))
  rw [countP_ne_passed, ← failureClasses_foldl] at hclasses
  simp only [List.forall_mem_map, classKey_reportEntry] at hclasses
  rw [← hclasses]
  constructor
  · exact fun h => ⟨h.classes, h.counts⟩
  · rintro ⟨hkeys, hcounts⟩
    refine ⟨?_, ?_, hkeys, hcounts, ?_, ?_, ?_⟩
    · exact (countVerdict_sum _).trans (List.length_map _)
    · have hpassed : (∀ scenario ∈ expected, ∃ result, matching results scenario = [result] ∧
          result.verdict = .passed) ↔
            countVerdict (expected.map (reportEntry results)) .failed = 0 ∧
              countVerdict (expected.map (reportEntry results)) .missing = 0 := by
        rw [countVerdict_eq_zero, List.forall_mem_map]
        simp only [reportEntry_passed]
      dsimp only [buildDestroyerReport]
      rw [hpassed]
      split_ifs with hall
      · exact iff_of_true rfl hall
      · exact iff_of_false (by decide) hall
    · exact (cleanup_foldl _ _).trans ((Nat.zero_add _).trans (List.length_map _))
    · dsimp only [buildDestroyerReport]
      rw [timing_foldl, recordedTotalMs_foldl, durations_reportEntry]
      rfl
    · dsimp only [buildDestroyerReport]
      rw [timing_foldl, durations_reportEntry]
      obtain h | ⟨slowest, -, hsome, hmaximal⟩ := slowest_foldl (@recorded_ne_nan expected results)
      · exact .inl h
      · exact .inr ⟨slowest, hsome, hmaximal⟩

/-! A summary of a failure without a class. -/

def unclassifiedSummary : ScenarioSummary where
  fields := [("scenario", .str "soak"), ("verdict", .str "failed"), ("durationMs", .count 1),
    ("runId", .str "run"), ("project", .str "project"), ("artifactPath", .str "artifacts"),
    ("cleanupState", .str "removed")]
  accepted := by decide
  parsed := by decide
  reportAnalysis := emptyAnalysis none ""

/-- **A failure without a class** is counted under a key that is not declared. -/
theorem not_consistent_unclassified :
    ¬∀ expected results analysisResult matrixResult generatedAt run, expected.Nodup →
      Consistent expected results
        (buildDestroyerReport expected results analysisResult matrixResult generatedAt run) := by
  intro h
  have hclasses := (h [.soak] [unclassifiedSummary] "success" "success" ""
    ⟨none, none, none, none, none⟩ (by decide)).classes
  revert hclasses
  decide +kernel

end Report

end Report

end FitzDestroyer
