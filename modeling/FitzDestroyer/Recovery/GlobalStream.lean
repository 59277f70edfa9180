import FitzDestroyer.Check.Fold
import FitzDestroyer.Js.Collections
import FitzDestroyer.Workload.Model
import Mathlib.Data.List.Count
import Mathlib.Data.List.GetD

/-!
# The recovery of the global stream

The load phase of `runStreamGlobalRecovery` (`workloads/stream-global-recovery.ts`) commits one
record after the other, to four routes in turn.  After a restart the verify phase replays
`stream://**` and checks every record.

* `load` : the appends of the load phase, in the order of their commits;
* `verify` : the checks of the verify phase, over the pages of a replay;
* `ledgerOf` : the ledger of an assignment of routes;
* `committed_load` : the load phase commits the ledger of the four routes in turn;
* `verify_decides_iff` : when the verify phase decides that this ledger is replayed.
-/

namespace FitzDestroyer

namespace Recovery

open Js Workload

/-! ### The two phases -/

def globalRoutes (namespaceName : String) : List String :=
  [s!"stream://{namespaceName}-a/area-a/resource-a",
    s!"stream://{namespaceName}-a/area-b/resource-b",
    s!"stream://{namespaceName}-b/area-a/resource-c",
    s!"stream://{namespaceName}-b/area-b/resource-d"]

def payload (sequence : ℕ) : List UInt8 :=
  encode s!"global-record-{String.ofList (pad sequence 12)}"

/-- A record of the replay of `stream://**`. -/
structure GlobalRecord where
  route : String
  globalOffset : ℤ
  offset : ℤ
  body : List UInt8
  deriving DecidableEq, Repr

/-- An append of the load phase, to a session of its route. -/
structure GlobalAppend where
  route : String
  expectedOffset : ℕ
  body : List UInt8
  deriving DecidableEq, Repr

/-- The loop of the load phase, from a sequence on, when every commit succeeds. -/
def loadFrom (routes : List String) :
    ℕ → ℕ → JsMap String ℕ → Except Thrown (List GlobalAppend)
  | 0, _, _ => .ok []
  | count + 1, sequence, offsets => do
    match routes[sequence % routes.length]? with
    | none => throw (newError "Global Stream route selection failed")
    | some route =>
      let offset := (offsets.get? route).getD 0
      let appends ← loadFrom routes count (sequence + 1) (offsets.set route (offset + 1))
      return ⟨route, offset, payload sequence⟩ :: appends

/-- The load phase. -/
def load (namespaceName : String) (operations : ℕ) : Except Thrown (List GlobalAppend) :=
  let routes := globalRoutes namespaceName
  loadFrom routes operations 0 (routes.foldl (fun offsets route => offsets.set route 0) .empty)

/-- The records of committed appends: the global offset is the position among the commits. -/
def committed (appends : List GlobalAppend) : List GlobalRecord :=
  appends.mapIdx fun i append => ⟨append.route, i, append.expectedOffset, append.body⟩

/-- The variables of the verify phase. -/
structure Replay where
  observed : ℕ
  pages : ℕ
  routeOffsets : JsMap String ℤ

def Replay.start : Replay := ⟨0, 0, .empty⟩

/-- The offset that the next record of a route should have. -/
def Replay.expectedOffset (s : Replay) (route : String) : ℤ := (s.routeOffsets.get? route).getD 0

def verifyRecord (routes : List String) (s : Replay) (record : GlobalRecord) :
    Except Thrown Replay := do
  Check.failIf (record.route ∉ routes)
    (newError s!"Unexpected global Stream route {record.route}")
  Check.failIf (record.globalOffset ≠ s.observed)
    (newError s!"Global Stream offset {record.globalOffset} != {s.observed}")
  let expected := s.expectedOffset record.route
  Check.failIf (record.offset ≠ expected)
    (newError s!"{record.route} offset {record.offset} != {expected}")
  assertBytesEqual record.body (payload s.observed) s!"global Stream record {s.observed}"
  return { s with
    observed := s.observed + 1
    routeOffsets := s.routeOffsets.set record.route (expected + 1) }

def verifyPage (routes : List String) (s : Replay) (page : List GlobalRecord) :
    Except Thrown Replay :=
  page.foldlM (verifyRecord routes) { s with pages := s.pages + 1 }

/-- The verify phase, over the pages of the replay. -/
def verify (namespaceName : String) (operations : ℕ) (pages : List (List GlobalRecord)) :
    Except Thrown Replay := do
  let s ← pages.foldlM (verifyPage (globalRoutes namespaceName)) .start
  Check.failIf (s.observed ≠ operations)
    (newError s!"Global Stream replay observed {s.observed}/{operations} records")
  return s

/-! ### Ledgers -/

/-- The ledger in which record `i` belongs to `route i`. -/
def ledgerOf (route : ℕ → String) (operations : ℕ) : List GlobalRecord :=
  (List.range operations).map fun i =>
    ⟨route i, i, (((List.range i).map route).count (route i) : ℕ), payload i⟩

/-- The route of a record in the order of the load phase. -/
def loadedRoute (namespaceName : String) (i : ℕ) : String :=
  (globalRoutes namespaceName).getD (i % 4) ""

/-- The ledger of the load phase. -/
def ledger (namespaceName : String) (operations : ℕ) : List GlobalRecord :=
  (List.range operations).map fun i =>
    ⟨loadedRoute namespaceName i, i, (i / 4 : ℕ), payload i⟩

/-! ### The load phase -/

theorem nodup_globalRoutes (namespaceName : String) : (globalRoutes namespaceName).Nodup := by
  refine List.Nodup.of_map (fun route => route.toList.getLast?) ?_
  simp [globalRoutes, toString, List.getLast?_cons, List.getLast?_append]

theorem length_globalRoutes (namespaceName : String) : (globalRoutes namespaceName).length = 4 :=
  rfl

theorem loadedRoute_eq (namespaceName : String) {i : ℕ}
    (h : i % 4 < (globalRoutes namespaceName).length) :
    loadedRoute namespaceName i = (globalRoutes namespaceName)[i % 4] :=
  List.getD_eq_getElem _ _ h

theorem loadedRoute_mem (namespaceName : String) (i : ℕ) :
    loadedRoute namespaceName i ∈ globalRoutes namespaceName := by
  rw [loadedRoute_eq namespaceName (Nat.mod_lt i (by decide))]
  exact List.getElem_mem _

/-- Two records have one route iff their positions are equal modulo four. -/
theorem loadedRoute_inj {namespaceName : String} {i j : ℕ} :
    loadedRoute namespaceName i = loadedRoute namespaceName j ↔ i % 4 = j % 4 := by
  rw [loadedRoute_eq namespaceName (Nat.mod_lt i (by decide)),
    loadedRoute_eq namespaceName (Nat.mod_lt j (by decide))]
  exact (nodup_globalRoutes namespaceName).getElem_inj_iff

/-- The number of earlier records of a route. -/
theorem count_loadedRoute (namespaceName : String) (i j : ℕ) :
    ((List.range i).map (loadedRoute namespaceName)).count (loadedRoute namespaceName j) =
      (i + 3 - j % 4) / 4 := by
  induction i with
  | zero =>
    have := Nat.mod_lt j (show 0 < 4 by decide)
    simp only [List.range_zero, List.map_nil, List.count_nil]
    omega
  | succ i ih =>
    rw [List.range_succ, List.map_append, List.count_append, ih, List.map_singleton,
      List.count_singleton]
    have hj := Nat.mod_lt j (show 0 < 4 by decide)
    simp only [beq_iff_eq, loadedRoute_inj]
    split_ifs <;> omega

theorem ledger_eq (namespaceName : String) (operations : ℕ) :
    ledger namespaceName operations = ledgerOf (loadedRoute namespaceName) operations := by
  refine List.map_congr_left fun i _ => ?_
  rw [count_loadedRoute]
  have : (i + 3 - i % 4) / 4 = i / 4 := by omega
  rw [this]

/-- The offsets of the load phase before a sequence. -/
def OffsetsBefore (namespaceName : String) (sequence : ℕ) (offsets : JsMap String ℕ) : Prop :=
  ∀ j, (offsets.get? (loadedRoute namespaceName j)).getD 0 =
    ((List.range sequence).map (loadedRoute namespaceName)).count (loadedRoute namespaceName j)

theorem OffsetsBefore.succ {namespaceName : String} {sequence : ℕ} {offsets : JsMap String ℕ}
    (h : OffsetsBefore namespaceName sequence offsets) :
    OffsetsBefore namespaceName (sequence + 1) (offsets.set (loadedRoute namespaceName sequence)
      ((offsets.get? (loadedRoute namespaceName sequence)).getD 0 + 1)) := by
  intro j
  rw [JsMap.get?_set, List.range_succ, List.map_append, List.count_append, List.map_singleton,
    List.count_singleton]
  by_cases heq : loadedRoute namespaceName sequence = loadedRoute namespaceName j
  · simp [heq, h j]
  · simp [heq, h j]

theorem loadFrom_eq (namespaceName : String) (count sequence : ℕ) (offsets : JsMap String ℕ)
    (h : OffsetsBefore namespaceName sequence offsets) :
    loadFrom (globalRoutes namespaceName) count sequence offsets =
      .ok ((List.range' sequence count).map fun i =>
        ⟨loadedRoute namespaceName i, i / 4, payload i⟩) := by
  induction count generalizing sequence offsets with
  | zero => rfl
  | succ count ih =>
    have hlt : sequence % 4 < (globalRoutes namespaceName).length := Nat.mod_lt _ (by decide)
    have hoffset : (offsets.get? (loadedRoute namespaceName sequence)).getD 0 = sequence / 4 := by
      rw [h sequence, count_loadedRoute]
      omega
    rw [loadFrom, length_globalRoutes, List.getElem?_eq_getElem hlt,
      ← loadedRoute_eq namespaceName hlt]
    dsimp only
    rw [ih (sequence + 1) _ h.succ, List.range'_succ, List.map_cons, hoffset]
    rfl

theorem offsetsBefore_zero (namespaceName : String) : OffsetsBefore namespaceName 0
    ((globalRoutes namespaceName).foldl (fun offsets route => offsets.set route 0) .empty) := by
  have hzero : ∀ (routes : List String) (offsets : JsMap String ℕ) (route : String),
      (offsets.get? route).getD 0 = 0 →
        ((routes.foldl (fun offsets route => offsets.set route 0) offsets).get? route).getD 0 =
          0 := by
    intro routes
    induction routes with
    | nil => exact fun _ _ h => h
    | cons r routes ih =>
      intro offsets route h
      refine ih _ _ ?_
      rw [JsMap.get?_set]
      split_ifs
      · rfl
      · exact h
  intro j
  exact hzero _ _ _ rfl

/-- The load phase commits its ledger. -/
theorem committed_load (namespaceName : String) (operations : ℕ) :
    ∃ appends, load namespaceName operations = .ok appends ∧
      committed appends = ledger namespaceName operations := by
  refine ⟨_, loadFrom_eq namespaceName operations 0 _ (offsetsBefore_zero namespaceName), ?_⟩
  apply List.ext_getElem
  · simp [committed, ledger]
  · intro i _ _
    simp [committed, ledger]

/-! ### The verify phase -/

/-- The record is one the verify phase accepts after the records before it, whatever its route. -/
structure Follows (routes : List String) (before : List GlobalRecord) (record : GlobalRecord) :
    Prop where
  route : record.route ∈ routes
  globalOffset : record.globalOffset = before.length
  offset : record.offset = ((before.map (·.route)).count record.route : ℕ)
  body : record.body = payload before.length

/-- The variables after some records. -/
structure Replay.Seen (s : Replay) (before : List GlobalRecord) : Prop where
  observed : s.observed = before.length
  offsets : ∀ route, s.expectedOffset route = ((before.map (·.route)).count route : ℕ)

theorem Replay.seen_start : Replay.start.Seen [] := ⟨rfl, fun _ => rfl⟩

theorem verifyRecord_eq_ok {routes : List String} {s s' : Replay} {record : GlobalRecord} :
    verifyRecord routes s record = .ok s' ↔
      record.route ∈ routes ∧ record.globalOffset = s.observed ∧
        record.offset = s.expectedOffset record.route ∧ record.body = payload s.observed ∧
        { s with
          observed := s.observed + 1
          routeOffsets := s.routeOffsets.set record.route (s.expectedOffset record.route + 1) } =
          s' := by
  simp only [verifyRecord, Check.bind_eq, Check.seq_eq_ok, Check.failIf_eq_ok, Check.pure_eq,
    Except.ok.injEq, assertBytesEqual_eq_ok, not_not, ne_eq]

/-- A record passes iff it follows the records before it. -/
theorem decides_verifyRecord (routes : List String) :
    Check.Decides (verifyRecord routes) Replay.Seen (Follows routes) where
  sound := by
    intro s s' before record hs hok
    obtain ⟨hroute, hglobal, hoffset, hbody, rfl⟩ := verifyRecord_eq_ok.mp hok
    rw [hs.observed] at hglobal hbody
    refine ⟨⟨hroute, hglobal, hoffset.trans (hs.offsets _), hbody⟩, ?_, fun route => ?_⟩
    · rw [List.length_append, List.length_singleton, hs.observed]
    · rw [Replay.expectedOffset, JsMap.get?_set, List.map_append, List.count_append,
        List.map_singleton, List.count_singleton]
      have hoffset := hs.offsets route
      rw [Replay.expectedOffset] at hoffset
      by_cases heq : record.route = route
      · simp [heq, hs.offsets route]
      · simpa [heq] using hoffset
  complete := by
    intro s before record hs hok
    refine ⟨_, verifyRecord_eq_ok.mpr ⟨hok.route, ?_, ?_, ?_, rfl⟩⟩
    · rw [hok.globalOffset, hs.observed]
    · rw [hok.offset, hs.offsets]
    · rw [hok.body, hs.observed]

/-- The pages of a replay pass iff every record follows the ones before it. -/
theorem passes_verify_iff {namespaceName : String} {operations : ℕ}
    {pages : List (List GlobalRecord)} : Check.Passes (verify namespaceName operations pages) ↔
      Check.Each (Follows (globalRoutes namespaceName)) [] pages.flatten ∧
        pages.flatten.length = operations := by
  have hpages := (decides_verifyRecord (globalRoutes namespaceName)).pages
    (g := fun s => { s with pages := s.pages + 1 }) fun _ _ hs => ⟨hs.observed, hs.offsets⟩
  have hstart : Replay.start.Seen ([] : List (List GlobalRecord)).flatten := Replay.seen_start
  have heach : Check.Each (fun before page =>
      Check.Each (Follows (globalRoutes namespaceName)) before.flatten page) [] pages ↔
        Check.Each (Follows (globalRoutes namespaceName)) [] pages.flatten := Check.each_flatten
  rw [verify, Check.bind_eq, Check.passes_bind]
  simp only [Check.bind_eq, Check.passes_seq, Check.failIf_eq_ok, Check.pure_eq, Check.passes_ok,
    and_true, ne_eq, not_not]
  constructor
  · rintro ⟨s, hs, hcount⟩
    obtain ⟨hok, hseen⟩ := hpages.foldlM_sound hstart hs
    exact ⟨heach.mp hok, hseen.observed.symm.trans hcount⟩
  · rintro ⟨hok, hcount⟩
    obtain ⟨s, hs⟩ := hpages.foldlM_complete hstart (heach.mpr hok)
    exact ⟨s, hs, (hpages.foldlM_sound hstart hs).2.observed.trans hcount⟩

/-- Every record follows the ones before it iff the records are the ledger of some routes. -/
theorem each_follows_iff {routes : List String} {records : List GlobalRecord} :
    Check.Each (Follows routes) [] records ↔
      ∃ route : ℕ → String, (∀ i < records.length, route i ∈ routes) ∧
        records = ledgerOf route records.length := by
  have hroutes : ∀ (route : ℕ → String) {i : ℕ}, i ≤ records.length →
      records = ledgerOf route records.length →
        (records.take i).map (·.route) = (List.range i).map route := by
    intro route i hi heq
    rw [heq, ledgerOf, ← List.map_take, List.map_map, List.take_range, Nat.min_eq_left hi]
    rfl
  rw [Check.each_iff_getElem]
  simp only [List.nil_append]
  constructor
  · -- The routes are those of the records.
    intro h
    refine ⟨fun i => (records[i]?.map (·.route)).getD "", fun i hi => ?_, ?_⟩
    · simpa [hi] using (h i hi).route
    · have hmap : ∀ i, i ≤ records.length → (records.take i).map (·.route) =
          (List.range i).map fun i => (records[i]?.map (·.route)).getD "" := by
        intro i hi
        apply List.ext_getElem
        · simp [hi]
        · intro j hj _
          have hlt : j < records.length := by
            rw [List.length_map, List.length_take] at hj
            omega
          simp [hlt]
      apply List.ext_getElem
      · simp [ledgerOf]
      · intro i hi _
        -- The `i` records before this one decide its offsets.
        have hfollows := h i hi
        have hlength : (records.take i).length = i := by
          rw [List.length_take, Nat.min_eq_left hi.le]
        obtain ⟨-, hglobal, hoffset, hbody⟩ := hfollows
        rw [hlength] at hglobal hbody
        rw [hmap i hi.le] at hoffset
        simp only [ledgerOf, List.getElem_map, List.getElem_range]
        rw [GlobalRecord.mk.injEq]
        refine ⟨by simp [hi], hglobal, ?_, hbody⟩
        simpa [hi] using hoffset
  · rintro ⟨route, hmem, heq⟩ i hi
    have hlength : (records.take i).length = i := by
      rw [List.length_take, Nat.min_eq_left hi.le]
    have hrecord : records[i] =
        ⟨route i, i, (((List.range i).map route).count (route i) : ℕ), payload i⟩ := by
      have := List.getElem_of_eq heq hi
      rw [this]
      simp [ledgerOf]
    rw [hrecord]
    refine ⟨hmem i hi, ?_, ?_, ?_⟩
    · rw [hlength]
    · rw [hroutes route hi.le heq]
    · rw [hlength]

/-- The replay passes iff it is the ledger of some assignment of the four routes. -/
theorem passes_verify_iff_ledgerOf {namespaceName : String} {operations : ℕ}
    {pages : List (List GlobalRecord)} : Check.Passes (verify namespaceName operations pages) ↔
      ∃ route : ℕ → String, (∀ i < operations, route i ∈ globalRoutes namespaceName) ∧
        pages.flatten = ledgerOf route operations := by
  rw [passes_verify_iff, each_follows_iff]
  constructor
  · rintro ⟨⟨route, hroute, heq⟩, rfl⟩
    exact ⟨route, hroute, heq⟩
  · rintro ⟨route, hroute, heq⟩
    have hlength : pages.flatten.length = operations := by
      rw [heq, ledgerOf, List.length_map, List.length_range]
    exact ⟨⟨route, by rwa [hlength], by rwa [hlength]⟩, hlength⟩

/-- The ledgers of two assignments are equal iff the assignments are. -/
theorem ledgerOf_inj {route route' : ℕ → String} {operations : ℕ} :
    ledgerOf route operations = ledgerOf route' operations ↔
      ∀ i < operations, route i = route' i := by
  constructor
  · intro h i hi
    have hroutes := congrArg (List.map GlobalRecord.route) h
    simp only [ledgerOf, List.map_map, List.map_inj_left, List.mem_range] at hroutes
    exact hroutes i hi
  · intro h
    have hcount : ∀ i ≤ operations, (List.range i).map route = (List.range i).map route' :=
      fun i hi => List.map_congr_left fun j hj => h j ((List.mem_range.mp hj).trans_le hi)
    refine List.map_congr_left fun i hi => ?_
    have hlt := List.mem_range.mp hi
    rw [hcount i hlt.le, h i hlt]

/-- **The verify phase** decides whether the ledger of the load phase is replayed iff the replay
is not the ledger of another assignment of the four routes to its records. -/
theorem verify_decides_iff {namespaceName : String} {operations : ℕ}
    {pages : List (List GlobalRecord)} :
    (Check.Passes (verify namespaceName operations pages) ↔
        pages.flatten = ledger namespaceName operations) ↔
      ∀ route : ℕ → String, (∀ i < operations, route i ∈ globalRoutes namespaceName) →
        pages.flatten = ledgerOf route operations →
          ∀ i < operations, route i = loadedRoute namespaceName i := by
  rw [passes_verify_iff_ledgerOf, ledger_eq]
  constructor
  · intro h route hroute heq
    rw [← ledgerOf_inj, ← heq]
    exact h.mp ⟨route, hroute, heq⟩
  · intro h
    constructor
    · rintro ⟨route, hroute, heq⟩
      rw [heq, ledgerOf_inj]
      exact h route hroute heq
    · intro heq
      exact ⟨_, fun i _ => loadedRoute_mem namespaceName i, heq⟩

/-- Two records whose routes have been exchanged. -/
def exchanged : List GlobalRecord :=
  [⟨"stream://run-a/area-b/resource-b", 0, 0, payload 0⟩,
    ⟨"stream://run-a/area-a/resource-a", 1, 0, payload 1⟩]

theorem not_verify_exchanged : ¬(Check.Passes (verify "run" 2 [exchanged]) ↔
    [exchanged].flatten = ledger "run" 2) := by
  intro h
  exact absurd (h.mp (passes_verify_iff_ledgerOf.mpr
    ⟨fun i => loadedRoute "run" (1 - i), fun i _ => loadedRoute_mem "run" _, by decide +kernel⟩))
    (by decide +kernel)

end Recovery

end FitzDestroyer
