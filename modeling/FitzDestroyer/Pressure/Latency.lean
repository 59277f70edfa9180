import FitzDestroyer.Check.Basic
import FitzDestroyer.Js.Arithmetic
import FitzDestroyer.Js.Error
import Mathlib.Algebra.BigOperators.Group.List.Basic

/-!
# Latencies of pressure stages

A stage sorts the times of its operations into buckets (`src/pressure.ts`); the histograms of
several clients are merged bucket by bucket.

* `LatencyHistogram`, `recordStageLatency`, `mergeLatencyHistograms` : the histograms;
* `percentile`, `latencySummary` : what is read from them;
* `LatencyHistogram.Consistent` : the buckets account for every operation;
* `consistent_recordStageLatency`, `mergeInto_eq_ok` : recording and merging keep that.
-/

namespace FitzDestroyer

namespace Pressure

open Js

/-- `LATENCY_BUCKET_UPPER_MS`. -/
def latencyBucketUpperMs : List ℕ :=
  [1, 2, 5, 10, 25, 50, 100, 250, 500, 1000, 2500, 5000, 10000, 30000, 60000]

@[ext] structure LatencyHistogram where
  count : ℕ
  totalMs : Number
  maxMs : Number
  buckets : List ℕ
  overflow : ℕ
  deriving DecidableEq

/-- A histogram of no operation. -/
def LatencyHistogram.empty : LatencyHistogram where
  count := 0
  totalMs := .fin 0
  maxMs := .fin 0
  buckets := latencyBucketUpperMs.map fun _ => 0
  overflow := 0

/-- The histogram after one more operation. -/
def recordStageLatency (latency : LatencyHistogram) (elapsedMs : Number) : LatencyHistogram :=
  let value := Number.max (.fin 0) elapsedMs
  let latency := { latency with
    count := latency.count + 1
    totalMs := latency.totalMs.add value
    maxMs := latency.maxMs.max value }
  match latencyBucketUpperMs.findIdx? fun upper => value.le (upper : Number) with
  | none => { latency with overflow := latency.overflow + 1 }
  | some index => { latency with
      buckets := latency.buckets.set index (latency.buckets.getD index 0 + 1) }

/-- The sum of two histograms. -/
def LatencyHistogram.plus (merged histogram : LatencyHistogram) : LatencyHistogram where
  count := merged.count + histogram.count
  totalMs := merged.totalMs.add histogram.totalMs
  maxMs := merged.maxMs.max histogram.maxMs
  buckets := List.zipWith (· + ·) merged.buckets histogram.buckets
  overflow := merged.overflow + histogram.overflow

/-- One histogram of the loop of `mergeLatencyHistograms`. -/
def mergeInto (merged histogram : LatencyHistogram) : Except Thrown LatencyHistogram :=
  if histogram.buckets.length ≠ latencyBucketUpperMs.length then
    .error (newError s!"Latency histogram expected {latencyBucketUpperMs.length} buckets, found {
      histogram.buckets.length}")
  else .ok (merged.plus histogram)

def mergeLatencyHistograms (histograms : List LatencyHistogram) :
    Except Thrown LatencyHistogram := histograms.foldlM mergeInto .empty

/-- `round`: two decimals. -/
def roundMs (value : Number) : Number := (value.mul (100 : ℕ)).mathRound.div (100 : ℕ)

/-- The bound of the first bucket at which as many operations as the target have been counted. -/
def bucketAt (target : Number) : ℕ → List (ℕ × ℕ) → Option ℕ
  | _, [] => none
  | cumulative, (count, upper) :: buckets =>
    if target.le ((cumulative + count : ℕ) : Number) then some upper
    else bucketAt target (cumulative + count) buckets

def percentile (histogram : LatencyHistogram) (fraction : Number) : Number :=
  if histogram.count = 0 then .fin 0
  else
    let target := ((histogram.count : Number).mul fraction).ceil
    match bucketAt target 0 (histogram.buckets.zip latencyBucketUpperMs) with
    | some upper => (upper : Number)
    | none => roundMs histogram.maxMs

structure LatencySummary where
  count : ℕ
  meanMs : Number
  p50Ms : Number
  p95Ms : Number
  p99Ms : Number
  maxMs : Number

def latencySummary (histogram : LatencyHistogram) : LatencySummary where
  count := histogram.count
  meanMs := if histogram.count = 0 then .fin 0
    else roundMs (histogram.totalMs.div (histogram.count : Number))
  p50Ms := percentile histogram (.round (1 / 2))
  p95Ms := percentile histogram (.round (19 / 20))
  p99Ms := percentile histogram (.round (99 / 100))
  maxMs := roundMs histogram.maxMs

/-! ### Every operation is in a bucket -/

/-- A histogram that accounts for its operations. -/
structure LatencyHistogram.Consistent (latency : LatencyHistogram) : Prop where
  length : latency.buckets.length = latencyBucketUpperMs.length
  count : latency.buckets.sum + latency.overflow = latency.count
  total_nonneg : latency.totalMs.Nonneg
  max_nonneg : ∃ q : ℚ, 0 ≤ q ∧ latency.maxMs = .fin q

theorem consistent_empty : LatencyHistogram.empty.Consistent where
  length := rfl
  count := rfl
  total_nonneg := le_refl (0 : ℚ)
  max_nonneg := ⟨0, le_refl 0, rfl⟩

/-- One more in a bucket is one more in all. -/
theorem sum_set_succ (buckets : List ℕ) {index : ℕ} (h : index < buckets.length) :
    (buckets.set index (buckets.getD index 0 + 1)).sum = buckets.sum + 1 := by
  induction buckets generalizing index with
  | nil => exact absurd h (Nat.not_lt_zero index)
  | cons count buckets ih =>
    cases index with
    | zero => simp [Nat.add_right_comm]
    | succ index =>
      have hrest := ih (Nat.lt_of_succ_lt_succ h)
      rw [List.set_cons_succ, List.getD_cons_succ, List.sum_cons, hrest, List.sum_cons,
        Nat.add_assoc]

/-- Recording keeps a histogram consistent, and counts the operation. -/
theorem consistent_recordStageLatency {latency : LatencyHistogram} (h : latency.Consistent)
    (elapsedMs : ℚ) : (recordStageLatency latency (.fin elapsedMs)).Consistent ∧
      (recordStageLatency latency (.fin elapsedMs)).count = latency.count + 1 := by
  obtain ⟨q, hq, hmax⟩ := h.max_nonneg
  have htotal : (latency.totalMs.add (.fin (max 0 elapsedMs))).Nonneg :=
    h.total_nonneg.add (y := .fin (max 0 elapsedMs)) (le_max_left 0 elapsedMs)
  have hmax' : latency.maxMs.max (.fin (max 0 elapsedMs)) = .fin (max q (max 0 elapsedMs)) := by
    rw [hmax]
    rfl
  have hcount := h.count
  unfold recordStageLatency
  dsimp only [Number.max]
  cases hindex : latencyBucketUpperMs.findIdx? fun upper =>
      (Number.fin (max 0 elapsedMs)).le (upper : Number) with
  | none =>
    refine ⟨⟨h.length, ?_, htotal, max q (max 0 elapsedMs), ?_, hmax'⟩, rfl⟩
    · show latency.buckets.sum + (latency.overflow + 1) = latency.count + 1
      omega
    · exact le_max_of_le_left hq
  | some index =>
    have hlt : index < latency.buckets.length := by
      rw [h.length]
      exact (List.findIdx?_eq_some_iff_getElem.mp hindex).1
    refine ⟨⟨?_, ?_, htotal, max q (max 0 elapsedMs), ?_, hmax'⟩, rfl⟩
    · show (latency.buckets.set index _).length = _
      rw [List.length_set, h.length]
    · show (latency.buckets.set index _).sum + latency.overflow = latency.count + 1
      rw [sum_set_succ latency.buckets hlt]
      omega
    · exact le_max_of_le_left hq

theorem mergeInto_eq_ok {merged histogram : LatencyHistogram} (h : histogram.Consistent) :
    mergeInto merged histogram = .ok (merged.plus histogram) :=
  if_neg (not_not.mpr h.length)

/-- Merging keeps histograms consistent. -/
theorem LatencyHistogram.Consistent.plus {merged histogram : LatencyHistogram}
    (h : merged.Consistent) (h' : histogram.Consistent) : (merged.plus histogram).Consistent := by
  obtain ⟨q, hq, hmax⟩ := h.max_nonneg
  obtain ⟨q', -, hmax'⟩ := h'.max_nonneg
  have hlength : merged.buckets.length = histogram.buckets.length := h.length.trans h'.length.symm
  refine ⟨?_, ?_, h.total_nonneg.add h'.total_nonneg, max q q', le_max_of_le_left hq, ?_⟩
  · show (List.zipWith (· + ·) merged.buckets histogram.buckets).length = _
    rw [List.length_zipWith, hlength, min_self, h'.length]
  · show (List.zipWith (· + ·) merged.buckets histogram.buckets).sum +
      (merged.overflow + histogram.overflow) = merged.count + histogram.count
    have hsum := List.sum_add_sum_eq_sum_zipWith_of_length_eq _ _ hlength
    have hcount := h.count
    have hcount' := h'.count
    omega
  · show merged.maxMs.max histogram.maxMs = _
    rw [hmax, hmax']
    rfl

end Pressure

end FitzDestroyer
