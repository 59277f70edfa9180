import FitzDestroyer.Pressure.Percentile

/-!
# What the percentiles of latencies bound

The summary of a stage has the percentiles of its latencies at 50, 95 and 99.  The rank of a
percentile is computed in double precision, which is exact for these three up to `2 ^ 45` latencies
(and for no other fraction in general), and the percentile of a rank above the last bucket is the
longest latency.

* `PercentileIs.mono` : a longer latency has no smaller percentile;
* `latencyPercentiles_spec` : the percentiles of every histogram that was recorded and merged;
* `not_nearestRank_tenHistogram` : a fraction whose rank is not the nearest one.
-/

namespace FitzDestroyer

namespace Pressure

open Js

/-! ### The longest latency -/

/-- Rounding to two decimals keeps the order. -/
theorem roundMs_mono {x y : ℚ} (hx : 0 ≤ x) (h : x ≤ y) :
    (roundMs (.fin x)).lessEq (roundMs (.fin y)) = true := by
  have hmul := Number.round_mono (mul_nonneg hx (Nat.cast_nonneg 100))
    (mul_le_mul_of_nonneg_right h (Nat.cast_nonneg 100))
  have hnonneg := Number.Nonneg.round (mul_nonneg hx (Nat.cast_nonneg 100))
  exact Number.div_mono (by decide) hnonneg.mathRound (Number.mathRound_mono hmul)

/-- Whole milliseconds are kept. -/
theorem roundMs_natCast {n : ℕ} (h : n * 100 ≤ maxSafeInteger) :
    roundMs (n : Number) = (n : Number) := by
  have hmul : Number.mul (n : Number) ((100 : ℕ) : Number) = ((n * 100 : ℕ) : Number) := by
    rw [← Number.round_natCast h, Nat.cast_mul]
    rfl
  have hdiv : Number.div ((n * 100 : ℕ) : Number) ((100 : ℕ) : Number) = (n : Number) := by
    have hne : ¬((100 : ℕ) : ℚ) = 0 := by norm_num
    rw [← Number.round_natCast ((Nat.le_mul_of_pos_right n (by decide)).trans h)]
    simp only [Number.div, if_neg hne, Nat.cast_mul, mul_div_cancel_right₀ _ hne]
  rw [roundMs, hmul, Number.mathRound_natCast, hdiv]

theorem lastBound_lessEq {x : ℚ} (h : 60000 < x) :
    (Number.fin 60000).lessEq (roundMs (.fin x)) = true := by
  have hround : roundMs (.fin 60000) = .fin 60000 := by
    have h := @roundMs_natCast 60000 (by decide)
    simpa using h
  rw [← hround]
  exact roundMs_mono (by norm_num) h.le

/-! ### Comparing percentiles -/

theorem bound_le_last {upper : ℕ} (h : upper ∈ latencyBucketUpperMs) : (upper : ℚ) ≤ 60000 := by
  have hbound : ∀ u ∈ latencyBucketUpperMs, u ≤ 60000 := by decide
  exact_mod_cast hbound upper h

/-- **A longer latency** has no smaller percentile, unless it is above the last bucket and the
longest latency with it is shorter. -/
theorem PercentileIs.mono {xs ys : List ℚ} {k k' : ℕ} {value value' : Number}
    (h : PercentileIs xs k value) (h' : PercentileIs ys k' value') (hnonneg : ∀ x ∈ xs, 0 ≤ x)
    (hmem : kthSmallest ys k' ∈ ys) (hkth : kthSmallest xs k ≤ kthSmallest ys k')
    (hlonger : 60000 < kthSmallest xs k → ∀ x ∈ xs, ∃ y ∈ ys, x ≤ y) :
    value.lessEq value' = true := by
  rcases le_or_gt (kthSmallest xs k) 60000 with hsmall | hlarge
  · obtain ⟨upper, rfl, hupper⟩ := h.bucket hsmall
    rcases le_or_gt (kthSmallest ys k') 60000 with hsmall' | hlarge'
    · obtain ⟨upper', rfl, hupper'⟩ := h'.bucket hsmall'
      have hle := hupper.2 ⟨hupper'.1.1, hkth.trans hupper'.1.2⟩
      exact decide_eq_true (by exact_mod_cast hle)
    · obtain ⟨longest, rfl, hlongest⟩ := h'.overflow hlarge'
      have hlast : (upper : Number).lessEq (.fin 60000) = true :=
        decide_eq_true (bound_le_last hupper.1.1)
      exact Number.lessEq_trans hlast (lastBound_lessEq (hlarge'.trans_le (hlongest.2 hmem)))
  · obtain ⟨longest, rfl, hlongest⟩ := h.overflow hlarge
    obtain ⟨longest', rfl, hlongest'⟩ := h'.overflow (hlarge.trans_le hkth)
    obtain ⟨y, hy, hle⟩ := hlonger hlarge longest hlongest.1
    exact roundMs_mono (hnonneg _ hlongest.1) (hle.trans (hlongest'.2 hy))

/-! ### The fractions of the summary -/

/-- `0.5`. -/
def halfFraction : ℚ := 1 / 2

/-- `0.95`. -/
def p95Fraction : ℚ := (8556839292003942 : ℕ) / 2 ^ 53

/-- `0.99`. -/
def p99Fraction : ℚ := (8917127262193582 : ℕ) / 2 ^ 53

theorem round_half : Number.round (1 / 2) = .fin halfFraction := by
  have h := Number.round_dyadic (show 1 < 2 ^ 53 by decide) (show 1 ≤ 1074 by decide)
  rwa [Nat.cast_one, pow_one] at h

theorem round_p95 : Number.round (19 / 20) = .fin p95Fraction :=
  Number.round_eq (by norm_num) (by norm_num) (by norm_num) (by norm_num [abs_lt])

theorem round_p99 : Number.round (99 / 100) = .fin p99Fraction :=
  Number.round_eq (by norm_num) (by norm_num) (by norm_num) (by norm_num [abs_lt])

theorem isFraction_half : IsFraction halfFraction where
  pos := by norm_num [halfFraction]
  le_one := by norm_num [halfFraction]
  exact := round_half

theorem isFraction_p95 : IsFraction p95Fraction where
  pos := by norm_num [p95Fraction]
  le_one := by norm_num [p95Fraction]
  exact := Number.round_dyadic (by decide) (by decide)

theorem isFraction_p99 : IsFraction p99Fraction where
  pos := by norm_num [p99Fraction]
  le_one := by norm_num [p99Fraction]
  exact := Number.round_dyadic (by decide) (by decide)

section Exact

variable {n : ℕ}

theorem rank_half (hpos : 1 ≤ n) (hn : n ≤ 2 ^ 45) :
    rank n halfFraction = nearestRank n (1 / 2) := by
  have h := @rank_eq n halfFraction 1 2 (by decide) (by decide) (by decide)
    (by norm_num [halfFraction]) (by norm_num [halfFraction]) hpos hn
  simpa using h

theorem rank_p95 (hpos : 1 ≤ n) (hn : n ≤ 2 ^ 45) :
    rank n p95Fraction = nearestRank n (19 / 20) := by
  have h := @rank_eq n p95Fraction 19 20 (by decide) (by decide) (by decide)
    (by norm_num [p95Fraction]) (by norm_num [p95Fraction]) hpos hn
  simpa using h

theorem rank_p99 (hpos : 1 ≤ n) (hn : n ≤ 2 ^ 45) :
    rank n p99Fraction = nearestRank n (99 / 100) := by
  have h := @rank_eq n p99Fraction 99 100 (by decide) (by decide) (by decide)
    (by norm_num [p99Fraction]) (by norm_num [p99Fraction]) hpos hn
  simpa using h

end Exact

/-! ### Every histogram -/

section Recorded

variable {xs : List ℚ} {histogram : LatencyHistogram}

/-- The percentile at a fraction. -/
theorem percentileIs_rank (h : Recorded xs histogram) (hne : xs ≠ [])
    (hcount : xs.length ≤ maxSafeInteger) {f : ℚ} (hf : IsFraction f) :
    PercentileIs xs (rank xs.length f) (percentile histogram (.fin f)) := by
  obtain ⟨hrank, hpos, hle⟩ := rank_spec hf (List.length_pos_iff.mpr hne) hcount
  exact percentileIs_of_rank h hrank hpos hle

/-- A larger fraction has no smaller percentile. -/
theorem percentile_mono (h : Recorded xs histogram) (hne : xs ≠ [])
    (hcount : xs.length ≤ maxSafeInteger) {f f' : ℚ} (hf : IsFraction f) (hf' : IsFraction f')
    (hle : f ≤ f') :
    (percentile histogram (.fin f)).lessEq (percentile histogram (.fin f')) = true := by
  have hlength := List.length_pos_iff.mpr hne
  obtain ⟨-, hpos, -⟩ := rank_spec hf hlength hcount
  obtain ⟨-, hpos', hle'⟩ := rank_spec hf' hlength hcount
  exact (percentileIs_rank h hne hcount hf).mono (percentileIs_rank h hne hcount hf') h.nonneg
    (kthSmallest_mem hpos' hle')
    (kthSmallest_mono hpos (rank_mono hf hf' hle hlength hcount) hle')
    fun _ x hx => ⟨x, hx, le_refl x⟩

/-- **The percentiles of every histogram.**  The rank is the one that double precision computes. -/
theorem latencyPercentiles_spec (h : Recorded xs histogram) (hne : xs ≠ [])
    (hcount : xs.length ≤ maxSafeInteger) :
    (∀ f, IsFraction f → PercentileIs xs (rank xs.length f) (percentile histogram (.fin f)) ∧
      rank xs.length f ≤ nearestRank xs.length f ∧
      nearestRank xs.length f ≤ rank xs.length f + 1) ∧
    (xs.length ≤ 2 ^ 45 →
      PercentileIs xs (nearestRank xs.length (1 / 2)) (latencySummary histogram).p50Ms ∧
      PercentileIs xs (nearestRank xs.length (19 / 20)) (latencySummary histogram).p95Ms ∧
      PercentileIs xs (nearestRank xs.length (99 / 100)) (latencySummary histogram).p99Ms) ∧
    (latencySummary histogram).p50Ms.lessEq (latencySummary histogram).p95Ms = true ∧
    (latencySummary histogram).p95Ms.lessEq (latencySummary histogram).p99Ms = true := by
  have hlength := List.length_pos_iff.mpr hne
  have hsummary : (latencySummary histogram).p50Ms = percentile histogram (.fin halfFraction) ∧
      (latencySummary histogram).p95Ms = percentile histogram (.fin p95Fraction) ∧
      (latencySummary histogram).p99Ms = percentile histogram (.fin p99Fraction) := by
    simp only [latencySummary, round_half, round_p95, round_p99, and_self]
  rw [hsummary.1, hsummary.2.1, hsummary.2.2]
  refine ⟨fun f hf => ?_, fun hsmall => ?_, ?_, ?_⟩
  · exact ⟨percentileIs_rank h hne hcount hf, rank_near hf hlength hcount⟩
  · rw [← rank_half hlength hsmall, ← rank_p95 hlength hsmall, ← rank_p99 hlength hsmall]
    exact ⟨percentileIs_rank h hne hcount isFraction_half,
      percentileIs_rank h hne hcount isFraction_p95,
      percentileIs_rank h hne hcount isFraction_p99⟩
  · exact percentile_mono h hne hcount isFraction_half isFraction_p95
      (by norm_num [halfFraction, p95Fraction])
  · exact percentile_mono h hne hcount isFraction_p95 isFraction_p99
      (by norm_num [p95Fraction, p99Fraction])

end Recorded

/-! ### Ten latencies -/

/-- `0.1`, which is a little more than a tenth. -/
def tenth : ℚ := (3602879701896397 : ℕ) / 2 ^ 55

theorem isFraction_tenth : IsFraction tenth where
  pos := by norm_num [tenth]
  le_one := by norm_num [tenth]
  exact := Number.round_dyadic (by decide) (by decide)

theorem rank_tenth : rank 10 tenth = 1 := by
  have hround : Number.round ((10 : ℕ) * tenth) = .fin ((2 ^ 52 : ℕ) / 2 ^ 52) :=
    Number.round_eq (by norm_num [tenth]) (by norm_num [tenth]) (by decide)
      (by norm_num [tenth, abs_lt])
  rw [rank, hround]
  refine ceil_toNat_eq ?_ ?_ <;> norm_num

theorem nearestRank_tenth : nearestRank 10 tenth = 2 := by
  refine ceil_toNat_eq ?_ ?_ <;> norm_num [tenth]

/-- One latency of a millisecond, and nine that are longer. -/
def tenLatencies : List ℚ := [1, 100, 100, 100, 100, 100, 100, 100, 100, 100]

def tenHistogram : LatencyHistogram := recordAll tenLatencies

theorem recorded_tenHistogram : Recorded tenLatencies tenHistogram := recorded_recordAll (by decide)

/-- Its percentiles at 50 and 95. -/
theorem p50_lessEq_p95_tenHistogram : (latencySummary tenHistogram).p50Ms.lessEq
    (latencySummary tenHistogram).p95Ms = true :=
  (latencyPercentiles_spec recorded_tenHistogram (by decide) (by decide)).2.2.1

/-- **The nearest rank is missed** at a tenth of ten latencies. -/
theorem not_nearestRank_tenHistogram :
    Recorded tenLatencies tenHistogram ∧ IsFraction tenth ∧
      ¬PercentileIs tenLatencies (nearestRank tenLatencies.length tenth)
        (percentile tenHistogram (.fin tenth)) := by
  refine ⟨recorded_tenHistogram, isFraction_tenth, fun hnearest => ?_⟩
  have hcomputed := percentileIs_rank recorded_tenHistogram (by decide) (by decide)
    isFraction_tenth
  rw [show tenLatencies.length = 10 from rfl] at hnearest hcomputed
  rw [nearestRank_tenth] at hnearest
  rw [rank_tenth] at hcomputed
  have hone : percentile tenHistogram (.fin tenth) = ((1 : ℕ) : Number) :=
    hcomputed.eq_bound (by decide) (by decide) (by decide) (by decide) (by decide)
  have hhundred : percentile tenHistogram (.fin tenth) = ((100 : ℕ) : Number) :=
    hnearest.eq_bound (by decide) (by decide) (by decide) (by decide) (by decide)
  exact absurd (Number.natCast_injective (hone.symm.trans hhundred)) (by decide)

end Pressure

end FitzDestroyer
