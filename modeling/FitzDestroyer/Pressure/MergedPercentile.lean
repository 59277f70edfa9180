import FitzDestroyer.Pressure.LatencyBounds

/-!
# Percentiles of merged histograms

The host merges the latencies of a stage over the clients, and compares the percentile of the merge
with the threshold that the warnings of the clients have.

* `exists_kthSmallest_le`, `exists_le_kthSmallest` : the latency of the rank is between those of
  the parts;
* `mergedPercentile_between` : so is the percentile, unless it is above the last bucket;
* `not_between_parts` : where it is above the last bucket it can be larger than all of them, and so
  it can where the ranks are rounded.
-/

namespace FitzDestroyer

namespace Pressure

open Js

/-- The rank of the fraction is the nearest one of an exact fraction. -/
def ExactRanks (f q : ℚ) (limit : ℕ) : Prop :=
  ∀ n, 1 ≤ n → n ≤ limit → rank n f = nearestRank n q

/-! ### The latency of the rank -/

section Parts

variable {parts : List (List ℚ × LatencyHistogram)} {p : ℚ → Prop} [DecidablePred p] {q : ℚ}

theorem le_countP_flatMap (h : ∀ part ∈ parts, part.1.length * q ≤ part.1.countP p) :
    (parts.flatMap Prod.fst).length * q ≤ ((parts.flatMap Prod.fst).countP p : ℕ) := by
  induction parts with
  | nil => simp
  | cons part parts ih =>
    obtain ⟨hpart, hparts⟩ := List.forall_mem_cons.mp h
    have hrest := ih hparts
    rw [List.flatMap_cons, List.length_append, List.countP_append, Nat.cast_add, Nat.cast_add,
      add_mul]
    exact add_le_add hpart hrest

theorem countP_flatMap_lt (hne : parts ≠ [])
    (h : ∀ part ∈ parts, (part.1.countP p : ℚ) < part.1.length * q) :
    ((parts.flatMap Prod.fst).countP p : ℚ) < (parts.flatMap Prod.fst).length * q := by
  induction parts with
  | nil => exact absurd rfl hne
  | cons part parts ih =>
    obtain ⟨hpart, hparts⟩ := List.forall_mem_cons.mp h
    rw [List.flatMap_cons, List.length_append, List.countP_append, Nat.cast_add, Nat.cast_add,
      add_mul]
    by_cases hnil : parts = []
    · subst hnil
      simpa using hpart
    · exact add_lt_add hpart (ih hnil hparts)

end Parts

/-- Non-empty histograms that were recorded, and their merge. -/
structure Merge (parts : List (List ℚ × LatencyHistogram)) (merged : LatencyHistogram) : Prop where
  ne_nil : parts ≠ []
  recorded : ∀ part ∈ parts, Recorded part.1 part.2
  part_ne_nil : ∀ part ∈ parts, part.1 ≠ []
  merged : mergeLatencyHistograms (parts.map Prod.snd) = .ok merged
  count : (parts.flatMap Prod.fst).length ≤ maxSafeInteger

section Merge

variable {parts : List (List ℚ × LatencyHistogram)} {merged : LatencyHistogram} {f q : ℚ}

theorem length_part_le {part : List ℚ × LatencyHistogram} (h : part ∈ parts) :
    part.1.length ≤ (parts.flatMap Prod.fst).length := by
  rw [List.length_flatMap]
  exact List.single_le_sum (fun _ _ => Nat.zero_le _) _ (List.mem_map_of_mem h)

/-- The rank of a part. -/
theorem Merge.rank_part (h : Merge parts merged) (hf : IsFraction f)
    {part : List ℚ × LatencyHistogram} (hpart : part ∈ parts) :
    1 ≤ rank part.1.length f ∧ rank part.1.length f ≤ part.1.length :=
  (rank_spec hf (List.length_pos_iff.mpr (h.part_ne_nil part hpart))
    ((length_part_le hpart).trans h.count)).2

theorem Merge.flatMap_ne_nil (h : Merge parts merged) : parts.flatMap Prod.fst ≠ [] := by
  obtain ⟨part, hpart⟩ := List.exists_mem_of_ne_nil parts h.ne_nil
  intro hnil
  exact h.part_ne_nil part hpart (List.flatMap_eq_nil_iff.mp hnil part hpart)

/-- The rank of the merge. -/
theorem Merge.rank_merged (h : Merge parts merged) (hf : IsFraction f) :
    1 ≤ rank (parts.flatMap Prod.fst).length f ∧
      rank (parts.flatMap Prod.fst).length f ≤ (parts.flatMap Prod.fst).length :=
  (rank_spec hf (List.length_pos_iff.mpr h.flatMap_ne_nil) h.count).2

/-- The ranks of the parts and of the merge are the nearest ones. -/
theorem Merge.nearest (h : Merge parts merged)
    (hexact : ExactRanks f q (parts.flatMap Prod.fst).length) :
    rank (parts.flatMap Prod.fst).length f = nearestRank (parts.flatMap Prod.fst).length q ∧
      ∀ part ∈ parts, rank part.1.length f = nearestRank part.1.length q :=
  ⟨hexact _ (List.length_pos_iff.mpr h.flatMap_ne_nil) (le_refl _), fun part hpart =>
    hexact _ (List.length_pos_iff.mpr (h.part_ne_nil part hpart)) (length_part_le hpart)⟩

/-- **Some part** has a latency of its rank that is at most that of the merge. -/
theorem exists_kthSmallest_le (h : Merge parts merged) (hf : IsFraction f)
    (hexact : ExactRanks f q (parts.flatMap Prod.fst).length) :
    ∃ part ∈ parts, kthSmallest part.1 (rank part.1.length f) ≤
      kthSmallest (parts.flatMap Prod.fst) (rank (parts.flatMap Prod.fst).length f) := by
  by_contra hnone
  push Not at hnone
  set x := kthSmallest (parts.flatMap Prod.fst) (rank (parts.flatMap Prod.fst).length f) with hx
  obtain ⟨hmerged, hnearest⟩ := h.nearest hexact
  -- In every part fewer latencies than its rank are at most `x`, so there are too few in all.
  have hparts : ∀ part ∈ parts,
      (part.1.countP (fun y : ℚ => y ≤ x) : ℚ) < part.1.length * q := by
    intro part hpart
    obtain ⟨hpos, hle⟩ := h.rank_part hf hpart
    refine lt_ceil_toNat.mp (show _ < nearestRank part.1.length q from ?_)
    rw [← hnearest part hpart]
    exact not_le.mp fun hcount =>
      not_le.mpr (hnone part hpart) ((kthSmallest_le_iff hpos hle).mpr hcount)
  have hall := lt_ceil_toNat.mpr (countP_flatMap_lt h.ne_nil hparts)
  obtain ⟨hpos, hle⟩ := h.rank_merged hf
  have hcount := (kthSmallest_le_iff hpos hle).mp hx.ge
  rw [hmerged] at hcount
  exact absurd hcount (not_le.mpr hall)

/-- **Some part** has a latency of its rank that is at least that of the merge. -/
theorem exists_le_kthSmallest (h : Merge parts merged) (hf : IsFraction f)
    (hexact : ExactRanks f q (parts.flatMap Prod.fst).length) :
    ∃ part ∈ parts, kthSmallest (parts.flatMap Prod.fst)
      (rank (parts.flatMap Prod.fst).length f) ≤ kthSmallest part.1 (rank part.1.length f) := by
  by_contra hnone
  push Not at hnone
  set x := kthSmallest (parts.flatMap Prod.fst) (rank (parts.flatMap Prod.fst).length f) with hx
  obtain ⟨hmerged, hnearest⟩ := h.nearest hexact
  have hlt : ∀ y z : ℚ, y ≤ z → z < x → y < x := fun _ _ => lt_of_le_of_lt
  -- In every part as many latencies as its rank are less than `x`, so there are enough in all.
  have hparts : ∀ part ∈ parts,
      part.1.length * q ≤ (part.1.countP (fun y : ℚ => y < x) : ℕ) := by
    intro part hpart
    obtain ⟨hpos, hle⟩ := h.rank_part hf hpart
    refine ceil_toNat_le.mp (show nearestRank part.1.length q ≤ _ from ?_)
    rw [← hnearest part hpart]
    exact (kthSmallest_iff hlt hpos hle).mp (hnone part hpart)
  have hall := ceil_toNat_le.mpr (le_countP_flatMap hparts)
  obtain ⟨hpos, hle⟩ := h.rank_merged hf
  refine absurd ((kthSmallest_iff hlt hpos hle).mpr ?_) (lt_irrefl x)
  rw [hmerged]
  exact hall

/-! ### The percentile -/

/-- `left > right` is kept by a larger left side. -/
theorem greater_of_lessEq {x y t : Number} (h : x.greater t = true) (hle : x.lessEq y = true) :
    y.greater t = true := by
  simp only [Number.greater, decide_eq_true_eq] at h ⊢
  refine ⟨?_, h.2.1, ?_⟩
  · rintro rfl
    cases x <;> cases hle
  · by_contra hnot
    have htrans := Number.lessEq_trans hle ((Bool.not_eq_false _).mp hnot)
    rw [h.2.2] at htrans
    cases htrans

/-- **The percentile of a merge** is between those of its parts, unless it is above the last bucket:
then it is the longest latency of all, and some part is above the last bucket too. -/
structure MergedBetween (parts : List (List ℚ × LatencyHistogram)) (merged : LatencyHistogram)
    (f : ℚ) : Prop where
  lower : ∃ part ∈ parts,
    (percentile part.2 (.fin f)).lessEq (percentile merged (.fin f)) = true
  upper : (∃ part ∈ parts,
      (percentile merged (.fin f)).lessEq (percentile part.2 (.fin f)) = true) ∨
    (∃ longest, IsGreatest {x | x ∈ parts.flatMap Prod.fst} longest ∧
      percentile merged (.fin f) = roundMs (.fin longest)) ∧
    ∃ part ∈ parts, (Number.fin 60000).lessEq (percentile part.2 (.fin f)) = true
  threshold : ∀ t : ℚ, t < 60000 → (percentile merged (.fin f)).greater (.fin t) = true →
    ∃ part ∈ parts, (percentile part.2 (.fin f)).greater (.fin t) = true

theorem Merge.recorded_merged (h : Merge parts merged) :
    Recorded (parts.flatMap Prod.fst) merged := .merge h.recorded h.merged

theorem Merge.percentileIs_part (h : Merge parts merged) (hf : IsFraction f)
    {part : List ℚ × LatencyHistogram} (hpart : part ∈ parts) :
    PercentileIs part.1 (rank part.1.length f) (percentile part.2 (.fin f)) :=
  percentileIs_rank (h.recorded part hpart) (h.part_ne_nil part hpart)
    ((length_part_le hpart).trans h.count) hf

theorem Merge.percentileIs_merged (h : Merge parts merged) (hf : IsFraction f) :
    PercentileIs (parts.flatMap Prod.fst) (rank (parts.flatMap Prod.fst).length f)
      (percentile merged (.fin f)) :=
  percentileIs_rank h.recorded_merged h.flatMap_ne_nil h.count hf

theorem Merge.between (h : Merge parts merged) (hf : IsFraction f)
    (hexact : ExactRanks f q (parts.flatMap Prod.fst).length) :
    MergedBetween parts merged f := by
  obtain ⟨hpos, hle⟩ := h.rank_merged hf
  have hmerged := h.percentileIs_merged hf
  have hlower : ∃ part ∈ parts,
      (percentile part.2 (.fin f)).lessEq (percentile merged (.fin f)) = true := by
    obtain ⟨part, hpart, hkth⟩ := exists_kthSmallest_le h hf hexact
    refine ⟨part, hpart, (h.percentileIs_part hf hpart).mono hmerged
      (h.recorded part hpart).nonneg (kthSmallest_mem hpos hle) hkth fun _ x hx => ?_⟩
    exact ⟨x, List.mem_flatMap.mpr ⟨part, hpart, hx⟩, le_refl x⟩
  obtain ⟨part, hpart, hkth⟩ := exists_le_kthSmallest h hf hexact
  obtain ⟨hpos', hle'⟩ := h.rank_part hf hpart
  have hmem := kthSmallest_mem hpos' hle'
  have hupper : (∃ part ∈ parts,
      (percentile merged (.fin f)).lessEq (percentile part.2 (.fin f)) = true) ∨
    (∃ longest, IsGreatest {x | x ∈ parts.flatMap Prod.fst} longest ∧
      percentile merged (.fin f) = roundMs (.fin longest)) ∧
    ∃ part ∈ parts, (Number.fin 60000).lessEq (percentile part.2 (.fin f)) = true := by
    rcases le_or_gt (kthSmallest (parts.flatMap Prod.fst)
      (rank (parts.flatMap Prod.fst).length f)) 60000 with hsmall | hlarge
    · exact Or.inl ⟨part, hpart, hmerged.mono (h.percentileIs_part hf hpart)
        h.recorded_merged.nonneg hmem hkth fun hlarge => absurd hsmall (not_le.mpr hlarge)⟩
    · obtain ⟨longest, hvalue, hlongest⟩ := hmerged.overflow hlarge
      obtain ⟨longest', hvalue', hlongest'⟩ :=
        (h.percentileIs_part hf hpart).overflow (hlarge.trans_le hkth)
      refine Or.inr ⟨⟨longest, hlongest, hvalue⟩, part, hpart, ?_⟩
      rw [hvalue']
      exact lastBound_lessEq ((hlarge.trans_le hkth).trans_le (hlongest'.2 hmem))
  refine ⟨hlower, hupper, fun t ht hgreater => ?_⟩
  rcases hupper with ⟨part, hpart, hle⟩ | ⟨-, part, hpart, hlast⟩
  · exact ⟨part, hpart, greater_of_lessEq hgreater hle⟩
  · refine ⟨part, hpart, greater_of_lessEq ?_ hlast⟩
    simp [Number.greater, Number.lessEq, ht]

/-! ### The threshold -/

/-- The condition of the warning `latency-near-timeout` of a client (`diagnosticWarnings`), and of
a stage that constrains the rating (`extractPressureGuidance`). -/
def nearTimeout (requestTimeoutMs : ℕ) (histogram : LatencyHistogram) : Bool :=
  (latencySummary histogram).p95Ms.greater ((requestTimeoutMs : Number).div (2 : ℕ))

theorem nearTimeout_eq {requestTimeoutMs : ℕ} (h : requestTimeoutMs < 2 ^ 53)
    (histogram : LatencyHistogram) : nearTimeout requestTimeoutMs histogram =
      (percentile histogram (.fin p95Fraction)).greater (.fin (requestTimeoutMs / 2)) := by
  have hhalf : (requestTimeoutMs : Number).div (2 : ℕ) = .fin (requestTimeoutMs / 2) := by
    have hround := Number.round_dyadic h (show 1 ≤ 1074 by decide)
    rw [pow_one] at hround
    have hne : ¬((2 : ℕ) : ℚ) = 0 := by norm_num
    simp only [Number.div, if_neg hne]
    exact_mod_cast hround
  rw [nearTimeout, hhalf]
  simp only [latencySummary, round_p95]

/-- **Merging keeps percentiles between those of the parts**, for every fraction whose ranks are
the nearest ones, which those of the summary are up to `2 ^ 45` latencies; so the rating of a stage
does not contradict the warnings of its clients if the timeout is less than two minutes. -/
theorem mergedPercentile_between (h : Merge parts merged) :
    (∀ f q, IsFraction f → ExactRanks f q (parts.flatMap Prod.fst).length →
      MergedBetween parts merged f) ∧
    ((parts.flatMap Prod.fst).length ≤ 2 ^ 45 →
      MergedBetween parts merged halfFraction ∧ MergedBetween parts merged p95Fraction ∧
      MergedBetween parts merged p99Fraction ∧
      ∀ requestTimeoutMs < 120000, nearTimeout requestTimeoutMs merged = true →
        ∃ part ∈ parts, nearTimeout requestTimeoutMs part.2 = true) := by
  refine ⟨fun f q hf hexact => h.between hf hexact, fun hsmall => ?_⟩
  have hp95 : MergedBetween parts merged p95Fraction :=
    h.between isFraction_p95 fun n hpos hn => rank_p95 hpos (hn.trans hsmall)
  refine ⟨h.between isFraction_half fun n hpos hn => rank_half hpos (hn.trans hsmall), hp95,
    h.between isFraction_p99 fun n hpos hn => rank_p99 hpos (hn.trans hsmall),
    fun requestTimeoutMs htimeout hnear => ?_⟩
  have hlarge : requestTimeoutMs < 2 ^ 53 := htimeout.trans (by decide)
  have ht : (requestTimeoutMs / 2 : ℚ) < 60000 := by
    have : (requestTimeoutMs : ℚ) < 120000 := by exact_mod_cast htimeout
    linarith
  simp only [nearTimeout_eq hlarge] at hnear ⊢
  exact hp95.threshold _ ht hnear

end Merge

/-! ### Merges of a few latencies -/

/-- Clients that have recorded some latencies each. -/
def clientsOf (latencies : List (List ℚ)) : List (List ℚ × LatencyHistogram) :=
  latencies.map fun xs => (xs, recordAll xs)

theorem flatMap_clientsOf (latencies : List (List ℚ)) :
    (clientsOf latencies).flatMap Prod.fst = latencies.flatten := by
  rw [clientsOf, List.flatMap_map, List.flatMap_id']

theorem exists_merge {latencies : List (List ℚ)} (hne : latencies ≠ [])
    (hnonneg : ∀ xs ∈ latencies, ∀ x ∈ xs, 0 ≤ x) (hpart : ∀ xs ∈ latencies, xs ≠ [])
    (hcount : latencies.flatten.length ≤ maxSafeInteger) :
    ∃ merged, Merge (clientsOf latencies) merged := by
  have hrecorded : ∀ part ∈ clientsOf latencies, Recorded part.1 part.2 := by
    intro part hmem
    obtain ⟨xs, hxs, rfl⟩ := List.mem_map.mp hmem
    exact recorded_recordAll (hnonneg xs hxs)
  obtain ⟨merged, hmerged⟩ := @exists_merged ((clientsOf latencies).map Prod.snd) (by
    intro histogram hhistogram
    obtain ⟨part, hmem, rfl⟩ := List.mem_map.mp hhistogram
    exact ⟨part.1, hrecorded part hmem⟩)
  refine ⟨merged, by simpa [clientsOf] using hne, hrecorded, fun part hmem => ?_, hmerged, ?_⟩
  · obtain ⟨xs, hxs, rfl⟩ := List.mem_map.mp hmem
    exact hpart xs hxs
  · rwa [flatMap_clientsOf]

/-- The second client has fewer and longer latencies. -/
def twoClients : List (List ℚ) := [tenLatencies, [2, 300, 45000]]

theorem mergedBetween_twoClients : ∃ merged, Merge (clientsOf twoClients) merged ∧
    MergedBetween (clientsOf twoClients) merged p95Fraction := by
  obtain ⟨merged, hmerge⟩ := @exists_merge twoClients (by decide) (by decide) (by decide)
    (by decide)
  exact ⟨merged, hmerge, ((mergedPercentile_between hmerge).2 (by decide)).2.1⟩

/-- The second client has the longest latency, but not at its median. -/
def longLatencies : List (List ℚ) := [[70000, 70000, 70000], [1, 1000000]]

/-- `9 / 14`, which is a little more. -/
def nineFourteenths : ℚ := (5790342378047781 : ℕ) / 2 ^ 53

/-- Nine of every fourteen latencies are short. -/
def shortLatencies : List (List ℚ) :=
  [List.replicate 9 1 ++ List.replicate 5 100, List.replicate 18 1 ++ List.replicate 10 100]

theorem isFraction_nineFourteenths : IsFraction nineFourteenths where
  pos := by norm_num [nineFourteenths]
  le_one := by norm_num [nineFourteenths]
  exact := Number.round_dyadic (by decide) (by decide)

/-- The ranks of the parts are rounded down, the rank of the merge is rounded up. -/
theorem rank_nineFourteenths : rank 14 nineFourteenths = 9 ∧ rank 28 nineFourteenths = 18 ∧
    rank 42 nineFourteenths = 28 := by
  have h₁ : Number.round ((14 : ℕ) * nineFourteenths) = .fin ((9 * 2 ^ 49 : ℕ) / 2 ^ 49) :=
    Number.round_eq (by norm_num [nineFourteenths]) (by norm_num [nineFourteenths]) (by decide)
      (by norm_num [nineFourteenths, abs_lt])
  have h₂ : Number.round ((28 : ℕ) * nineFourteenths) = .fin ((9 * 2 ^ 49 : ℕ) / 2 ^ 48) :=
    Number.round_eq (by norm_num [nineFourteenths]) (by norm_num [nineFourteenths]) (by decide)
      (by norm_num [nineFourteenths, abs_lt])
  have h₃ : Number.round ((42 : ℕ) * nineFourteenths) =
      .fin ((7599824371187713 : ℕ) / 2 ^ 48) :=
    Number.round_eq (by norm_num [nineFourteenths]) (by norm_num [nineFourteenths]) (by decide)
      (by norm_num [nineFourteenths, abs_lt])
  refine ⟨?_, ?_, ?_⟩
  · rw [rank, h₁]
    refine ceil_toNat_eq ?_ ?_ <;> norm_num
  · rw [rank, h₂]
    refine ceil_toNat_eq ?_ ?_ <;> norm_num
  · rw [rank, h₃]
    refine ceil_toNat_eq ?_ ?_ <;> norm_num

/-- The median is `70000` for one client and `1` for the other, and `1000000` for both. -/
theorem not_between_longLatencies {merged : LatencyHistogram}
    (h : Merge (clientsOf longLatencies) merged) : ∀ part ∈ clientsOf longLatencies,
      (percentile merged (.fin halfFraction)).lessEq
        (percentile part.2 (.fin halfFraction)) = false := by
  have hrank : rank 5 halfFraction = 3 ∧ rank 3 halfFraction = 2 ∧ rank 2 halfFraction = 1 := by
    refine ⟨(rank_half (by decide) (by decide)).trans (ceil_toNat_eq ?_ ?_),
      (rank_half (by decide) (by decide)).trans (ceil_toNat_eq ?_ ?_),
      (rank_half (by decide) (by decide)).trans (ceil_toNat_eq ?_ ?_)⟩ <;> norm_num
  have hmerged := h.percentileIs_merged isFraction_half
  rw [flatMap_clientsOf, show longLatencies.flatten.length = 5 from rfl, hrank.1] at hmerged
  have hlarge : 60000 < kthSmallest longLatencies.flatten 3 :=
    not_le.mp fun hle => absurd ((kthSmallest_le_iff (by decide) (by decide)).mp hle) (by decide)
  obtain ⟨longest, hvalue, hlongest⟩ := hmerged.overflow hlarge
  obtain rfl : longest = ((1000000 : ℕ) : ℚ) := by
    refine hlongest.unique ⟨by decide, ?_⟩
    have hbound : ∀ x ∈ longLatencies.flatten, x ≤ ((1000000 : ℕ) : ℚ) := by decide
    exact hbound
  rw [hvalue, roundMs_natCast (by decide)]
  intro part hpart
  have hpercentile := h.percentileIs_part isFraction_half hpart
  obtain ⟨xs, hxs, rfl⟩ := List.mem_map.mp hpart
  rcases List.mem_cons.mp hxs with rfl | hxs
  · rw [show List.length [(70000 : ℚ), 70000, 70000] = 3 from rfl, hrank.2.1] at hpercentile
    have hlarge' : 60000 < kthSmallest [(70000 : ℚ), 70000, 70000] 2 := not_le.mp fun hle =>
      absurd ((kthSmallest_le_iff (by decide) (by decide)).mp hle) (by decide)
    obtain ⟨longest', hvalue', hlongest'⟩ := hpercentile.overflow hlarge'
    obtain rfl : longest' = ((70000 : ℕ) : ℚ) := by
      have hbound : ∀ x ∈ [(70000 : ℚ), 70000, 70000], x ≤ ((70000 : ℕ) : ℚ) := by decide
      exact hlongest'.unique ⟨by decide, hbound⟩
    rw [hvalue', roundMs_natCast (by decide)]
    decide
  · obtain rfl := List.mem_singleton.mp hxs
    rw [show List.length [(1 : ℚ), 1000000] = 2 from rfl, hrank.2.2] at hpercentile
    rw [hpercentile.eq_bound (show 1 ≤ 1 by decide) (by decide)
      (show 1 ∈ latencyBucketUpperMs by decide) (by decide) (by decide)]
    decide

/-- The percentile is `1` for each client, and `100` for both. -/
theorem not_between_shortLatencies {merged : LatencyHistogram}
    (h : Merge (clientsOf shortLatencies) merged) : ∀ part ∈ clientsOf shortLatencies,
      (percentile merged (.fin nineFourteenths)).lessEq
        (percentile part.2 (.fin nineFourteenths)) = false := by
  obtain ⟨h14, h28, h42⟩ := rank_nineFourteenths
  have hmerged := h.percentileIs_merged isFraction_nineFourteenths
  rw [flatMap_clientsOf, show shortLatencies.flatten.length = 42 from rfl, h42] at hmerged
  rw [hmerged.eq_bound (show 1 ≤ 28 by decide) (by decide)
    (show 100 ∈ latencyBucketUpperMs by decide) (by decide) (by decide)]
  intro part hpart
  have hpercentile := h.percentileIs_part isFraction_nineFourteenths hpart
  obtain ⟨xs, hxs, rfl⟩ := List.mem_map.mp hpart
  have hone : percentile (recordAll xs) (.fin nineFourteenths) = ((1 : ℕ) : Number) := by
    rcases List.mem_cons.mp hxs with rfl | hxs
    · rw [show (List.replicate 9 1 ++ List.replicate 5 100 : List ℚ).length = 14 from rfl,
        h14] at hpercentile
      exact hpercentile.eq_bound (by decide) (by decide) (by decide) (by decide) (by decide)
    · obtain rfl := List.mem_singleton.mp hxs
      rw [show (List.replicate 18 1 ++ List.replicate 10 100 : List ℚ).length = 28 from rfl,
        h28] at hpercentile
      exact hpercentile.eq_bound (by decide) (by decide) (by decide) (by decide) (by decide)
  rw [hone]
  decide

/-- **Two merges that are not below their parts**: the longest latency is reported above the last
bucket, and the rank of a merge can be larger than those of the parts together. -/
theorem not_between_parts :
    (∃ merged, Merge (clientsOf longLatencies) merged ∧ ∀ part ∈ clientsOf longLatencies,
      (percentile merged (.fin halfFraction)).lessEq
        (percentile part.2 (.fin halfFraction)) = false) ∧
    IsFraction nineFourteenths ∧
    ∃ merged, Merge (clientsOf shortLatencies) merged ∧ ∀ part ∈ clientsOf shortLatencies,
      (percentile merged (.fin nineFourteenths)).lessEq
        (percentile part.2 (.fin nineFourteenths)) = false := by
  refine ⟨?_, isFraction_nineFourteenths, ?_⟩
  · obtain ⟨merged, hmerge⟩ := @exists_merge longLatencies (by decide) (by decide) (by decide)
      (by decide)
    exact ⟨merged, hmerge, not_between_longLatencies hmerge⟩
  · obtain ⟨merged, hmerge⟩ := @exists_merge shortLatencies (by decide) (by decide) (by decide)
      (by decide)
    exact ⟨merged, hmerge, not_between_shortLatencies hmerge⟩

end Pressure

end FitzDestroyer
