import FitzDestroyer.Js.Rounding
import FitzDestroyer.Pressure.Latency
import Mathlib.Data.List.GetD
import Mathlib.Data.List.Sort
import Mathlib.Order.Bounds.Basic
import Mathlib.Tactic.Ring

/-!
# Percentiles of latencies

A percentile of a histogram is the bound of a bucket (`percentile` of `src/pressure.ts`).  Here it
is compared with the latencies that were recorded.

* `Recorded xs histogram` : the latencies `xs` were recorded, in histograms that were merged;
* `kthSmallest_iff` : the latency of a rank, by counting;
* `percentileIs_of_rank` : the percentile of a histogram, for the rank that is computed;
* `rank_spec`, `rank_near`, `rank_eq` : that rank, which is a product in double precision.
-/

namespace FitzDestroyer

namespace Pressure

open Js

/-! ### What was recorded -/

/-- The histograms of latencies, recorded one by one and merged in any grouping. -/
inductive Recorded : List ℚ → LatencyHistogram → Prop
  | empty : Recorded [] .empty
  | record {xs : List ℚ} {histogram : LatencyHistogram} {x : ℚ} (h : Recorded xs histogram)
      (hx : 0 ≤ x) : Recorded (xs ++ [x]) (recordStageLatency histogram (.fin x))
  | merge {parts : List (List ℚ × LatencyHistogram)} {merged : LatencyHistogram}
      (h : ∀ part ∈ parts, Recorded part.1 part.2)
      (hmerged : mergeLatencyHistograms (parts.map Prod.snd) = .ok merged) :
      Recorded (parts.flatMap Prod.fst) merged

/-- How many latencies are at most a bound. -/
def atMost (xs : List ℚ) (upper : ℚ) : ℕ := xs.countP fun x : ℚ => x ≤ upper

/-- The histogram counts the latencies. -/
structure Describes (xs : List ℚ) (histogram : LatencyHistogram) : Prop where
  count : histogram.count = xs.length
  length : histogram.buckets.length = latencyBucketUpperMs.length
  buckets : ∀ (i : ℕ) (h : i < latencyBucketUpperMs.length),
    (histogram.buckets.take (i + 1)).sum = atMost xs (latencyBucketUpperMs[i] : ℕ)
  maxMs : histogram.maxMs = .fin (xs.foldr max 0)

theorem atMost_append (xs ys : List ℚ) (upper : ℚ) :
    atMost (xs ++ ys) upper = atMost xs upper + atMost ys upper := List.countP_append

theorem foldr_max_append (xs ys : List ℚ) :
    (xs ++ ys).foldr max 0 = max (xs.foldr max 0) (ys.foldr max 0) := by
  have hnonneg : ∀ zs : List ℚ, 0 ≤ zs.foldr max 0 := by
    intro zs
    induction zs with
    | nil => exact le_refl 0
    | cons z zs ih => exact le_max_of_le_right ih
  induction xs with
  | nil => exact (max_eq_right (hnonneg ys)).symm
  | cons x xs ih => rw [List.cons_append, List.foldr_cons, List.foldr_cons, ih, max_assoc]

theorem describes_empty : Describes [] .empty where
  count := rfl
  length := rfl
  buckets := by
    intro i _
    have hzero : ∀ n ∈ LatencyHistogram.empty.buckets.take (i + 1), n = 0 := fun n hn => by
      obtain ⟨_, -, rfl⟩ := List.mem_map.mp (List.mem_of_mem_take hn)
      rfl
    rw [List.sum_eq_zero_iff_forall_eq_nat.mpr hzero]
    rfl
  maxMs := rfl

/-- One more in a bucket is one more from that bucket on. -/
theorem sum_take_set_succ (buckets : List ℕ) {index : ℕ} (h : index < buckets.length) (n : ℕ) :
    ((buckets.set index (buckets.getD index 0 + 1)).take n).sum =
      (buckets.take n).sum + if index < n then 1 else 0 := by
  induction buckets generalizing index n with
  | nil => exact absurd h (Nat.not_lt_zero index)
  | cons count buckets ih =>
    cases n with
    | zero => simp
    | succ n =>
      cases index with
      | zero => simp [Nat.add_right_comm]
      | succ index =>
        have hrest := ih (Nat.lt_of_succ_lt_succ h) n
        rw [List.set_cons_succ, List.getD_cons_succ, List.take_succ_cons, List.sum_cons, hrest,
          List.take_succ_cons, List.sum_cons, Nat.add_assoc]
        simp only [Nat.succ_lt_succ_iff]

theorem latencyBucketUpperMs_sorted : latencyBucketUpperMs.Pairwise (· < ·) := by decide

/-- The bucket of a latency. -/
theorem findIdx?_bucket (x : ℚ) :
    (latencyBucketUpperMs.findIdx? fun upper => (Number.fin x).le (upper : Number)) =
      latencyBucketUpperMs.findIdx? fun upper : ℕ => decide (x ≤ upper) := rfl

/-- **Recording** a latency counts it. -/
theorem Describes.record {xs : List ℚ} {histogram : LatencyHistogram} {x : ℚ}
    (h : Describes xs histogram) (hx : 0 ≤ x) :
    Describes (xs ++ [x]) (recordStageLatency histogram (.fin x)) := by
  have hmax : histogram.maxMs.max (.fin x) = .fin ((xs ++ [x]).foldr max 0) := by
    rw [h.maxMs, foldr_max_append]
    show Number.fin (max _ x) = .fin (max _ (max x 0))
    rw [max_eq_left hx]
  have hcount : histogram.count + 1 = (xs ++ [x]).length := by
    rw [h.count, List.length_append, List.length_singleton]
  have hvalue : Number.max (.fin 0) (.fin x) = .fin x := by
    show Number.fin (max 0 x) = .fin x
    rw [max_eq_right hx]
  have hone : ∀ upper : ℚ, atMost [x] upper = if x ≤ upper then 1 else 0 := by
    intro upper
    simp [atMost]
  unfold recordStageLatency
  dsimp only
  rw [hvalue, findIdx?_bucket]
  cases hindex : latencyBucketUpperMs.findIdx? fun upper : ℕ => decide (x ≤ upper) with
  | none =>
    -- The latency is above every bound.
    refine ⟨hcount, h.length, fun i hi => ?_, hmax⟩
    have habove := List.findIdx?_eq_none_iff.mp hindex _ (List.getElem_mem hi)
    have hnot : ¬x ≤ latencyBucketUpperMs[i] := by simpa using habove
    rw [atMost_append, hone, if_neg hnot]
    exact h.buckets i hi
  | some index =>
    obtain ⟨hlt, hfirst, hbefore⟩ := List.findIdx?_eq_some_iff_getElem.mp hindex
    have hfirst' : x ≤ latencyBucketUpperMs[index] := by simpa using hfirst
    refine ⟨hcount, by rw [List.length_set, h.length], fun i hi => ?_, hmax⟩
    have hiff : x ≤ latencyBucketUpperMs[i] ↔ index < i + 1 := by
      constructor
      · intro hle
        by_contra hlt'
        have := hbefore i (by omega)
        simp only [decide_eq_true_eq] at this
        exact this hle
      · intro hle
        refine hfirst'.trans ?_
        rcases (Nat.lt_succ_iff.mp hle).lt_or_eq with hlt' | rfl
        · exact_mod_cast (List.pairwise_iff_getElem.mp latencyBucketUpperMs_sorted _ _ hlt hi
            hlt').le
        · exact le_refl _
    rw [sum_take_set_succ _ (h.length ▸ hlt), atMost_append, hone, h.buckets i hi]
    simp only [hiff]

/-- **Merging** counts the latencies of both. -/
theorem Describes.plus {xs ys : List ℚ} {histogram histogram' : LatencyHistogram}
    (h : Describes xs histogram) (h' : Describes ys histogram') :
    Describes (xs ++ ys) (histogram.plus histogram') where
  count := by
    show histogram.count + histogram'.count = _
    rw [h.count, h'.count, List.length_append]
  length := by
    show (List.zipWith (· + ·) histogram.buckets histogram'.buckets).length = _
    rw [List.length_zipWith, h.length, h'.length, min_self]
  buckets := by
    intro i hi
    show ((List.zipWith (· + ·) histogram.buckets histogram'.buckets).take (i + 1)).sum = _
    rw [List.take_zipWith, ← List.sum_add_sum_eq_sum_zipWith_of_length_eq, h.buckets i hi,
      h'.buckets i hi, atMost_append]
    rw [List.length_take, List.length_take, h.length, h'.length]
  maxMs := by
    show histogram.maxMs.max histogram'.maxMs = _
    rw [h.maxMs, h'.maxMs, foldr_max_append]
    rfl

theorem mergeInto_of_describes {xs : List ℚ} {merged histogram : LatencyHistogram}
    (h : Describes xs histogram) : mergeInto merged histogram = .ok (merged.plus histogram) :=
  if_neg (not_not.mpr h.length)

/-- A merged histogram counts the latencies of its parts. -/
theorem describes_foldlM {parts : List (List ℚ × LatencyHistogram)} {xs : List ℚ}
    {start merged : LatencyHistogram} (hstart : Describes xs start)
    (h : ∀ part ∈ parts, Describes part.1 part.2)
    (hmerged : (parts.map Prod.snd).foldlM mergeInto start = .ok merged) :
    Describes (xs ++ parts.flatMap Prod.fst) merged := by
  induction parts generalizing xs start with
  | nil =>
    obtain rfl := Except.ok.inj hmerged
    rwa [List.flatMap_nil, List.append_nil]
  | cons part parts ih =>
    obtain ⟨hpart, hparts⟩ := List.forall_mem_cons.mp h
    rw [List.map_cons, List.foldlM_cons, mergeInto_of_describes hpart] at hmerged
    rw [List.flatMap_cons, ← List.append_assoc]
    exact ih (hstart.plus hpart) hparts hmerged

/-- **Every histogram** counts the latencies that were recorded. -/
theorem Recorded.describes {xs : List ℚ} {histogram : LatencyHistogram}
    (h : Recorded xs histogram) : Describes xs histogram := by
  induction h with
  | empty => exact describes_empty
  | record _ hx ih => exact ih.record hx
  | merge _ hmerged ih =>
    have hdescribes := describes_foldlM describes_empty ih hmerged
    rwa [List.nil_append] at hdescribes

theorem Recorded.nonneg {xs : List ℚ} {histogram : LatencyHistogram} (h : Recorded xs histogram) :
    ∀ x ∈ xs, 0 ≤ x := by
  induction h with
  | empty => exact fun _ hx => absurd hx List.not_mem_nil
  | record _ hx ih => exact List.forall_mem_append.mpr ⟨ih, List.forall_mem_singleton.mpr hx⟩
  | merge _ _ ih =>
    intro x hx
    obtain ⟨part, hpart, hx⟩ := List.mem_flatMap.mp hx
    exact ih part hpart x hx

/-- The histogram of the latencies of one client. -/
def recordAll (xs : List ℚ) : LatencyHistogram :=
  xs.foldl (fun histogram x => recordStageLatency histogram (.fin x)) .empty

theorem recorded_recordAll {xs : List ℚ} (h : ∀ x ∈ xs, 0 ≤ x) : Recorded xs (recordAll xs) := by
  have hfoldl : ∀ (ys : List ℚ) (histogram : LatencyHistogram) (zs : List ℚ),
      Recorded ys histogram → (∀ z ∈ zs, 0 ≤ z) → Recorded (ys ++ zs)
        (zs.foldl (fun histogram z => recordStageLatency histogram (.fin z)) histogram) := by
    intro ys histogram zs
    induction zs generalizing ys histogram with
    | nil =>
      intro hys _
      rwa [List.append_nil]
    | cons z zs ih =>
      intro hys hzs
      obtain ⟨hz, hzs⟩ := List.forall_mem_cons.mp hzs
      have hrest := ih _ _ (hys.record hz) hzs
      rwa [List.append_assoc, List.singleton_append] at hrest
  exact hfoldl [] .empty xs .empty h

/-- Histograms that were recorded can be merged. -/
theorem exists_merged {histograms : List LatencyHistogram}
    (h : ∀ histogram ∈ histograms, ∃ xs, Recorded xs histogram) :
    ∃ merged, mergeLatencyHistograms histograms = .ok merged := by
  unfold mergeLatencyHistograms
  generalize LatencyHistogram.empty = start
  induction histograms generalizing start with
  | nil => exact ⟨start, rfl⟩
  | cons histogram histograms ih =>
    obtain ⟨⟨xs, hxs⟩, hrest⟩ := List.forall_mem_cons.mp h
    rw [List.foldlM_cons, mergeInto_of_describes hxs.describes]
    exact ih hrest _

/-! ### The nearest rank -/

/-- The latency of a rank, from one on. -/
def kthSmallest (xs : List ℚ) (k : ℕ) : ℚ :=
  (xs.mergeSort fun x y : ℚ => x ≤ y).getD (k - 1) 0

/-- In a sorted list, the item of a rank is small iff as many items are. -/
theorem getD_iff {p : ℚ → Prop} [DecidablePred p] (hp : ∀ x y, x ≤ y → p y → p x) {xs : List ℚ}
    (hsorted : xs.Pairwise (· ≤ ·)) {n : ℕ} (hn : n < xs.length) :
    p (xs.getD n 0) ↔ n < xs.countP p := by
  induction xs generalizing n with
  | nil => exact absurd hn (Nat.not_lt_zero n)
  | cons x xs ih =>
    obtain ⟨hx, hxs⟩ := List.pairwise_cons.mp hsorted
    by_cases hsmall : p x
    · rw [List.countP_cons_of_pos (by simpa using hsmall)]
      cases n with
      | zero => exact iff_of_true hsmall (Nat.succ_pos _)
      | succ n =>
        rw [List.getD_cons_succ, ih hxs (Nat.lt_of_succ_lt_succ hn)]
        omega
    · -- The first item is too large, so all are.
      have hlarge : ∀ y ∈ x :: xs, ¬p y := by
        intro y hy hsmall'
        rcases List.mem_cons.mp hy with rfl | hy
        · exact hsmall hsmall'
        · exact hsmall (hp x y (hx y hy) hsmall')
      have hzero : (x :: xs).countP p = 0 :=
        List.countP_eq_zero.mpr fun y hy => by simpa using hlarge y hy
      have hmem : (x :: xs).getD n 0 ∈ x :: xs := by
        rw [List.getD_eq_getElem _ _ hn]
        exact List.getElem_mem hn
      rw [hzero]
      exact iff_of_false (hlarge _ hmem) (Nat.not_lt_zero n)

/-- **The latency of a rank** is small iff as many latencies are. -/
theorem kthSmallest_iff {p : ℚ → Prop} [DecidablePred p] (hp : ∀ x y, x ≤ y → p y → p x)
    {xs : List ℚ} {k : ℕ} (hpos : 1 ≤ k) (hk : k ≤ xs.length) :
    p (kthSmallest xs k) ↔ k ≤ xs.countP p := by
  have hperm := List.mergeSort_perm xs fun x y : ℚ => x ≤ y
  have hsorted : (xs.mergeSort fun x y : ℚ => x ≤ y).Pairwise (· ≤ ·) := by
    have h := @List.pairwise_mergeSort _ (fun x y : ℚ => decide (x ≤ y))
      (fun a b c => by simpa using le_trans) (fun a b => by simpa using le_total a b) xs
    exact h.imp fun h => by simpa using h
  have hcount : (xs.mergeSort fun x y : ℚ => x ≤ y).countP p = xs.countP p := hperm.countP_eq _
  rw [kthSmallest, getD_iff hp hsorted (by rw [hperm.length_eq]; omega), hcount]
  omega

theorem kthSmallest_le_iff {xs : List ℚ} {k : ℕ} (hpos : 1 ≤ k) (hk : k ≤ xs.length)
    {upper : ℚ} : kthSmallest xs k ≤ upper ↔ k ≤ atMost xs upper :=
  kthSmallest_iff (fun _ _ => le_trans) hpos hk

theorem kthSmallest_mem {xs : List ℚ} {k : ℕ} (hpos : 1 ≤ k) (hk : k ≤ xs.length) :
    kthSmallest xs k ∈ xs := by
  have hperm := List.mergeSort_perm xs fun x y : ℚ => x ≤ y
  have hlt : k - 1 < (xs.mergeSort fun x y : ℚ => x ≤ y).length := by
    rw [hperm.length_eq]
    omega
  rw [kthSmallest, List.getD_eq_getElem _ _ hlt]
  exact hperm.subset (List.getElem_mem hlt)

theorem kthSmallest_mono {xs : List ℚ} {k k' : ℕ} (hpos : 1 ≤ k) (h : k ≤ k')
    (hk : k' ≤ xs.length) : kthSmallest xs k ≤ kthSmallest xs k' := by
  rw [kthSmallest_le_iff hpos (h.trans hk)]
  exact h.trans ((kthSmallest_le_iff (hpos.trans h) hk).mp (le_refl _))

/-! ### The percentile -/

/-- **The percentile of a rank**: the least bound of a bucket that is not below the latency of the
rank, or the longest latency if there is no such bucket. -/
structure PercentileIs (xs : List ℚ) (k : ℕ) (value : Number) : Prop where
  bucket : kthSmallest xs k ≤ 60000 → ∃ upper : ℕ, value = (upper : Number) ∧
    IsLeast {u : ℕ | u ∈ latencyBucketUpperMs ∧ kthSmallest xs k ≤ u} upper
  overflow : 60000 < kthSmallest xs k → ∃ longest : ℚ, value = roundMs (.fin longest) ∧
    IsGreatest {x | x ∈ xs} longest

/-- The scan stops at the first bound with enough latencies below it. -/
theorem bucketAt_eq {target cumulative : ℕ} {counts uppers : List ℕ} {below : ℕ → ℕ}
    (hlength : counts.length = uppers.length)
    (h : ∀ (i : ℕ) (hi : i < uppers.length),
      cumulative + (counts.take (i + 1)).sum = below uppers[i]) :
    bucketAt (target : Number) cumulative (counts.zip uppers) =
      uppers.find? fun upper => target ≤ below upper := by
  induction uppers generalizing counts cumulative with
  | nil =>
    obtain rfl := List.length_eq_zero_iff.mp hlength
    rfl
  | cons upper uppers ih =>
    cases counts with
    | nil => cases hlength
    | cons count counts =>
      have hfirst : cumulative + count = below upper := by
        have := h 0 (Nat.succ_pos _)
        simpa using this
      rw [List.zip_cons_cons, bucketAt, List.find?_cons, hfirst]
      have hle : (target : Number).le ((below upper : ℕ) : Number) =
          decide (target ≤ below upper) := by
        simp [Number.le]
      rw [hle]
      by_cases htarget : target ≤ below upper
      · simp [htarget]
      · simp only [htarget, decide_false, Bool.false_eq_true, if_false]
        refine ih (Nat.succ.inj hlength) fun i hi => ?_
        have := h (i + 1) (Nat.succ_lt_succ hi)
        rw [List.take_succ_cons, List.sum_cons, List.getElem_cons_succ] at this
        omega

theorem isGreatest_foldr_max {xs : List ℚ} (hne : xs ≠ []) (hnonneg : ∀ x ∈ xs, 0 ≤ x) :
    IsGreatest {x | x ∈ xs} (xs.foldr max 0) := by
  induction xs with
  | nil => exact absurd rfl hne
  | cons x xs ih =>
    obtain ⟨hx, hxs⟩ := List.forall_mem_cons.mp hnonneg
    by_cases hnil : xs = []
    · subst hnil
      rw [List.foldr_cons, List.foldr_nil, max_eq_left hx]
      exact ⟨List.mem_singleton_self x, fun y hy => (List.mem_singleton.mp hy).le⟩
    · obtain ⟨hmem, hupper⟩ := ih hnil hxs
      refine ⟨?_, fun y hy => ?_⟩
      · rw [List.foldr_cons]
        rcases max_choice x (xs.foldr max 0) with heq | heq <;> rw [heq]
        · exact List.mem_cons_self
        · exact List.mem_cons_of_mem _ hmem
      · rcases List.mem_cons.mp hy with rfl | hy
        · exact le_max_left _ _
        · exact le_max_of_le_right (hupper hy)

/-- **The percentile of a histogram**, for the rank that is computed. -/
theorem percentileIs_of_rank {xs : List ℚ} {histogram : LatencyHistogram} {fraction : Number}
    {k : ℕ} (h : Recorded xs histogram)
    (hrank : ((xs.length : Number).mul fraction).ceil = (k : Number)) (hpos : 1 ≤ k)
    (hk : k ≤ xs.length) : PercentileIs xs k (percentile histogram fraction) := by
  have hdescribes := h.describes
  have hne : xs ≠ [] := fun hnil => by
    rw [hnil, List.length_nil] at hk
    omega
  have hcount : histogram.count ≠ 0 := by
    rw [hdescribes.count]
    omega
  have hvalue : percentile histogram fraction =
      (latencyBucketUpperMs.find? fun upper : ℕ => kthSmallest xs k ≤ (upper : ℚ)).elim
        (roundMs (.fin (xs.foldr max 0))) fun upper => (upper : Number) := by
    -- The rank is reached in the bucket of the `k`-th smallest latency.
    have hfind : (latencyBucketUpperMs.find? fun upper : ℕ => k ≤ atMost xs upper) =
        latencyBucketUpperMs.find? fun upper : ℕ => kthSmallest xs k ≤ (upper : ℚ) :=
      congrArg (List.find? · latencyBucketUpperMs)
        (funext fun upper => by simp only [kthSmallest_le_iff hpos hk])
    rw [percentile, if_neg hcount, hdescribes.count, hrank, hdescribes.maxMs, ← hfind]
    dsimp only
    rw [@bucketAt_eq k 0 _ _ (fun upper : ℕ => atMost xs upper) hdescribes.length fun i hi => by
      rw [Nat.zero_add, hdescribes.buckets i hi]]
    cases latencyBucketUpperMs.find? fun upper : ℕ => k ≤ atMost xs upper <;> rfl
  constructor
  · intro hsmall
    cases hfind : latencyBucketUpperMs.find? fun upper : ℕ => kthSmallest xs k ≤ (upper : ℚ) with
    | none =>
      have habove := List.find?_eq_none.mp hfind 60000 (by decide)
      exact absurd hsmall (by simpa using habove)
    | some upper =>
      rw [hfind] at hvalue
      obtain ⟨hupper, before, after, hsplit, hbefore⟩ := List.find?_eq_some_iff_append.mp hfind
      refine ⟨upper, hvalue, ⟨?_, by simpa using hupper⟩, fun u hu => ?_⟩
      · rw [hsplit]
        simp
      · -- The bounds are sorted, so that the first one that fits is the least.
        have hsorted := latencyBucketUpperMs_sorted
        have hmem := hu.1
        rw [hsplit] at hsorted hmem
        rcases List.mem_append.mp hmem with hmem | hmem
        · have := hbefore u hmem
          exact absurd hu.2 (by simpa using this)
        · rcases List.mem_cons.mp hmem with rfl | hmem
          · exact le_refl _
          · exact ((List.pairwise_cons.mp (List.pairwise_append.mp hsorted).2.1).1 u hmem).le
  · -- No bound is as large as the latency: the maximum is reported.
    intro hlarge
    have hfind : (latencyBucketUpperMs.find? fun upper : ℕ => kthSmallest xs k ≤ (upper : ℚ)) =
        none := by
      refine List.find?_eq_none.mpr fun upper hupper => ?_
      have hbound : ∀ u ∈ latencyBucketUpperMs, u ≤ 60000 := by decide
      have hupper' : (upper : ℚ) ≤ 60000 := by exact_mod_cast hbound upper hupper
      simpa using hupper'.trans_lt hlarge
    rw [hfind] at hvalue
    exact ⟨_, hvalue, isGreatest_foldr_max hne h.nonneg⟩

/-- The first bound with enough latencies below it. -/
theorem PercentileIs.eq_bound {xs : List ℚ} {k upper : ℕ} {value : Number}
    (h : PercentileIs xs k value) (hpos : 1 ≤ k) (hk : k ≤ xs.length)
    (hmem : upper ∈ latencyBucketUpperMs) (hle : k ≤ atMost xs upper)
    (hbelow : ∀ u ∈ latencyBucketUpperMs, u < upper → atMost xs u < k) :
    value = (upper : Number) := by
  have hbound : ∀ u ∈ latencyBucketUpperMs, u ≤ 60000 := by decide
  have hkth : kthSmallest xs k ≤ upper := (kthSmallest_le_iff hpos hk).mpr hle
  obtain ⟨upper', rfl, hleast⟩ :=
    h.bucket (hkth.trans (by exact_mod_cast hbound upper hmem))
  have hle' : upper' ≤ upper := hleast.2 ⟨hmem, hkth⟩
  rcases hle'.lt_or_eq with hlt | rfl
  · have hcount := (kthSmallest_le_iff hpos hk).mp hleast.1.2
    exact absurd hcount (not_le.mpr (hbelow upper' hleast.1.1 hlt))
  · rfl

/-! ### Ranks in double precision -/

/-- A fraction of which there is a percentile, as a number. -/
structure IsFraction (f : ℚ) : Prop where
  pos : 0 < f
  le_one : f ≤ 1
  exact : Number.round f = .fin f

/-- `Math.ceil(count * fraction)`: the product is rounded before its ceiling is taken. -/
def rank (n : ℕ) (fraction : ℚ) : ℕ :=
  match Number.round (n * fraction) with
  | .fin q => q.ceil.toNat
  | _ => 0

/-- The nearest rank. -/
def nearestRank (n : ℕ) (fraction : ℚ) : ℕ := (n * fraction).ceil.toNat

theorem ceil_toNat_le {q : ℚ} {m : ℕ} : q.ceil.toNat ≤ m ↔ q ≤ m := by
  rw [Int.toNat_le, Rat.ceil_le_iff, Int.cast_natCast]

theorem lt_ceil_toNat {q : ℚ} {m : ℕ} : m < q.ceil.toNat ↔ (m : ℚ) < q := by
  rw [← not_le, ceil_toNat_le, not_le]

theorem ceil_toNat_eq {q : ℚ} {m : ℕ} (hlow : (m : ℚ) < q) (hhigh : q ≤ (m + 1 : ℕ)) :
    q.ceil.toNat = m + 1 :=
  le_antisymm (ceil_toNat_le.mpr hhigh) (lt_ceil_toNat.mpr hlow)

/-- A product that is between two numbers is so after it has been rounded. -/
theorem round_between {x a b : ℚ} (ha : 0 ≤ a) (hax : a ≤ x) (hxb : x ≤ b)
    (hround : Number.round a = .fin a) (hround' : Number.round b = .fin b) :
    ∃ q, Number.round x = .fin q ∧ a ≤ q ∧ q ≤ b := by
  have hlow := Number.round_mono ha hax
  have hhigh := Number.round_mono (ha.trans hax) hxb
  rw [hround] at hlow
  rw [hround'] at hhigh
  cases hx : Number.round x with
  | fin q =>
    rw [hx] at hlow hhigh
    exact ⟨q, rfl, of_decide_eq_true hlow, of_decide_eq_true hhigh⟩
  | _ =>
    rw [hx] at hlow hhigh
    simp [Number.lessEq] at hlow hhigh

section Rank

variable {n : ℕ} {f : ℚ}

/-- The product of the rank. -/
theorem IsFraction.product (hf : IsFraction f) (hpos : 1 ≤ n) (hn : n ≤ maxSafeInteger) :
    ∃ q, Number.round (n * f) = .fin q ∧ f ≤ q ∧ q ≤ n := by
  have hone : (1 : ℚ) ≤ n := by exact_mod_cast hpos
  exact round_between hf.pos.le (le_mul_of_one_le_left hf.pos.le hone)
    (mul_le_of_le_one_right n.cast_nonneg hf.le_one) hf.exact (Number.round_natCast hn)

/-- **The rank that is computed** is one of a latency. -/
theorem rank_spec (hf : IsFraction f) (hpos : 1 ≤ n) (hn : n ≤ maxSafeInteger) :
    ((n : Number).mul (.fin f)).ceil = (rank n f : Number) ∧ 1 ≤ rank n f ∧ rank n f ≤ n := by
  obtain ⟨q, hq, hlow, hhigh⟩ := hf.product hpos hn
  have hq' : 0 < q := hf.pos.trans_le hlow
  have hrank : rank n f = q.ceil.toNat := by rw [rank, hq]
  have hceil : (0 : ℤ) < q.ceil := by
    rw [Rat.lt_ceil_iff]
    exact_mod_cast hq'
  refine ⟨?_, ?_, ?_⟩
  · show (Number.round (n * f)).ceil = _
    rw [hq, hrank]
    show Number.fin q.ceil = .fin ((q.ceil.toNat : ℕ) : ℚ)
    rw [← Int.cast_natCast, Int.toNat_of_nonneg hceil.le]
  · omega
  · rw [hrank, ceil_toNat_le]
    exact hhigh

/-- **The rank that is computed** is the nearest one, or the one before it. -/
theorem rank_near (hf : IsFraction f) (hpos : 1 ≤ n) (hn : n ≤ maxSafeInteger) :
    rank n f ≤ nearestRank n f ∧ nearestRank n f ≤ rank n f + 1 := by
  have hproduct : (0 : ℚ) < n * f := mul_pos (by exact_mod_cast hpos) hf.pos
  obtain ⟨m, hm⟩ : ∃ m, nearestRank n f = m + 1 := by
    refine ⟨nearestRank n f - 1, (Nat.sub_add_cancel ?_).symm⟩
    exact lt_ceil_toNat.mpr (by exact_mod_cast hproduct)
  have hhigh : (n * f : ℚ) ≤ (m + 1 : ℕ) := ceil_toNat_le.mp hm.le
  have hlow : (m : ℚ) < n * f := by
    refine lt_ceil_toNat.mp (show m < nearestRank n f from ?_)
    omega
  have hsafe : m + 1 ≤ maxSafeInteger := by
    refine le_trans ?_ hn
    rw [← hm]
    exact ceil_toNat_le.mpr (mul_le_of_le_one_right n.cast_nonneg hf.le_one)
  -- Rounding passes neither of the whole numbers around the product.
  obtain ⟨q, hq, hqlow, hqhigh⟩ := round_between m.cast_nonneg hlow.le hhigh
    (Number.round_natCast (Nat.le_of_succ_le hsafe)) (Number.round_natCast hsafe)
  rw [hm, rank, hq]
  refine ⟨ceil_toNat_le.mpr hqhigh, Nat.succ_le_succ ?_⟩
  exact_mod_cast hqlow.trans (ceil_toNat_le.mp (le_refl _))

/-- A larger fraction has a larger rank. -/
theorem rank_mono {f' : ℚ} (hf : IsFraction f) (hf' : IsFraction f') (h : f ≤ f') (hpos : 1 ≤ n)
    (hn : n ≤ maxSafeInteger) : rank n f ≤ rank n f' := by
  obtain ⟨q, hq, -, -⟩ := hf.product hpos hn
  obtain ⟨q', hq', -, -⟩ := hf'.product hpos hn
  have hmono := Number.round_mono (mul_nonneg n.cast_nonneg hf.pos.le)
    (mul_le_mul_of_nonneg_left h n.cast_nonneg)
  rw [hq, hq'] at hmono
  have hle : q ≤ q' := of_decide_eq_true hmono
  rw [rank, rank, hq, hq']
  exact ceil_toNat_le.mpr (hle.trans (ceil_toNat_le.mp (le_refl _)))

/-- **The nearest rank is computed**, for a fraction just below a percentage, up to `2 ^ 45`
latencies. -/
theorem rank_eq {a b : ℕ} (ha : 0 < a) (hab : a ≤ b) (hb : b ≤ 100) (hbelow : f ≤ a / b)
    (hnear : (a / b : ℚ) - f ≤ 1 / 2 ^ 54) (hpos : 1 ≤ n) (hn : n ≤ 2 ^ 45) :
    rank n f = nearestRank n (a / b) := by
  have hb₀ : (0 : ℚ) < b := by exact_mod_cast ha.trans_le hab
  have hone : (a / b : ℚ) ≤ 1 := (div_le_one hb₀).mpr (by exact_mod_cast hab)
  have hproduct : (0 : ℚ) < n * (a / b) :=
    mul_pos (by exact_mod_cast hpos) (div_pos (by exact_mod_cast ha) hb₀)
  obtain ⟨m, hm⟩ : ∃ m, nearestRank n (a / b) = m + 1 := by
    refine ⟨nearestRank n (a / b) - 1, (Nat.sub_add_cancel ?_).symm⟩
    exact lt_ceil_toNat.mpr (by exact_mod_cast hproduct)
  have hhigh : (n * (a / b) : ℚ) ≤ (m + 1 : ℕ) := ceil_toNat_le.mp hm.le
  have hlow : (m : ℚ) < n * (a / b) := by
    refine lt_ceil_toNat.mp (show m < nearestRank n (a / b) from ?_)
    omega
  have hmn : m + 1 ≤ n := by
    rw [← hm]
    exact ceil_toNat_le.mpr (mul_le_of_le_one_right n.cast_nonneg hone)
  -- The exact product is at least a hundredth above the rank before.
  have hgap : (m : ℚ) + 1 / 100 ≤ n * (a / b) := by
    have hcast : (m * b : ℕ) < n * a := by
      rw [mul_div_assoc', lt_div_iff₀ hb₀] at hlow
      exact_mod_cast hlow
    have hcast' : (m * b + 1 : ℚ) ≤ n * a := by exact_mod_cast hcast
    have hb₁ : (b : ℚ) ≤ 100 := by exact_mod_cast hb
    rw [mul_div_assoc', le_div_iff₀ hb₀]
    linarith
  have hnear' : (m : ℚ) + 1 / 128 ≤ n * f := by
    have hn' : (n : ℚ) ≤ 2 ^ 45 := by exact_mod_cast hn
    have herror : (n : ℚ) * (a / b - f) ≤ 2 ^ 45 * (1 / 2 ^ 54) :=
      mul_le_mul hn' hnear (sub_nonneg.mpr hbelow) (by norm_num)
    rw [mul_sub] at herror
    norm_num at herror
    linarith
  have hdyadic : Number.round (m + 1 / 128 : ℚ) = .fin (m + 1 / 128) := by
    have h := Number.round_dyadic (show 128 * m + 1 < 2 ^ 53 by omega) (show 7 ≤ 1074 by decide)
    have heq : ((128 * m + 1 : ℕ) / 2 ^ 7 : ℚ) = m + 1 / 128 := by
      push_cast
      ring
    rwa [heq] at h
  have hsafe : m + 1 ≤ maxSafeInteger := hmn.trans (hn.trans (by decide))
  obtain ⟨q, hq, hqlow, hqhigh⟩ := round_between (by positivity) hnear'
    ((mul_le_mul_of_nonneg_left hbelow n.cast_nonneg).trans hhigh) hdyadic
    (Number.round_natCast hsafe)
  rw [hm, rank, hq]
  refine le_antisymm (ceil_toNat_le.mpr hqhigh) (lt_ceil_toNat.mpr ?_)
  linarith

end Rank

end Pressure

end FitzDestroyer
