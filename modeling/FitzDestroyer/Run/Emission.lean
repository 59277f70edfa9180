import FitzDestroyer.Run.Basic
import Mathlib.Data.Nat.Notation

/-!
# Systems that print

A step of an event system may print something.  Someone who reads what has been printed so far
sees the outputs that are complete, and with them a part of the run.

## Main definitions

* `EventSys.emissions` : what a run prints.
* `EventSys.cut` : the outputs that are complete in a number of symbols, `EventSys.torn` : whether
  there is a part of another one.
* `EventSys.cutRun` : the part of a run that can be seen in a number of symbols.

## Main results

* `EventSys.cut_emissions` : the complete outputs are those of the part that can be seen.
* `EventSys.cutRun_mono` : someone who reads more sees a longer part.
-/

namespace FitzDestroyer

namespace EventSys

variable {S E O : Type*}

/-! ### Complete outputs -/

section Cut

variable (width : O → ℕ)

/-- The outputs that are complete in `n` symbols; a symbol separates an output from the next. -/
def cut : ℕ → List O → List O
  | _, [] => []
  | n, o :: os => if width o ≤ n then o :: cut (n - (width o + 1)) os else []

/-- There is a part of another output. -/
def torn : ℕ → List O → Bool
  | _, [] => false
  | n, o :: os => if width o ≤ n then torn (n - (width o + 1)) os else 0 < n

/-- The symbols of some outputs. -/
def size : List O → ℕ
  | [] => 0
  | o :: os => width o + 1 + size os

variable {width}

theorem cut_prefix (n : ℕ) (os : List O) : cut width n os <+: os := by
  induction os generalizing n with
  | nil => exact List.prefix_refl _
  | cons o os ih =>
    unfold cut
    split_ifs
    · exact List.cons_prefix_cons.mpr ⟨rfl, ih _⟩
    · exact List.nil_prefix

theorem cut_of_le {n : ℕ} {os : List O} (h : size width os ≤ n) : cut width n os = os := by
  induction os generalizing n with
  | nil => rfl
  | cons o os ih =>
    rw [size] at h
    rw [cut, if_pos (by omega), @ih (n - (width o + 1)) (by omega)]

theorem cut_zero {os : List O} (h : ∀ o ∈ os, 0 < width o) : cut width 0 os = [] := by
  cases os with
  | nil => rfl
  | cons o os =>
    rw [cut, if_neg]
    exact Nat.not_le.mpr (h o List.mem_cons_self)

/-- The outputs of one part, then those of the next. -/
theorem cut_append {n : ℕ} (os : List O) {os' : List O} (h : ∀ o ∈ os', 0 < width o) :
    cut width n (os ++ os') = cut width n os ++ cut width (n - size width os) os' := by
  induction os generalizing n with
  | nil => simp [cut, size]
  | cons o os ih =>
    rw [List.cons_append, cut, cut, size]
    split_ifs with hn
    · rw [ih, List.cons_append, Nat.sub_sub]
    · rw [Nat.sub_eq_zero_of_le (by omega), cut_zero h, List.append_nil]

end Cut

/-! ### Runs -/

section Runs

variable (A : EventSys S E) (emit : S → E → Option O) (width : O → ℕ)

/-- What a run prints. -/
def emissions (s : S) : List E → List O
  | [] => []
  | e :: es => (emit s e).toList ++ ((A.step s e).elim [] fun t => emissions t es)

/-- The part of a run that can be seen in `n` symbols. -/
def cutRun : ℕ → S → List E → List E
  | _, _, [] => []
  | n, s, e :: es =>
    match emit s e with
    | none => e :: ((A.step s e).elim [] fun t => cutRun n t es)
    | some o =>
      if width o ≤ n then e :: ((A.step s e).elim [] fun t => cutRun (n - (width o + 1)) t es)
      else []

variable {A emit width}

theorem emissions_cons {s t : S} {e : E} (h : A.step s e = some t) (es : List E) :
    A.emissions emit s (e :: es) = (emit s e).toList ++ A.emissions emit t es := by
  rw [emissions, h, Option.elim_some]

theorem emissions_append {s t : S} {es : List E} (h : A.run s es = some t) (es' : List E) :
    A.emissions emit s (es ++ es') = A.emissions emit s es ++ A.emissions emit t es' := by
  induction es generalizing s with
  | nil =>
    obtain rfl := Option.some.inj h
    rfl
  | cons e es ih =>
    obtain ⟨u, hu, h⟩ := run_cons_eq_some.mp h
    rw [List.cons_append, emissions_cons hu, emissions_cons hu, ih h, List.append_assoc]

theorem cutRun_of_none {s t : S} {e : E} (h : A.step s e = some t) (ho : emit s e = none) (n : ℕ)
    (es : List E) : A.cutRun emit width n s (e :: es) = e :: A.cutRun emit width n t es := by
  rw [cutRun, ho, h]
  rfl

theorem cutRun_of_some {s t : S} {e : E} {o : O} (h : A.step s e = some t)
    (ho : emit s e = some o) (n : ℕ) (es : List E) :
    A.cutRun emit width n s (e :: es) =
      if width o ≤ n then e :: A.cutRun emit width (n - (width o + 1)) t es else [] := by
  rw [cutRun, ho, h]
  rfl

theorem cutRun_prefix {s s' : S} {es : List E} (h : A.run s es = some s') (n : ℕ) :
    A.cutRun emit width n s es <+: es := by
  induction es generalizing n s with
  | nil => exact List.prefix_refl _
  | cons e es ih =>
    obtain ⟨t, ht, h⟩ := run_cons_eq_some.mp h
    cases ho : emit s e with
    | none =>
      rw [cutRun_of_none ht ho]
      exact List.cons_prefix_cons.mpr ⟨rfl, ih h n⟩
    | some o =>
      rw [cutRun_of_some ht ho]
      split_ifs
      · exact List.cons_prefix_cons.mpr ⟨rfl, ih h _⟩
      · exact List.nil_prefix

/-- **Someone who reads more sees a longer part.** -/
theorem cutRun_mono {s s' : S} {es : List E} (h : A.run s es = some s') {n m : ℕ} (hnm : n ≤ m) :
    A.cutRun emit width n s es <+: A.cutRun emit width m s es := by
  induction es generalizing n m s with
  | nil => exact List.prefix_refl _
  | cons e es ih =>
    obtain ⟨t, ht, h⟩ := run_cons_eq_some.mp h
    cases ho : emit s e with
    | none =>
      rw [cutRun_of_none ht ho, cutRun_of_none ht ho]
      exact List.cons_prefix_cons.mpr ⟨rfl, ih h hnm⟩
    | some o =>
      rw [cutRun_of_some ht ho, cutRun_of_some ht ho]
      split_ifs with hn hm
      · exact List.cons_prefix_cons.mpr ⟨rfl, ih h (Nat.sub_le_sub_right hnm _)⟩
      · exact absurd (hn.trans hnm) hm
      · exact List.nil_prefix
      · exact List.nil_prefix

/-- What has been printed completely can be seen. -/
theorem prefix_cutRun {s t : S} {es : List E} (h : A.run s es = some t) (es' : List E)
    {n : ℕ} (hn : size width (A.emissions emit s es) ≤ n) :
    es <+: A.cutRun emit width n s (es ++ es') := by
  induction es generalizing n s with
  | nil => exact List.nil_prefix
  | cons e es ih =>
    obtain ⟨v, hv, h⟩ := run_cons_eq_some.mp h
    rw [emissions_cons hv] at hn
    rw [List.cons_append]
    cases ho : emit s e with
    | none =>
      rw [ho, Option.toList_none, List.nil_append] at hn
      rw [cutRun_of_none hv ho]
      exact List.cons_prefix_cons.mpr ⟨rfl, ih h hn⟩
    | some o =>
      rw [ho, Option.toList_some, List.singleton_append, size] at hn
      rw [cutRun_of_some hv ho, if_pos (by omega)]
      exact List.cons_prefix_cons.mpr ⟨rfl, ih h (by omega)⟩

/-- **The complete outputs** are those of the part of the run that can be seen. -/
theorem cut_emissions {s s' : S} {es : List E} (h : A.run s es = some s') (n : ℕ) :
    cut width n (A.emissions emit s es) = A.emissions emit s (A.cutRun emit width n s es) := by
  induction es generalizing n s with
  | nil => rfl
  | cons e es ih =>
    obtain ⟨t, ht, h⟩ := run_cons_eq_some.mp h
    rw [emissions_cons ht]
    cases ho : emit s e with
    | none =>
      rw [cutRun_of_none ht ho, emissions_cons ht, ho]
      exact ih h n
    | some o =>
      rw [cutRun_of_some ht ho, Option.toList_some, List.singleton_append, cut]
      split_ifs
      · rw [emissions_cons ht, ho, ih h]
        rfl
      · rfl

end Runs

end EventSys

end FitzDestroyer
