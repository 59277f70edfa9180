import Mathlib.Data.Nat.Basic
import Mathlib.Logic.Function.Iterate

/-!
# Polling

`while (condition() && Date.now() < deadline) await sleep(..)`: between two looks at the condition
and at the clock some time goes by.

* `Clock` : when a sleep ends;
* `Clock.Polled` : the times at which a loop looks;
* `Clock.poll` : the time at which it stops, and `Clock.poll_eq`, which characterizes it.
-/

namespace FitzDestroyer

namespace Js

/-- The clock of a loop that sleeps: `wake` is the time at which a sleep ends. -/
structure Clock where
  wake : ℕ → ℕ
  lt_wake : ∀ t, t < wake t

namespace Clock

variable (clock : Clock)

/-- The loop, from a time on. -/
def poll (condition : ℕ → Bool) (deadline t : ℕ) : ℕ :=
  if condition t = true ∧ t < deadline then poll condition deadline (clock.wake t) else t
  termination_by deadline - t
  decreasing_by
    have := clock.lt_wake t
    omega

/-- The loop looks at the time `u` if it does not stop before. -/
def Polled (t u : ℕ) : Prop := ∃ n, u = clock.wake^[n] t

/-- The time at which a loop without another condition finds the deadline passed. -/
def passed (deadline t : ℕ) : ℕ := clock.poll (fun _ => true) deadline t

variable {clock} {condition : ℕ → Bool} {deadline t u v : ℕ}

theorem Polled.refl (t : ℕ) : clock.Polled t t := ⟨0, rfl⟩

theorem Polled.wake (h : clock.Polled (clock.wake t) u) : clock.Polled t u := by
  obtain ⟨n, rfl⟩ := h
  exact ⟨n + 1, rfl⟩

/-- The first look is now, and the others come after a sleep. -/
theorem Polled.eq_or_wake (h : clock.Polled t u) : u = t ∨ clock.Polled (clock.wake t) u := by
  obtain ⟨n, rfl⟩ := h
  cases n with
  | zero => exact .inl rfl
  | succ n => exact .inr ⟨n, rfl⟩

theorem Polled.le (h : clock.Polled t u) : t ≤ u := by
  obtain ⟨n, rfl⟩ := h
  induction n generalizing t with
  | zero => exact Nat.le_refl t
  | succ n ih => exact Nat.le_trans (Nat.le_of_lt (clock.lt_wake t)) ih

/-- What a loop has seen when it stops. -/
theorem poll_spec (clock : Clock) (condition : ℕ → Bool) (deadline t : ℕ) :
    clock.Polled t (clock.poll condition deadline t) ∧
    ¬(condition (clock.poll condition deadline t) = true ∧
      clock.poll condition deadline t < deadline) ∧
    ∀ u, clock.Polled t u → u < clock.poll condition deadline t →
      condition u = true ∧ u < deadline := by
  fun_induction clock.poll condition deadline t with
  | case1 t h ih =>
    obtain ⟨hpolled, hstop, hbefore⟩ := ih
    refine ⟨hpolled.wake, hstop, fun u hu hlt => ?_⟩
    rcases hu.eq_or_wake with rfl | hu
    · exact h
    · exact hbefore u hu hlt
  | case2 t h => exact ⟨.refl t, h, fun u hu hlt => absurd hu.le (not_le.mpr hlt)⟩

/-- **The time at which a loop stops** is the first look that does not let it go on. -/
theorem poll_eq (hpolled : clock.Polled t v) (hstop : ¬(condition v = true ∧ v < deadline))
    (hbefore : ∀ u, clock.Polled t u → u < v → condition u = true ∧ u < deadline) :
    clock.poll condition deadline t = v := by
  obtain ⟨hpolled', hstop', hbefore'⟩ := poll_spec clock condition deadline t
  rcases lt_trichotomy (clock.poll condition deadline t) v with hlt | heq | hlt
  · exact absurd (hbefore _ hpolled' hlt) hstop'
  · exact heq
  · exact absurd (hbefore' v hpolled hlt) hstop

/-- A loop stops when its deadline has passed, at the latest. -/
theorem poll_le_passed : clock.poll condition deadline t ≤ clock.passed deadline t := by
  by_contra h
  obtain ⟨hpolled, hstop, -⟩ := poll_spec clock (fun _ => true) deadline t
  exact hstop ⟨rfl, ((poll_spec clock condition deadline t).2.2 _ hpolled (not_le.mp h)).2⟩

/-- No look after the deadline comes before the one that finds it passed. -/
theorem passed_le (hpolled : clock.Polled t u) (hu : deadline ≤ u) :
    clock.passed deadline t ≤ u := by
  by_contra h
  exact absurd ((poll_spec clock (fun _ => true) deadline t).2.2 u hpolled (not_le.mp h)).2
    (not_lt.mpr hu)

end Clock

end Js

end FitzDestroyer
