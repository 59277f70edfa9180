import FitzDestroyer.Run.Basic
import Mathlib.Logic.Function.Basic

/-!
# Systems side by side

Systems that do not share a state, and whose events interleave in any order.  A run of all of
them is a run of each.

* `EventSys.pi` : the systems of a family, side by side;
* `EventSys.run_pi` : the run of one of them.
-/

namespace FitzDestroyer

namespace EventSys

variable {ι S E : Type*} [DecidableEq ι]

/-- The systems of a family, side by side: an event names its system. -/
def pi (A : ι → EventSys S E) : EventSys (ι → S) (ι × E) :=
  ⟨fun s e => ((A e.1).step (s e.1) e.2).map fun t => Function.update s e.1 t⟩

/-- The events of one system. -/
def eventsOf (i : ι) (es : List (ι × E)) : List E :=
  es.filterMap fun e => if e.1 = i then some e.2 else none

variable {A : ι → EventSys S E}

theorem pi_step_eq_some {s s' : ι → S} {e : ι × E} : (pi A).step s e = some s' ↔
    ∃ t, (A e.1).step (s e.1) e.2 = some t ∧ Function.update s e.1 t = s' :=
  Option.map_eq_some_iff

/-- **A run of all systems is a run of each.** -/
theorem run_pi {s s' : ι → S} {es : List (ι × E)} (h : (pi A).run s es = some s') (i : ι) :
    (A i).run (s i) (eventsOf i es) = some (s' i) := by
  induction es generalizing s with
  | nil =>
    obtain rfl := Option.some.inj h
    rfl
  | cons e es ih =>
    obtain ⟨s₁, hstep, hrun⟩ := run_cons_eq_some.mp h
    obtain ⟨t, ht, rfl⟩ := pi_step_eq_some.mp hstep
    have hrest := ih hrun
    by_cases hi : e.1 = i
    · subst hi
      have hevents : eventsOf e.1 (e :: es) = e.2 :: eventsOf e.1 es := by simp [eventsOf]
      rw [Function.update_self] at hrest
      rw [hevents]
      exact run_cons_eq_some.mpr ⟨t, ht, hrest⟩
    · have hevents : eventsOf i (e :: es) = eventsOf i es := by simp [eventsOf, hi]
      rw [Function.update_of_ne (Ne.symm hi)] at hrest
      rwa [hevents]

end EventSys

end FitzDestroyer
