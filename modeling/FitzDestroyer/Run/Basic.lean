import Mathlib.Data.List.Infix

/-!
# Event systems and their runs

The programs modelled here react to events: a socket delivers bytes, a timer fires, a broker
answers.  An *event system* gives the state after each event, or `none` when the event cannot
happen, and a *run* is a list of events.  Since the list is arbitrary, a statement about all
runs covers every interleaving.

## Main definitions

* `EventSys S E` : a partial transition function `S → E → Option S`.
* `EventSys.run` : the state after a list of events.
* `EventSys.restrict` : the system in which only some events happen.
* `EventSys.Guarded g` : every step of a run meets the guard `g` in the state it is taken from.
* `EventSys.Occurs g` : some step of a run meets `g` in the state it is taken from.

## Main results

* `EventSys.invariant_of_guarded` : an invariant that guarded steps preserve holds in every
  state a guarded run reaches.
* `EventSys.iff_guarded` : when a step outside the guard destroys a property for good, the last
  state of a run has the property **iff** the run is guarded.
* `EventSys.forall_prefix_iff_guarded` : when in addition every unguarded step breaks the
  property, the property holds all along a run **iff** the run is guarded.
* `EventSys.iff_occurs` : a property that the steps that meet `g` establish, and that no step
  destroys, holds in the end **iff** such a step occurs.
-/

namespace FitzDestroyer

/-- A deterministic event system: `step s e` is the state after event `e`, or `none` when `e`
cannot happen in `s`. -/
structure EventSys (S E : Type*) where
  /-- The state after one event. -/
  step : S → E → Option S

namespace EventSys

variable {S E : Type*} (A : EventSys S E)

/-- The state after the events `es`, in order. -/
def run (s : S) : List E → Option S
  | [] => some s
  | e :: es => (A.step s e).bind fun s' => run s' es

/-- Every step of the run `es` from `s` meets the guard `g` in the state it is taken from. -/
def Guarded (g : S → E → Prop) (s : S) : List E → Prop
  | [] => True
  | e :: es => g s e ∧ ∀ s', A.step s e = some s' → Guarded g s' es

/-- Some step of the run `es` from `s` meets `g` in the state it is taken from. -/
def Occurs (g : S → E → Prop) (s : S) : List E → Prop
  | [] => False
  | e :: es => g s e ∨ ∃ s', A.step s e = some s' ∧ Occurs g s' es

/-- Whether a run is guarded can be computed. -/
instance decidableGuarded (g : S → E → Prop) [∀ s e, Decidable (g s e)] (s : S) :
    (es : List E) → Decidable (A.Guarded g s es)
  | [] => isTrue trivial
  | e :: es =>
    match hst : A.step s e with
    | none => decidable_of_iff (g s e)
        ⟨fun hg => ⟨hg, fun t ht => by simp [hst] at ht⟩, fun h => h.1⟩
    | some t =>
      have := decidableGuarded g t es
      decidable_of_iff (g s e ∧ A.Guarded g t es)
        ⟨fun h => ⟨h.1, fun u hu => by rw [hst] at hu; exact Option.some.inj hu ▸ h.2⟩,
          fun h => ⟨h.1, h.2 t hst⟩⟩

/-- An event system in which every event can always happen. -/
def ofTotal (f : S → E → S) : EventSys S E := ⟨fun s e => some (f s e)⟩

/-- The runs of a system in which only the allowed events happen. -/
def restrict (allow : S → E → Prop) [∀ s e, Decidable (allow s e)] : EventSys S E :=
  ⟨fun s e => if allow s e then A.step s e else none⟩

variable {A}

theorem restrict_step_eq_some {allow : S → E → Prop} [∀ s e, Decidable (allow s e)] {s s' : S}
    {e : E} : (A.restrict allow).step s e = some s' ↔ allow s e ∧ A.step s e = some s' := by
  simp [restrict]

@[simp] theorem run_nil (s : S) : A.run s [] = some s := rfl

theorem run_cons {s : S} {e : E} {es : List E} :
    A.run s (e :: es) = (A.step s e).bind fun s' => A.run s' es := rfl

theorem run_cons_eq_some {s s' : S} {e : E} {es : List E} :
    A.run s (e :: es) = some s' ↔ ∃ t, A.step s e = some t ∧ A.run t es = some s' := by
  rw [run_cons, Option.bind_eq_some_iff]

theorem run_append_eq_some {s s' : S} {es es' : List E} :
    A.run s (es ++ es') = some s' ↔ ∃ t, A.run s es = some t ∧ A.run t es' = some s' := by
  induction es generalizing s with
  | nil => simp
  | cons e es ih =>
    rw [List.cons_append, run_cons_eq_some]
    simp only [ih, run_cons_eq_some]
    constructor
    · rintro ⟨t, ht, u, hu, h⟩
      exact ⟨u, ⟨t, ht, hu⟩, h⟩
    · rintro ⟨u, ⟨t, ht, hu⟩, h⟩
      exact ⟨t, ht, u, hu, h⟩

@[simp] theorem guarded_nil (g : S → E → Prop) (s : S) : A.Guarded g s [] := trivial

theorem Guarded.of_prefix {g : S → E → Prop} {s : S} {es es' : List E} (hpre : es' <+: es)
    (h : A.Guarded g s es) : A.Guarded g s es' := by
  induction es' generalizing s es with
  | nil => trivial
  | cons e es' ih =>
    obtain ⟨rest, rfl⟩ := hpre
    exact ⟨h.1, fun t ht => ih ⟨rest, rfl⟩ (h.2 t ht)⟩

theorem Guarded.tail {g : S → E → Prop} {s t : S} {e : E} {es : List E}
    (h : A.Guarded g s (e :: es)) (hst : A.step s e = some t) : A.Guarded g t es :=
  h.2 t hst

@[simp] theorem ofTotal_step (f : S → E → S) (s : S) (e : E) :
    (ofTotal f).step s e = some (f s e) := rfl

@[simp] theorem ofTotal_run (f : S → E → S) (s : S) (es : List E) :
    (ofTotal f).run s es = some (es.foldl f s) := by
  induction es generalizing s with
  | nil => rfl
  | cons e es ih => simp only [run_cons, ofTotal_step, Option.bind_some, List.foldl_cons, ih]

/-- An invariant that guarded steps preserve holds in every state a guarded run reaches. -/
theorem invariant_of_guarded {I : S → Prop} {g : S → E → Prop} {s s' : S} {es : List E}
    (hstep : ∀ s e s', I s → g s e → A.step s e = some s' → I s') (h₀ : I s)
    (hg : A.Guarded g s es) (hr : A.run s es = some s') : I s' := by
  induction es generalizing s with
  | nil => cases hr; exact h₀
  | cons e es ih =>
    obtain ⟨t, hst, hr⟩ := run_cons_eq_some.1 hr
    exact ih (hstep s e t h₀ hg.1 hst) (hg.tail hst) hr

/-- An invariant that every step preserves holds in every reachable state. -/
theorem invariant {I : S → Prop} {s s' : S} {es : List E}
    (hstep : ∀ s e s', I s → A.step s e = some s' → I s') (h₀ : I s)
    (hr : A.run s es = some s') : I s' := by
  induction es generalizing s with
  | nil => cases hr; exact h₀
  | cons e es ih =>
    obtain ⟨t, hst, hr⟩ := run_cons_eq_some.1 hr
    exact ih (hstep s e t h₀ hst) hr

/-- **The property holds all along a run iff the run is guarded**, when the guard preserves an
invariant that implies the property, and every step outside the guard breaks the property. -/
theorem forall_prefix_iff_guarded {I P : S → Prop} {g : S → E → Prop} {s s' : S} {es : List E}
    (hstep : ∀ s e s', I s → g s e → A.step s e = some s' → I s') (hIP : ∀ s, I s → P s)
    (hbad : ∀ s e s', I s → ¬ g s e → A.step s e = some s' → ¬ P s')
    (h₀ : I s) (hr : A.run s es = some s') :
    (∀ es' t, es' <+: es → A.run s es' = some t → P t) ↔ A.Guarded g s es := by
  constructor
  · intro h
    induction es generalizing s with
    | nil => trivial
    | cons e es ih =>
      obtain ⟨t, hst, hr⟩ := run_cons_eq_some.1 hr
      have hP : P t := h [e] t ⟨es, rfl⟩ (by simp [run_cons, hst])
      have hg : g s e := by
        by_contra hg
        exact hbad s e t h₀ hg hst hP
      refine ⟨hg, fun t' hst' => ?_⟩
      obtain rfl : t = t' := Option.some.inj (hst.symm.trans hst')
      refine ih (hstep s e t h₀ hg hst) hr fun es' u hpre hu => ?_
      exact h (e :: es') u (List.cons_prefix_cons.2 ⟨rfl, hpre⟩) (by simp [run_cons, hst, hu])
  · intro hg es' t hpre ht
    exact hIP t (invariant_of_guarded hstep h₀ (hg.of_prefix hpre) ht)

/-- **A run ends well iff it is guarded**, when the guard preserves a property that a step outside
the guard destroys for good, in all states that meet an invariant. -/
theorem iff_guarded {I P : S → Prop} {g : S → E → Prop} {s s' : S} {es : List E}
    (hinv : ∀ s e s', I s → A.step s e = some s' → I s')
    (hkeep : ∀ s e s', I s → P s → g s e → A.step s e = some s' → P s')
    (hbad : ∀ s e s', I s → ¬ g s e → A.step s e = some s' → ¬ P s')
    (hstay : ∀ s e s', I s → ¬ P s → A.step s e = some s' → ¬ P s')
    (hI : I s) (hP : P s) (hr : A.run s es = some s') : P s' ↔ A.Guarded g s es := by
  constructor
  · intro h
    induction es generalizing s with
    | nil => trivial
    | cons e es ih =>
      obtain ⟨t, hst, hr⟩ := run_cons_eq_some.1 hr
      have hIt : I t := hinv s e t hI hst
      have hPt : P t := by
        by_contra hPt
        have hlost : I s' ∧ ¬ P s' := invariant (I := fun u => I u ∧ ¬ P u)
          (fun u e u' hu hstep => ⟨hinv u e u' hu.1 hstep, hstay u e u' hu.1 hu.2 hstep⟩)
          ⟨hIt, hPt⟩ hr
        exact hlost.2 h
      have hg : g s e := by
        by_contra hg
        exact hbad s e t hI hg hst hPt
      refine ⟨hg, fun t' hst' => ?_⟩
      obtain rfl : t = t' := Option.some.inj (hst.symm.trans hst')
      exact ih hIt hPt hr
  · intro hg
    exact (invariant_of_guarded (I := fun u => I u ∧ P u)
      (fun u e u' hu hgu hstep => ⟨hinv u e u' hu.1 hstep, hkeep u e u' hu.1 hu.2 hgu hstep⟩)
      ⟨hI, hP⟩ hg hr).2

theorem Occurs.imp {g g' : S → E → Prop} {s : S} {es : List E} (h : ∀ s e, g s e → g' s e)
    (ho : A.Occurs g s es) : A.Occurs g' s es := by
  induction es generalizing s with
  | nil => exact ho
  | cons e es ih =>
    obtain hg | ⟨t, hst, ho⟩ := ho
    · exact .inl (h s e hg)
    · exact .inr ⟨t, hst, ih ho⟩

theorem occurs_or {g g' : S → E → Prop} {s : S} {es : List E} :
    A.Occurs (fun s e => g s e ∨ g' s e) s es ↔ A.Occurs g s es ∨ A.Occurs g' s es := by
  constructor
  · intro h
    induction es generalizing s with
    | nil => exact h.elim
    | cons e es ih =>
      obtain (hg | hg) | ⟨t, hst, ho⟩ := h
      · exact .inl (.inl hg)
      · exact .inr (.inl hg)
      · exact (ih ho).imp (fun h => .inr ⟨t, hst, h⟩) fun h => .inr ⟨t, hst, h⟩
  · rintro (h | h)
    · exact h.imp fun _ _ => .inl
    · exact h.imp fun _ _ => .inr

/-- **A property holds in the end iff it is established**, when the steps that meet `g` establish
it and no step destroys it, in all states that meet an invariant. -/
theorem iff_occurs {I P : S → Prop} {g : S → E → Prop} {s s' : S} {es : List E}
    (hinv : ∀ s e s', I s → A.step s e = some s' → I s')
    (hstep : ∀ s e s', I s → A.step s e = some s' → (P s' ↔ P s ∨ g s e))
    (hI : I s) (hr : A.run s es = some s') : P s' ↔ P s ∨ A.Occurs g s es := by
  induction es generalizing s with
  | nil =>
    obtain rfl := Option.some.inj hr
    exact (or_iff_left id).symm
  | cons e es ih =>
    obtain ⟨t, hst, hr⟩ := run_cons_eq_some.1 hr
    have hlater : (∃ t', A.step s e = some t' ∧ A.Occurs g t' es) ↔ A.Occurs g t es := by
      simp only [hst, Option.some.injEq, exists_eq_left']
    rw [ih (hinv s e t hI hst) hr, hstep s e t hI hst, Occurs, hlater, or_assoc]

end EventSys

end FitzDestroyer
