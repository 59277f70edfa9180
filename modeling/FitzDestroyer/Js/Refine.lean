import FitzDestroyer.Js.ProcRules

/-!
# Procedures that refine others

A procedure over other variables does the same as a second one: from related variables both return
the same value or both throw, and the variables are related again.  What they throw is not compared.

* `Proc.Refines R x y` : `x` refines `y`, for variables that `R` relates;
* `Proc.Refines.bind` and so on : a rule for each way to build a procedure.
-/

namespace FitzDestroyer

namespace Js

namespace Proc

universe u v w x

variable {S : Type u} {T : Type v} {ε : Type w} {α β : Type x} {R : S → T → Prop}

/-- The procedure does the same as another one, for variables that are related. -/
def Refines (R : S → T → Prop) (x : Proc S ε α) (y : Proc T ε α) : Prop :=
  ∀ s t, R s t → (x s).1.toOption = (y t).1.toOption ∧ R (x s).2 (y t).2

namespace Refines

protected theorem refl (x : Proc S ε α) : Refines Eq x x := by
  rintro s _ rfl
  exact ⟨rfl, rfl⟩

protected theorem pure (a : α) : Refines R (pure a : Proc S ε α) (pure a) :=
  fun _ _ h => ⟨rfl, h⟩

protected theorem throw (e e' : ε) : Refines R (throw e : Proc S ε α) (throw e') :=
  fun _ _ h => ⟨rfl, h⟩

theorem lift (x : Except ε α) : Refines R (lift x) (lift x) := fun _ _ h => ⟨rfl, h⟩

theorem modify {f : S → S} {g : T → T} (h : ∀ s t, R s t → R (f s) (g t)) :
    Refines R (modify f : Proc S ε Unit) (modify g) := fun s t hst => ⟨rfl, h s t hst⟩

theorem bind {x : Proc S ε α} {y : Proc T ε α} {f : α → Proc S ε β} {g : α → Proc T ε β}
    (h : Refines R x y) (hf : ∀ a, Refines R (f a) (g a)) : Refines R (x >>= f) (y >>= g) := by
  intro s t hst
  obtain ⟨hvalue, hrel⟩ := h s t hst
  rw [bind_apply, bind_apply]
  rcases hx : x s with ⟨e | a, s'⟩ <;> rcases hy : y t with ⟨e' | a', t'⟩ <;>
    rw [hx, hy] at hvalue hrel
  · exact ⟨rfl, hrel⟩
  · cases hvalue
  · cases hvalue
  · obtain rfl : a = a' := Option.some.inj hvalue
    exact hf a s' t' hrel

/-- The variables are read, and are used in what follows. -/
theorem get_bind {S T γ : Type u} {R : S → T → Prop} {f : S → Proc S ε γ} {g : T → Proc T ε γ}
    (h : ∀ s t, R s t → Refines R (f s) (g t)) : Refines R (get >>= f) (get >>= g) :=
  fun s t hst => h s t hst s t hst

theorem tryFinally {x : Proc S ε α} {y : Proc T ε α} {f : S → S} {g : T → T}
    (h : Refines R x y) (hf : ∀ s t, R s t → R (f s) (g t)) :
    Refines R (tryFinally x f) (tryFinally y g) := fun s t hst =>
  ⟨(h s t hst).1, hf _ _ (h s t hst).2⟩

protected theorem ite {p : Prop} [Decidable p] {x x' : Proc S ε α} {y y' : Proc T ε α}
    (h : Refines R x y) (h' : Refines R x' y') :
    Refines R (if p then x else x') (if p then y else y') := by
  split_ifs
  · exact h
  · exact h'

/-- Both return, or neither does. -/
theorem passes_iff {x : Proc S ε α} {y : Proc T ε α} (h : Refines R x y) {s : S} {t : T}
    (hst : R s t) : Check.Passes (x s).1 ↔ Check.Passes (y t).1 := by
  obtain ⟨hvalue, -⟩ := h s t hst
  rcases hx : (x s).1 with e | a <;> rcases hy : (y t).1 with e' | a' <;> rw [hx, hy] at hvalue
  · exact iff_of_false (by simp) (by simp)
  · cases hvalue
  · cases hvalue
  · exact iff_of_true ⟨a, rfl⟩ ⟨a', rfl⟩

end Refines

end Proc

end Js

end FitzDestroyer
