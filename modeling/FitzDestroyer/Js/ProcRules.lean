import FitzDestroyer.Check.Basic
import FitzDestroyer.Js.Proc

/-!
# When a procedure returns

A script awaits one operation after another, and the first one that throws ends it.  These rules
say when a script returns, and with which variables: `simp` takes it apart, operation by operation.

* `Proc.Returns x s a s'` : `x` returns `a`, and leaves the variables `s'`;
* `Proc.lift` : a check, which does not change the variables;
* `Proc.tryFinally` : `try`/`finally`.
-/

namespace FitzDestroyer

namespace Js

namespace Proc

universe u v w

variable {S : Type u} {ε : Type v} {α β : Type w} {s s' s'' : S} {a a' : α} {b : β}

/-- The procedure returns a value. -/
def Returns (x : Proc S ε α) (s : S) (a : α) (s' : S) : Prop := x s = (.ok a, s')

/-- A check or a computation of values. -/
def lift (x : Except ε α) : Proc S ε α := fun s => (x, s)

/-- `try { x } finally { block }`, where `block` does not throw. -/
def tryFinally (x : Proc S ε α) (block : S → S) : Proc S ε α := fun s => ((x s).1, block (x s).2)

@[simp] theorem returns_pure : (pure a : Proc S ε α).Returns s a' s' ↔ a' = a ∧ s' = s := by
  rw [Returns, pure_apply, Prod.mk.injEq, Except.ok.injEq, @eq_comm _ a, @eq_comm _ s]

@[simp] theorem returns_bind {x : Proc S ε α} {f : α → Proc S ε β} :
    (x >>= f).Returns s b s'' ↔ ∃ a s', x.Returns s a s' ∧ (f a).Returns s' b s'' := by
  unfold Returns
  rw [bind_apply]
  rcases hx : x s with ⟨e | a, s'⟩ <;> simp

@[simp] theorem returns_throw {e : ε} : ¬(throw e : Proc S ε α).Returns s a s' := by
  simp [Returns, throw]

@[simp] theorem returns_get {t : S} : (get : Proc S ε S).Returns s t s' ↔ t = s ∧ s' = s := by
  rw [Returns, get, Prod.mk.injEq, Except.ok.injEq, @eq_comm _ s t, @eq_comm _ s s']

theorem Returns.bind {x : Proc S ε α} {f : α → Proc S ε β} (h : x.Returns s a s')
    (h' : (f a).Returns s' b s'') : (x >>= f).Returns s b s'' := returns_bind.mpr ⟨a, s', h, h'⟩

/-- A script that reads the variables, and goes on with them. -/
@[simp high] theorem returns_get_bind {γ : Type u} {f : S → Proc S ε γ} {c : γ} :
    (get >>= f).Returns s c s' ↔ (f s).Returns s c s' := Iff.rfl

@[simp] theorem returns_modify {f : S → S} {u : Unit} :
    (modify f : Proc S ε Unit).Returns s u s' ↔ s' = f s := by
  rw [Returns, modify, Prod.mk.injEq, @eq_comm _ (f s)]
  simp

theorem modify_returns {f : S → S} : (modify f : Proc S ε Unit).Returns s () (f s) := rfl

@[simp] theorem returns_lift {x : Except ε α} :
    (lift x : Proc S ε α).Returns s a s' ↔ x = .ok a ∧ s' = s := by
  rw [Returns, lift, Prod.mk.injEq, @eq_comm _ s]

/-- A check that passes. -/
theorem returns_lift_of_eq {x : Except ε α} (h : x = .ok a) : (lift x).Returns s a s :=
  returns_lift.mpr ⟨h, rfl⟩

@[simp] theorem returns_tryFinally {x : Proc S ε α} {block : S → S} :
    (tryFinally x block).Returns s a s'' ↔ ∃ s', x.Returns s a s' ∧ s'' = block s' := by
  unfold Returns tryFinally
  rcases x s with ⟨e | a, s'⟩ <;> simp [eq_comm]

/-- A procedure whose exceptions are caught: it returns, or the handler does. -/
theorem returns_tryCatch {x : Proc S ε α} {handler : ε → Proc S ε α} :
    (tryCatch x handler).Returns s a s'' ↔
      x.Returns s a s'' ∨ ∃ e s', x s = (.error e, s') ∧ (handler e).Returns s' a s'' := by
  unfold Returns tryCatch
  rcases x s with ⟨e | a, s'⟩ <;> simp

@[simp] theorem returns_ite {p : Prop} [Decidable p] {x y : Proc S ε α} :
    (if p then x else y).Returns s a s' ↔ if p then x.Returns s a s' else y.Returns s a s' := by
  split_ifs <;> rfl

/-- A procedure that returns. -/
theorem returns_iff_passes {x : Proc S ε α} :
    Check.Passes (x s).1 ↔ ∃ a s', x.Returns s a s' := by
  unfold Check.Passes Returns
  rcases x s with ⟨e | a, s'⟩ <;> simp

end Proc

end Js

end FitzDestroyer
