import Mathlib.Logic.Basic

/-!
# Procedures with mutable variables and exceptions

The body of an `async` function assigns variables of its closure, awaits effects that may throw,
and handles exceptions.  A throw does not undo assignments, so a procedure maps the variables to
an outcome *and* the variables after it.

* `Proc S ε α` : procedures over the variables `S`;
* `Proc.tryCatch`, `Proc.finallyReturn` : `try`/`catch`, and a `finally` block that returns.
-/

namespace FitzDestroyer

namespace Js

universe u v w

/-- A procedure over the variables `S` that returns an `α` or throws an `ε`. -/
def Proc (S : Type u) (ε : Type v) (α : Type w) := S → Except ε α × S

namespace Proc

variable {S : Type u} {ε : Type v} {α β : Type w}

instance : Monad (Proc S ε) where
  pure a := fun s => (.ok a, s)
  bind x f := fun s =>
    match x s with
    | (.ok a, s') => f a s'
    | (.error e, s') => (.error e, s')

/-- Assign the variables. -/
def modify (f : S → S) : Proc S ε Unit := fun s => (.ok (), f s)

/-- Read the variables. -/
def get : Proc S ε S := fun s => (.ok s, s)

/-- `throw e`. -/
def throw (e : ε) : Proc S ε α := fun s => (.error e, s)

/-- `try { x } catch (error) { handler(error) }`. -/
def tryCatch (x : Proc S ε α) (handler : ε → Proc S ε α) : Proc S ε α := fun s =>
  match x s with
  | (.ok a, s') => (.ok a, s')
  | (.error e, s') => handler e s'

/-- `try { x } finally { block }` where `block` returns: whatever `x` threw is dropped. -/
def finallyReturn (x : Proc S ε α) (block : Proc S ε β) : Proc S ε β := fun s => block (x s).2

@[simp] theorem pure_apply (a : α) (s : S) : (pure a : Proc S ε α) s = (.ok a, s) := rfl

theorem bind_apply (x : Proc S ε α) (f : α → Proc S ε β) (s : S) :
    (x >>= f) s = match x s with
      | (.ok a, s') => f a s'
      | (.error e, s') => (.error e, s') := rfl

theorem bind_of_ok {x : Proc S ε α} {f : α → Proc S ε β} {s s' : S} {a : α}
    (h : x s = (.ok a, s')) : (x >>= f) s = f a s' := by
  rw [bind_apply, h]

theorem bind_of_error {x : Proc S ε α} {f : α → Proc S ε β} {s s' : S} {e : ε}
    (h : x s = (.error e, s')) : (x >>= f) s = (.error e, s') := by
  rw [bind_apply, h]

end Proc

end Js

end FitzDestroyer
