import Mathlib.Logic.Basic
import Mathlib.Data.List.Forall2

/-!
# Programs that pass or throw

A verdict function of a test harness runs a sequence of checks and throws at the first one that
fails.  It is modelled in `Except ε`; this file says when such a program passes, construct by
construct, so that a verdict is characterised by rewriting.

* `Check.failIf p e` : throw `e` if `p`.
* `Check.attempt e` : an operation that throws `e`, if anything.
* `Check.forEach xs f` : run the check `f` on every element, in order.
* `Check.Passes x` : `x` returns.
-/

namespace FitzDestroyer

namespace Check

universe u v

variable {ε : Type u} {α β : Type v}

/-- The program returns. -/
def Passes (x : Except ε α) : Prop := ∃ a, x = .ok a

/-- `if (p) throw e`. -/
def failIf (p : Prop) [Decidable p] (e : ε) : Except ε Unit := if p then .error e else .ok ()

/-- An operation that may throw. -/
def attempt : Option ε → Except ε Unit
  | none => .ok ()
  | some e => .error e

/-- `for (const x of xs) f(x)`. -/
def forEach : List α → (α → Except ε Unit) → Except ε Unit
  | [], _ => .ok ()
  | x :: xs, f => (f x).bind fun _ => forEach xs f

@[simp] theorem passes_ok (a : α) : Passes (.ok a : Except ε α) := ⟨a, rfl⟩

@[simp] theorem not_passes_error (e : ε) : ¬ Passes (.error e : Except ε α) := by
  rintro ⟨a, h⟩; cases h

@[simp] theorem passes_unit {x : Except ε Unit} : Passes x ↔ x = .ok () :=
  ⟨fun ⟨_, h⟩ => h, fun h => ⟨_, h⟩⟩

theorem not_passes_iff {x : Except ε α} : ¬ Passes x ↔ ∃ e, x = .error e := by
  cases x with
  | error e => simp
  | ok a => simp

@[simp] theorem bind_eq_ok {x : Except ε α} {f : α → Except ε β} {b : β} :
    x.bind f = .ok b ↔ ∃ a, x = .ok a ∧ f a = .ok b := by
  cases x <;> simp [Except.bind]

@[simp] theorem passes_bind {x : Except ε α} {f : α → Except ε β} :
    Passes (x.bind f) ↔ ∃ a, x = .ok a ∧ Passes (f a) := by
  cases x <;> simp [Passes, Except.bind]

/-- The result of a statement. -/
theorem exists_unit {p : Unit → Prop} : (∃ a, p a) ↔ p () := ⟨fun ⟨(), h⟩ => h, fun h => ⟨(), h⟩⟩

/-- A statement followed by the rest of the program. -/
theorem seq_eq_ok {x : Except ε Unit} {f : Unit → Except ε β} {b : β} :
    x.bind f = .ok b ↔ x = .ok () ∧ f () = .ok b := by
  cases x <;> simp [Except.bind]

theorem passes_seq {x : Except ε Unit} {f : Unit → Except ε α} :
    Passes (x.bind f) ↔ x = .ok () ∧ Passes (f ()) := by
  cases x <;> simp [Passes, Except.bind]

/-- `do` blocks bind with `>>=`. -/
@[simp] theorem bind_eq (x : Except ε α) (f : α → Except ε β) : x >>= f = x.bind f := rfl

@[simp] theorem pure_eq (a : α) : (pure a : Except ε α) = .ok a := rfl

@[simp] theorem throw_eq (e : ε) : (throw e : Except ε α) = .error e := rfl

@[simp] theorem failIf_eq_ok {p : Prop} [Decidable p] {e : ε} :
    failIf p e = .ok () ↔ ¬ p := by
  unfold failIf; split_ifs <;> simp [*]

@[simp] theorem attempt_eq_ok {error : Option ε} : attempt error = .ok () ↔ error = none := by
  cases error <;> simp [attempt]

@[simp] theorem forEach_eq_ok {xs : List α} {f : α → Except ε Unit} :
    forEach xs f = .ok () ↔ ∀ x ∈ xs, f x = .ok () := by
  induction xs with
  | nil => simp [forEach]
  | cons x xs ih =>
    rw [forEach, seq_eq_ok, ih, List.forall_mem_cons]

theorem mapM_eq_ok {f : α → Except ε β} {xs : List α} {ys : List β} :
    xs.mapM f = .ok ys ↔ List.Forall₂ (fun x y => f x = .ok y) xs ys := by
  induction xs generalizing ys with
  | nil => simp [eq_comm]
  | cons x xs ih =>
    simp only [List.mapM_cons, bind_eq, bind_eq_ok, pure_eq, Except.ok.injEq,
      List.forall₂_cons_left_iff, ih]
    constructor
    · rintro ⟨y, hy, ys', hys, rfl⟩; exact ⟨y, ys', hy, hys, rfl⟩
    · rintro ⟨y, ys', hy, hys, rfl⟩; exact ⟨y, hy, ys', hys, rfl⟩

theorem passes_mapM {f : α → Except ε β} {xs : List α} :
    Passes (xs.mapM f) ↔ ∀ x ∈ xs, Passes (f x) := by
  induction xs with
  | nil => simp
  | cons x xs ih =>
    rw [List.forall_mem_cons, ← ih, List.mapM_cons]
    simp only [bind_eq, passes_bind, pure_eq, passes_ok, and_true]
    exact ⟨fun ⟨y, hy, hys⟩ => ⟨⟨y, hy⟩, hys⟩, fun ⟨⟨y, hy⟩, hys⟩ => ⟨y, hy, hys⟩⟩

/-- A result comes from an element. -/
theorem exists_of_mapM {f : α → Except ε β} {xs : List α} {ys : List β} {y : β}
    (h : xs.mapM f = .ok ys) (hy : y ∈ ys) : ∃ x ∈ xs, f x = .ok y := by
  rw [mapM_eq_ok] at h
  induction h with
  | nil => cases hy
  | cons hx _ ih =>
    obtain rfl | hy := List.mem_cons.mp hy
    · exact ⟨_, List.mem_cons_self, hx⟩
    · obtain ⟨x, hmem, hfx⟩ := ih hy
      exact ⟨x, List.mem_cons_of_mem _ hmem, hfx⟩

/-- Every result of a `map` is right. -/
theorem exists_mapM_forall {f : α → Except ε β} {xs : List α} {P : β → Prop} :
    (∃ ys, xs.mapM f = .ok ys ∧ ∀ y ∈ ys, P y) ↔ ∀ x ∈ xs, ∃ y, f x = .ok y ∧ P y := by
  induction xs with
  | nil => simp
  | cons x xs ih =>
    simp only [List.mapM_cons, bind_eq, bind_eq_ok, pure_eq, Except.ok.injEq,
      List.forall_mem_cons, ← ih]
    constructor
    · rintro ⟨_, ⟨y, hy, ys, hys, rfl⟩, hP⟩
      obtain ⟨hPy, hPys⟩ := List.forall_mem_cons.mp hP
      exact ⟨⟨y, hy, hPy⟩, ys, hys, hPys⟩
    · rintro ⟨⟨y, hy, hPy⟩, ys, hys, hPys⟩
      exact ⟨_, ⟨y, hy, ys, hys, rfl⟩, List.forall_mem_cons.mpr ⟨hPy, hPys⟩⟩

/-- A `map` whose function throws on some elements. -/
theorem mapM_ite_eq_ok {p : α → Prop} [DecidablePred p] {e : α → ε} {g : α → β} {xs : List α}
    {ys : List β} : (xs.mapM fun x => if p x then Except.error (e x) else .ok (g x)) = .ok ys ↔
      (∀ x ∈ xs, ¬p x) ∧ ys = xs.map g := by
  induction xs generalizing ys with
  | nil => simp [eq_comm]
  | cons x xs ih =>
    rw [List.mapM_cons]
    by_cases hx : p x
    · simp [hx]
    · simp only [hx, if_false, bind_eq, bind_eq_ok, pure_eq, Except.ok.injEq, ih]
      constructor
      · rintro ⟨_, rfl, ys', ⟨hxs, rfl⟩, rfl⟩
        exact ⟨List.forall_mem_cons.mpr ⟨hx, hxs⟩, rfl⟩
      · rintro ⟨hxs, rfl⟩
        exact ⟨_, rfl, _, ⟨(List.forall_mem_cons.mp hxs).2, rfl⟩, rfl⟩

/-- A function of the results, when it is determined by the elements. -/
theorem map_eq_of_mapM {γ : Type v} {f : α → Except ε β} {xs : List α} {ys : List β}
    {g : β → γ} {k : α → γ} (h : xs.mapM f = .ok ys)
    (hf : ∀ x ∈ xs, ∀ y, f x = .ok y → g y = k x) : ys.map g = xs.map k := by
  induction xs generalizing ys with
  | nil => simp_all
  | cons x xs ih =>
    simp only [List.mapM_cons, bind_eq, bind_eq_ok, pure_eq, Except.ok.injEq] at h
    obtain ⟨y, hy, ys', hys, rfl⟩ := h
    have hrest := ih hys fun x' hx' => hf x' (List.mem_cons_of_mem _ hx')
    rw [List.map_cons, List.map_cons, hf x List.mem_cons_self y hy, hrest]

end Check

end FitzDestroyer
