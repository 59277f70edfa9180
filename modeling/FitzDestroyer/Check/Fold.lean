import FitzDestroyer.Check.Basic
import Mathlib.Data.Nat.Notation

/-!
# Checks that run along a list

A verdict that reads a list of items in pages checks every item against what came before it.

* `Check.Each Ok before xs` : every item of `xs` is right, after the items before it;
* `Check.Decides f Seen Ok` : a step of a loop passes iff its item is right;
* `Check.Decides.foldlM`, `Check.Decides.pages` : so does the loop, also over pages;
* `Check.forEachFrom` : the loop that counts its items.
-/

namespace FitzDestroyer

namespace Check

universe u v

variable {ε : Type u} {σ α : Type v}

/-- Every item is right, after the items before it. -/
def Each (Ok : List α → α → Prop) : List α → List α → Prop
  | _, [] => True
  | before, x :: xs => Ok before x ∧ Each Ok (before ++ [x]) xs

theorem each_append {Ok : List α → α → Prop} {before xs ys : List α} :
    Each Ok before (xs ++ ys) ↔ Each Ok before xs ∧ Each Ok (before ++ xs) ys := by
  induction xs generalizing before with
  | nil => simp [Each]
  | cons x xs ih => simp only [List.cons_append, Each, ih, and_assoc, List.append_assoc,
      List.nil_append]

/-- Every item is right, by its position. -/
theorem each_iff_getElem {Ok : List α → α → Prop} {before xs : List α} :
    Each Ok before xs ↔ ∀ i, (h : i < xs.length) → Ok (before ++ xs.take i) xs[i] := by
  induction xs generalizing before with
  | nil => exact iff_of_true trivial fun i h => absurd h (Nat.not_lt_zero i)
  | cons x xs ih =>
    rw [Each, ih]
    constructor
    · rintro ⟨hx, hxs⟩ i h
      cases i with
      | zero => simpa using hx
      | succ i => simpa using hxs i (Nat.lt_of_succ_lt_succ h)
    · intro h
      refine ⟨by simpa using h 0 (Nat.zero_lt_succ _), fun i hi => ?_⟩
      simpa using h (i + 1) (Nat.succ_lt_succ hi)

/-- A check that does not look at the items before. -/
theorem each_iff_forall {P : α → Prop} {before xs : List α} :
    Each (fun _ x => P x) before xs ↔ ∀ x ∈ xs, P x := by
  induction xs generalizing before with
  | nil => exact iff_of_true trivial fun x h => absurd h List.not_mem_nil
  | cons x xs ih => rw [Each, ih, List.forall_mem_cons]

/-- A step of a loop passes iff its item is right, when the items before it have been seen. -/
structure Decides (f : σ → α → Except ε σ) (Seen : σ → List α → Prop)
    (Ok : List α → α → Prop) : Prop where
  sound : ∀ {s s' : σ} {before : List α} {x : α}, Seen s before → f s x = .ok s' →
    Ok before x ∧ Seen s' (before ++ [x])
  complete : ∀ {s : σ} {before : List α} {x : α}, Seen s before → Ok before x → Passes (f s x)

namespace Decides

variable {f : σ → α → Except ε σ} {Seen : σ → List α → Prop} {Ok : List α → α → Prop}

theorem foldlM_sound (h : Decides f Seen Ok) {s s' : σ} {before xs : List α}
    (hs : Seen s before) (hok : xs.foldlM f s = .ok s') :
    Each Ok before xs ∧ Seen s' (before ++ xs) := by
  induction xs generalizing s before with
  | nil =>
    obtain rfl := Except.ok.inj hok
    exact ⟨trivial, by rwa [List.append_nil]⟩
  | cons x xs ih =>
    rw [List.foldlM_cons, bind_eq, bind_eq_ok] at hok
    obtain ⟨s₁, hx, hxs⟩ := hok
    obtain ⟨hokx, hs₁⟩ := h.sound hs hx
    obtain ⟨hokxs, hs'⟩ := ih hs₁ hxs
    exact ⟨⟨hokx, hokxs⟩, by rwa [List.append_assoc, List.singleton_append] at hs'⟩

theorem foldlM_complete (h : Decides f Seen Ok) {s : σ} {before xs : List α}
    (hs : Seen s before) (hok : Each Ok before xs) : Passes (xs.foldlM f s) := by
  induction xs generalizing s before with
  | nil => exact passes_ok s
  | cons x xs ih =>
    obtain ⟨s₁, hx⟩ := h.complete hs hok.1
    rw [List.foldlM_cons, bind_eq, passes_bind]
    exact ⟨s₁, hx, ih (h.sound hs hx).2 hok.2⟩

/-- **A loop** passes iff every item is right. -/
theorem foldlM (h : Decides f Seen Ok) {s : σ} {before xs : List α} (hs : Seen s before) :
    Passes (xs.foldlM f s) ↔ Each Ok before xs :=
  ⟨fun ⟨_, hok⟩ => (h.foldlM_sound hs hok).1, h.foldlM_complete hs⟩

/-- **A loop over pages**, with a step `g` at the start of each page. -/
theorem pages (h : Decides f Seen Ok) {g : σ → σ}
    (hg : ∀ s before, Seen s before → Seen (g s) before) :
    Decides (fun s (page : List α) => page.foldlM f (g s))
      (fun s before => Seen s before.flatten) fun before page => Each Ok before.flatten page where
  sound := by
    intro s s' before page hs hok
    rw [List.flatten_append, List.flatten_singleton]
    exact h.foldlM_sound (hg _ _ hs) hok
  complete := fun hs hok => h.foldlM_complete (hg _ _ hs) hok

end Decides

theorem each_flatten {Ok : List α → α → Prop} {before pages : List (List α)} :
    Each (fun before page => Each Ok before.flatten page) before pages ↔
      Each Ok before.flatten pages.flatten := by
  induction pages generalizing before with
  | nil => exact iff_of_true trivial trivial
  | cons page pages ih =>
    rw [Each, ih, List.flatten_cons, each_append, List.flatten_append, List.flatten_singleton]

/-! ### Loops that count -/

/-- `for (const x of xs) { f(n, x); n += 1; }`, and `n` after the loop. -/
def forEachFrom (f : ℕ → α → Except ε Unit) : ℕ → List α → Except ε ℕ
  | n, [] => .ok n
  | n, x :: xs => (f n x).bind fun _ => forEachFrom f (n + 1) xs

/-- The loop passes iff every item is the one its check asks for. -/
theorem forEachFrom_eq_ok {f : ℕ → α → Except ε Unit} {item : ℕ → α}
    (hf : ∀ n x, f n x = .ok () ↔ x = item n) {n m : ℕ} {xs : List α} :
    forEachFrom f n xs = .ok m ↔ m = n + xs.length ∧ xs = (List.range' n xs.length).map item := by
  induction xs generalizing n with
  | nil => simp [forEachFrom, eq_comm]
  | cons x xs ih =>
    have hbind : (f n x).bind (fun _ => forEachFrom f (n + 1) xs) = .ok m ↔
        f n x = .ok () ∧ forEachFrom f (n + 1) xs = .ok m := by
      cases f n x <;> simp [Except.bind]
    rw [forEachFrom, hbind, hf, ih, List.length_cons, List.range'_succ, List.map_cons,
      List.cons.injEq, Nat.add_right_comm, Nat.add_assoc n]
    exact and_left_comm

theorem forEachFrom_append (f : ℕ → α → Except ε Unit) (n : ℕ) (xs ys : List α) :
    forEachFrom f n (xs ++ ys) = (forEachFrom f n xs).bind fun m => forEachFrom f m ys := by
  induction xs generalizing n with
  | nil => rfl
  | cons x xs ih =>
    rw [List.cons_append, forEachFrom, forEachFrom]
    cases f n x with
    | error e => rfl
    | ok _ => exact ih (n + 1)

/-- Pages do not matter to the loop. -/
theorem foldlM_forEachFrom (f : ℕ → α → Except ε Unit) (n : ℕ) (pages : List (List α)) :
    pages.foldlM (forEachFrom f) n = forEachFrom f n pages.flatten := by
  induction pages generalizing n with
  | nil => rfl
  | cons page pages ih =>
    rw [List.foldlM_cons, List.flatten_cons, forEachFrom_append]
    exact congrArg _ (funext ih)

theorem forEachFrom_count {f : ℕ → α → Except ε Unit} {n m : ℕ} {xs : List α}
    (h : forEachFrom f n xs = .ok m) : m = n + xs.length := by
  induction xs generalizing n with
  | nil => exact (Except.ok.inj h).symm
  | cons x xs ih =>
    rw [forEachFrom] at h
    cases hx : f n x with
    | error e =>
      rw [hx] at h
      cases h
    | ok _ =>
      rw [hx] at h
      rw [ih h, List.length_cons]
      omega

end Check

end FitzDestroyer
