import Mathlib.Data.List.Perm.Basic
import Mathlib.Data.List.Perm.Subperm

/-!
# Timers

`setTimeout` arms a timer.  Timers fire in order of their due times, and timers with equal due
times in the order they were armed in.

* `Timer α` : a task and the time it is due at;
* `takeDue` : the timer that fires next, from a list in the order of arming;
* `filter_takeDue` : when the timers of a class are due in the order of arming, the one that
  fires is the first of its class.
-/

namespace FitzDestroyer

namespace Js

universe u

/-- A task that is due at a time. -/
structure Timer (α : Type u) where
  due : ℕ
  task : α
  deriving DecidableEq, Repr

variable {α : Type u}

/-- The timer that fires next, and the others. -/
def takeDue : List (Timer α) → Option (Timer α × List (Timer α))
  | [] => none
  | timer :: timers =>
    match takeDue timers with
    | none => some (timer, [])
    | some (next, rest) =>
      if next.due < timer.due then some (next, timer :: rest) else some (timer, timers)

/-- The timers of a class are due in the order they were armed in. -/
def InDueOrder (timers : List (Timer α)) : Prop := timers.Pairwise fun t u => t.due ≤ u.due

theorem takeDue_eq_none {timers : List (Timer α)} (h : takeDue timers = none) : timers = [] := by
  cases timers with
  | nil => rfl
  | cons timer timers =>
    rw [takeDue] at h
    rcases ht : takeDue timers with _ | ⟨next, rest⟩
    · simp [ht] at h
    · rw [ht] at h
      dsimp only at h
      split_ifs at h

theorem takeDue_cons {t next : Timer α} {ts rest : List (Timer α)}
    (h : takeDue (t :: ts) = some (next, rest)) :
    (next = t ∧ rest = ts) ∨
      ∃ rest', takeDue ts = some (next, rest') ∧ next.due < t.due ∧ rest = t :: rest' := by
  rw [takeDue] at h
  rcases ht : takeDue ts with _ | ⟨u, rest'⟩
  · obtain rfl := takeDue_eq_none ht
    simp only [takeDue, Option.some.injEq, Prod.mk.injEq] at h
    exact .inl ⟨h.1.symm, h.2.symm⟩
  · rw [ht] at h
    dsimp only at h
    split_ifs at h with hlt
    · obtain ⟨rfl, rfl⟩ := Prod.mk.inj (Option.some.inj h)
      exact .inr ⟨rest', rfl, hlt, rfl⟩
    · obtain ⟨rfl, rfl⟩ := Prod.mk.inj (Option.some.inj h)
      exact .inl ⟨rfl, rfl⟩

theorem takeDue_perm {timers : List (Timer α)} {next : Timer α} {rest : List (Timer α)}
    (h : takeDue timers = some (next, rest)) : timers.Perm (next :: rest) := by
  induction timers generalizing rest with
  | nil => simp [takeDue] at h
  | cons t ts ih =>
    rcases takeDue_cons h with ⟨rfl, rfl⟩ | ⟨rest', h', -, rfl⟩
    · exact .refl _
    · exact ((ih h').cons t).trans (.swap next t rest')

theorem takeDue_sublist {timers : List (Timer α)} {next : Timer α} {rest : List (Timer α)}
    (h : takeDue timers = some (next, rest)) : rest.Sublist timers := by
  induction timers generalizing rest with
  | nil => simp [takeDue] at h
  | cons t ts ih =>
    rcases takeDue_cons h with ⟨rfl, rfl⟩ | ⟨rest', h', -, rfl⟩
    · exact List.sublist_cons_self _ _
    · exact (ih h').cons_cons t

/-- When the timers of a class are due in order, the class loses its first timer or none. -/
theorem filter_takeDue (p : Timer α → Bool) {timers : List (Timer α)} {next : Timer α}
    {rest : List (Timer α)} (h : takeDue timers = some (next, rest))
    (horder : InDueOrder (timers.filter p)) :
    timers.filter p = if p next then next :: rest.filter p else rest.filter p := by
  induction timers generalizing rest with
  | nil => simp [takeDue] at h
  | cons t ts ih =>
    rcases takeDue_cons h with ⟨rfl, rfl⟩ | ⟨rest', h', hlt, rfl⟩
    · by_cases hp : p next <;> simp [hp]
    · have hnext : next ∈ ts := (takeDue_perm h').mem_iff.mpr List.mem_cons_self
      by_cases hp : p t
      · -- A timer armed before `next` and due after it is not of the class of `next`.
        rw [List.filter_cons_of_pos hp] at horder
        obtain ⟨hfirst, horder⟩ := List.pairwise_cons.mp horder
        have hpn : ¬p next := fun hpn =>
          absurd (hfirst next (List.mem_filter.mpr ⟨hnext, hpn⟩)) (Nat.not_le.mpr hlt)
        rw [List.filter_cons_of_pos hp, ih h' horder, if_neg hpn, if_neg hpn,
          List.filter_cons_of_pos hp]
      · rw [List.filter_cons_of_neg hp] at horder ⊢
        rw [ih h' horder, List.filter_cons_of_neg hp]

end Js

end FitzDestroyer
