import Mathlib.Data.List.Perm.Basic
import Mathlib.Data.Nat.Notation

/-!
# Queues with leases

A client of a queue reserves items.  It completes an item while it holds its lease; when the lease
ends, the item can be reserved again.

* `Leases` : the items of a queue, with those that are leased;
* `Leases.Step` : what a queue that loses nothing can do;
* `Leases.Run` : a sequence of events, and `Leases.Run.append`;
* `Leases.run_enqueue`, `Leases.run_complete` : all items of a list.
-/

namespace FitzDestroyer

namespace Queue

/-- The items that are ready, and those that are leased, with their holders. -/
structure Leases (H B : Type*) where
  ready : List B
  leased : List (H × B)

/-- What happens to a queue. -/
inductive Event (H B : Type*) where
  | enqueue (client : H) (body : B)
  /-- A client reserves, and gets the items. -/
  | reserve (client : H) (batchSize : ℕ) (items : List B)
  | complete (client : H) (body : B)
  /-- A lease ends: its time is over, or its holder is gone. -/
  | release (holder : H) (body : B)

variable {H B : Type*}

/-- The client that makes a request. -/
def Event.client? : Event H B → Option H
  | enqueue client _ => some client
  | reserve client _ _ => some client
  | complete client _ => some client
  | release _ _ => none

namespace Leases

/-- The queue keeps every item, and gives out as many as there are, in any order. -/
inductive Step : Leases H B → Event H B → Leases H B → Prop
  | enqueue (q : Leases H B) (client : H) (body : B) :
    Step q (.enqueue client body) ⟨q.ready ++ [body], q.leased⟩
  | reserve {q : Leases H B} {client : H} {batchSize : ℕ} {items rest : List B}
    (kept : (items ++ rest).Perm q.ready) (count : items.length = min batchSize q.ready.length) :
    Step q (.reserve client batchSize items) ⟨rest, items.map (client, ·) ++ q.leased⟩
  | complete {q : Leases H B} {client : H} {body : B} {rest : List (H × B)}
    (held : ((client, body) :: rest).Perm q.leased) :
    Step q (.complete client body) ⟨q.ready, rest⟩
  | release {q : Leases H B} {holder : H} {body : B} {rest : List (H × B)}
    (held : ((holder, body) :: rest).Perm q.leased) :
    Step q (.release holder body) ⟨q.ready ++ [body], rest⟩

inductive Run : Leases H B → List (Event H B) → Leases H B → Prop
  | nil (q : Leases H B) : Run q [] q
  | cons {q q' q'' : Leases H B} {e : Event H B} {es : List (Event H B)} (step : Step q e q')
    (run : Run q' es q'') : Run q (e :: es) q''

theorem Run.append {q q' q'' : Leases H B} {es es' : List (Event H B)} (h : Run q es q')
    (h' : Run q' es' q'') : Run q (es ++ es') q'' := by
  induction h with
  | nil q => exact h'
  | cons step _ ih => exact .cons step (ih h')

theorem run_enqueue (client : H) (bodies : List B) (q : Leases H B) :
    Run q (bodies.map (.enqueue client)) ⟨q.ready ++ bodies, q.leased⟩ := by
  induction bodies generalizing q with
  | nil =>
    rw [List.append_nil]
    exact .nil q
  | cons body bodies ih =>
    have h := ih ⟨q.ready ++ [body], q.leased⟩
    rw [List.append_assoc, List.singleton_append] at h
    exact .cons (.enqueue q client body) h

theorem run_complete (client : H) (bodies : List B) (ready : List B) (leased : List (H × B)) :
    Run ⟨ready, bodies.map (client, ·) ++ leased⟩ (bodies.map (.complete client))
      ⟨ready, leased⟩ := by
  induction bodies with
  | nil => exact .nil _
  | cons body bodies ih => exact .cons (.complete (List.Perm.refl _)) ih

theorem run_release (holder : H) (bodies : List B) (ready : List B) (leased : List (H × B)) :
    Run ⟨ready, bodies.map (holder, ·) ++ leased⟩ (bodies.map (.release holder))
      ⟨ready ++ bodies, leased⟩ := by
  induction bodies generalizing ready with
  | nil =>
    rw [List.append_nil]
    exact .nil _
  | cons body bodies ih =>
    have h := ih (ready ++ [body])
    rw [List.append_assoc, List.singleton_append] at h
    exact .cons (.release (List.Perm.refl _)) h

end Leases

end Queue

end FitzDestroyer
