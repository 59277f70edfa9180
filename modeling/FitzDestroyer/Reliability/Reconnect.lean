import FitzDestroyer.Check.Basic
import FitzDestroyer.Js.Error
import FitzDestroyer.Js.Polling

/-!
# Waiting for the reconnect

When Fitz shuts down, the handles of a session become invalid and the client connects again
(`workloads/reliability-session-state.ts`).  The workload looks every few milliseconds; a deadline
has passed when it finds so.

* `Shutdown` : what the workload can see of a shutdown;
* `waitForReconnect` : the wait;
* `Detects`, `detects_iff` : when the wait tells whether the handles become invalid.
-/

namespace FitzDestroyer

namespace Reliability

open Js

/-- A shutdown: the times at which the handles become closed, if they do, and those at which the
client is connected. -/
structure Shutdown where
  clock : Clock
  startedAt : ℕ
  reconnectTimeoutMs : ℕ
  transactionClosedAt : Option ℕ
  streamClosedAt : Option ℕ
  isConnected : ℕ → Bool

/-- `isOpen()` of a handle that becomes closed at the given time. -/
def isOpen (closedAt : Option ℕ) (t : ℕ) : Bool := closedAt.all fun closed => t < closed

theorem isOpen_of_le {closedAt : Option ℕ} {t u : ℕ} (h : t ≤ u) (hu : isOpen closedAt u = true) :
    isOpen closedAt t = true := by
  cases closedAt with
  | none => rfl
  | some closed =>
    have hlt : u < closed := of_decide_eq_true hu
    exact decide_eq_true (h.trans_lt hlt)

namespace Shutdown

variable (s : Shutdown)

def transactionOpen (t : ℕ) : Bool := isOpen s.transactionClosedAt t

def streamOpen (t : ℕ) : Bool := isOpen s.streamClosedAt t

def disconnectDeadline : ℕ := s.startedAt + s.reconnectTimeoutMs

/-- The time at which the wait for the handles ends. -/
def disconnected : ℕ :=
  s.clock.poll (fun t => s.transactionOpen t && s.streamOpen t) s.disconnectDeadline s.startedAt

def notInvalidated : Thrown := newError "Fitz shutdown did not invalidate connection-bound handles"

/-- The time at which the wait for the client ends. -/
def reconnected : ℕ :=
  s.clock.poll (fun t => !s.isConnected t) (s.disconnected + s.reconnectTimeoutMs) s.disconnected

/-- `waitForReconnect`, with the time that it returns. -/
def waitForReconnect : Except Thrown ℕ := do
  Check.failIf (s.transactionOpen s.disconnected || s.streamOpen s.disconnected) notInvalidated
  Check.failIf (!s.isConnected s.reconnected)
    (newError "Client did not reconnect after Fitz restarted")
  return s.reconnected - s.startedAt

/-! ### What the wait should tell -/

/-- The time at which a look finds the disconnect deadline passed. -/
def deadlinePassed : ℕ := s.clock.passed s.disconnectDeadline s.startedAt

/-- Both handles are closed by the disconnect deadline. -/
def Invalidated : Prop :=
  s.transactionOpen s.deadlinePassed = false ∧ s.streamOpen s.deadlinePassed = false

/-- The first look that finds both handles closed, or the deadline passed. -/
def invalidated : ℕ :=
  s.clock.poll (fun t => s.transactionOpen t || s.streamOpen t) s.disconnectDeadline s.startedAt

/-- The client is connected again by the deadline after that. -/
def Reconnects : Prop :=
  ∃ t, s.clock.Polled s.invalidated t ∧
    t ≤ s.clock.passed (s.invalidated + s.reconnectTimeoutMs) s.invalidated ∧ s.isConnected t = true

structure Detects : Prop where
  reports : s.waitForReconnect = .error notInvalidated → ¬s.Invalidated
  returns : (∃ elapsed, s.waitForReconnect = .ok elapsed) ↔ s.Invalidated ∧ s.Reconnects

/-- No look finds one handle open and the other closed, if both are closed by the deadline. -/
def Together : Prop :=
  s.Invalidated → ∀ t, s.clock.Polled s.startedAt t → t ≤ s.deadlinePassed →
    s.transactionOpen t = s.streamOpen t

variable {s}

/-- The two errors are told apart. -/
theorem waitForReconnect_eq_error : s.waitForReconnect = .error notInvalidated ↔
    (s.transactionOpen s.disconnected || s.streamOpen s.disconnected) = true := by
  have hother : newError "Client did not reconnect after Fitz restarted" ≠ notInvalidated := by
    decide
  constructor
  · intro h
    by_contra hopen
    rw [waitForReconnect, Check.failIf_eq_ok.mpr hopen] at h
    change (Check.failIf _ _).bind _ = _ at h
    by_cases hconnected : (!s.isConnected s.reconnected) = true
    · rw [Check.failIf, if_pos hconnected] at h
      exact hother (Except.error.inj h)
    · rw [Check.failIf_eq_ok.mpr hconnected] at h
      cases h
  · intro hopen
    rw [waitForReconnect, Check.failIf, if_pos hopen]
    rfl

theorem waitForReconnect_eq_ok : (∃ elapsed, s.waitForReconnect = .ok elapsed) ↔
    (s.transactionOpen s.disconnected || s.streamOpen s.disconnected) = false ∧
      s.isConnected s.reconnected = true := by
  simp [waitForReconnect, Check.exists_unit]

/-! ### Times -/

theorem polled_disconnected : s.clock.Polled s.startedAt s.disconnected :=
  (Clock.poll_spec _ _ _ _).1

theorem disconnected_le : s.disconnected ≤ s.deadlinePassed := Clock.poll_le_passed

/-- Handles stay closed. -/
theorem closed_of_le {t u : ℕ} (h : t ≤ u)
    (ht : (s.transactionOpen t || s.streamOpen t) = false) :
    (s.transactionOpen u || s.streamOpen u) = false := by
  rw [Bool.or_eq_false_iff] at ht ⊢
  have htransaction := mt (isOpen_of_le h) (Bool.not_eq_true _ ▸ ht.1)
  have hstream := mt (isOpen_of_le h) (Bool.not_eq_true _ ▸ ht.2)
  exact ⟨Bool.not_eq_true _ ▸ htransaction, Bool.not_eq_true _ ▸ hstream⟩

theorem invalidated_iff : s.Invalidated ↔
    (s.transactionOpen s.deadlinePassed || s.streamOpen s.deadlinePassed) = false :=
  Bool.or_eq_false_iff.symm

/-- Before the wait ends both handles are open. -/
theorem open_of_lt {t : ℕ} (ht : s.clock.Polled s.startedAt t) (hlt : t < s.disconnected) :
    (s.transactionOpen t && s.streamOpen t) = true :=
  ((Clock.poll_spec _ _ _ _).2.2 t ht hlt).1

/-- The wait has seen both handles closed if both are, and no look tells them apart. -/
theorem Together.closed (h : s.Together) (hinvalidated : s.Invalidated) :
    (s.transactionOpen s.disconnected || s.streamOpen s.disconnected) = false := by
  obtain ⟨-, hstop, -⟩ := Clock.poll_spec s.clock
    (fun t => s.transactionOpen t && s.streamOpen t) s.disconnectDeadline s.startedAt
  have hsame := h hinvalidated s.disconnected polled_disconnected disconnected_le
  by_contra hopen
  have hboth : (s.transactionOpen s.disconnected && s.streamOpen s.disconnected) = true := by
    rw [hsame] at hopen ⊢
    simpa using hopen
  -- Both are open, so the deadline has passed, but then both are closed.
  have hdeadline : s.disconnectDeadline ≤ s.disconnected := not_lt.mp fun hlt => hstop ⟨hboth, hlt⟩
  have hpassed : s.deadlinePassed = s.disconnected :=
    Nat.le_antisymm (Clock.passed_le polled_disconnected hdeadline) disconnected_le
  rw [invalidated_iff, hpassed] at hinvalidated
  exact hopen hinvalidated

/-- Nothing is reported wrongly only if no look tells the handles apart. -/
theorem together_of_reports (h : s.waitForReconnect = .error notInvalidated → ¬s.Invalidated) :
    s.Together := by
  intro hinvalidated t ht _
  have hclosed : (s.transactionOpen s.disconnected || s.streamOpen s.disconnected) = false := by
    rw [← Bool.not_eq_true]
    exact fun hopen => h (waitForReconnect_eq_error.mpr hopen) hinvalidated
  rcases Nat.lt_or_ge t s.disconnected with hlt | hle
  · have hboth := open_of_lt ht hlt
    rw [Bool.and_eq_true] at hboth
    rw [hboth.1, hboth.2]
  · have hboth := closed_of_le hle hclosed
    rw [Bool.or_eq_false_iff] at hboth
    rw [hboth.1, hboth.2]

/-- The wait ends at the first look that finds both handles closed. -/
theorem invalidated_eq
    (h : (s.transactionOpen s.disconnected || s.streamOpen s.disconnected) = false) :
    s.invalidated = s.disconnected := by
  refine Clock.poll_eq polled_disconnected (fun hopen => ?_) fun t ht hlt => ?_
  · rw [h] at hopen
    exact absurd hopen.1 (by decide)
  · have hboth := open_of_lt ht hlt
    rw [Bool.and_eq_true] at hboth
    exact ⟨by rw [hboth.1, Bool.true_or], ((Clock.poll_spec _ _ _ _).2.2 t ht hlt).2⟩

/-- The client is seen to be connected iff it is so at some look up to the deadline. -/
theorem reconnects_iff
    (h : (s.transactionOpen s.disconnected || s.streamOpen s.disconnected) = false) :
    s.Reconnects ↔ s.isConnected s.reconnected = true := by
  obtain ⟨hpolled, hstop, hbefore⟩ := Clock.poll_spec s.clock (fun t => !s.isConnected t)
    (s.disconnected + s.reconnectTimeoutMs) s.disconnected
  rw [Reconnects, invalidated_eq h]
  constructor
  · rintro ⟨t, ht, hle, hconnected⟩
    by_contra hnot
    have hdeadline : s.disconnected + s.reconnectTimeoutMs ≤ s.reconnected :=
      not_lt.mp fun hlt => hstop ⟨by simpa [reconnected] using hnot, hlt⟩
    have hpassed := Clock.passed_le hpolled hdeadline
    rcases Nat.lt_or_ge t s.reconnected with hlt | hge
    · have hopen := (hbefore t ht hlt).1
      rw [hconnected] at hopen
      exact absurd hopen (by decide)
    · rw [Nat.le_antisymm (hle.trans hpassed) hge] at hconnected
      exact hnot hconnected
  · intro hconnected
    exact ⟨s.reconnected, hpolled, Clock.poll_le_passed, hconnected⟩

/-- **The wait tells whether the handles become invalid**, and whether the client connects again,
iff no look before the deadline finds one handle open and the other closed. -/
theorem detects_iff (s : Shutdown) : s.Detects ↔ s.Together := by
  constructor
  · exact fun h => together_of_reports h.reports
  · intro h
    refine ⟨fun herror hinvalidated => ?_, ?_⟩
    · rw [waitForReconnect_eq_error, h.closed hinvalidated] at herror
      exact absurd herror (by decide)
    · rw [waitForReconnect_eq_ok]
      constructor
      · rintro ⟨hclosed, hconnected⟩
        exact ⟨invalidated_iff.mpr (closed_of_le disconnected_le hclosed),
          (reconnects_iff hclosed).mpr hconnected⟩
      · rintro ⟨hinvalidated, hreconnects⟩
        have hclosed := h.closed hinvalidated
        exact ⟨hclosed, (reconnects_iff hclosed).mp hreconnects⟩

/-- The transaction is closed after five milliseconds and the stream session after fifteen; the
workload looks every ten. -/
def straddled : Shutdown where
  clock := ⟨fun t => t + 10, fun t => by omega⟩
  startedAt := 0
  reconnectTimeoutMs := 30000
  transactionClosedAt := some 5
  streamClosedAt := some 15
  isConnected := fun t => 20 ≤ t

/-- The healthy shutdown is reported as an error. -/
theorem not_detects : ¬straddled.Detects := by
  intro h
  have hpassed : straddled.disconnectDeadline ≤ straddled.deadlinePassed := by
    have hstop := (Clock.poll_spec straddled.clock (fun _ => true) straddled.disconnectDeadline
      straddled.startedAt).2.1
    exact not_lt.mp fun hlt => hstop ⟨rfl, hlt⟩
  have hdeadline : straddled.disconnectDeadline = 30000 := rfl
  have hinvalidated : straddled.Invalidated := by
    rw [invalidated_iff]
    refine closed_of_le (t := 15) (by omega) (by decide)
  have hsame := together_of_reports h.reports hinvalidated 10 ⟨1, rfl⟩ (by omega)
  exact absurd hsame (by decide)

end Shutdown

end Reliability

end FitzDestroyer
