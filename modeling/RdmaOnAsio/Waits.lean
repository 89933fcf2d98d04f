import RdmaOnAsio.Lts.History
import RdmaOnAsio.Error

/-!
# Waiting for a disconnect

What `async_wait_disconnect` is for, without a backend: one connection from its establishment on, with one
waiter at a time. A wait that is initiated after the connection was torn down ends at once, and a pending
one ends by the peer's disconnect or by being aborted. Which native call brings an event about is left to
the backends.
-/

namespace RdmaOnAsio

open ErrorCode

/-- The events of one established connection: a wait is initiated, it is notified of the peer's disconnect
or aborted (by a cancellation or by the application's `disconnect()`), and its completion reads the
connection. `close` is the exchange of the `disconnect()` that closes the connection, `latch` its store to
`peer_closed_`, if it has one. -/
inductive WaitEvent
  | initiate
  | notified
  | aborted
  | close
  | latch
  | complete
deriving DecidableEq, Repr

/-- The wait that is in progress. -/
inductive Wait
  | idle
  | pending
  | ended (ec : ErrorCode)
deriving DecidableEq, Repr

/-- A connection and its waits. `codes` are the codes the waits ended with, newest first, each with whether
`latch` had happened when its completion read the connection. -/
structure Waits where
  closed : Bool := false
  latched : Bool := false
  notified : Bool := false
  wait : Wait := .idle
  codes : List (ErrorCode × Bool) := []
deriving DecidableEq, Repr

namespace Waits

/-- One event. A wait ends with `disconnected` if the peer disconnects or the connection is already torn
down when it is initiated, and with `operation_aborted` if it is aborted. -/
def step (w : Waits) : WaitEvent → Option Waits
  | .initiate =>
    if w.wait = .idle then
      some { w with
        wait := if w.closed || w.notified then .ended (.rdma .disconnected) else .pending }
    else none
  | .notified =>
    if w.wait = .pending then
      some { w with notified := true, wait := .ended (.rdma .disconnected) }
    else none
  | .aborted => if w.wait = .pending then some { w with wait := .ended operationAborted } else none
  | .close => if w.closed then none else some { w with closed := true }
  | .latch => if w.closed then some { w with latched := true } else none
  | .complete =>
    match w.wait with
    | .ended ec => some { w with wait := .idle, codes := (ec, w.latched) :: w.codes }
    | .idle | .pending => none

end Waits

/-- The connection as a step system. -/
def waits : StepSystem Waits WaitEvent := ⟨Waits.step⟩

namespace Waits

variable {w : Waits}

theorem step_initiate_ended (hw : w.wait = .idle) (h : (w.closed || w.notified) = true) :
    waits.step w .initiate = some { w with wait := .ended (.rdma .disconnected) } := by
  simp only [waits, step, hw, h, if_true]

theorem step_initiate_pending (hw : w.wait = .idle) (h : (w.closed || w.notified) = false) :
    waits.step w .initiate = some { w with wait := .pending } := by
  simp only [waits, step, hw, h, if_true, Bool.false_eq_true, if_false]

theorem step_notified (hw : w.wait = .pending) :
    waits.step w .notified = some { w with notified := true, wait := .ended (.rdma .disconnected) } := by
  simp only [waits, step, hw, if_true]

theorem step_aborted (hw : w.wait = .pending) :
    waits.step w .aborted = some { w with wait := .ended operationAborted } := by
  simp only [waits, step, hw, if_true]

theorem step_close (h : w.closed = false) : waits.step w .close = some { w with closed := true } := by
  simp only [waits, step, h, Bool.false_eq_true, if_false]

theorem step_latch (h : w.closed = true) : waits.step w .latch = some { w with latched := true } := by
  simp only [waits, step, h, if_true]

theorem step_complete {ec : ErrorCode} (hw : w.wait = .ended ec) :
    waits.step w .complete = some { w with wait := .idle, codes := (ec, w.latched) :: w.codes } := by
  simp only [waits, step, hw]

/-- The connection without its latch. -/
def forget (w : Waits) : Waits :=
  { w with latched := false, codes := w.codes.map fun c => (c.1, false) }

/-- The latch does not matter for what the waits end with. -/
theorem simulates_forget :
    waits.Simulates waits (fun _ e => Option.guard (· != .latch) e) fun w v => v = w.forget := by
  rintro w e w' _ rfl hst
  change w.step e = some w' at hst
  cases e with
  | initiate =>
    simp only [step, Option.ite_none_right_eq_some, Option.some.injEq] at hst
    obtain ⟨hw, rfl⟩ := hst
    cases hc : w.closed || w.notified with
    | true => exact ⟨_, step_initiate_ended hw hc, by simp [forget]⟩
    | false => exact ⟨_, step_initiate_pending hw hc, by simp [forget]⟩
  | notified =>
    simp only [step, Option.ite_none_right_eq_some, Option.some.injEq] at hst
    obtain ⟨hw, rfl⟩ := hst
    exact ⟨_, step_notified hw, rfl⟩
  | aborted =>
    simp only [step, Option.ite_none_right_eq_some, Option.some.injEq] at hst
    obtain ⟨hw, rfl⟩ := hst
    exact ⟨_, step_aborted hw, rfl⟩
  | close =>
    simp only [step, Option.ite_none_left_eq_some, Option.some.injEq, Bool.not_eq_true] at hst
    obtain ⟨hc, rfl⟩ := hst
    exact ⟨_, step_close hc, rfl⟩
  | latch =>
    simp only [step, Option.ite_none_right_eq_some, Option.some.injEq] at hst
    obtain ⟨-, rfl⟩ := hst
    exact rfl
  | complete =>
    simp only [step] at hst
    split at hst
    case h_1 ec hw =>
      obtain rfl := Option.some.inj hst
      exact ⟨_, step_complete hw, rfl⟩
    all_goals cases hst

end Waits

end RdmaOnAsio
