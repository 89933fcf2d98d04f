import RdmaOnAsio.Ibv.Proofs.WaitHistory
import RdmaOnAsio.Nd.Proofs.WaitHistory

/-!
# The codes of the waits on the two backends

Both connectors implement `waits` from their establishment on. Whenever an ibv run and an nd run are the
same history, the waits end with the same codes; what nd reports differs for a wait that was aborted and
whose completion finds that the application's `disconnect()` has set `peer_closed_`.
-/

namespace RdmaOnAsio

open ErrorCode

/-- On equal histories of an established connector the waits end alike, ibv reports what they end with,
and nd reports `disconnected` for an aborted wait that completes after the store of `disconnect()`. -/
theorem wait_codes {cfg : Ibv.Config} {s s' : Ibv.State} {t t' : Nd.State} {ls : List Ibv.Label}
    {ms : List Nd.Label} (hs : s.Established) (ht : t.Established)
    (hr : (Ibv.waiting cfg).run s ls = some s') (hr' : Nd.waiting.run t ms = some t')
    (hh : Ibv.waitHistory cfg s ls = (Nd.waitHistory t ms).filter (· != .latch)) :
    ∃ w, waits.run {} (Nd.waitHistory t ms) = some w ∧ s'.waitCodes = w.codes.map Prod.fst ∧
      t'.waitCodes = w.codes.map Nd.reported := by
  obtain ⟨w, v, hw, ⟨q, hnd⟩, rfl, ⟨p, hibv⟩⟩ :=
    StepSystem.Simulates.agree (Ibv.waiting_simulates cfg) Nd.waiting_simulates
      Waits.simulates_forget hr hr' ⟨.idle, hs.implements⟩ ⟨.idle, ht.implements⟩ rfl hh
  refine ⟨w, hw, ?_, hnd.codes⟩
  rw [hibv.codes, Waits.forget, List.map_map]
  rfl

/-! ## A wait that the application's own `disconnect()` ends -/

namespace Ibv

/-- A request is accepted and the connection established. -/
def acceptEstablished : List Label :=
  [.asyncAccept 1 false false false 0, .initiate .run, .initiate .run, .initiate (.native .ok),
    .initiate .run, .event ⟨.established, 0, []⟩, .performIo, .perform .event, .perform .run,
    .perform (.modified 0), .complete 0]

/-- The established connector. -/
def acceptedConnector : State := (connector {}).after {} acceptEstablished

/-- A wait is armed, then `disconnect()` is called. -/
def disconnectWaiting : List Label :=
  [.asyncWaitDisconnect 2 false, .initiate .run, .initiate .run, .initiate .run, .disconnect,
    .disconnectStep 0 .run, .disconnectStep 0 .run, .disconnectStep 0 .run, .complete 0]

theorem acceptedConnector_established : acceptedConnector.Established where
  connectState := by decide +kernel
  peerClosed := by decide +kernel
  initiation := by decide +kernel
  reactor := by decide +kernel
  readQueue := by decide +kernel
  ioCleanup := by decide +kernel
  scheduled := by decide +kernel
  channel := by decide +kernel
  callers := by
    have hnone : acceptedConnector.callers = [] := by decide +kernel
    rw [hnone]
    exact fun _ hmem => absurd hmem List.not_mem_nil
  codes := by decide +kernel

end Ibv

namespace Nd

/-- A connection request is assigned and accepted. -/
def acceptEstablished : List Label :=
  [.useDevice, .assign true (.common success),
    .asyncAccept 1 1 false true (.common success) 0, .initiate 1 .run, .initiate 1 .run,
    .initiate 1 (.native ndSuccess), .initiate 1 .run, .dispatch 1, .complete 1 .run,
    .complete 1 .run]

/-- The established connector. -/
def acceptedConnector : State := connector.after {} acceptEstablished

/-- A wait is armed, then `disconnect()` is called. -/
def disconnectWaiting : List Label :=
  [.asyncWaitDisconnect 2 2 false, .initiate 2 .run, .initiate 2 .run,
    .initiate 2 (.native ndPending), .disconnect, .disconnectStep 0 .run, .disconnectStep 0 .run,
    .disconnectStep 0 .run, .disconnectStep 0 .run, .overlapped 2 .aborted, .dispatch 2,
    .complete 2 .run]

theorem acceptedConnector_established : acceptedConnector.Established where
  isOpen := by decide +kernel
  connectState := by decide +kernel
  peerClosed := by decide +kernel
  initiation := by decide +kernel
  pending := by decide +kernel
  scheduled := by decide +kernel
  dispatching := by decide +kernel
  callers := by
    have hnone : acceptedConnector.callers = [] := by decide +kernel
    rw [hnone]
    exact fun _ hmem => absurd hmem List.not_mem_nil
  codes := by decide +kernel

end Nd

theorem wait_codes_disconnectWaiting :
    ∃ w, waits.run {} (Nd.waitHistory Nd.acceptedConnector Nd.disconnectWaiting) = some w ∧
      ((Ibv.waiting {}).after Ibv.acceptedConnector Ibv.disconnectWaiting).waitCodes =
        w.codes.map Prod.fst ∧
      (Nd.waiting.after Nd.acceptedConnector Nd.disconnectWaiting).waitCodes =
        w.codes.map Nd.reported :=
  have hr : ((Ibv.waiting {}).run Ibv.acceptedConnector Ibv.disconnectWaiting).isSome = true := by
    decide +kernel
  have hr' : (Nd.waiting.run Nd.acceptedConnector Nd.disconnectWaiting).isSome = true := by
    decide +kernel
  wait_codes Ibv.acceptedConnector_established Nd.acceptedConnector_established
    (StepSystem.run_after hr) (StepSystem.run_after hr') (by decide +kernel)

/-- The pending wait that `disconnect()` aborts is reported as `operation_aborted` on ibv, and as
`disconnected` on nd. -/
theorem not_wait_codes :
    ¬ ∀ (cfg : Ibv.Config) (s s' : Ibv.State) (t t' : Nd.State) (ls : List Ibv.Label)
        (ms : List Nd.Label), s.Established → t.Established →
      (Ibv.waiting cfg).run s ls = some s' → Nd.waiting.run t ms = some t' →
      Ibv.waitHistory cfg s ls = (Nd.waitHistory t ms).filter (· != .latch) →
      t'.waitCodes = s'.waitCodes.map .common := by
  intro h
  have hr : ((Ibv.waiting {}).run Ibv.acceptedConnector Ibv.disconnectWaiting).isSome = true := by
    decide +kernel
  have hr' : (Nd.waiting.run Nd.acceptedConnector Nd.disconnectWaiting).isSome = true := by
    decide +kernel
  have hcodes := h {} _ _ _ _ _ _ Ibv.acceptedConnector_established Nd.acceptedConnector_established
    (StepSystem.run_after hr) (StepSystem.run_after hr') (by decide +kernel)
  revert hcodes
  decide +kernel

end RdmaOnAsio
