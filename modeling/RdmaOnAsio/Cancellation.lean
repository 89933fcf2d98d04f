import RdmaOnAsio.Ibv.Proofs.Cancellation
import RdmaOnAsio.Ibv.Proofs.ListenerCancellation
import RdmaOnAsio.Nd.Proofs.Cancellation
import RdmaOnAsio.Nd.Proofs.ListenerCancellation

/-!
# A cancellation signal and its op

A functor is left in its slot when its op has completed, and the storage of the op is used again. So a
signal cancels its own op and no other in every run in which none comes too early or too late: not while
the initiation of its op is still running or, on nd, between the two calls of a connect op, and not when
a later op that it can reach is at the address of its op.
-/

namespace RdmaOnAsio

/-- In every run of a connector or listener of either backend every signal aborts the op for whose
initiation its slot was bound, if that op is pending, and changes nothing else, exactly if every signal
comes in time. -/
theorem emit_cancels_own_iff (cfg : Ibv.Config) :
    (∀ (ls : List (SignalLabel Ibv.Label)) (s : Signals Ibv.State),
      (Ibv.slotted cfg).signals.run { state := {} } ls = some s →
        ((Ibv.slotted cfg).signals.Meets ((Ibv.slotted cfg).CancelsOwn Ibv.cancellation)
            { state := {} } ls ↔
          (Ibv.slotted cfg).signals.Meets
            (fun s l => Slotted.inTime Ibv.State.initiatingAt Ibv.State.queuedAt s l = true)
            { state := {} } ls)) ∧
    (∀ (ls : List (SignalLabel Ibv.Listener.Label)) (s : Signals Ibv.Listener.State),
      Ibv.Listener.slotted.signals.run { state := {} } ls = some s →
        (Ibv.Listener.slotted.signals.Meets
            (Ibv.Listener.slotted.CancelsOwn Ibv.Listener.cancellation) { state := {} } ls ↔
          Ibv.Listener.slotted.signals.Meets
            (fun s l => Slotted.inTime (fun _ _ => false) Ibv.Listener.State.queuedAt s l = true)
            { state := {} } ls)) ∧
    (∀ (ls : List (SignalLabel Nd.Label)) (s : Signals Nd.State),
      Nd.slotted.signals.run { state := {} } ls = some s →
        (Nd.slotted.signals.Meets (Nd.slotted.CancelsOwn Nd.cancellation) { state := {} } ls ↔
          Nd.slotted.signals.Meets
            (fun s l => Slotted.inTime Nd.State.betweenCallsAt Nd.State.inFlightAt s l = true)
            { state := {} } ls)) ∧
    ∀ (ls : List (SignalLabel Nd.Listener.Label)) (s : Signals Nd.Listener.State),
      Nd.Listener.slotted.signals.run { state := {} } ls = some s →
        (Nd.Listener.slotted.signals.Meets
            (Nd.Listener.slotted.CancelsOwn Nd.Listener.cancellation) { state := {} } ls ↔
          Nd.Listener.slotted.signals.Meets
            (fun s l => Slotted.inTime (fun _ _ => false) Nd.Listener.State.inFlightAt s l = true)
            { state := {} } ls) := by
  refine ⟨fun ls s hr => ?_, fun ls s hr => ?_, fun ls s hr => ?_, fun ls s hr => ?_⟩
  · exact Slotted.cancelsOwn_iff_inTime (Ibv.slotted_lawful cfg) (Ibv.slotted_reaches cfg)
      Ibv.State.Keyed.initial rfl hr
  · exact Slotted.cancelsOwn_iff_inTime Ibv.Listener.slotted_lawful Ibv.Listener.slotted_reaches
      Ibv.Listener.State.Keyed.initial rfl hr
  · exact Slotted.cancelsOwn_iff_inTime Nd.slotted_lawful Nd.slotted_reaches Nd.State.ArmsOwn.initial
      rfl hr
  · exact Slotted.cancelsOwn_iff_inTime Nd.Listener.slotted_lawful Nd.Listener.slotted_reaches trivial
      rfl hr

/-- A watcher is cancelled, and its signal comes again when an accept op without a slot is at its
address. -/
def Ibv.withoutSlot : List (SignalLabel Ibv.Label) :=
  [.on (.asyncWaitDisconnect 100 true), .on (.initiate .run), .on (.initiate .run),
    .on (.initiate .run), .emit 0, .on (.complete 0), .on (.asyncAccept 100 false false false 0),
    .on (.initiate .run), .on (.initiate .run), .on (.initiate (.native .ok)), .on (.initiate .run),
    .emit 0]

/-- The signal of an op comes again when no op is at its address. -/
def Ibv.Listener.afterCompletion : List (SignalLabel Ibv.Listener.Label) :=
  [.on (.open .ok), .on (.asyncGetConnectionRequest 100 true), .emit 0, .on (.complete 0), .emit 0]

/-- A watcher is cancelled, and its signal comes again when its call has ended. -/
def Nd.afterTheCall : List (SignalLabel Nd.Label) :=
  [.on .useDevice, .on (.openConnector ErrorCode.success), .on (.asyncWaitDisconnect 0 100 true),
    .on (.initiate 0 .run), .on (.initiate 0 .run), .on (.initiate 0 (.native Nd.ndPending)), .emit 0,
    .on (.overlapped 0 .aborted), .emit 0]

/-- The signal of an op comes again when its call has ended. -/
def Nd.Listener.afterTheCall : List (SignalLabel Nd.Listener.Label) :=
  [.on .useDevice, .on (.openListener ErrorCode.success),
    .on (.asyncGetConnectionRequest 100 true ErrorCode.success ErrorCode.success Nd.ndPending), .emit 0,
    .on (.overlapped 100 .aborted), .emit 0]

theorem emit_cancels_own_iff_inTime :
    (Ibv.slotted {}).signals.Meets ((Ibv.slotted {}).CancelsOwn Ibv.cancellation) { state := {} }
        Ibv.withoutSlot ∧
      Ibv.Listener.slotted.signals.Meets (Ibv.Listener.slotted.CancelsOwn Ibv.Listener.cancellation)
        { state := {} } Ibv.Listener.afterCompletion ∧
      Nd.slotted.signals.Meets (Nd.slotted.CancelsOwn Nd.cancellation) { state := {} }
        Nd.afterTheCall ∧
      Nd.Listener.slotted.signals.Meets (Nd.Listener.slotted.CancelsOwn Nd.Listener.cancellation)
        { state := {} } Nd.Listener.afterTheCall := by
  obtain ⟨hconnector, hlistener, hnd, hndListener⟩ := emit_cancels_own_iff {}
  refine ⟨(hconnector _ _ (StepSystem.run_after ?_)).2 ?_,
    (hlistener _ _ (StepSystem.run_after ?_)).2 ?_, (hnd _ _ (StepSystem.run_after ?_)).2 ?_,
    (hndListener _ _ (StepSystem.run_after ?_)).2 ?_⟩ <;> decide +kernel

/-- A watcher is cancelled, and its signal comes again when a connect op is at its address. -/
def Ibv.reusedStorage : List (SignalLabel Ibv.Label) :=
  [.on (.asyncWaitDisconnect 100 true), .on (.initiate .run), .on (.initiate .run),
    .on (.initiate .run), .emit 0, .on (.complete 0), .on (.asyncConnect 100 true false 0 0),
    .on (.initiate .run), .on (.initiate (.native .ok)), .on (.initiate .run), .on (.initiate .run),
    .emit 0]

/-- The signal of the watcher aborts the connect op. -/
theorem not_emit_cancels_own_reusedStorage :
    ¬ ∀ (cfg : Ibv.Config) (ls : List (SignalLabel Ibv.Label)) (s : Signals Ibv.State),
      (Ibv.slotted cfg).signals.run { state := {} } ls = some s →
        (Ibv.slotted cfg).signals.Meets ((Ibv.slotted cfg).CancelsOwn Ibv.cancellation)
          { state := {} } ls := by
  intro h
  have hr := StepSystem.run_after
    (show ((Ibv.slotted {}).signals.run { state := {} } Ibv.reusedStorage).isSome = true by decide +kernel)
  have htime := (Slotted.cancelsOwn_iff_inTime (Ibv.slotted_lawful {}) (Ibv.slotted_reaches {})
    Ibv.State.Keyed.initial rfl hr).1 (h {} Ibv.reusedStorage _ hr)
  revert htime
  decide +kernel

end RdmaOnAsio
