import RdmaOnAsio.Ibv.Poller

/-!
# The event-mode data plane as a step system

The poller of `ibv_io_completion_service` with the ops that use it: the ones posted to the HCA, the ones
that complete at once and are handed to the scheduler in an `ibv_complete_op`, handlers that throw out of
`on_poll_complete`, and the destruction of the `io_context`.
-/

namespace RdmaOnAsio.Ibv

namespace IoCompletion

/-- The service and its users. `posted` holds the ops whose work requests the HCA has not completed,
`scheduled` the ops in an `ibv_complete_op` of the scheduler. The last three fields are histories: the ops
initiated, the immediate ops completed, the ops destroyed without an upcall. -/
structure State where
  alive : Bool := true
  poller : Poller.State := {}
  posted : List Nat := []
  scheduled : List Nat := []
  initiated : List Nat := []
  completed : List Nat := []
  destroyed : List Nat := []
deriving DecidableEq, Repr

/-- Who moves. -/
inductive Label
  /-- A step of the poller, or an entry of the HCA. -/
  | service (l : Poller.Label)
  /-- The `i`-th context, in `on_poll_complete`, completes the next op, and its handler throws. -/
  | handlerThrows (i : Nat)
  /-- A data-plane initiation posts a work request, with the op's address as `wr_id`. -/
  | post (addr : Nat)
  /-- A data-plane initiation completes at once: `finish_event` schedules it. -/
  | finishEvent (addr : Nat)
  /-- The scheduler runs the `i`-th `ibv_complete_op`. -/
  | runImmediate (i : Nat)
  /-- The `io_context` is destroyed. -/
  | shutdown
deriving DecidableEq, Repr

namespace State

/-- The exception leaves `on_poll_complete` before it has dispatched the rest or armed the poller. -/
def handlerThrows (s : State) (i : Nat) : Option State :=
  match s.poller.contexts[i]?, s.poller.completed with
  | some .dispatch, r :: rest =>
    some { s with
      poller :=
        { s.poller with completed := rest, dispatched := s.poller.dispatched ++ [r] }.leave i }
  | _, _ => none

/-- The services are shut down and destroyed: what the scheduler holds is destroyed, the poller with what is
in `completed_`, by its `do_complete` without an owner or by the destructor of `completed_`. -/
def shutdown (s : State) : State :=
  { s with
    alive := false
    poller := { s.poller with parked := 0, queued := 0, completed := [] }
    scheduled := []
    destroyed := s.destroyed ++ s.poller.completed.map Resolved.op ++ s.scheduled }

/-- The work request an entry completes is no longer with the HCA. -/
def retire (s : State) : Poller.Label → List Nat
  | .cqe wc => s.posted.erase wc.wrId
  | _ => s.posted

/-- An entry is one of a posted op, or has no op. -/
def admits (s : State) : Poller.Label → Bool
  | .cqe wc => wc.wrId == 0 || s.posted.contains wc.wrId
  | _ => true

/-- The step taken under a label. -/
def step (pollBatch : Nat) (s : State) : Label → Option State
  | .service l =>
    if s.alive ∧ s.admits l then
      (s.poller.step pollBatch l).map fun p => { s with poller := p, posted := s.retire l }
    else none
  | .handlerThrows i => if s.alive then s.handlerThrows i else none
  | .post addr =>
    if s.alive ∧ addr ≠ 0 then
      some { s with posted := s.posted ++ [addr], initiated := s.initiated ++ [addr] }
    else none
  | .finishEvent addr =>
    if s.alive ∧ addr ≠ 0 then
      some { s with scheduled := s.scheduled ++ [addr], initiated := s.initiated ++ [addr] }
    else none
  | .runImmediate i =>
    match s.scheduled[i]? with
    | some addr =>
      some { s with scheduled := s.scheduled.eraseIdx i, completed := s.completed ++ [addr] }
    | none => none
  | .shutdown => if s.alive ∧ s.poller.contexts = [] then some s.shutdown else none

end State

end IoCompletion

/-- The event-mode data plane, with the poll batch given to `use_device`. -/
def ioCompletion (pollBatch : Nat) : StepSystem IoCompletion.State IoCompletion.Label :=
  ⟨IoCompletion.State.step pollBatch⟩

end RdmaOnAsio.Ibv
