import RdmaOnAsio.Lts.Basic
import RdmaOnAsio.Ibv.WorkCompletion

/-!
# The event-mode completion poller as a step system

`ibv_io_completion_service` after `initialize`. `poller_` is one op object; where it is held (by the
reactor, by the scheduler, by a context that runs its code) is counted, so that a second holder could be
seen. Every access to the CQ, the completion channel, the reactor, the scheduler and `completed_` is a step
of its own, and a completion may arrive between any two of them.

The CQ notification is one-shot: `ibv_req_notify_cq` arms it and the next CQE turns it into one event on the
channel. The reactor is asio's: an event that is appended announces an edge, an edge is handled by one
`perform_io` under the descriptor lock, and `start_op` on an empty queue announces one if the channel is
readable.
-/

namespace RdmaOnAsio.Ibv

namespace Poller

/-- `max_batches_per_turn`. -/
def maxBatchesPerTurn : Nat := 4

/-- `poll_batch_`, the size of `wc_buf_`, after `initialize`. -/
def batchSize (pollBatch : Nat) : Nat := if pollBatch = 0 then 16 else pollBatch

theorem batchSize_pos {pollBatch : Nat} : 0 < batchSize pollBatch := by
  unfold batchSize
  split_ifs <;> omega

/-- Who called `poll_into`. -/
inductive Caller
  | armPoller
  | doPerform
deriving DecidableEq, Repr

/-- Where a context is in the poller's code. -/
inductive Pc
  /-- `arm_poller`: about to request a notification. -/
  | reqNotify
  /-- `do_perform`: about to take an event off the channel. -/
  | getCqEvent
  /-- `do_perform`: an event was taken; about to request the next notification. -/
  | rearm
  /-- `poll_into`: about to poll, with `batches` batches behind it. -/
  | pollCq (caller : Caller) (batches : Nat)
  /-- `poll_into` has returned. -/
  | polled (caller : Caller)
  /-- `on_poll_complete`: about to look at the front of `completed_`. -/
  | dispatch
deriving DecidableEq, Repr

/-- `perform_io` runs `do_perform` under the descriptor lock. -/
def Pc.locks : Pc → Bool
  | .getCqEvent | .rearm | .pollCq .doPerform _ | .polled .doPerform => true
  | .reqNotify | .pollCq .armPoller _ | .polled .armPoller | .dispatch => false

/-- The service, its native objects and the holders of `poller_`. `arrived` and `dispatched` are histories:
the CQEs put on the CQ and the ops completed. -/
structure State where
  pollerStarted : Bool := false
  cq : List Wc := []
  notify : Bool := false
  events : Nat := 0
  edge : Bool := false
  completed : List Resolved := []
  parked : Nat := 0
  queued : Nat := 0
  contexts : List Pc := []
  arrived : List Wc := []
  dispatched : List Resolved := []
deriving DecidableEq, Repr

/-- Who moves. -/
inductive Label
  /-- A binding thread runs the exchange in `ensure_poller_started`. -/
  | ensurePollerStarted
  /-- The `i`-th context takes its next step. -/
  | context (i : Nat)
  /-- The `ibv_poll_cq` the `i`-th context is about to call fails. -/
  | pollFails (i : Nat)
  /-- The reactor takes up an edge; `again` says that another one is still to be handled after it. -/
  | performIo (again : Bool)
  /-- The scheduler runs the posted poller. -/
  | runPosted
  /-- The HCA completes a work request. -/
  | cqe (wc : Wc)
deriving DecidableEq, Repr

namespace State

/-- A context holds the descriptor lock. -/
def locked (s : State) : Bool := s.contexts.any Pc.locks

/-- The `i`-th context is at `pc` next. -/
def goto (s : State) (i : Nat) (pc : Pc) : State := { s with contexts := s.contexts.set i pc }

/-- The `i`-th context returns. -/
def leave (s : State) (i : Nat) : State := { s with contexts := s.contexts.eraseIdx i }

/-- A context enters the poller's code. -/
def enter (s : State) (pc : Pc) : State := { s with contexts := s.contexts ++ [pc] }

/-- `verbs_ops::req_notify_cq`. -/
def reqNotifyCq (s : State) : State := { s with notify := true }

/-- `verbs_ops::poll_cq` and the loop that resolves what it returned. -/
def pollCq (s : State) (batch : Nat) : State :=
  { s with
    cq := s.cq.drop batch
    completed := s.completed ++ (s.cq.take batch).filterMap resolveVerbsOp }

/-- `reactor::start_op` on the channel; an empty queue looks at the channel again. -/
def startOp (s : State) : State :=
  { s with parked := s.parked + 1, edge := s.edge || (s.parked == 0 && 0 < s.events) }

/-- A context runs on to its next access. -/
def advance (pollBatch : Nat) (s : State) (i : Nat) : Pc → Option State
  | .reqNotify => some (s.reqNotifyCq.goto i (.pollCq .armPoller 0))
  | .getCqEvent =>
    if 0 < s.events then
      some ({ s with events := s.events - 1 }.goto i .rearm)
    else
      some (s.goto i (.pollCq .doPerform 0))
  | .rearm => some (s.reqNotifyCq.goto i (.pollCq .doPerform 0))
  | .pollCq caller batches =>
    let n := min (batchSize pollBatch) s.cq.length
    let s := s.pollCq (batchSize pollBatch)
    if n = batchSize pollBatch ∧ batches + 1 < maxBatchesPerTurn then
      some (s.goto i (.pollCq caller (batches + 1)))
    else
      some (s.goto i (.polled caller))
  | .polled .armPoller =>
    if s.completed ≠ [] then
      some ({ s with queued := s.queued + 1 }.leave i)
    else if s.locked then
      none
    else
      some (s.startOp.leave i)
  | .polled .doPerform =>
    if s.completed ≠ [] then
      -- `done`: the reactor takes the op off its queue and completes it in this context
      some (s.goto i .dispatch)
    else
      -- `not_done`: the op stays where it is
      some ({ s with parked := s.parked + 1 }.leave i)
  | .dispatch =>
    match s.completed with
    | [] => some (s.goto i .reqNotify)
    | r :: rest => some { s with completed := rest, dispatched := s.dispatched ++ [r] }

/-- `verbs_ops::poll_cq` returns a negative number: nothing is pushed and the loop of `poll_into` ends. -/
def pollFails (s : State) (i : Nat) : Option State :=
  match s.contexts[i]? with
  | some (.pollCq caller _) => some (s.goto i (.polled caller))
  | _ => none

/-- `ensure_poller_started`: the first caller goes on to `arm_poller`. -/
def ensurePollerStarted (s : State) : State :=
  if s.pollerStarted then s else { s with pollerStarted := true }.enter .reqNotify

/-- `perform_io`: the op at the front of the reactor's queue is performed. -/
def performIo (s : State) (again : Bool) : Option State :=
  if s.locked then
    none
  else if s.parked = 0 then
    some { s with edge := s.edge && again }
  else
    some ({ s with edge := s.edge && again, parked := s.parked - 1 }.enter .getCqEvent)

/-- The scheduler runs `do_complete` of the posted poller. -/
def runPosted (s : State) : Option State :=
  if 0 < s.queued then some ({ s with queued := s.queued - 1 }.enter .dispatch) else none

/-- A CQE is put on the CQ. -/
def cqe (s : State) (wc : Wc) : State :=
  { s with
    cq := s.cq ++ [wc]
    arrived := s.arrived ++ [wc]
    notify := false
    events := if s.notify then s.events + 1 else s.events
    edge := s.edge || s.notify }

/-- The step taken under a label. -/
def step (pollBatch : Nat) (s : State) : Label → Option State
  | .ensurePollerStarted => some s.ensurePollerStarted
  | .context i => (s.contexts[i]?).bind (s.advance pollBatch i)
  | .pollFails i => s.pollFails i
  | .performIo again => s.performIo again
  | .runPosted => s.runPosted
  | .cqe wc => some (s.cqe wc)

/-- The label is a step of the poller itself: a context running its code, or the scheduler or the reactor
starting one. -/
def polls (s : State) : Label → Bool
  | .context _ | .pollFails _ | .runPosted => true
  | .performIo _ => 0 < s.parked
  | .ensurePollerStarted | .cqe _ => false

end State

end Poller

/-- The poller, with the poll batch given to `use_device`. -/
def poller (pollBatch : Nat) : StepSystem Poller.State Poller.Label := ⟨Poller.State.step pollBatch⟩

end RdmaOnAsio.Ibv
