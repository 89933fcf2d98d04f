import RdmaOnAsio.Lts.Basic
import RdmaOnAsio.Nd.Verbs

/-!
# The event-mode poller of the nd backend as a step system

`nd_io_completion_service` after `initialize`. `poller_` is one op object and one `OVERLAPPED`; where it
is (asked for with `Notify`, completed at the port, handed to the scheduler, in a context that runs its
code) is counted, so that a second one could be seen. Every access to the CQ and to the scheduler is a
step of its own, and a result may arrive between any two of them.

`arm_poller` does not poll after it has called `Notify`. Whether `Notify` completes at once when results are
waiting already is the provider's choice here, as is what it returns. The scheduler runs an op that was
handed to it with `on_pending` when its `OVERLAPPED` has been completed, however early that was.
-/

namespace RdmaOnAsio.Nd

open Verbs

namespace Poller

/-- `max_batches_per_turn`. -/
def maxBatchesPerTurn : Nat := 4

/-- The size of `wc_buf_` after `initialize`; `default_cq_poll_batch` is 16. -/
def batchSize (pollBatch : Nat) : Nat := if pollBatch = 0 then 16 else pollBatch

theorem batchSize_pos {pollBatch : Nat} : 0 < batchSize pollBatch := by
  unfold batchSize
  split_ifs <;> omega

/-- What `resolve_wc` returns, the op at address `op`, with what it assigns to its `ec_` and
`bytes_transferred_`; `none` is a field it leaves alone. -/
structure Resolved where
  op : Nat
  ec : NdErrorCode
  bytesTransferred : Option Nat := none
deriving DecidableEq, Repr

/-- `resolve_wc`, as far as it depends on the result. -/
def resolve (result : Nd2Result) : Option Resolved :=
  if result.requestContext = 0 then
    none
  else
    let ec := completionStatusToError result.status
    if !ec.isError then
      if result.requestType ≠ .send ∧ result.requestType ≠ .write then
        some ⟨result.requestContext, ec, some result.bytesTransferred⟩
      else
        some ⟨result.requestContext, ec, none⟩
    else
      some ⟨result.requestContext, ec, some 0⟩

/-- The assignments of `resolve_wc`. -/
def Resolved.stamp (r : Resolved) (op : DataOp NdErrorCode) : DataOp NdErrorCode :=
  ⟨r.ec, r.bytesTransferred.getD op.bytesTransferred⟩

/-- Where a context is in the poller's code. -/
inductive Pc
  /-- `arm_poller`: about to call `Notify`. -/
  | notifyCq
  /-- `arm_poller`: about to call `on_pending`, or `on_completion` if the call is not pending. -/
  | handOver (pending : Bool)
  /-- `poll_and_dispatch`: about to poll, with `batches` batches behind it and `ops` in its local queue. -/
  | pollCq (batches : Nat) (ops : List Resolved)
  /-- `poll_and_dispatch`: about to look at the front of its local queue. -/
  | dispatch (ops : List Resolved)
deriving DecidableEq, Repr

/-- The local queue of `poll_and_dispatch`. -/
def Pc.ops : Pc → List Resolved
  | .pollCq _ ops | .dispatch ops => ops
  | .notifyCq | .handOver _ => []

/-- A thread in the poller's code: in `do_complete`, which the scheduler called, or in the `arm_poller` of
`ensure_poller_started`. -/
structure Context where
  completing : Bool
  pc : Pc
deriving DecidableEq, Repr

/-- An op that `poll_and_dispatch` is rid of: completed, or destroyed with its local queue. -/
structure Retired where
  resolved : Resolved
  completed : Bool
deriving DecidableEq, Repr

/-- The service, its CQ and the holders of `poller_`: `notify` requests that the provider has not
completed, `packets` completions of its `OVERLAPPED` at the port, `held` times that the scheduler has
it. `work` is what `poller_` adds to the scheduler's outstanding work, and `finishing` counts the
threads that have left `do_complete` and are about to call `work_finished`. `arrived` and `retired` are
histories. -/
structure State where
  pollerStarted : Bool := false
  cq : List Nd2Result := []
  notify : Nat := 0
  packets : Nat := 0
  held : Nat := 0
  work : Nat := 0
  finishing : Nat := 0
  contexts : List Context := []
  arrived : List Nd2Result := []
  retired : List Retired := []
deriving DecidableEq, Repr

/-- Who moves. -/
inductive Label
  /-- A binding thread runs the exchange in `ensure_poller_started`. -/
  | ensurePollerStarted
  /-- The `i`-th context calls `Notify`: `hr` is what it returns, and `satisfied` says that the request is
  completed at once. -/
  | notifyCq (i : Nat) (hr : Int) (satisfied : Bool)
  /-- The `i`-th context takes its next step; `throws` is the outcome of the handler, if it is called. -/
  | context (i : Nat) (throws : Bool)
  /-- The scheduler runs the op. -/
  | runPoller
  /-- A thread that has left `do_complete` calls `work_finished`. -/
  | workFinished
  /-- The provider writes a result. -/
  | cqe (result : Nd2Result)
deriving DecidableEq, Repr

namespace State

/-- The `i`-th context is at `pc` next. -/
def goto (s : State) (i : Nat) (c : Context) (pc : Pc) : State :=
  { s with contexts := s.contexts.set i { c with pc := pc } }

/-- The `i`-th context leaves the poller's code. -/
def leave (s : State) (i : Nat) (c : Context) : State :=
  { s with contexts := s.contexts.eraseIdx i, finishing := s.finishing + c.completing.toNat }

/-- A context enters the poller's code. -/
def enter (s : State) (c : Context) : State := { s with contexts := s.contexts ++ [c] }

/-- `verbs_ops::notify_cq`, and the test of what it returned. -/
def notifyCq (s : State) (i : Nat) (c : Context) (hr : Int) (satisfied : Bool) : State :=
  let pending := !(callError hr).isError && hr == ndPending
  { s with
    notify := s.notify + (pending && !satisfied).toNat
    packets := s.packets + (pending && satisfied).toNat }.goto i c (.handOver pending)

/-- `work_started`, then `on_pending` or `on_completion`. `do_complete` does not look at the code it is
called with. -/
def handOver (s : State) (pending : Bool) : State :=
  { s with work := s.work + 1, held := s.held + 1, packets := s.packets + (!pending).toNat }

/-- A context runs on to its next access. -/
def advance (pollBatch : Nat) (s : State) (i : Nat) (c : Context) (throws : Bool) : Option State :=
  match c.pc with
  | .notifyCq => none
  | .handOver pending => some ((s.handOver pending).leave i c)
  | .pollCq batches ops =>
    let n := min (batchSize pollBatch) s.cq.length
    let ops := ops ++ (s.cq.take n).filterMap resolve
    let s := { s with cq := s.cq.drop n }
    if n = batchSize pollBatch ∧ batches + 1 < maxBatchesPerTurn then
      some (s.goto i c (.pollCq (batches + 1) ops))
    else
      some (s.goto i c (.dispatch ops))
  | .dispatch [] => some (s.goto i c .notifyCq)
  | .dispatch (r :: ops) =>
    if throws then
      -- the exception destroys what is left of the local queue, and leaves `do_complete`
      some ({ s with
        retired := s.retired ++ Retired.mk r true :: ops.map fun r => Retired.mk r false }.leave i c)
    else
      some ({ s with retired := s.retired ++ [Retired.mk r true] }.goto i c (.dispatch ops))

/-- `ensure_poller_started`: the first caller goes on to `arm_poller`. -/
def ensurePollerStarted (s : State) : State :=
  if s.pollerStarted then s else { s with pollerStarted := true }.enter ⟨false, .notifyCq⟩

/-- The scheduler runs `do_complete`. -/
def runPoller (s : State) : Option State :=
  if 0 < s.packets ∧ 0 < s.held then
    some ({ s with packets := s.packets - 1, held := s.held - 1 }.enter ⟨true, .pollCq 0 []⟩)
  else
    none

/-- A result is put on the CQ, and completes the notifications asked for. -/
def cqe (s : State) (result : Nd2Result) : State :=
  { s with
    cq := s.cq ++ [result]
    arrived := s.arrived ++ [result]
    notify := 0
    packets := s.packets + s.notify }

/-- The step taken under a label. -/
def step (pollBatch : Nat) (s : State) : Label → Option State
  | .ensurePollerStarted => some s.ensurePollerStarted
  | .notifyCq i hr satisfied =>
    match s.contexts[i]? with
    | some c => if c.pc = .notifyCq then some (s.notifyCq i c hr satisfied) else none
    | none => none
  | .context i throws => (s.contexts[i]?).bind fun c => s.advance pollBatch i c throws
  | .runPoller => s.runPoller
  | .workFinished =>
    if 0 < s.finishing then some { s with finishing := s.finishing - 1, work := s.work - 1 } else none
  | .cqe result => some (s.cqe result)

/-- The ops in the local queues of the contexts. -/
def dispatching (s : State) : List Resolved := s.contexts.flatMap fun c => c.pc.ops

end State

end Poller

/-- The poller, with the poll batch given to `use_device`. -/
def poller (pollBatch : Nat) : StepSystem Poller.State Poller.Label := ⟨Poller.State.step pollBatch⟩

end RdmaOnAsio.Nd
