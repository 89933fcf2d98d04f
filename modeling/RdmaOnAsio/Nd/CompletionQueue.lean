import RdmaOnAsio.Ibv.CompletionQueue
import RdmaOnAsio.Nd.Poller

/-!
# The poll-mode completion queue of the nd backend as a step system

`nd_completion_queue`, its native CQ, the queue pairs opened against it and the threads that use it,
told as the ibv queue is: the polling thread is a stack of frames, a handler may poll again, and
`wc_buf_` is shared by every `poll(ec)` on the stack. `GetResults` does not fail, so that `ec` is
cleared and stays so.
-/

namespace RdmaOnAsio.Nd

open ErrorCode Verbs
open Ibv.CompletionQueue (ReadyOp Completed Frame)

namespace CompletionQueue

/-- A result, and its position in the order in which the provider wrote them. -/
structure Cqe where
  seq : Nat
  result : Nd2Result
deriving DecidableEq, Repr

/-- What a call returned. -/
structure Returned where
  call : Nat
  count : Nat
  ec : NdErrorCode
deriving DecidableEq, Repr

/-- The queue and its users. `posted` holds the ops whose requests the provider has not completed, `frames`
the polling thread's stack, innermost first. The fields from `pushed` on are histories. -/
structure State where
  alive : Bool := true
  ready : List ReadyOp := []
  posted : List Nat := []
  cq : List Cqe := []
  wcBuf : List Cqe := []
  frames : List Frame := []
  calls : Nat := 0
  pushed : List Nat := []
  requested : List Nat := []
  arrived : List Cqe := []
  taken : List Cqe := []
  dispatched : List Cqe := []
  completed : List Completed := []
  destroyed : List Nat := []
  returned : List Returned := []
deriving DecidableEq, Repr

/-- Who moves. -/
inductive Label
  /-- A data-plane initiation that completes at once: `push_ready`. -/
  | pushReady (addr : Nat) (byHandler : Bool)
  /-- A data-plane initiation that posts a request, with the op's address as its context. -/
  | post (addr : Nat)
  /-- The provider writes a result. -/
  | cqe (result : Nd2Result)
  /-- The application, or the running handler, calls `poll(ec)`. -/
  | poll
  /-- The application, or the running handler, calls `poll_one(ec)`. -/
  | pollOne
  /-- The innermost call takes its next step. -/
  | run
  | handlerReturns
  /-- The running handler throws, and the exception leaves `calls + 1` calls. -/
  | handlerThrows (calls : Nat)
  /-- The completion queue and the connectors that own its queue pairs are destroyed. -/
  | destroy
deriving DecidableEq, Repr

/-- The results in `wc_buf_` a call is still going to dispatch. -/
def pendingIn (buf : List Cqe) (f : Frame) : List Cqe :=
  match f.pc with
  | .batch _ n i => (buf.take n).drop i
  | _ => []

namespace State

/-- The call returns; `ec` was cleared when it began. -/
def leave (s : State) (call count : Nat) (rest : List Frame) : State :=
  { s with frames := rest, returned := s.returned ++ [⟨call, count, .common success⟩] }

/-- `op->complete(this)` for an op of the ready queue. -/
def complete (s : State) (op : ReadyOp) (call : Nat) (below : List Frame) : State :=
  { s with completed := s.completed ++ [⟨op, call⟩], frames := ⟨call, .handler⟩ :: below }

/-- `dispatch_completion`: nothing is completed for a result without a context. -/
def dispatchCompletion (s : State) (c : Cqe) (call : Nat) (below : List Frame) : State :=
  { s with
    dispatched := s.dispatched ++ [c]
    frames := if c.result.requestContext = 0 then below else ⟨call, .handler⟩ :: below }

/-- `poll_cq` into `wc_buf_` hands out the first `n` results. -/
def fillBuffer (s : State) (n : Nat) : State :=
  { s with
    cq := s.cq.drop n
    taken := s.taken ++ s.cq.take n
    wcBuf := s.cq.take n ++ s.wcBuf.drop n }

/-- The next step of the innermost call, which is at `pc`, above the frames `rest`. -/
def advance (pollBatch : Nat) (s : State) (call : Nat) (rest : List Frame) :
    Ibv.CompletionQueue.Pc → Option State
  | .takeReady => some { s with ready := [], frames := ⟨call, .drain s.ready 0⟩ :: rest }
  | .drain [] n => some { s with frames := ⟨call, .pollCq n⟩ :: rest }
  | .drain (op :: queue) n => some (s.complete op call (⟨call, .drain queue (n + 1)⟩ :: rest))
  | .pollCq total =>
    let retrieved := min (Poller.batchSize pollBatch) s.cq.length
    some { s.fillBuffer retrieved with frames := ⟨call, .batch total retrieved 0⟩ :: rest }
  | .batch total retrieved i =>
    if i < retrieved then
      match s.wcBuf[i]? with
      | some c => some (s.dispatchCompletion c call (⟨call, .batch total retrieved (i + 1)⟩ :: rest))
      | none => none
    else if retrieved ≠ 0 then
      some { s with frames := ⟨call, .pollCq (total + retrieved)⟩ :: rest }
    else
      some (s.leave call (total + retrieved) rest)
  | .popReady =>
    match s.ready with
    | op :: ready => some ({ s with ready := ready }.complete op call (⟨call, .pollOneDone⟩ :: rest))
    | [] => some { s with frames := ⟨call, .pollOneCq⟩ :: rest }
  | .pollOneCq =>
    match s.cq with
    | c :: cq =>
      some ({ s with cq := cq, taken := s.taken ++ [c] }.dispatchCompletion c call
        (⟨call, .pollOneDone⟩ :: rest))
    | [] => some (s.leave call 0 rest)
  | .pollOneDone => some (s.leave call 1 rest)
  | .handler => none

/-- A handler is running. -/
def inHandler (s : State) : Bool :=
  match s.frames with
  | f :: _ => f.pc == .handler
  | [] => false

/-- A call can be made: by the application when no call is in progress, or by the running handler. -/
def callable (s : State) : Bool := s.frames.isEmpty || s.inHandler

/-- A call begins. -/
def enter (s : State) (pc : Ibv.CompletionQueue.Pc) : State :=
  { s with calls := s.calls + 1, frames := ⟨s.calls, pc⟩ :: s.frames }

/-- The call whose handler is running. -/
def handlerCall (s : State) : Option Nat := s.frames.head?.map Frame.call

/-- The exception of the running handler leaves `calls + 1` calls: the local queues on the way destroy
their ops, and what the batches on the way have not dispatched is forgotten. -/
def unwind (s : State) (calls : Nat) : State :=
  { s with
    frames := s.frames.drop (2 * (calls + 1))
    destroyed := s.destroyed ++
      ((s.frames.take (2 * (calls + 1))).flatMap Frame.queue).map ReadyOp.addr }

/-- The destructors: `ready_` destroys its ops; the native CQ and the queue pairs are released with whatever
results and requests they hold. -/
def destroy (s : State) : State :=
  { s with alive := false, ready := [], destroyed := s.destroyed ++ s.ready.map ReadyOp.addr }

/-- The step taken under a label. -/
def step (pollBatch : Nat) (s : State) : Label → Option State
  | .pushReady addr byHandler =>
    if s.alive ∧ addr ≠ 0 ∧ (byHandler → s.inHandler) then
      some { s with
        ready := s.ready ++ [⟨addr, if byHandler then s.handlerCall else none⟩]
        pushed := s.pushed ++ [addr] }
    else none
  | .post addr =>
    if s.alive ∧ addr ≠ 0 then
      some { s with posted := s.posted ++ [addr], requested := s.requested ++ [addr] }
    else none
  | .cqe result =>
    if s.alive ∧ (result.requestContext = 0 ∨ result.requestContext ∈ s.posted) then
      some { s with
        posted := s.posted.erase result.requestContext
        cq := s.cq ++ [⟨s.arrived.length, result⟩]
        arrived := s.arrived ++ [⟨s.arrived.length, result⟩] }
    else none
  | .poll => if s.alive ∧ s.callable then some (s.enter .takeReady) else none
  | .pollOne => if s.alive ∧ s.callable then some (s.enter .popReady) else none
  | .run =>
    match s.frames with
    | ⟨call, pc⟩ :: rest => s.advance pollBatch call rest pc
    | [] => none
  | .handlerReturns =>
    match s.frames with
    | ⟨_, .handler⟩ :: rest => some { s with frames := rest }
    | _ => none
  | .handlerThrows calls => if s.inHandler then some (s.unwind calls) else none
  | .destroy => if s.alive ∧ s.frames = [] then some s.destroy else none

/-- The results that calls in progress are still going to dispatch. -/
def pending (s : State) : List Cqe := s.frames.flatMap (pendingIn s.wcBuf)

/-- The ready ops in local queues of calls in progress. -/
def draining (s : State) : List ReadyOp := s.frames.flatMap Frame.queue

/-- The ops that the dispatched results were for, as they were completed. -/
def resolved (s : State) : List Poller.Resolved := s.dispatched.filterMap fun c => Poller.resolve c.result

end State

end CompletionQueue

/-- The poll-mode completion queue, with the poll batch of its effective configuration. -/
def completionQueue (pollBatch : Nat) : StepSystem CompletionQueue.State CompletionQueue.Label :=
  ⟨CompletionQueue.State.step pollBatch⟩

end RdmaOnAsio.Nd
