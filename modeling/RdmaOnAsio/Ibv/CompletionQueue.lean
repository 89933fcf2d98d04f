import RdmaOnAsio.Lts.Basic
import RdmaOnAsio.Ibv.Poller

/-!
# The poll-mode completion queue as a step system

`ibv_completion_queue`, its native CQ, the queue pairs opened against it and the threads that use it. One
thread polls; `poll(ec)` and `poll_one(ec)` run handlers synchronously, and a handler may call them again,
so the polling thread is a stack of frames. Other threads, and the running handler, initiate ops: an op is
posted to the HCA, or pushed on the ready queue. `wc_buf_` is a member, shared by every `poll(ec)` on the
stack; `poll_one(ec)` and `drain_ready` have local buffers.

A completion carries its position in the CQ's history, so that two completions of ops at one address are
told apart.
-/

namespace RdmaOnAsio.Ibv

open ErrorCode

namespace CompletionQueue

/-- `EIO`. -/
def eio : Int := 5

/-- An entry of the CQ, and its position in the order in which the HCA wrote them. -/
structure Cqe where
  seq : Nat
  wc : Wc
deriving DecidableEq, Repr

/-- An op in the ready queue. `pushedIn` is the call whose handler pushed it, if one did. -/
structure ReadyOp where
  addr : Nat
  pushedIn : Option Nat
deriving DecidableEq, Repr

/-- Where a call of `poll(ec)` or `poll_one(ec)`, or the handler it runs, stands. -/
inductive Pc
  /-- `drain_ready`: about to move the ready queue out. -/
  | takeReady
  /-- `drain_ready`: `queue` is the local queue, `n` ops of it are completed. -/
  | drain (queue : List ReadyOp) (n : Nat)
  /-- `poll`: about to call `poll_cq`. -/
  | pollCq (total : Nat)
  /-- `poll`: about to dispatch `wc_buf_[i]`, of a batch of `n`. -/
  | batch (total n i : Nat)
  /-- `poll_one`: about to take the front of the ready queue. -/
  | popReady
  /-- `poll_one`: about to call `poll_cq`. -/
  | pollOneCq
  /-- `poll_one`: the op is completed. -/
  | pollOneDone
  /-- A handler is running. -/
  | handler
deriving DecidableEq, Repr

/-- A stack frame; `call` numbers the calls of `poll(ec)` and `poll_one(ec)`, and a handler has the number
of the call that runs it. -/
structure Frame where
  call : Nat
  pc : Pc
deriving DecidableEq, Repr

/-- What a call returned. -/
structure Returned where
  call : Nat
  count : Nat
  ec : ErrorCode
deriving DecidableEq, Repr

/-- An op of the ready queue that a call has completed. -/
structure Completed where
  op : ReadyOp
  call : Nat
deriving DecidableEq, Repr

/-- The queue and its users. `posted` holds the ops whose work requests the HCA has not completed, `frames`
the polling thread's stack, innermost first. The fields from `pushed` on are histories: the immediate ops
pushed, the ops posted, the entries the HCA wrote, those that `poll_cq` handed out, those passed to
`dispatch`, the ready ops completed, the ops destroyed without an upcall, and what the calls returned. -/
structure State where
  alive : Bool := true
  ready : List ReadyOp := []
  posted : List Nat := []
  cq : List Cqe := []
  wcBuf : List Cqe := []
  frames : List Frame := []
  calls : Nat := 0
  pushed : List Nat := []
  requested : List Nat := []
  arrived : List Cqe := []
  taken : List Cqe := []
  dispatched : List Cqe := []
  completed : List Completed := []
  destroyed : List Nat := []
  returned : List Returned := []
deriving DecidableEq, Repr

/-- Who moves. -/
inductive Label
  /-- A data-plane initiation that completes at once: `push_ready`. -/
  | pushReady (addr : Nat) (byHandler : Bool)
  /-- A data-plane initiation that posts a work request, with the op's address as `wr_id`. -/
  | post (addr : Nat)
  /-- The HCA writes an entry. -/
  | cqe (wc : Wc)
  /-- The application, or the running handler, calls `poll(ec)`. -/
  | poll
  /-- The application, or the running handler, calls `poll_one(ec)`. -/
  | pollOne
  /-- The innermost call takes its next step; `pollFails` is the outcome of `ibv_poll_cq`, if it is
  called. -/
  | run (pollFails : Bool)
  | handlerReturns
  /-- The running handler throws, and the exception leaves `calls + 1` calls. -/
  | handlerThrows (calls : Nat)
  /-- The completion queue and the connectors that own its queue pairs are destroyed. -/
  | destroy
deriving DecidableEq, Repr

/-- The ops a local ready queue still holds. -/
def Frame.queue (f : Frame) : List ReadyOp :=
  match f.pc with
  | .drain queue _ => queue
  | _ => []

/-- The entries of `wc_buf_` a call is still going to dispatch. -/
def Frame.pending (buf : List Cqe) (f : Frame) : List Cqe :=
  match f.pc with
  | .batch _ n i => (buf.take n).drop i
  | _ => []

namespace State

/-- The call returns. -/
def leave (s : State) (call count : Nat) (ec : ErrorCode) (rest : List Frame) : State :=
  { s with frames := rest, returned := s.returned ++ [⟨call, count, ec⟩] }

/-- `op->complete(this)` for an op of the ready queue. -/
def complete (s : State) (op : ReadyOp) (call : Nat) (below : List Frame) : State :=
  { s with completed := s.completed ++ [⟨op, call⟩], frames := ⟨call, .handler⟩ :: below }

/-- `dispatch`: nothing is completed for an entry without an op. -/
def dispatch (s : State) (c : Cqe) (call : Nat) (below : List Frame) : State :=
  { s with
    dispatched := s.dispatched ++ [c]
    frames := if (resolveVerbsOp c.wc).isSome then ⟨call, .handler⟩ :: below else below }

/-- `poll_cq` into `wc_buf_` hands out the first `n` entries. -/
def fillBuffer (s : State) (n : Nat) : State :=
  { s with
    cq := s.cq.drop n
    taken := s.taken ++ s.cq.take n
    wcBuf := s.cq.take n ++ s.wcBuf.drop n }

/-- The next step of the innermost call, which is at `pc`, above the frames `rest`. -/
def advance (pollBatch : Nat) (s : State) (call : Nat) (rest : List Frame) (pollFails : Bool) :
    Pc → Option State
  | .takeReady => some { s with ready := [], frames := ⟨call, .drain s.ready 0⟩ :: rest }
  | .drain [] n => some { s with frames := ⟨call, .pollCq n⟩ :: rest }
  | .drain (op :: queue) n => some (s.complete op call (⟨call, .drain queue (n + 1)⟩ :: rest))
  | .pollCq total =>
    if pollFails then
      some (s.leave call total (makeSystemErrorCode eio) rest)
    else
      let n := min (Poller.batchSize pollBatch) s.cq.length
      some { s.fillBuffer n with frames := ⟨call, .batch total n 0⟩ :: rest }
  | .batch total n i =>
    if i < n then
      match s.wcBuf[i]? with
      | some c => some (s.dispatch c call (⟨call, .batch total n (i + 1)⟩ :: rest))
      | none => none
    else if 0 < n then
      some { s with frames := ⟨call, .pollCq (total + n)⟩ :: rest }
    else
      some (s.leave call (total + n) success rest)
  | .popReady =>
    match s.ready with
    | op :: ready => some ({ s with ready := ready }.complete op call (⟨call, .pollOneDone⟩ :: rest))
    | [] => some { s with frames := ⟨call, .pollOneCq⟩ :: rest }
  | .pollOneCq =>
    if pollFails then
      some (s.leave call 0 (makeSystemErrorCode eio) rest)
    else
      match s.cq with
      | c :: cq =>
        some ({ s with cq := cq, taken := s.taken ++ [c] }.dispatch c call
          (⟨call, .pollOneDone⟩ :: rest))
      | [] => some (s.leave call 0 success rest)
  | .pollOneDone => some (s.leave call 1 success rest)
  | .handler => none

/-- A handler is running. -/
def inHandler (s : State) : Bool :=
  match s.frames with
  | f :: _ => f.pc == .handler
  | [] => false

/-- A call can be made: by the application when no call is in progress, or by the running handler. -/
def callable (s : State) : Bool := s.frames.isEmpty || s.inHandler

/-- A call begins. -/
def enter (s : State) (pc : Pc) : State :=
  { s with calls := s.calls + 1, frames := ⟨s.calls, pc⟩ :: s.frames }

/-- The call whose handler is running. -/
def handlerCall (s : State) : Option Nat := s.frames.head?.map Frame.call

/-- The exception of the running handler leaves `calls + 1` calls: the local queues on the way destroy
their ops, and what the batches on the way have not dispatched is forgotten. -/
def unwind (s : State) (calls : Nat) : State :=
  { s with
    frames := s.frames.drop (2 * (calls + 1))
    destroyed := s.destroyed ++
      ((s.frames.take (2 * (calls + 1))).flatMap Frame.queue).map ReadyOp.addr }

/-- The destructors: `ready_` destroys its ops; the native CQ and the queue pairs are freed with whatever
entries and work requests they hold. -/
def destroy (s : State) : State :=
  { s with alive := false, ready := [], destroyed := s.destroyed ++ s.ready.map ReadyOp.addr }

/-- The step taken under a label. -/
def step (pollBatch : Nat) (s : State) : Label → Option State
  | .pushReady addr byHandler =>
    if s.alive ∧ addr ≠ 0 ∧ (byHandler → s.inHandler) then
      some { s with
        ready := s.ready ++ [⟨addr, if byHandler then s.handlerCall else none⟩]
        pushed := s.pushed ++ [addr] }
    else none
  | .post addr =>
    if s.alive ∧ addr ≠ 0 then
      some { s with posted := s.posted ++ [addr], requested := s.requested ++ [addr] }
    else none
  | .cqe wc =>
    if s.alive ∧ (wc.wrId = 0 ∨ wc.wrId ∈ s.posted) then
      some { s with
        posted := s.posted.erase wc.wrId
        cq := s.cq ++ [⟨s.arrived.length, wc⟩]
        arrived := s.arrived ++ [⟨s.arrived.length, wc⟩] }
    else none
  | .poll => if s.alive ∧ s.callable then some (s.enter .takeReady) else none
  | .pollOne => if s.alive ∧ s.callable then some (s.enter .popReady) else none
  | .run pollFails =>
    match s.frames with
    | ⟨call, pc⟩ :: rest => s.advance pollBatch call rest pollFails pc
    | [] => none
  | .handlerReturns =>
    match s.frames with
    | ⟨_, .handler⟩ :: rest => some { s with frames := rest }
    | _ => none
  | .handlerThrows calls => if s.inHandler then some (s.unwind calls) else none
  | .destroy => if s.alive ∧ s.frames = [] then some s.destroy else none

/-- The entries that calls in progress are still going to dispatch. -/
def pending (s : State) : List Cqe := s.frames.flatMap (Frame.pending s.wcBuf)

/-- The ready ops in local queues of calls in progress. -/
def draining (s : State) : List ReadyOp := s.frames.flatMap Frame.queue

/-- What the entries passed to `dispatch` were resolved to. -/
def resolved (s : State) : List Resolved := s.dispatched.filterMap fun c => resolveVerbsOp c.wc

end State

end CompletionQueue

/-- The poll-mode completion queue, with the poll batch of its effective configuration. -/
def completionQueue (pollBatch : Nat) : StepSystem CompletionQueue.State CompletionQueue.Label :=
  ⟨CompletionQueue.State.step pollBatch⟩

end RdmaOnAsio.Ibv
