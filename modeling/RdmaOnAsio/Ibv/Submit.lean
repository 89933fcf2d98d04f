import RdmaOnAsio.Lts.Basic
import RdmaOnAsio.Ibv.Buffer
import RdmaOnAsio.Ibv.WorkCompletion

/-!
# Submitting a data-plane op

`ibv_verbs_service::async_send`, `async_recv`, `async_read` and `async_write` with their poll-mode
counterparts, as a step system of one op: the submitting thread, the HCA, and the thread that reaps
completions (the CQ poller, the scheduler, or the user's `poll()`). The work request is visible to the other
two from the moment the native post accepts it, so that everything the submitter does afterwards
interleaves with them.

An access to the op after it was completed, which has freed it, is recorded in `misused`.
-/

namespace RdmaOnAsio.Ibv

open ErrorCode

/-- `rdma_verbs_op_base::op_type`. -/
inductive OpType
  | postRecv
  | postSend
  | remoteRead
  | remoteWrite
deriving DecidableEq, Repr

/-- The fields of the effective config that `do_post_*` reads. -/
structure SgeLimits where
  maxSendSge : Nat := 0
  maxRecvSge : Nat := 0
deriving DecidableEq, Repr

/-! ## Up to the native post -/

/-- What is left of `do_post_*` once the buffers have been looked at: nothing, with the error assigned to
`ec_` if there is one, or the native post of a list, with the bytes given to `set_posted_bytes`. -/
inductive Prepared
  | immediate (ec : Option ErrorCode)
  | post (sges : List NativeSge) (postedBytes : Option Nat)
deriving DecidableEq, Repr

/-- `exceeds_sge_limit`. -/
def exceedsSgeLimit (count max : Nat) : Option ErrorCode :=
  if max ≠ 0 ∧ max < count then some (.rdma .tooManySge) else none

/-- `exceeds_buffer_limit`. -/
def exceedsBufferLimit (length : Nat) : Option ErrorCode :=
  if uint32Max < length then some (.rdma .bufferTooLarge) else none

/-- The common body of `do_post_*`: the limit it checks, and whether it calls `set_posted_bytes`. -/
def doPost (maxSge : Nat) (setsPostedBytes : Bool) : BufferSequence → Prepared
  | .single b =>
    if b.length = 0 then
      .immediate none
    else
      match exceedsSgeLimit 1 maxSge, exceedsBufferLimit b.length with
      | some ec, _ => .immediate (some ec)
      | none, some ec => .immediate (some ec)
      | none, none => .post [fillNativeSge b] (if setsPostedBytes then some b.length else none)
  | .sequence bs =>
    let built := buildNativeSglist bs maxSge
    if built.tooManySge then
      .immediate (some (.rdma .tooManySge))
    else if built.bufferTooLarge then
      .immediate (some (.rdma .bufferTooLarge))
    else if built.allEmpty then
      .immediate none
    else
      .post built.data (if setsPostedBytes then some built.totalBytes else none)

/-- `do_post_send`. -/
def doPostSend (cfg : SgeLimits) : BufferSequence → Prepared := doPost cfg.maxSendSge true

/-- `do_post_recv`. -/
def doPostRecv (cfg : SgeLimits) : BufferSequence → Prepared := doPost cfg.maxRecvSge false

/-- `do_post_read`. -/
def doPostRead (cfg : SgeLimits) : BufferSequence → Prepared := doPost cfg.maxSendSge false

/-- `do_post_write`. -/
def doPostWrite (cfg : SgeLimits) : BufferSequence → Prepared := doPost cfg.maxSendSge true

/-- The `do_post_*` of an op. -/
def OpType.doPost : OpType → SgeLimits → BufferSequence → Prepared
  | .postRecv => doPostRecv
  | .postSend => doPostSend
  | .remoteRead => doPostRead
  | .remoteWrite => doPostWrite

/-- What `post_send`, `post_recv` and `post_rdma` assign to `ec` after the native call returned `rc`. -/
def postResult (rc : Int) : ErrorCode := if rc ≠ 0 then makeSystemErrorCode rc else success

/-! ## Completion -/

/-- `do_complete` of `rdma_send_op` and `rdma_write_op` clears the byte count on an error; that of
`rdma_recv_op` and `rdma_read_op` leaves it to the completion. -/
def OpType.clearsBytes : OpType → Bool
  | .postSend | .remoteWrite => true
  | .postRecv | .remoteRead => false

/-- What `do_complete` binds to the handler. -/
def VerbsOp.handlerArgs (kind : OpType) (o : VerbsOp) : ErrorCode × Nat :=
  (o.ec, if kind.clearsBytes && o.ec.isError then 0 else o.bytesTransferred)

/-! ## The step system -/

/-- Where an immediate completion goes: onto the scheduler, or into `ready_` of the bound queue. -/
inductive Mode
  | event
  | poll
deriving DecidableEq, Repr

/-- What is submitted. `addr` is the address of the op, posted as `wr_id`. -/
structure Submission where
  kind : OpType
  mode : Mode
  limits : SgeLimits := {}
  buffers : BufferSequence
  addr : Nat
  addr_ne : addr ≠ 0

namespace Submission

/-- Where the submitting thread is. -/
inductive Pc
  /-- `do_post_*`, up to the native post. -/
  | doPost
  /-- About to call `ibv_post_send` or `ibv_post_recv`. -/
  | nativePost
  /-- The native call returned `rc`; about to assign `ec_`. -/
  | writeEc (rc : Int)
  /-- About to read `ec_` for the result of `do_post_*`. -/
  | readEc
  /-- `finish_event` or `finish_poll`. -/
  | finish (immediate : Bool)
  | returned
deriving DecidableEq, Repr

/-- How far the work request is. -/
inductive Wr
  | unposted
  | posted
  /-- Its CQE is on the CQ. -/
  | completed (wc : Wc)
  /-- Its CQE has been resolved to the op, which is not completed yet. -/
  | resolved
  | reaped
deriving DecidableEq, Repr

/-- The op, its submitter and its work request. `immediate` counts the entries for the op on the
scheduler or in `ready_`. `cqe`, `refused` and `invoked` are histories: the CQE, the error of an op that
is not posted (`success` for empty buffers), the arguments of the handler's invocations. -/
structure State where
  pc : Pc := .doPost
  op : VerbsOp := {}
  wr : Wr := .unposted
  immediate : Nat := 0
  completed : Bool := false
  misused : Bool := false
  cqe : Option Wc := none
  refused : Option ErrorCode := none
  invoked : List (ErrorCode × Nat) := []
deriving DecidableEq, Repr

/-- Who moves, and what the native side decides. -/
inductive Label
  /-- The submitter takes its next step. -/
  | submit
  /-- The submitter's native post returns `rc`. -/
  | nativePost (rc : Int)
  /-- The HCA completes the work request. -/
  | hca (status : WcStatus) (opcode : WcOpcode) (byteLen : Nat)
  /-- The reaping thread takes the CQE and resolves it. -/
  | resolve
  /-- The reaping thread completes the op it has resolved. -/
  | complete
  /-- The scheduler or `poll()` completes the op that was handed to it. -/
  | runImmediate
deriving DecidableEq, Repr

namespace State

/-- A step reads or writes the op. -/
def access (s : State) : State := { s with misused := s.misused || s.completed }

/-- `op->complete(owner)`: the handler is invoked and the op freed. -/
def complete (kind : OpType) (s : State) : State :=
  { s.access with completed := true, invoked := s.invoked ++ [s.op.handlerArgs kind] }

/-- The submitter's next step. -/
def submit (sub : Submission) (s : State) : Option State :=
  match s.pc with
  | .doPost =>
    match sub.kind.doPost sub.limits sub.buffers with
    | .immediate none => some { s with pc := .finish true, refused := some success }
    | .immediate (some ec) =>
      some { s with pc := .finish true, op := { s.op with ec := ec }, refused := some ec }
    | .post _ none => some { s with pc := .nativePost }
    | .post _ (some n) => some { s with pc := .nativePost, op := { s.op with bytesTransferred := n } }
  | .nativePost => none
  | .writeEc rc => some { s.access with pc := .readEc, op := { s.op with ec := postResult rc } }
  | .readEc => some { s.access with pc := .finish s.op.ec.isError }
  | .finish false => some { s with pc := .returned }
  | .finish true =>
    match sub.mode with
    | .event => some { s with pc := .returned, immediate := s.immediate + 1 }
    -- `ready_.push` links the op itself
    | .poll => some { s.access with pc := .returned, immediate := s.immediate + 1 }
  | .returned => none

/-- `ibv_post_send` or `ibv_post_recv` accepts the work request, or refuses it. -/
def nativePost (s : State) (rc : Int) : Option State :=
  if s.pc = .nativePost then
    if rc = 0 then
      some { s with pc := .writeEc rc, wr := .posted }
    else
      some { s with pc := .writeEc rc, refused := some (makeSystemErrorCode rc) }
  else
    none

/-- The HCA puts the CQE of a posted work request on the CQ. -/
def hca (sub : Submission) (s : State) (status : WcStatus) (opcode : WcOpcode) (byteLen : Nat) :
    Option State :=
  if s.wr = .posted then
    let wc : Wc := ⟨sub.addr, status, opcode, byteLen⟩
    some { s with wr := .completed wc, cqe := some wc }
  else
    none

/-- `resolve_verbs_op`. -/
def resolve (s : State) : Option State :=
  match s.wr with
  | .completed wc =>
    match resolveVerbsOp wc with
    | some r => some { s.access with wr := .resolved, op := r.stamp s.op }
    | none => some { s with wr := .reaped }
  | _ => none

/-- The step taken under a label. -/
def step (sub : Submission) (s : State) : Label → Option State
  | .submit => s.submit sub
  | .nativePost rc => s.nativePost rc
  | .hca status opcode byteLen => s.hca sub status opcode byteLen
  | .resolve => s.resolve
  | .complete =>
    if s.wr = .resolved then some { s.complete sub.kind with wr := .reaped } else none
  | .runImmediate =>
    if 0 < s.immediate then
      some { s.complete sub.kind with immediate := s.immediate - 1 }
    else
      none

end State

/-- The submission as a step system. -/
def system (sub : Submission) : StepSystem State Label := ⟨State.step sub⟩

end Submission

end RdmaOnAsio.Ibv
