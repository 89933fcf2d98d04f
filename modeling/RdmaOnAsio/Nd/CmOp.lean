import RdmaOnAsio.Error

/-!
# Control-plane operations on overlapped I/O

The three ops an nd connector issues (`nd_connect_op`, `nd_accept_op`, `nd_wait_disconnect_op`) and what
their `do_complete` does with the result the completion port hands it.

`do_complete` is cut at its shared accesses: between two of them (an access to `connect_state_` or
`peer_closed_`, a native call, the upcall) the code only touches the op, which the dispatching thread
owns. A `CompletePc` is the next shared access, and each function below runs the op's own code up to it.
-/

namespace RdmaOnAsio.Nd

open ErrorCode

/-- `connect_state`. -/
inductive ConnectState
  | idle
  | connecting
  | connected
  | closed
deriving DecidableEq, Repr

/-- `asio::error_code` of the nd backend: a code of the nd category, of asio's misc category, or one of
the common ones. -/
inductive NdErrorCode
  | ndErrc (hr : Int)
  | misc (value : Int)
  | common (ec : ErrorCode)
deriving DecidableEq, Repr

instance : Coe ErrorCode NdErrorCode := ⟨.common⟩

/-- `ec.operator bool`. -/
def NdErrorCode.isError : NdErrorCode → Bool
  | .ndErrc hr => hr != 0
  | .misc value => value != 0
  | .common ec => ec.isError

/-- `asio::error::already_open`. -/
def alreadyOpen : NdErrorCode := .misc 1

@[simp] theorem NdErrorCode.isError_ndErrc (hr : Int) :
    (NdErrorCode.ndErrc hr).isError = (hr != 0) := rfl

@[simp] theorem NdErrorCode.isError_common (ec : ErrorCode) :
    (NdErrorCode.common ec).isError = ec.isError := rfl

/-- `ND_SUCCESS`. -/
def ndSuccess : Int := 0

/-- `ND_PENDING`. -/
def ndPending : Int := 259

/-- `FAILED(hr)`. -/
def failed (hr : Int) : Bool := hr < 0

/-- What the wrappers of `nd_ops_cm` leave in their `error_code&`. -/
def callError (hr : Int) : NdErrorCode :=
  if hr ≠ ndSuccess ∧ hr ≠ ndPending then .ndErrc hr else success

/-- `ERROR_OPERATION_ABORTED`, the value of `operation_aborted` in the system category. -/
def errorOperationAborted : Int := 995

/-- What the completion port reports for an overlapped call. -/
inductive IoResult
  | ok
  | aborted
  | failed (lastError : Int)
deriving DecidableEq, Repr

/-- The code `do_complete` is called with. -/
def IoResult.ec : IoResult → NdErrorCode
  | .ok => success
  | .aborted => operationAborted
  | .failed lastError => makeSystemErrorCode lastError

/-- `nd_connect_op_base::stage_t`. -/
inductive Stage
  | connecting
  | connected
  | done
  | error
deriving DecidableEq, Repr

/-- Which of the three ops. -/
inductive OpKind
  | connect
  | accept
  | wait
deriving DecidableEq, Repr

/-- A control-plane op. `id` tells it from every other op of the run, `addr` is the address of its
storage and of its `OVERLAPPED`. `slot` says whether the handler's cancellation slot is connected,
`canceled` that `CancelIoEx` has marked the call in flight, `admitted` that the initiation guards let
the op through. `ec` is the code the op is completed with. The stage and the reply buffer are used by
the connect op only, `started` by the accept op. -/
structure CmOp where
  id : Nat
  addr : Nat
  kind : OpKind
  slot : Bool := false
  ec : NdErrorCode := .common success
  admitted : Bool := false
  canceled : Bool := false
  stage : Stage := .connecting
  replyCap : Nat := 0
  replyLen : Nat := 0
  started : Bool := false
deriving DecidableEq, Repr

/-- The next shared access of a `do_complete`. -/
inductive CompletePc
  | completeConnect
  | storeFailed
  | markConnected
  | storeConnected
  | storeClosed
  | loadPeerClosed
  | storePeerClosed
  | invoke
deriving DecidableEq, Repr

namespace CmOp

/-- Connect and accept ops drive `connect_state_`; the disconnect watcher does not. -/
def isConn (op : CmOp) : Bool := op.kind != .wait

/-- `on_completion(op, ec)`. -/
def completeWith (op : CmOp) (ec : NdErrorCode) : CmOp := { op with ec := ec }

/-- The guards let the op through; an accept op is told by `mark_started`. -/
def passGuards (op : CmOp) : CmOp := { op with admitted := true, started := op.kind == .accept }

/-- `nd_connect_op::do_complete` up to its first shared access: an op without an error resumes its
process, `nd_connect_op_base::do_process`. -/
def connectComplete (op : CmOp) : CmOp × CompletePc :=
  if op.ec.isError then (op, .storeClosed)
  else
    match op.stage with
    | .connecting => (op, .completeConnect)
    | .connected => (op, .markConnected)
    | .done | .error => ({ op with ec := .common (.rdma .invalidHandle), stage := .error }, .storeClosed)

/-- `nd_accept_op::do_complete` up to its first shared access. -/
def acceptComplete (op : CmOp) : CmOp × CompletePc :=
  if op.started ∧ ¬ op.ec.isError then (op, .storeConnected)
  else if op.started ∧ op.ec.isError then (op, .storeClosed)
  else (op, .invoke)

/-- `do_complete` up to its first shared access. -/
def doComplete (op : CmOp) : CmOp × CompletePc :=
  match op.kind with
  | .connect => op.connectComplete
  | .accept => op.acceptComplete
  | .wait => (op, .loadPeerClosed)

/-- `capture_remote_pd`; `pd` is the size `GetPrivateData` returns, if it does. -/
def captureRemotePd (op : CmOp) (pd : Option Nat) : CmOp :=
  match pd with
  | some size => if op.replyCap = 0 then op else { op with replyLen := min size op.replyCap }
  | none => op

/-- `process_complete_connect` after `CompleteConnect` returned `hr`: how `do_complete` goes on, or
nothing if the call is pending and the op with it. -/
def connectCompleted (op : CmOp) (pd : Option Nat) (hr : Int) : CmOp × Option CompletePc :=
  let op := { op.captureRemotePd pd with canceled := false }
  if failed hr then ({ op with ec := .ndErrc hr, stage := .error }, some .storeFailed)
  else if hr = ndPending then ({ op with stage := .connected }, none)
  else ({ op with stage := .connected }, some .markConnected)

/-- After the exchange of `mark_connected`. -/
def marked (op : CmOp) (won : Bool) : CmOp × CompletePc :=
  if won then ({ op with stage := .done }, .invoke)
  else ({ op with ec := .common operationAborted, stage := .error }, .storeClosed)

/-- `nd_wait_disconnect_op::do_complete` after it has read `peer_closed_`. The op's code is set after
the store to `peer_closed_`, which is the only access left, so it is set here. -/
def waitComplete (op : CmOp) (alreadyClosed : Bool) : CmOp × CompletePc :=
  if ¬ op.ec.isError then ({ op with ec := .common (.rdma .disconnected) }, .storePeerClosed)
  else if op.ec = .common operationAborted ∧ alreadyClosed then
    ({ op with ec := .common (.rdma .disconnected) }, .storePeerClosed)
  else (op, .invoke)

end CmOp

end RdmaOnAsio.Nd
