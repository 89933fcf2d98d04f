import RdmaOnAsio.Lts.Basic
import RdmaOnAsio.Nd.CmOp

/-!
# The nd listener as a step system

One listener with its `nd_get_connection_request_op`s, from its construction to `destroy`. An initiation
makes the overlapped file and the connector for the next client, and hands both to
`GetConnectionRequest`; nobody else knows them yet, so it is one step, with the results of the native
calls in its label. So is a `do_complete`, which touches its own op only.

The overlapped calls end as those of the connector do: a marked call may end with its own result, and only a
marked one ends with `ERROR_OPERATION_ABORTED`.
-/

namespace RdmaOnAsio.Nd

open ErrorCode

namespace Listener

/-- `nd_connector_handle_t` without the adapter. -/
structure ConnectorHandle where
  overlappedHandle : Option Nat := none
  connector : Option Nat := none
deriving DecidableEq, Repr

/-- `max_private_data_size`. -/
def maxPrivateDataSize : Nat := 256

/-- `nd_get_connection_request_op`. `addr` is the address of its storage and of its `OVERLAPPED`; `slot`
says whether the handler's cancellation slot is connected, `canceled` that `CancelIoEx` has marked the
call in flight. -/
structure GetConnectionOp where
  addr : Nat
  slot : Bool := false
  canceled : Bool := false
  ec : NdErrorCode := .common success
  connectorHandle : ConnectorHandle := {}
  privateDataLen : Nat := 0
deriving DecidableEq, Repr

/-- `on_completion(op, ec)`. -/
def GetConnectionOp.completeWith (op : GetConnectionOp) (ec : NdErrorCode) : GetConnectionOp :=
  { op with ec := ec }

/-- The first part of `do_complete`; `pd` is the size `GetPrivateData` returns, if it does. -/
def GetConnectionOp.retrievePrivateData (op : GetConnectionOp) (pd : Option Nat) : GetConnectionOp :=
  match pd with
  | some size =>
    if ¬ op.ec.isError ∧ op.connectorHandle.connector.isSome then
      { op with privateDataLen := min size maxPrivateDataSize }
    else op
  | none => op

/-- The arguments of an upcall. -/
structure Delivery where
  ec : NdErrorCode
  handle : ConnectorHandle
  privateDataLen : Nat
deriving DecidableEq, Repr

/-- The listener. `pending` are the ops with a call in flight, `scheduled` those whose completion waits
at the port. `handles` counts the overlapped files made for connectors, `slots` holds the addresses in
the armed cancellation functors, `delivered` what the handlers were called with. -/
structure State where
  deviceRegistered : Bool := false
  isOpen : Bool := false
  destroyed : Bool := false
  handles : Nat := 0
  pending : List GetConnectionOp := []
  scheduled : List GetConnectionOp := []
  slots : List Nat := []
  delivered : List Delivery := []
deriving DecidableEq, Repr

/-- The steps of the system. -/
inductive Label
  | useDevice
  /-- `open`; `ec` is the result of its native calls. -/
  | openListener (ec : NdErrorCode)
  /-- The results of `create_overlapped_file`, `create_connector` and `GetConnectionRequest`. -/
  | asyncGetConnectionRequest (addr : Nat) (slot : Bool) (file connector : NdErrorCode) (hr : Int)
  /-- The overlapped call of the op at `addr` ends. -/
  | overlapped (addr : Nat) (r : IoResult)
  /-- A thread runs the completion of the op at `addr`. -/
  | complete (addr : Nat) (pd : Option Nat)
  /-- A cancellation signal is emitted into the functor with this address. -/
  | emit (addr : Nat)
  | cancel
  | destroy
deriving DecidableEq, Repr

namespace State

/-- `on_completion`. -/
def onCompletion (s : State) (op : GetConnectionOp) (ec : NdErrorCode) : State :=
  { s with scheduled := s.scheduled ++ [op.completeWith ec] }

/-- `on_pending`. -/
def onPending (s : State) (op : GetConnectionOp) : State := { s with pending := s.pending ++ [op] }

/-- `arm_nd_cancellation`. -/
def armNdCancellation (s : State) (op : GetConnectionOp) : State :=
  if op.slot then { s with slots := op.addr :: s.slots } else s

/-- `CancelIoEx` on the calls in flight that satisfy `p`. -/
def cancelIoEx (s : State) (p : GetConnectionOp → Bool) : State :=
  { s with pending := s.pending.map fun op => if p op then { op with canceled := true } else op }

/-- The ops that exist. -/
def ops (s : State) : List GetConnectionOp := s.pending ++ s.scheduled

/-- `addr` is not the address of an op that still exists. -/
def freshAddr (s : State) (addr : Nat) : Bool := s.ops.all fun op => op.addr != addr

/-- `open`. -/
def openListener (s : State) (ec : NdErrorCode) : State :=
  if s.isOpen ∨ !s.deviceRegistered ∨ ec.isError then s else { s with isOpen := true }

/-- `async_get_connection_request`. -/
def asyncGetConnectionRequest (s : State) (addr : Nat) (slot : Bool) (file connector : NdErrorCode)
    (hr : Int) : State :=
  if !s.isOpen then s.onCompletion { addr, slot } (.common (.rdma .invalidHandle))
  else if file.isError then s.onCompletion { addr, slot } file
  else
    let n := s.handles
    let s := { s with handles := n + 1 }
    if connector.isError then
      s.onCompletion { addr, slot, connectorHandle := { overlappedHandle := some n } } connector
    else
      let op := { addr, slot, connectorHandle := { overlappedHandle := some n, connector := some n } }
      if (callError hr).isError then s.onCompletion op (callError hr)
      else if hr = ndPending then (s.armNdCancellation op).onPending op
      else s.onCompletion op success

/-- The overlapped call of `op` has ended. -/
def overlappedEnd (s : State) (op : GetConnectionOp) (r : IoResult) : State :=
  { s with pending := s.pending.eraseP fun o => o.addr == op.addr }.onCompletion op r.ec

/-- `do_complete` with the `io_context` running: the handle is moved into the handler. -/
def completeOp (s : State) (op : GetConnectionOp) (pd : Option Nat) : State :=
  let op := op.retrievePrivateData pd
  { s with
    scheduled := s.scheduled.eraseP fun o => o.addr == op.addr
    delivered := s.delivered ++ [⟨op.ec, op.connectorHandle, op.privateDataLen⟩] }

/-- `destroy`: closing the overlapped file of the listener cancels the calls in flight. -/
def destroy (s : State) : State :=
  { s.cancelIoEx fun _ => true with isOpen := false, destroyed := true }

end State

/-- An overlapped call ends with `ERROR_OPERATION_ABORTED` only if it was cancelled, and otherwise with any
result. -/
def mayEnd (op : GetConnectionOp) (r : IoResult) : Bool :=
  match r with
  | .ok => true
  | .aborted => op.canceled
  | .failed lastError => lastError != 0 && lastError != errorOperationAborted

/-- The step system of one listener. -/
def step (s : State) : Label → Option State
  | .useDevice => some { s with deviceRegistered := true }
  | .openListener ec => if s.destroyed then none else some (s.openListener ec)
  | .asyncGetConnectionRequest addr slot file connector hr =>
    if s.freshAddr addr ∧ s.destroyed = false then
      some (s.asyncGetConnectionRequest addr slot file connector hr)
    else none
  | .overlapped addr r =>
    match s.pending.find? fun op => op.addr == addr with
    | some op => if mayEnd op r then some (s.overlappedEnd op r) else none
    | none => none
  | .complete addr pd =>
    match s.scheduled.find? fun op => op.addr == addr with
    | some op => some (s.completeOp op pd)
    | none => none
  | .emit addr =>
    if addr ∈ s.slots ∧ s.destroyed = false then some (s.cancelIoEx fun op => op.addr == addr)
    else none
  | .cancel =>
    if s.destroyed then none else if s.isOpen then some (s.cancelIoEx fun _ => true) else some s
  | .destroy => if s.destroyed then none else some s.destroy

/-- The nd listener. -/
def listener : StepSystem State Label := ⟨step⟩

end Listener

end RdmaOnAsio.Nd
