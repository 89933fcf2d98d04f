import RdmaOnAsio.Lts.Basic
import RdmaOnAsio.Nd.CmOp

/-!
# The nd connector as a step system

One `nd_connector_service::implementation_type` from its construction on. The actors are the thread that
calls `open`, `assign` and the initiations, any number of `disconnect()` callers, the driver that ends
overlapped calls, the threads of the completion port that run `do_complete`, and cancellation signals.
Every access to `connect_state_` or `peer_closed_` and every native call is a step of its own; native
results and the interleaving are chosen by the labels.

A completion that is posted (`on_completion`) or whose overlapped call has ended (`on_pending`) is
scheduled; any thread may take it, in any order. `CancelIoEx` marks calls in flight: a marked call may
still end with its own result, and only a marked one ends with `ERROR_OPERATION_ABORTED`.
-/

namespace RdmaOnAsio.Nd

open ErrorCode

/-- `max_outgoing_private_data`. -/
def maxOutgoingPrivateData : Nat := 255

/-- The recorded actions of a run: the exchange of a `disconnect()` that closes from `old`, the change to
`connected` made by an op, the native success of its `CompleteConnect` or `Accept`, the calls of
`IND2Connector::Disconnect`, and the upcalls. -/
inductive Action
  | close (old : ConnectState)
  | connected (id : Nat)
  | established (id : Nat)
  | disconnect (hr : Int)
  | invoked (op : CmOp)
deriving DecidableEq, Repr

/-- Where the initiating thread is in `async_connect`, `async_accept`, `async_move_accept` or
`async_wait_disconnect`. -/
inductive InitPc
  | idle
  | guardState (op : CmOp) (hasQp : Bool)
  | publish (op : CmOp)
  | bind (op : CmOp)
  | native (op : CmOp)
  | arm (op : CmOp)
  | waitLatch (op : CmOp)
  | waitState (op : CmOp)
  | notify (op : CmOp)
deriving DecidableEq, Repr

/-- The op the initiating thread is working on. -/
def InitPc.op? : InitPc → Option CmOp
  | .idle => none
  | .guardState op _ | .publish op | .bind op | .native op | .arm op | .waitLatch op | .waitState op
  | .notify op => some op

/-- The op the initiating thread still owns; before it arms the slot it has handed the op over. -/
def InitPc.owned? : InitPc → Option CmOp
  | .idle | .arm _ => none
  | .guardState op _ | .publish op | .bind op | .native op | .waitLatch op | .waitState op
  | .notify op => some op

/-- Where a `disconnect()` call is; `returned` carries its code. -/
inductive DisconnectPc
  | load
  | cas (old : ConnectState)
  | storePeerClosed (old : ConnectState)
  | cancelIo (old : ConnectState)
  | native
  | returned (ec : NdErrorCode)
deriving DecidableEq, Repr

/-- The `disconnect()` call is over. -/
def DisconnectPc.isReturned : DisconnectPc → Bool
  | .returned _ => true
  | .load | .cas _ | .storePeerClosed _ | .cancelIo _ | .native => false

/-- One connector. `pending` are the ops with an overlapped call in flight, `scheduled` those whose
completion waits at the port, `dispatching` those whose `do_complete` is running. `slots` holds the
addresses in the armed cancellation functors, `used` the ids of all ops so far. -/
structure State where
  deviceRegistered : Bool := false
  isOpen : Bool := false
  connectState : ConnectState := .idle
  peerClosed : Bool := false
  initiation : InitPc := .idle
  pending : List CmOp := []
  scheduled : List CmOp := []
  dispatching : List (CmOp × CompletePc) := []
  callers : List DisconnectPc := []
  slots : List Nat := []
  used : List Nat := []
  trace : List Action := []
deriving DecidableEq, Repr

/-- What a step inside the library depends on besides the shared state. -/
inductive Answer
  | run
  | spurious
  | bound (ec : NdErrorCode)
  | native (hr : Int)
  | completeConnect (pd : Option Nat) (hr : Int)
deriving DecidableEq, Repr

/-- The steps of the system. -/
inductive Label
  | useDevice
  /-- `open`; `ec` is the result of its native calls. -/
  | openConnector (ec : NdErrorCode)
  /-- `assign`; `hasHandle` says whether the handle is non-null, `ec` is the result of `register_handle`. -/
  | assign (hasHandle : Bool) (ec : NdErrorCode)
  /-- `async_connect`; `opened` is the result of the native calls of its auto-open. -/
  | asyncConnect (id addr : Nat) (slot hasQp : Bool) (requestSize replyCap : Nat)
      (opened : NdErrorCode)
  /-- `async_accept`, or `async_move_accept` with its `bind_ec`. -/
  | asyncAccept (id addr : Nat) (slot hasQp : Bool) (bindEc : NdErrorCode) (dataSize : Nat)
  | asyncWaitDisconnect (id addr : Nat) (slot : Bool)
  /-- The next step of the initiation of an op. -/
  | initiate (id : Nat) (a : Answer)
  /-- The overlapped call of an op ends. -/
  | overlapped (id : Nat) (r : IoResult)
  /-- A thread takes the completion of an op from the port. -/
  | dispatch (id : Nat)
  /-- The next step of the `do_complete` of an op. -/
  | complete (id : Nat) (a : Answer)
  /-- A thread enters `disconnect()`. -/
  | disconnect
  /-- The next step of the `i`-th `disconnect()` call. -/
  | disconnectStep (i : Nat) (a : Answer)
  /-- A cancellation signal is emitted into the functor with this address. -/
  | emit (addr : Nat)
deriving DecidableEq, Repr

namespace State

/-- Adds an action to the history. -/
def log (s : State) (a : Action) : State := { s with trace := a :: s.trace }

/-- `on_completion`. -/
def onCompletion (s : State) (op : CmOp) (ec : NdErrorCode) : State :=
  { s with scheduled := s.scheduled ++ [op.completeWith ec] }

/-- `on_pending`. -/
def onPending (s : State) (op : CmOp) : State := { s with pending := s.pending ++ [op] }

/-- A rejected initiation returns after `on_completion`. -/
def reject (s : State) (op : CmOp) (ec : NdErrorCode) : State :=
  { s.onCompletion op ec with initiation := .idle }

/-- A started initiation that hands its op over goes on to arm the cancellation slot. -/
def complete (s : State) (op : CmOp) (ec : NdErrorCode) : State :=
  { s.onCompletion op ec with initiation := .arm op }

/-- `arm_nd_cancellation`. -/
def armNdCancellation (s : State) (op : CmOp) : State :=
  if op.slot then { s with slots := op.addr :: s.slots } else s

/-- `CancelIoEx` on the calls in flight that satisfy `p`. -/
def cancelIoEx (s : State) (p : CmOp → Bool) : State :=
  { s with pending := s.pending.map fun op => if p op then { op with canceled := true } else op }

/-- The ops that exist, by where they are. -/
def ops (s : State) : List CmOp :=
  s.initiation.owned?.toList ++ s.pending ++ s.scheduled ++ s.dispatching.map Prod.fst

/-- The identity has not been used, and the address is not that of an op that still exists. -/
def fresh (s : State) (id addr : Nat) : Bool :=
  !s.used.contains id && s.ops.all fun op => op.addr != addr

/-- The op `id` leaves the driver. -/
def takePending (s : State) (id : Nat) : State :=
  { s with pending := s.pending.eraseP fun op => op.id == id }

/-- The op `id` leaves the port. -/
def takeScheduled (s : State) (id : Nat) : State :=
  { s with scheduled := s.scheduled.eraseP fun op => op.id == id }

/-- The `do_complete` of `id` is over. -/
def takeDispatching (s : State) (id : Nat) : State :=
  { s with dispatching := s.dispatching.eraseP fun d => d.1.id == id }

/-- A `do_complete` is before its next shared access. -/
def enter (s : State) (d : CmOp × CompletePc) : State :=
  { s with dispatching := s.dispatching ++ [d] }

/-- The `do_complete` that is running goes on before its next shared access. -/
def goto (s : State) (d : CmOp × CompletePc) : State := (s.takeDispatching d.1.id).enter d

end State

/-- `do_open`: the native handles are there unless a guard or a native call fails. Neither
`connect_state_` nor `peer_closed_` is touched. -/
def doOpen (s : State) (ec : NdErrorCode) : State × NdErrorCode :=
  if s.isOpen then (s, alreadyOpen)
  else if !s.deviceRegistered then (s, .common (.rdma .deviceNotRegistered))
  else if ec.isError then (s, ec)
  else ({ s with isOpen := true }, success)

/-- `assign`. -/
def assign (s : State) (hasHandle : Bool) (ec : NdErrorCode) : State :=
  if s.isOpen ∨ !hasHandle ∨ ec.isError then s
  else { s with isOpen := true, connectState := .idle, peerClosed := false }

/-- `async_connect` up to the load of `connect_state_`. -/
def asyncConnect (s : State) (op : CmOp) (hasQp : Bool) (requestSize : Nat) (opened : NdErrorCode) :
    State :=
  let (s, openEc) := if s.isOpen then (s, .common success) else doOpen s opened
  if openEc.isError then s.reject op openEc
  else if requestSize > maxOutgoingPrivateData then
    s.reject op (.common (.rdma .privateDataTooLarge))
  else { s with initiation := .guardState op hasQp }

/-- `async_accept` and `async_move_accept` up to the load of `connect_state_`. -/
def asyncAccept (s : State) (op : CmOp) (hasQp : Bool) (bindEc : NdErrorCode) (dataSize : Nat) :
    State :=
  if bindEc.isError then s.reject op bindEc
  else if !s.deviceRegistered then s.reject op (.common (.rdma .deviceNotRegistered))
  else if !s.isOpen then s.reject op (.common (.rdma .invalidHandle))
  else if dataSize > maxOutgoingPrivateData then
    s.reject op (.common (.rdma .privateDataTooLarge))
  else { s with initiation := .guardState op hasQp }

/-- Where `start_connect_op` and `start_accept_op` go after the exchange `idle -> connecting`. -/
def InitPc.afterPublish (op : CmOp) : InitPc :=
  match op.kind with
  | .connect => .bind op
  | .accept | .wait => .native op

/-- One step of the initiating thread: the last guards, then `start_connect_op` / `start_accept_op`; or
`async_wait_disconnect`. -/
def initStep (s : State) (a : Answer) : Option State :=
  match s.initiation, a with
  | .guardState op hasQp, .run =>
    some
      (if s.connectState ≠ .idle then s.reject op (.common (.rdma .connectorTerminal))
      else if !hasQp then s.reject op (.common (.rdma .invalidHandle))
      else { s with initiation := .publish op.passGuards })
  | .publish op, .run =>
    if s.connectState = .idle then
      some { s with connectState := .connecting, initiation := .afterPublish op }
    else
      some (s.complete op operationAborted)
  | .bind op, .bound ec =>
    some (if ec.isError then s.complete op ec else { s with initiation := .native op })
  | .native op, .native hr =>
    if hr = ndPending then some { s.onPending op with initiation := .arm op }
    else if op.kind = .accept ∧ hr = ndSuccess then
      some ((s.log (.established op.id)).complete op success)
    else some (s.complete op (callError hr))
  | .arm op, .run => some { s.armNdCancellation op with initiation := .idle }
  | .waitLatch op, .run =>
    some
      (if s.peerClosed then s.reject op (.common (.rdma .disconnected))
      else { s with initiation := .waitState op })
  | .waitState op, .run =>
    some
      (if s.connectState = .closed then s.reject op (.common (.rdma .disconnected))
      else if !s.isOpen then s.reject op (.common (.rdma .invalidHandle))
      else { s with initiation := .notify op })
  | .notify op, .native hr =>
    some
      (if hr = ndPending then { (s.armNdCancellation op).onPending op with initiation := .idle }
      else s.reject op (callError hr))
  | _, _ => none

/-- The end of an overlapped call that is the success of `Accept` or of `CompleteConnect`. -/
def CmOp.establishes (op : CmOp) (r : IoResult) : Bool :=
  r == .ok && (op.kind == .accept || (op.kind == .connect && op.stage == .connected))

/-- The overlapped call of `op` has ended. -/
def overlappedEnd (s : State) (op : CmOp) (r : IoResult) : State :=
  let s := s.takePending op.id
  (if op.establishes r then s.log (.established op.id) else s).onCompletion op r.ec

/-- An overlapped call ends with `ERROR_OPERATION_ABORTED` only if it was cancelled, and otherwise with
any result. -/
def mayEnd (op : CmOp) (r : IoResult) : Bool :=
  match r with
  | .ok => true
  | .aborted => op.canceled
  | .failed lastError => lastError != 0 && lastError != errorOperationAborted

/-- One step of the `do_complete` of `op`. -/
def completeStep (s : State) (op : CmOp) (pc : CompletePc) (a : Answer) : Option State :=
  match pc, a with
  | .completeConnect, .completeConnect pd hr =>
    match op.connectCompleted pd hr with
    | (op, some .markConnected) => some ((s.log (.established op.id)).goto (op, .markConnected))
    | (op, some pc) => some (s.goto (op, pc))
    | (op, none) => some ((s.takeDispatching op.id).onPending op)
  | .storeFailed, .run => some ({ s with connectState := .closed }.goto (op, .storeClosed))
  | .markConnected, .run =>
    if s.connectState = .connecting then
      some ({ s.log (.connected op.id) with connectState := .connected }.goto (op.marked true))
    else
      some (s.goto (op.marked false))
  | .storeConnected, .run =>
    some ({ s.log (.connected op.id) with connectState := .connected }.goto (op, .invoke))
  | .storeClosed, .run => some ({ s with connectState := .closed }.goto (op, .invoke))
  | .loadPeerClosed, .run => some (s.goto (op.waitComplete s.peerClosed))
  | .storePeerClosed, .run => some ({ s with peerClosed := true }.goto (op, .invoke))
  | .invoke, .run => some ((s.takeDispatching op.id).log (.invoked op))
  | _, _ => none

/-- Where the exchange loop of `disconnect()` goes after reading `old`. -/
def casLoop (old : ConnectState) : DisconnectPc :=
  if old = .closed then .returned success else .cas old

/-- Where `disconnect()` goes after the store to `peer_closed_`. -/
def afterStore (old : ConnectState) : DisconnectPc :=
  match old with
  | .connecting | .connected => .cancelIo old
  | .idle | .closed => .returned success

/-- Where `disconnect()` goes after its `CancelIoEx`: only an established connection is torn down. -/
def afterCancel (old : ConnectState) : DisconnectPc :=
  match old with
  | .connected => .native
  | .idle | .connecting | .closed => .returned success

/-- One step of the `i`-th `disconnect()` call. -/
def disconnectStep (s : State) (i : Nat) (a : Answer) : Option State :=
  match s.callers[i]?, a with
  | some .load, .run => some { s with callers := s.callers.set i (casLoop s.connectState) }
  | some (.cas old), .run =>
    if s.connectState = old then
      some { s.log (.close old) with
        connectState := .closed, callers := s.callers.set i (.storePeerClosed old) }
    else
      some { s with callers := s.callers.set i (casLoop s.connectState) }
  | some (.cas _), .spurious =>
    some { s with callers := s.callers.set i (casLoop s.connectState) }
  | some (.storePeerClosed old), .run =>
    some { s with peerClosed := true, callers := s.callers.set i (afterStore old) }
  | some (.cancelIo old), .run =>
    some { s.cancelIoEx fun _ => true with callers := s.callers.set i (afterCancel old) }
  | some .native, .native hr =>
    some { s.log (.disconnect hr) with callers := s.callers.set i (.returned (callError hr)) }
  | _, _ => none

/-- The step system of one connector. -/
def step (s : State) : Label → Option State
  | .useDevice => some { s with deviceRegistered := true }
  | .openConnector ec => if s.initiation = .idle then some (doOpen s ec).1 else none
  | .assign hasHandle ec => if s.initiation = .idle then some (assign s hasHandle ec) else none
  | .asyncConnect id addr slot hasQp requestSize replyCap opened =>
    if s.initiation = .idle ∧ s.fresh id addr then
      some { asyncConnect s { id, addr, kind := .connect, slot, replyCap } hasQp requestSize opened with
        used := id :: s.used }
    else none
  | .asyncAccept id addr slot hasQp bindEc dataSize =>
    if s.initiation = .idle ∧ s.fresh id addr then
      some { asyncAccept s { id, addr, kind := .accept, slot } hasQp bindEc dataSize with
        used := id :: s.used }
    else none
  | .asyncWaitDisconnect id addr slot =>
    if s.initiation = .idle ∧ s.fresh id addr then
      some { s with
        initiation := .waitLatch { id, addr, kind := .wait, slot }, used := id :: s.used }
    else none
  | .initiate id a =>
    if s.initiation.op?.any fun op => op.id == id then initStep s a else none
  | .overlapped id r =>
    match s.pending.find? fun op => op.id == id with
    | some op => if mayEnd op r then some (overlappedEnd s op r) else none
    | none => none
  | .dispatch id =>
    match s.scheduled.find? fun op => op.id == id with
    | some op => some ((s.takeScheduled id).enter op.doComplete)
    | none => none
  | .complete id a =>
    match s.dispatching.find? fun d => d.1.id == id with
    | some (op, pc) => completeStep s op pc a
    | none => none
  | .disconnect =>
    some { s with
      callers := s.callers ++
        [if s.isOpen then .load else .returned (.common (.rdma .invalidHandle))] }
  | .disconnectStep i a => disconnectStep s i a
  | .emit addr =>
    if addr ∈ s.slots then some (s.cancelIoEx fun op => op.addr == addr) else none

/-- The nd connector. -/
def connector : StepSystem State Label := ⟨step⟩

end RdmaOnAsio.Nd
