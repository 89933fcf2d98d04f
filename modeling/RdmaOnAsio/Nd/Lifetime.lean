import RdmaOnAsio.Nd.Connector

/-!
# The lifetimes of nd connector implementations

Any number of connector implementations, their `IND2Connector`s and the ops they have started. An op keeps the
address of the implementation it was initiated on (its `state_` or `peer_closed_` points in there), and a pointer
to the `IND2Connector` that does not own it. Closing the overlapped file of an implementation cancels the calls
in flight on it; their completions come later, through the port.

A call of the user (a constructor, an initiation, a move, a destructor, `disconnect()`) is one step. `do_complete`
is cut at its shared accesses, since nothing keeps other threads away between them.
-/

namespace RdmaOnAsio.Nd

open ErrorCode

namespace Lifetime

/-- `nd_connector_service::implementation_type`; `connector` stands for the `IND2Connector` and its overlapped
file. -/
structure Impl where
  connector : Option Nat := none
  connectState : ConnectState := .idle
  peerClosed : Bool := false
deriving DecidableEq, Repr

/-- An op with the pointers it has captured: into the implementation at `impl`, and to its `IND2Connector`. -/
structure BoundOp where
  op : CmOp
  impl : Nat
  connector : Option Nat
deriving DecidableEq, Repr

/-- The implementations by address, with nothing where one was destroyed; the ops with a call in flight, those
whose completion waits at the port, and those whose `do_complete` runs. `dangling` is set once a pointer has been
followed that does not lead to the owner of the op's connector, or to a connector that was released; nothing is
said about what happens then. -/
structure State where
  deviceRegistered : Bool := false
  impls : List (Option Impl) := []
  connectors : Nat := 0
  pending : List BoundOp := []
  scheduled : List BoundOp := []
  dispatching : List (BoundOp × CompletePc) := []
  dangling : Bool := false
deriving DecidableEq, Repr

/-- An access of `do_complete` to the implementation, and how it goes on. -/
def access (m : Impl) (op : CmOp) (pc : CompletePc) (a : Answer) : Option (Impl × CmOp × CompletePc) :=
  match pc, a with
  | .storeFailed, .run => some ({ m with connectState := .closed }, op, .storeClosed)
  | .markConnected, .run =>
    if m.connectState = .connecting then some ({ m with connectState := .connected }, op.marked true)
    else some (m, op.marked false)
  | .storeConnected, .run => some ({ m with connectState := .connected }, op, .invoke)
  | .storeClosed, .run => some ({ m with connectState := .closed }, op, .invoke)
  | .loadPeerClosed, .run => some (m, op.waitComplete m.peerClosed)
  | .storePeerClosed, .run => some ({ m with peerClosed := true }, op, .invoke)
  | _, _ => none

namespace State

/-- The implementation at an address. -/
def impl (s : State) (i : Nat) : Option Impl := (s.impls[i]?).join

/-- A pointer into the implementation at `impl` leads to the owner of `connector`; an op that was initiated
without a connector needs the implementation only. -/
def valid (s : State) (impl : Nat) (connector : Option Nat) : Bool :=
  (s.impl impl).any fun m => connector.isNone || m.connector == connector

/-- The `IND2Connector` is owned by an implementation. -/
def owned (s : State) (connector : Option Nat) : Bool :=
  connector.isSome && s.impls.any fun m => m.any fun m => m.connector == connector

def setImpl (s : State) (i : Nat) (m : Option Impl) : State := { s with impls := s.impls.set i m }

/-- `on_completion`. -/
def onCompletion (s : State) (b : BoundOp) (ec : NdErrorCode) : State :=
  { s with scheduled := s.scheduled ++ [{ b with op := b.op.completeWith ec }] }

/-- `on_pending`. -/
def onPending (s : State) (b : BoundOp) : State := { s with pending := s.pending ++ [b] }

/-- `CancelIoEx`, or the close of the overlapped file of `connector`. -/
def cancelIoEx (s : State) (connector : Option Nat) : State :=
  { s with
    pending := s.pending.map fun b =>
      if connector.isSome ∧ b.connector = connector then { b with op := { b.op with canceled := true } } else b }

/-- A new `IND2Connector` on an overlapped file of its own: `open`, or `assign` of a handle; only `assign`
resets the flags. -/
def opened (s : State) (i : Nat) (m : Impl) : State :=
  { s.setImpl i (some { m with connector := some s.connectors }) with connectors := s.connectors + 1 }

/-- The members of a moved implementation go over, and leave the source without a connector. -/
def leave (s : State) (j : Nat) (m : Impl) : State := s.setImpl j (some { m with connector := none })

end State

/-- The steps of the system. -/
inductive Label
  | useDevice
  | construct
  /-- `open` of a connector that is not open. -/
  | openConnector (i : Nat)
  /-- `assign` to a connector that is not open. -/
  | assign (i : Nat)
  /-- `async_connect`; `opened` is the result of the auto-open, `bound` that of finding and binding the local
  address, `hr` what `Connect` returns. -/
  | asyncConnect (i id : Nat) (hasQp : Bool) (requestSize replyCap : Nat) (opened bound : NdErrorCode) (hr : Int)
  /-- `async_accept`, or `async_move_accept` with its `bind_ec`. -/
  | asyncAccept (i id : Nat) (hasQp : Bool) (bindEc : NdErrorCode) (dataSize : Nat) (hr : Int)
  | asyncWaitDisconnect (i id : Nat) (hr : Int)
  | disconnect (i : Nat)
  /-- A signal cancels the call of the `k`-th pending op. -/
  | cancel (k : Nat)
  /-- The call of the `k`-th pending op ends. -/
  | overlapped (k : Nat) (r : IoResult)
  /-- A thread takes the `k`-th completion from the port. -/
  | dispatch (k : Nat)
  /-- The next step of the `k`-th `do_complete` that runs. -/
  | complete (k : Nat) (a : Answer)
  | moveConstruct (j : Nat)
  | moveAssign (i j : Nat)
  | destroy (i : Nat)
deriving DecidableEq, Repr

/-- The auto-open of `async_connect`: the implementation it goes on with, and the code. -/
def autoOpen (s : State) (i : Nat) (m : Impl) (opened : NdErrorCode) : State × Impl × NdErrorCode :=
  if m.connector.isSome then (s, m, success)
  else if !s.deviceRegistered then (s, m, .common (.rdma .deviceNotRegistered))
  else if opened.isError then (s, m, opened)
  else (s.opened i m, { m with connector := some s.connectors }, success)

/-- `start_connect_op` and `start_accept_op` from the exchange on, with the op that the guards let through. -/
def start (s : State) (m : Impl) (b : BoundOp) (bound : NdErrorCode) (hr : Int) : State :=
  let s := s.setImpl b.impl (some { m with connectState := .connecting })
  let b := { b with op := b.op.passGuards }
  if bound.isError then s.onCompletion b bound
  else if hr = ndPending then s.onPending b
  else s.onCompletion b (callError hr)

/-- `async_connect`. -/
def asyncConnect (s : State) (m : Impl) (b : BoundOp) (hasQp : Bool) (requestSize : Nat)
    (opened bound : NdErrorCode) (hr : Int) : State :=
  let (s, m, openEc) := autoOpen s b.impl m opened
  let b := { b with connector := m.connector }
  if openEc.isError then s.onCompletion b openEc
  else if requestSize > maxOutgoingPrivateData then s.onCompletion b (.common (.rdma .privateDataTooLarge))
  else if m.connectState ≠ .idle then s.onCompletion b (.common (.rdma .connectorTerminal))
  else if !hasQp then s.onCompletion b (.common (.rdma .invalidHandle))
  else start s m b bound hr

/-- `async_accept` and `async_move_accept`. -/
def asyncAccept (s : State) (m : Impl) (b : BoundOp) (hasQp : Bool) (bindEc : NdErrorCode) (dataSize : Nat)
    (hr : Int) : State :=
  if bindEc.isError then s.onCompletion b bindEc
  else if !s.deviceRegistered then s.onCompletion b (.common (.rdma .deviceNotRegistered))
  else if m.connector.isNone then s.onCompletion b (.common (.rdma .invalidHandle))
  else if dataSize > maxOutgoingPrivateData then s.onCompletion b (.common (.rdma .privateDataTooLarge))
  else if m.connectState ≠ .idle then s.onCompletion b (.common (.rdma .connectorTerminal))
  else if !hasQp then s.onCompletion b (.common (.rdma .invalidHandle))
  else start s m b success hr

/-- `async_wait_disconnect`. -/
def asyncWaitDisconnect (s : State) (m : Impl) (b : BoundOp) (hr : Int) : State :=
  if m.peerClosed ∨ m.connectState = .closed then s.onCompletion b (.common (.rdma .disconnected))
  else if m.connector.isNone then s.onCompletion b (.common (.rdma .invalidHandle))
  else if hr = ndPending then s.onPending b
  else s.onCompletion b (callError hr)

/-- `disconnect()`. -/
def disconnect (s : State) (i : Nat) (m : Impl) : State :=
  if m.connector.isNone ∨ m.connectState = .closed then s
  else
    let s' := s.setImpl i (some { m with connectState := .closed, peerClosed := true })
    match m.connectState with
    | .connecting | .connected => s'.cancelIoEx m.connector
    | .idle | .closed => s'

/-- The next step of the `do_complete` that is the `k`-th to run. -/
def completeStep (s : State) (k : Nat) (b : BoundOp) (pc : CompletePc) (a : Answer) : Option State :=
  match pc, a with
  | .invoke, .run => some { s with dispatching := s.dispatching.eraseIdx k }
  | .invoke, _ => none
  | .completeConnect, .completeConnect pd hr =>
    if s.owned b.connector then
      match b.op.connectCompleted pd hr with
      | (op, some pc) => some { s with dispatching := s.dispatching.set k ({ b with op := op }, pc) }
      | (op, none) =>
        some ({ s with dispatching := s.dispatching.eraseIdx k }.onPending { b with op := op })
    else some { s with dangling := true }
  | .completeConnect, _ => none
  | _, _ =>
    if s.valid b.impl b.connector then
      match s.impl b.impl with
      | none => none
      | some m =>
        match access m b.op pc a with
        | some (m, op, pc) =>
          some { s.setImpl b.impl (some m) with dispatching := s.dispatching.set k ({ b with op := op }, pc) }
        | none => none
    else some { s with dangling := true }

/-- The step system of the lifetimes. Nothing happens after a pointer has dangled. -/
def step (s : State) (l : Label) : Option State :=
  if s.dangling then none
  else
    match l with
    | .useDevice => some { s with deviceRegistered := true }
    | .construct => some { s with impls := s.impls ++ [some {}] }
    | .openConnector i =>
      match s.impl i with
      | some m => if m.connector = none ∧ s.deviceRegistered then some (s.opened i m) else none
      | none => none
    | .assign i =>
      match s.impl i with
      | some m => if m.connector = none then some (s.opened i {}) else none
      | none => none
    | .asyncConnect i id hasQp requestSize replyCap opened bound hr =>
      (s.impl i).map fun m =>
        asyncConnect s m ⟨{ id, addr := id, kind := .connect, replyCap }, i, m.connector⟩ hasQp requestSize
          opened bound hr
    | .asyncAccept i id hasQp bindEc dataSize hr =>
      (s.impl i).map fun m =>
        asyncAccept s m ⟨{ id, addr := id, kind := .accept }, i, m.connector⟩ hasQp bindEc dataSize hr
    | .asyncWaitDisconnect i id hr =>
      (s.impl i).map fun m =>
        asyncWaitDisconnect s m ⟨{ id, addr := id, kind := .wait }, i, m.connector⟩ hr
    | .disconnect i => (s.impl i).map fun m => disconnect s i m
    | .cancel k =>
      some { s with pending := s.pending.modify k fun b => { b with op := { b.op with canceled := true } } }
    | .overlapped k r =>
      match s.pending[k]? with
      | some b =>
        if mayEnd b.op r then some ({ s with pending := s.pending.eraseIdx k }.onCompletion b r.ec) else none
      | none => none
    | .dispatch k =>
      match s.scheduled[k]? with
      | some b =>
        some { s with
          scheduled := s.scheduled.eraseIdx k
          dispatching := s.dispatching ++ [({ b with op := b.op.doComplete.1 }, b.op.doComplete.2)] }
      | none => none
    | .complete k a =>
      match s.dispatching[k]? with
      | some (b, pc) => completeStep s k b pc a
      | none => none
    | .moveConstruct j =>
      (s.impl j).map fun m => { s.leave j m with impls := (s.leave j m).impls ++ [some m] }
    | .moveAssign i j =>
      match s.impl i, s.impl j with
      | some mi, some m =>
        if i = j then some s else some (((s.cancelIoEx mi.connector).setImpl i (some m)).leave j m)
      | _, _ => none
    | .destroy i => (s.impl i).map fun m => (s.cancelIoEx m.connector).setImpl i none

end Lifetime

/-- Any number of connector implementations. -/
def lifetimes : StepSystem Lifetime.State Lifetime.Label := ⟨Lifetime.step⟩

end RdmaOnAsio.Nd
