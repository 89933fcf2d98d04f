import RdmaOnAsio.Error

/-!
# Control-plane reactor operations

The three ops a connector arms on its CM event channel (`ibv_connect_op`, `ibv_accept_op`,
`ibv_wait_disconnect_op`) and what their `do_perform` does with one CM event.

`do_perform` is cut at its shared accesses: between two of them (an exchange on `connect_state_`, a
native call, the store to `peer_closed_`) the code only touches the op, which the reactor owns. A
`PerformPc` is the next shared access, and each function below runs the op's own code up to it.
-/

namespace RdmaOnAsio.Ibv

open ErrorCode

/-- `connect_state`. -/
inductive ConnectState
  | idle
  | addrResolve
  | addrRoute
  | connecting
  | connected
  | closed
deriving DecidableEq, Repr

/-- The declared order of `connect_state`. -/
def ConnectState.rank : ConnectState → Nat
  | .idle => 0
  | .addrResolve => 1
  | .addrRoute => 2
  | .connecting => 3
  | .connected => 4
  | .closed => 5

/-- The states in which a connect or accept op is waiting for the CM. -/
def ConnectState.inFlight : ConnectState → Bool
  | .addrResolve | .addrRoute | .connecting => true
  | .idle | .connected | .closed => false

/-- `rdma_cm_event_type`. -/
inductive CmEventType
  | addrResolved
  | addrError
  | routeResolved
  | routeError
  | connectRequest
  | connectResponse
  | connectError
  | unreachable
  | rejected
  | established
  | disconnected
  | deviceRemoval
  | multicastJoin
  | multicastError
  | addrChange
  | timewaitExit
deriving DecidableEq, Repr

/-- The part of `rdma_cm_event` the ops read. -/
structure CmEvent where
  event : CmEventType
  status : Int
  privateData : List UInt8
deriving DecidableEq, Repr

/-- `ibv_connect_op_base::stage_t`. -/
inductive Stage
  | addrResolve
  | addrRoute
  | connect
  | done
  | error
deriving DecidableEq, Repr

/-- Which of the three reactor ops. -/
inductive OpKind
  | connect
  | accept
  | wait
deriving DecidableEq, Repr

/-- A control-plane op. `addr` is its address, which is also the key a cancellation functor looks for;
`cancellationKey` is `none` when the handler's slot was not connected. `admitted` records that the
initiation guards let the op through. The stage, the create-qp callback and the reply buffer are used
by the connect op only (the callback by the accept initiation as well). -/
structure CmOp where
  addr : Nat
  kind : OpKind
  cancellationKey : Option Nat := none
  ec : ErrorCode := success
  admitted : Bool := false
  stage : Stage := .addrResolve
  hasCreateQp : Bool := false
  replyCap : Nat := 0
  reply : List UInt8 := []
deriving DecidableEq, Repr

/-- `reactor_op::status`. -/
inductive Status
  | notDone
  | done
deriving DecidableEq, Repr

/-- The next shared access of a `do_perform`. -/
inductive PerformPc
  | getCmEvent
  | advance (expected desired : ConnectState)
  | createQp
  | resolveRoute
  | connect
  | established (ev : CmEvent)
  | modifyQp
  | disconnect
  | claimLoad
  | claimCas (e : ConnectState)
  | storePeerClosed
deriving DecidableEq, Repr

/-- How a piece of `do_perform` ends: before a shared access, or by returning. -/
inductive Outcome
  | goto (pc : PerformPc)
  | ret (st : Status)
deriving DecidableEq, Repr

/-- A native call that returns zero, or fails and sets `errno`. -/
inductive NativeResult
  | ok
  | fail (errno : Int)
deriving DecidableEq, Repr

/-- What a wrapper of `ibv_ops_cm` leaves in its `error_code&`. -/
def NativeResult.ec : NativeResult → ErrorCode
  | .ok => success
  | .fail errno => makeSystemErrorCode errno

namespace CmOp

/-- The `ibv_connect_op` an initiation allocates; `slot` says whether a cancellation slot is
connected. -/
def newConnect (addr : Nat) (slot hasCreateQp : Bool) (replyCap : Nat) : CmOp :=
  { addr, kind := .connect, hasCreateQp, replyCap
    cancellationKey := if slot then some addr else none }

/-- The `ibv_accept_op` an initiation allocates. -/
def newAccept (addr : Nat) (slot hasCreateQp : Bool) : CmOp :=
  { addr, kind := .accept, hasCreateQp, cancellationKey := if slot then some addr else none }

/-- The `ibv_wait_disconnect_op` an initiation allocates. -/
def newWait (addr : Nat) (slot : Bool) : CmOp :=
  { addr, kind := .wait, cancellationKey := if slot then some addr else none }

/-- Connect and accept ops drive `connect_state_`; the disconnect watcher does not. -/
def isConn (op : CmOp) : Bool := op.kind != .wait

/-- `ec_ = asio::error::operation_aborted`. -/
def abort (op : CmOp) : CmOp := { op with ec := operationAborted }

/-- `ibv_connect_op_base::aborted_by_disconnect`. -/
def abortedByDisconnect (op : CmOp) : CmOp × Outcome := (op.abort, .ret .done)

/-- The common error exit `ec_ = e; if (!claim_closed()) ec_ = operation_aborted; return done`, up to
the first access of `claim_closed`. -/
def failWith (op : CmOp) (e : ErrorCode) : CmOp × Outcome := ({ op with ec := e }, .goto .claimLoad)

/-- `make_system_error_code(event->status ? -event->status : EHOSTUNREACH)`. -/
def eventError (ev : CmEvent) : ErrorCode :=
  makeSystemErrorCode (if ev.status ≠ 0 then -ev.status else ehostunreach)

/-- `ibv_connect_op_base::do_process_addr_resolve`. -/
def doProcessAddrResolve (op : CmOp) (ev : CmEvent) : CmOp × Outcome :=
  match ev.event with
  | .addrResolved => (op, .goto (.advance .addrResolve .addrRoute))
  | .addrError => op.failWith (eventError ev)
  | _ => op.failWith (.basic .connectionAborted)

/-- `ibv_connect_op_base::do_process_addr_route`. -/
def doProcessAddrRoute (op : CmOp) (ev : CmEvent) : CmOp × Outcome :=
  match ev.event with
  | .routeResolved => (op, .goto (.advance .addrRoute .connecting))
  | .routeError => op.failWith (eventError ev)
  | _ => op.failWith (.basic .connectionAborted)

/-- `ibv_connect_op_base::do_process_connect`. -/
def doProcessConnect (op : CmOp) (ev : CmEvent) : CmOp × Outcome :=
  match ev.event with
  | .established => (op, .goto (.established ev))
  | .connectError => op.failWith (.basic .connectionAborted)
  | .unreachable => op.failWith (.basic .hostUnreachable)
  | .rejected => op.failWith (.basic .connectionRefused)
  | _ => op.failWith (.basic .connectionAborted)

/-- `ibv_connect_op_base::do_process`. -/
def doProcess (op : CmOp) (ev : CmEvent) : CmOp × Outcome :=
  match op.stage with
  | .addrResolve => op.doProcessAddrResolve ev
  | .addrRoute => op.doProcessAddrRoute ev
  | .connect => op.doProcessConnect ev
  | .done | .error => ({ op with ec := .rdma .invalidDevice }, .ret .done)

/-- The event switch of `ibv_accept_op::do_perform`. -/
def acceptEvent (op : CmOp) (ev : CmEvent) : CmOp × Outcome :=
  match ev.event with
  | .established => (op, .goto (.established ev))
  | .rejected => op.failWith (.basic .connectionRefused)
  | .connectError => op.failWith (.basic .connectionAborted)
  | _ => op.failWith (.basic .connectionAborted)

/-- The event switch of `ibv_wait_disconnect_op_base::do_perform`. The op's code is set after the
store to `peer_closed_`, which is the only access left, so it is set here. -/
def waitEvent (op : CmOp) (ev : CmEvent) : CmOp × Outcome :=
  match ev.event with
  | .disconnected => ({ op with ec := .rdma .disconnected }, .goto .storePeerClosed)
  | .deviceRemoval => ({ op with ec := .rdma .deviceRemoved }, .goto .storePeerClosed)
  | _ => (op, .ret .notDone)

/-- The rest of `do_perform` once `get_cm_event` has returned an event (and cleared `ec_`). -/
def onEvent (op : CmOp) (ev : CmEvent) : CmOp × Outcome :=
  match op.kind with
  | .connect => ({ op with ec := success } : CmOp).doProcess ev
  | .accept => ({ op with ec := success } : CmOp).acceptEvent ev
  | .wait => ({ op with ec := success } : CmOp).waitEvent ev

/-- `get_cm_event` found no event (`EAGAIN`): the code is cleared and the op stays armed. -/
def onAgain (op : CmOp) : CmOp × Outcome := ({ op with ec := success }, .ret .notDone)

/-- `get_cm_event` failed hard. -/
def onHardError (op : CmOp) (errno : Int) : CmOp × Outcome :=
  ({ op with ec := makeSystemErrorCode errno }, .ret .done)

/-- After a successful `advance(_, desired)`: create the QP and resolve the route, or connect. -/
def advanced (op : CmOp) (desired : ConnectState) : CmOp × Outcome :=
  if desired = .addrRoute then
    (op, .goto (if op.hasCreateQp then .createQp else .resolveRoute))
  else
    (op, .goto .connect)

/-- After `ec_ = create_qp_(cm_id_)`. -/
def createdQp (op : CmOp) (ec : ErrorCode) : CmOp × Outcome :=
  if ec.isError then op.failWith ec else ({ op with ec := ec }, .goto .resolveRoute)

/-- After `resolve_route`. -/
def resolvedRoute (op : CmOp) (r : NativeResult) : CmOp × Outcome :=
  match r with
  | .ok => ({ op with ec := r.ec, stage := .addrRoute }, .ret .notDone)
  | .fail _ => op.failWith r.ec

/-- After `connect`. -/
def connectIssued (op : CmOp) (r : NativeResult) : CmOp × Outcome :=
  match r with
  | .ok => ({ op with ec := r.ec, stage := .connect }, .ret .notDone)
  | .fail _ => op.failWith r.ec

/-- The reply private data a connect op that won the exchange copies to the caller's buffer; its
length is the `reply_len_` of the completion. -/
def takeReply (op : CmOp) (ev : CmEvent) : CmOp :=
  if op.kind = .connect then { op with reply := ev.privateData.take op.replyCap } else op

/-- After the exchange `connecting -> connected` on `ESTABLISHED`. -/
def arbitrated (op : CmOp) (ev : CmEvent) (won : Bool) : CmOp × Outcome :=
  if won then (op.takeReply ev, .goto .modifyQp) else (op, .goto .disconnect)

/-- After `ec_ = verbs_ops::modify_qp(..)`. -/
def modifiedQp (op : CmOp) (rc : Int) : CmOp × Outcome :=
  ({ op with ec := if rc ≠ 0 then makeSystemErrorCode rc else success }, .ret .done)

/-- After the second actor's `detail::disconnect`. -/
def tornDown (op : CmOp) : CmOp × Outcome := (op.abort, .ret .done)

/-- `claim_closed` has read `e`: it gives up on `closed` and tries the weak exchange otherwise. -/
def claimRead (op : CmOp) (e : ConnectState) : CmOp × Outcome :=
  if e = .closed then (op.abort, .ret .done) else (op, .goto (.claimCas e))

end CmOp

end RdmaOnAsio.Ibv
