import RdmaOnAsio.Lts.Basic
import RdmaOnAsio.Ibv.CmOp

/-!
# The ibv listener as a step system

One listener with its `ibv_get_connection_request_op`s, from `open` to `close_for_destruction` and the
destruction of its `io_context`. The reactor is the one of the connector: `perform_io` runs the queued
ops in order under the descriptor lock until one returns `not_done`. A `do_perform` touches its own op
and native objects that nobody else knows yet, so it is one step, with the results of the native calls
in its label.

The child `cm_id`s are numbered as they are announced, their event channels as they are created.
-/

namespace RdmaOnAsio.Ibv

open ErrorCode

namespace Listener

/-- The part of `rdma_cm_event` the listener reads; `id` is the child of a `CONNECT_REQUEST`. -/
structure ListenEvent where
  event : CmEventType
  id : Nat
  privateData : List UInt8
deriving DecidableEq, Repr

/-- `ibv_cm_block_t`, which is also `ibv_connector_handle_t`. -/
structure CmBlock where
  cmChannel : Option Nat := none
  cmId : Option Nat := none
deriving DecidableEq, Repr

/-- `rdma_ack_cm_event`, `rdma_destroy_id` and `rdma_destroy_event_channel`. -/
inductive Release
  | ack (ev : ListenEvent)
  | destroyId (id : Nat)
  | destroyChannel (channel : Nat)
deriving DecidableEq, Repr

/-- The destructor of a block: the members go in the reverse order of their declaration. -/
def CmBlock.release (b : CmBlock) : List Release :=
  (b.cmId.map .destroyId).toList ++ (b.cmChannel.map .destroyChannel).toList

/-- `max_private_data_size`. -/
def maxPrivateDataSize : Nat := 256

/-- `ibv_get_connection_request_op`. `addr` is its address, which is also the key a cancellation functor
looks for; `privateData` is the filled part of `private_data_buf_`. -/
structure GetConnectionOp where
  addr : Nat
  cancellationKey : Option Nat := none
  ec : ErrorCode := success
  connectorHandle : CmBlock := {}
  privateData : List UInt8 := []
deriving DecidableEq, Repr

/-- What `create_event_channel` returns, its code, and what it releases again: a channel that cannot be made
non-blocking is destroyed. -/
def createEventChannel (channel : Nat) (create nonblocking : NativeResult) :
    Option Nat × ErrorCode × List Release :=
  match create, nonblocking with
  | .fail errno, _ => (none, makeSystemErrorCode errno, [])
  | .ok, .fail errno => (none, makeSystemErrorCode errno, [.destroyChannel channel])
  | .ok, .ok => (some channel, success, [])

/-- `connector_handle_.cm_channel_.reset(channel)`, then `connector_handle_.cm_id_.reset(id)`: what the
block held before is released in this order. -/
def CmBlock.reset (b : CmBlock) (channel : Option Nat) (id : Nat) : CmBlock × List Release :=
  ({ cmChannel := channel, cmId := some id },
    (b.cmChannel.map .destroyChannel).toList ++ (b.cmId.map .destroyId).toList)

/-- `do_perform` once `get_cm_event` has returned an event; `channel` is the child channel it would create.
The event is acknowledged when the function returns, last of all. -/
def GetConnectionOp.onEvent (op : GetConnectionOp) (ev : ListenEvent) (channel : Nat)
    (create nonblocking migrate : NativeResult) : GetConnectionOp × List Release :=
  if ev.event ≠ .connectRequest then
    ({ op with ec := .basic .connectionAborted }, [.ack ev])
  else
    let op := { op with privateData := ev.privateData.take maxPrivateDataSize }
    match createEventChannel channel create nonblocking with
    | (childChannel, ec, destroyed) =>
      if ec.isError then
        ({ op with ec := ec }, destroyed ++ [.ack ev])
      else
        match op.connectorHandle.reset childChannel ev.id with
        | (handle, old) =>
          ({ op with ec := migrate.ec, connectorHandle := handle }, destroyed ++ old ++ [.ack ev])

/-- What `get_cm_event` finds, and the results of the native calls `do_perform` may make then. -/
inductive Answer
  | event (create nonblocking migrate : NativeResult)
  | again
  | hardError (errno : Int)
deriving DecidableEq, Repr

/-- The arguments of an upcall. -/
structure Delivery where
  ec : ErrorCode
  handle : CmBlock
  privateData : List UInt8
deriving DecidableEq, Repr

/-- The listener. `readQueue` holds the ops armed on the listening channel (without the one being
performed), `ioCleanup` the ops the running `perform_io` has retired, `scheduled` the posted completions,
`slots` the keys of the cancellation functors left in slots, `delivered` what the handlers were called with
and still hold. `stopped` is set when the `io_context` is being destroyed. `read`, `paired` and `released`
are histories: the children whose event was read, the pairs of a child and a channel that were made, and the
releases, oldest first. -/
structure State where
  isOpen : Bool := false
  stopped : Bool := false
  children : Nat := 0
  channels : Nat := 0
  channel : List ListenEvent := []
  edge : Bool := false
  readQueue : List GetConnectionOp := []
  performing : Option GetConnectionOp := none
  ioCleanup : List GetConnectionOp := []
  scheduled : List GetConnectionOp := []
  slots : List Nat := []
  delivered : List Delivery := []
  read : List Nat := []
  paired : List (Nat × Nat) := []
  released : List Release := []
deriving DecidableEq, Repr

/-- The steps of the system. -/
inductive Label
  | open (r : NativeResult)
  /-- The CM puts an event on the listening channel. -/
  | event (event : CmEventType) (privateData : List UInt8)
  | asyncGetConnectionRequest (addr : Nat) (slot : Bool)
  /-- The reactor takes the announced edge and locks the descriptor. -/
  | performIo
  | perform (a : Answer)
  /-- The scheduler runs the `i`-th posted completion. -/
  | complete (i : Nat)
  /-- The `i`-th handle that was delivered is destroyed, by the handler or by a connector it was
  assigned to. -/
  | drop (i : Nat)
  /-- A cancellation signal is emitted into the functor with this key. -/
  | emit (key : Nat)
  | cancel
  | closeForDestruction
  /-- The destructor of the `io_context` shuts the services down. -/
  | shutdown
  /-- The scheduler destroys the `i`-th posted op. -/
  | destroyOp (i : Nat)
deriving DecidableEq, Repr

/-- `ibv_connector_handle_t` as a pair of a child and its channel. -/
def CmBlock.pair? (b : CmBlock) : Option (Nat × Nat) :=
  match b.cmId, b.cmChannel with
  | some id, some channel => some (id, channel)
  | _, _ => none

namespace State

/-- The ops that exist. -/
def ops (s : State) : List GetConnectionOp :=
  s.performing.toList ++ s.readQueue ++ s.ioCleanup ++ s.scheduled

/-- The connector handles that exist: in the ops, and with the handlers. -/
def handles (s : State) : List CmBlock :=
  s.ops.map GetConnectionOp.connectorHandle ++ s.delivered.map Delivery.handle

/-- `addr` is not the address of an op that still exists. -/
def freshAddr (s : State) (addr : Nat) : Bool := s.ops.all fun op => op.addr != addr

/-- The next op of the `perform_io` loop, or the end of the loop: the retired ops are posted. -/
def nextOp (s : State) : State :=
  match s.readQueue with
  | [] => { s with performing := none, ioCleanup := [], scheduled := s.scheduled ++ s.ioCleanup }
  | op :: rest => { s with performing := some op, readQueue := rest }

/-- `do_perform` has returned `done`. -/
def retire (s : State) (op : GetConnectionOp) : State :=
  { s with ioCleanup := s.ioCleanup ++ [op] }.nextOp

/-- `do_perform` has returned `not_done`: the op goes back to the front of the queue. -/
def stay (s : State) (op : GetConnectionOp) : State :=
  { s with
    performing := none, readQueue := op :: s.readQueue, ioCleanup := [],
    scheduled := s.scheduled ++ s.ioCleanup }

/-- `do_perform` has read an event. -/
def onEvent (s : State) (op : GetConnectionOp) (ev : ListenEvent)
    (create nonblocking migrate : NativeResult) : State :=
  match op.onEvent ev s.channels create nonblocking migrate with
  | (op, released) =>
    { s with
      channels := s.channels + 1
      read := if ev.event = CmEventType.connectRequest then s.read ++ [ev.id] else s.read
      paired :=
        if ev.event = CmEventType.connectRequest then s.paired ++ op.connectorHandle.pair?.toList
        else s.paired
      released := s.released ++ released }.retire op

/-- `cancel_ops` / `deregister_descriptor`: every queued op is posted with `operation_aborted`. -/
def cancelOps (s : State) : State :=
  { s with
    readQueue := []
    scheduled := s.scheduled ++ s.readQueue.map fun op => { op with ec := operationAborted } }

/-- `cancel_ops_by_key`. -/
def cancelOpsByKey (s : State) (key : Nat) : State :=
  { s with
    readQueue := s.readQueue.filter fun op => op.cancellationKey != some key
    scheduled :=
      s.scheduled ++ (s.readQueue.filter fun op => op.cancellationKey == some key).map
        fun op => { op with ec := operationAborted } }

/-- `start_op`: on an empty queue the descriptor is re-armed, which announces unread events. -/
def startOp (s : State) (op : GetConnectionOp) : State :=
  { s with
    readQueue := s.readQueue ++ [op]
    edge := s.edge || (s.readQueue.isEmpty && !s.channel.isEmpty) }

/-- `arm_cm_cancellation` for an op about to be started. -/
def armCmCancellation (s : State) (op : GetConnectionOp) : State :=
  match op.cancellationKey with
  | some key => { s with slots := key :: s.slots }
  | none => s

/-- `close_for_destruction`: unread events go with the listening channel. -/
def closeForDestruction (s : State) : State :=
  { s.cancelOps with isOpen := false, channel := [], edge := false }

/-- `async_get_connection_request`. The functor is in the slot before the op is queued; here both are one step,
so that no emit comes in between. -/
def asyncGetConnectionRequest (s : State) (addr : Nat) (slot : Bool) : State :=
  if s.isOpen then
    let op := { addr, cancellationKey := if slot then some addr else none }
    (s.armCmCancellation op).startOp op
  else
    { s with scheduled := s.scheduled ++ [{ addr, ec := .rdma .invalidHandle }] }

/-- `do_complete` with the `io_context` running: the handle is moved out of the op and into the handler. -/
def completeOp (s : State) (op : GetConnectionOp) : State :=
  { s with delivered := s.delivered ++ [⟨op.ec, op.connectorHandle, op.privateData⟩] }

end State

/-- One step of the `do_perform` that `perform_io` is running. -/
def performStep (s : State) (a : Answer) : Option State :=
  match s.performing, a with
  | some op, .event create nonblocking migrate =>
    match s.channel with
    | [] => none
    | ev :: rest =>
      some ({ s with channel := rest }.onEvent { op with ec := success } ev create nonblocking migrate)
  | some op, .again => if s.channel = [] then some (s.stay { op with ec := success }) else none
  | some op, .hardError errno =>
    if errno ≠ 0 ∧ errno ≠ eagain then some (s.retire { op with ec := makeSystemErrorCode errno })
    else none
  | none, _ => none

/-- The step system of one listener. -/
def step (s : State) : Label → Option State
  | .open r =>
    if s.isOpen ∨ s.stopped then none
    else some { s with isOpen := r == .ok }
  | .event event privateData =>
    if s.isOpen then
      some { s with
        channel := s.channel ++ [⟨event, s.children, privateData⟩], children := s.children + 1
        edge := true }
    else none
  | .asyncGetConnectionRequest addr slot =>
    if s.freshAddr addr ∧ ¬ s.stopped ∧ s.performing = none then
      some (s.asyncGetConnectionRequest addr slot)
    else none
  | .performIo =>
    if s.edge ∧ s.performing = none then some { s with edge := false }.nextOp else none
  | .perform a => performStep s a
  | .complete i =>
    match s.scheduled[i]? with
    | some op =>
      if s.stopped then none else some ({ s with scheduled := s.scheduled.eraseIdx i }.completeOp op)
    | none => none
  | .drop i =>
    match s.delivered[i]? with
    | some d =>
      some { s with
        delivered := s.delivered.eraseIdx i, released := s.released ++ d.handle.release }
    | none => none
  | .emit key =>
    if key ∈ s.slots ∧ s.performing = none ∧ ¬ s.stopped then some (s.cancelOpsByKey key) else none
  | .cancel => if s.performing = none ∧ ¬ s.stopped then some s.cancelOps else none
  | .closeForDestruction =>
    if s.performing = none ∧ ¬ s.stopped then some s.closeForDestruction else none
  | .shutdown =>
    if s.performing = none ∧ ¬ s.stopped then some { s.closeForDestruction with stopped := true }
    else none
  | .destroyOp i =>
    match s.scheduled[i]? with
    | some op =>
      if s.stopped then
        some { s with
          scheduled := s.scheduled.eraseIdx i, released := s.released ++ op.connectorHandle.release }
      else none
    | none => none

/-- The ibv listener. -/
def listener : StepSystem State Label := ⟨step⟩

end Listener

end RdmaOnAsio.Ibv
