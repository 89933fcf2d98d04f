import RdmaOnAsio.Lts.Basic
import RdmaOnAsio.Ibv.CmOp

/-!
# The ibv connector as a step system

One connector with one `cm_id`, from `open` / `assign` to `close_for_destruction`. The actors are the
thread that initiates operations, any number of `disconnect()` callers, the reactor running
`perform_io` on the CM event channel, the scheduler running completions, cancellation signals, the CM
that puts events on the channel, and the final destruction. Every access to `connect_state_` or
`peer_closed_`, every native call and every reactor call is a step of its own; native results and the
interleaving are chosen by the labels.

The reactor is asio's: `perform_io` runs the queued ops in order under the descriptor lock until one
returns `not_done`, an edge is announced when an event is appended, `start_op` on an empty queue
announces one when events are unread, and `cancel_ops`, `cancel_ops_by_key` and
`deregister_descriptor` post what they take off the queue with `operation_aborted`.
-/

namespace RdmaOnAsio.Ibv

open ErrorCode

/-- `max_outgoing_private_data`. -/
def maxOutgoingPrivateData : Nat := 255

/-- What stays fixed over a connector's life: whether `use_device` registered a device on its
`io_context`, and asio's choice of category (see `ErrorCode.isAborted`). -/
structure Config where
  deviceRegistered : Bool := true
  aliased : Bool := false
deriving DecidableEq, Repr

/-- Who performs an action on the connection. -/
inductive Actor
  | op
  | caller (i : Nat)
  | initiation
  | completion
  | drain
deriving DecidableEq, Repr

/-- Who took an event off the channel. -/
inductive Reader
  | op (kind : OpKind)
  | drain
deriving DecidableEq, Repr

/-- The recorded actions of a run: forward exchanges on `connect_state_`, writes of `closed`, native
calls with their results, events delivered to and read from the channel, handler invocations. -/
inductive Action
  | cas (who : OpKind) (desired : ConnectState)
  | close (who : Actor)
  | resolveAddr (r : NativeResult)
  | createQp (who : OpKind)
  | resolveRoute (r : NativeResult)
  | connect (r : NativeResult)
  | accept (r : NativeResult)
  | rdmaDisconnect (who : Actor)
  | delivered (ev : CmEvent)
  | read (who : Reader) (ev : CmEvent)
  | invoked (op : CmOp) (state : ConnectState)
deriving DecidableEq, Repr

/-- Where the initiating thread is in `async_connect`, `async_accept`, `async_move_accept` or
`async_wait_disconnect`. -/
inductive InitPc
  | idle
  | guardState (op : CmOp)
  | resolveAddr (op : CmOp)
  | publish (op : CmOp)
  | createQp (op : CmOp)
  | accept (op : CmOp)
  | storeClosed (op : CmOp)
  | startOp (op : CmOp)
  | post (op : CmOp)
  | waitLatch (op : CmOp)
  | waitState (op : CmOp)
deriving DecidableEq, Repr

/-- Where one `disconnect()` call is; `cancelOps` and `native` remember the state its exchange found. -/
inductive DisconnectPc
  | load
  | cas (old : ConnectState)
  | cancelOps (old : ConnectState)
  | native
  | returned
deriving DecidableEq, Repr

/-- `perform_io` holds the descriptor lock while it performs `op`, the front of the queue. -/
inductive Reactor
  | unlocked
  | performing (op : CmOp) (pc : PerformPc)
deriving DecidableEq, Repr

/-- The op `perform_io` has taken off the front of the queue. -/
def Reactor.ops : Reactor → List CmOp
  | .unlocked => []
  | .performing op _ => [op]

/-- `close_for_destruction` deregisters the descriptor, drains the channel, and frees everything. -/
inductive Lifetime
  | alive
  | draining
  | destroyed
deriving DecidableEq, Repr

/-- The connector. `readQueue` holds the ops armed on the channel's fd (without the one being
performed), `ioCleanup` the ops the running `perform_io` has retired, `scheduled` the posted
completions, `slots` the keys of the cancellation functors left in slots. `edge` says that an edge is
announced and not yet taken; `backlog` counts the unread events that were in the channel when the last
edge was taken. `trace` is the history, newest first. -/
structure State where
  connectState : ConnectState := .idle
  peerClosed : Bool := false
  channel : List CmEvent := []
  edge : Bool := false
  backlog : Nat := 0
  readQueue : List CmOp := []
  reactor : Reactor := .unlocked
  ioCleanup : List CmOp := []
  scheduled : List CmOp := []
  slots : List Nat := []
  initiation : InitPc := .idle
  callers : List DisconnectPc := []
  lifetime : Lifetime := .alive
  trace : List Action := []
deriving DecidableEq, Repr

/-- What a step of a thread inside the library depends on besides the shared state. -/
inductive Answer
  | run
  | spurious
  | event
  | again
  | hardError (errno : Int)
  | created (ec : ErrorCode)
  | native (r : NativeResult)
  | modified (rc : Int)
deriving DecidableEq, Repr

/-- The steps of the system. -/
inductive Label
  /-- The CM puts an event on the channel. -/
  | event (ev : CmEvent)
  | asyncConnect (addr : Nat) (slot hasCreateQp : Bool) (requestSize replyCap : Nat)
  /-- `async_accept`, and `async_move_accept` when `bindFails` is its `bind_ec`: the only code the
  `bind` of a fresh queue pair reports is `device_not_registered`. -/
  | asyncAccept (addr : Nat) (slot hasCreateQp bindFails : Bool) (dataSize : Nat)
  | asyncWaitDisconnect (addr : Nat) (slot : Bool)
  /-- The next step of the initiating thread. -/
  | initiate (a : Answer)
  /-- The reactor takes the announced edge and locks the descriptor. -/
  | performIo
  /-- The next step of the running `do_perform`. -/
  | perform (a : Answer)
  /-- The scheduler runs the `i`-th posted completion. -/
  | complete (i : Nat)
  /-- A thread enters `disconnect()`. -/
  | disconnect
  /-- The next step of the `i`-th `disconnect()` call. -/
  | disconnectStep (i : Nat) (a : Answer)
  /-- A cancellation signal is emitted into the functor with this key. -/
  | emit (key : Nat)
  | closeForDestruction
  | drain (a : Answer)
deriving DecidableEq, Repr

namespace State

/-- Adds an action to the history. -/
def log (s : State) (a : Action) : State := { s with trace := a :: s.trace }

/-- `perform_io` takes the announced edge and locks the descriptor. -/
def takeEdge (s : State) : State := { s with edge := false, backlog := s.channel.length }

/-- The next op of the `perform_io` loop, or the end of the loop: the retired ops are posted. -/
def nextOp (s : State) : State :=
  match s.readQueue with
  | [] =>
    { s with
      reactor := .unlocked, backlog := 0, ioCleanup := [], scheduled := s.scheduled ++ s.ioCleanup }
  | op :: rest => { s with reactor := .performing op .getCmEvent, readQueue := rest }

/-- Goes on after a piece of `do_perform`. A retired op makes room for the next one; an op that stays
armed goes back to the front of the queue and ends the loop. -/
def proceed (s : State) : CmOp × Outcome → State
  | (op, .goto pc) => { s with reactor := .performing op pc }
  | (op, .ret .done) => { s with ioCleanup := s.ioCleanup ++ [op] }.nextOp
  | (op, .ret .notDone) =>
    { s with
      reactor := .unlocked, readQueue := op :: s.readQueue, ioCleanup := [],
      scheduled := s.scheduled ++ s.ioCleanup }

/-- `cancel_ops` / `deregister_descriptor`: every queued op is posted with `operation_aborted`. -/
def cancelOps (s : State) : State :=
  { s with readQueue := [], scheduled := s.scheduled ++ s.readQueue.map CmOp.abort }

/-- `cancel_ops_by_key`. -/
def cancelOpsByKey (s : State) (key : Nat) : State :=
  { s with
    readQueue := s.readQueue.filter fun op => op.cancellationKey != some key
    scheduled :=
      s.scheduled ++ (s.readQueue.filter fun op => op.cancellationKey == some key).map CmOp.abort }

/-- `start_op`: on an empty queue the descriptor is re-armed, which announces unread events. -/
def startOp (s : State) (op : CmOp) : State :=
  { s with
    readQueue := s.readQueue ++ [op]
    edge := s.edge || (s.readQueue.isEmpty && !s.channel.isEmpty) }

/-- `arm_cm_cancellation` for an op about to be started. -/
def armCmCancellation (s : State) (op : CmOp) : State :=
  match op.cancellationKey with
  | some key => { s with slots := key :: s.slots }
  | none => s

/-- The ops the reactor still holds: the one being performed, then the queued ones. -/
def armed (s : State) : List CmOp := s.reactor.ops ++ s.readQueue

/-- The ops that are finished but whose completion has not run. -/
def retired (s : State) : List CmOp := s.ioCleanup ++ s.scheduled

/-- `addr` is not the address of an op that still exists. -/
def freshAddr (s : State) (addr : Nat) : Bool :=
  (s.armed ++ s.retired).all fun op => op.addr != addr

end State

/-- The guards of `async_connect` that look at its arguments only. The connector is open, so the
auto-open is not taken. -/
def connectGuards (requestSize : Nat) : ErrorCode :=
  if requestSize > maxOutgoingPrivateData then .rdma .privateDataTooLarge else success

/-- The guards of `async_accept` and `async_move_accept` before the load of `connect_state_`. -/
def acceptGuards (cfg : Config) (bindFails : Bool) (dataSize : Nat) : ErrorCode :=
  if bindFails then .rdma .deviceNotRegistered
  else if !cfg.deviceRegistered then .rdma .deviceNotRegistered
  else if dataSize > maxOutgoingPrivateData then .rdma .privateDataTooLarge
  else success

/-- Leaves the guards: a rejected op is posted with the guard's code. -/
def State.guarded (s : State) (op : CmOp) (ec : ErrorCode) : State :=
  { s with initiation := if ec.isError then .post { op with ec := ec } else .guardState op }

/-- The state a connect or accept initiation publishes. -/
def OpKind.initial : OpKind → ConnectState
  | .connect => .addrResolve
  | .accept => .connecting
  | .wait => .idle

/-- Past the guards: `start_connect_op` issues `resolve_addr` first, `start_accept_op` publishes. -/
def InitPc.afterGuard (op : CmOp) : InitPc :=
  match op.kind with
  | .connect => .resolveAddr op
  | .accept | .wait => .publish op

/-- After the publishing exchange: a connect op is armed, an accept still needs its QP and the native
`accept`. -/
def InitPc.afterPublish (op : CmOp) : InitPc :=
  match op.kind with
  | .connect => .startOp { op with ec := success }
  | .accept | .wait => if op.hasCreateQp then .createQp op else .accept op

/-- One step of the initiating thread, through the guards on `connect_state_` and through
`start_connect_op` / `start_accept_op`, or through `async_wait_disconnect`. -/
def initStep (s : State) (a : Answer) : Option State :=
  match s.initiation, a with
  | .guardState op, .run =>
    if s.connectState ≠ .idle then
      some { s with initiation := .post { op with ec := .rdma .connectorTerminal } }
    else
      let op := { op with admitted := true }
      some { s.armCmCancellation op with initiation := .afterGuard op }
  | .resolveAddr op, .native r =>
    let s := s.log (.resolveAddr r)
    match r with
    | .ok => some { s with initiation := .publish { op with ec := r.ec } }
    | .fail _ => some { s with initiation := .storeClosed { op with ec := r.ec } }
  | .publish op, .run =>
    if s.connectState = .idle then
      some { s.log (.cas op.kind op.kind.initial) with
        connectState := op.kind.initial, initiation := .afterPublish op }
    else
      some { s with initiation := .post op.abort }
  | .createQp op, .created ec =>
    let s := s.log (.createQp op.kind)
    if ec.isError then
      some { s with initiation := .storeClosed { op with ec := ec } }
    else
      some { s with initiation := .accept { op with ec := ec } }
  | .accept op, .native r =>
    let s := s.log (.accept r)
    match r with
    | .ok => some { s with initiation := .startOp { op with ec := success } }
    | .fail _ => some { s with initiation := .storeClosed { op with ec := r.ec } }
  | .storeClosed op, .run =>
    some { s.log (.close .initiation) with connectState := .closed, initiation := .post op }
  | .post op, .run => some { s with initiation := .idle, scheduled := s.scheduled ++ [op] }
  | .startOp op, .run =>
    if s.reactor = .unlocked then some { s.startOp op with initiation := .idle } else none
  | .waitLatch op, .run =>
    if s.peerClosed then
      some { s with initiation := .post { op with ec := .rdma .disconnected } }
    else
      some { s with initiation := .waitState op }
  | .waitState op, .run =>
    if s.connectState = .closed then
      some { s with initiation := .post { op with ec := .rdma .disconnected } }
    else
      some { s.armCmCancellation op with initiation := .startOp op }
  | _, _ => none

/-- One step of the `do_perform` that `perform_io` is running. -/
def performStep (s : State) (a : Answer) : Option State :=
  match s.reactor with
  | .unlocked => none
  | .performing op pc =>
    match pc, a with
    | .getCmEvent, .event =>
      match s.channel with
      | [] => none
      | ev :: rest =>
        some ({ s.log (.read (.op op.kind) ev) with
          channel := rest, backlog := s.backlog - 1 }.proceed (op.onEvent ev))
    | .getCmEvent, .again =>
      if s.channel = [] then some (s.proceed op.onAgain) else none
    | .getCmEvent, .hardError errno =>
      if errno ≠ 0 ∧ errno ≠ eagain then some (s.proceed (op.onHardError errno)) else none
    | .advance expected desired, .run =>
      if s.connectState = expected then
        some ({ s.log (.cas op.kind desired) with connectState := desired }.proceed
          (op.advanced desired))
      else
        some (s.proceed op.abortedByDisconnect)
    | .createQp, .created ec => some ((s.log (.createQp op.kind)).proceed (op.createdQp ec))
    | .resolveRoute, .native r => some ((s.log (.resolveRoute r)).proceed (op.resolvedRoute r))
    | .connect, .native r => some ((s.log (.connect r)).proceed (op.connectIssued r))
    | .established ev, .run =>
      if s.connectState = .connecting then
        some ({ s.log (.cas op.kind .connected) with connectState := .connected }.proceed
          (op.arbitrated ev true))
      else
        some (s.proceed (op.arbitrated ev false))
    | .modifyQp, .modified rc => some (s.proceed (op.modifiedQp rc))
    | .disconnect, .native _ => some ((s.log (.rdmaDisconnect .op)).proceed op.tornDown)
    | .claimLoad, .run => some (s.proceed (op.claimRead s.connectState))
    | .claimCas e, .run =>
      if s.connectState = e then
        some ({ s.log (.close .op) with connectState := .closed }.proceed (op, .ret .done))
      else
        some (s.proceed (op.claimRead s.connectState))
    | .claimCas _, .spurious => some (s.proceed (op.claimRead s.connectState))
    | .storePeerClosed, .run => some ({ s with peerClosed := true }.proceed (op, .ret .done))
    | _, _ => none

/-- Where `disconnect()` goes after its exchange moved `connect_state_` from `old` to `closed`. -/
def afterCas (old : ConnectState) : DisconnectPc :=
  match old with
  | .addrResolve | .addrRoute | .connecting | .connected => .cancelOps old
  | .idle | .closed => .returned

/-- Where `disconnect()` goes after its `cancel_ops`: only an established connection is torn down. -/
def afterCancel (old : ConnectState) : DisconnectPc :=
  match old with
  | .connected => .native
  | .idle | .addrResolve | .addrRoute | .connecting | .closed => .returned

/-- Where the exchange loop of `disconnect()` goes after reading `old`. -/
def casLoop (old : ConnectState) : DisconnectPc :=
  if old = .closed then .returned else .cas old

/-- One step of the `i`-th `disconnect()` call. -/
def disconnectStep (s : State) (i : Nat) (a : Answer) : Option State :=
  match s.callers[i]?, a with
  | some .load, .run => some { s with callers := s.callers.set i (casLoop s.connectState) }
  | some (.cas old), .run =>
    if s.connectState = old then
      some { s.log (.close (.caller i)) with
        connectState := .closed, callers := s.callers.set i (afterCas old) }
    else
      some { s with callers := s.callers.set i (casLoop s.connectState) }
  | some (.cas _), .spurious =>
    some { s with callers := s.callers.set i (casLoop s.connectState) }
  | some (.cancelOps old), .run =>
    if s.reactor = .unlocked then
      some { s.cancelOps with
        callers := s.callers.set i (afterCancel old) }
    else none
  | some .native, .native _ =>
    some { s.log (.rdmaDisconnect (.caller i)) with callers := s.callers.set i .returned }
  | _, _ => none

/-- `do_complete` of a posted op, with the `io_context` running: a connect or accept op that ends with
`operation_aborted` stores `closed`, then the handler is invoked. -/
def completeOp (cfg : Config) (s : State) (op : CmOp) : State :=
  let s :=
    if op.isConn ∧ op.ec.isAborted cfg.aliased then
      { s.log (.close .completion) with connectState := .closed }
    else s
  s.log (.invoked op s.connectState)

/-- The step system of one connector. -/
def step (cfg : Config) (s : State) : Label → Option State
  | .event ev =>
    if s.lifetime = .destroyed then none
    else some { s.log (.delivered ev) with channel := s.channel ++ [ev], edge := true }
  | .asyncConnect addr slot hasCreateQp requestSize replyCap =>
    if s.initiation = .idle ∧ s.lifetime = .alive ∧ s.freshAddr addr then
      some (s.guarded (.newConnect addr slot hasCreateQp replyCap) (connectGuards requestSize))
    else none
  | .asyncAccept addr slot hasCreateQp bindFails dataSize =>
    if s.initiation = .idle ∧ s.lifetime = .alive ∧ s.freshAddr addr then
      some (s.guarded (.newAccept addr slot hasCreateQp) (acceptGuards cfg bindFails dataSize))
    else none
  | .asyncWaitDisconnect addr slot =>
    if s.initiation = .idle ∧ s.lifetime = .alive ∧ s.freshAddr addr then
      some { s with initiation := .waitLatch (.newWait addr slot) }
    else none
  | .initiate a => initStep s a
  | .performIo =>
    if s.edge ∧ s.reactor = .unlocked ∧ s.lifetime = .alive then
      some s.takeEdge.nextOp
    else none
  | .perform a => performStep s a
  | .complete i =>
    match s.scheduled[i]? with
    | some op => some (completeOp cfg { s with scheduled := s.scheduled.eraseIdx i } op)
    | none => none
  | .disconnect =>
    if s.lifetime = .alive then some { s with callers := s.callers ++ [.load] } else none
  | .disconnectStep i a => disconnectStep s i a
  | .emit key =>
    if key ∈ s.slots ∧ s.reactor = .unlocked ∧ s.lifetime = .alive then
      some (s.cancelOpsByKey key)
    else none
  | .closeForDestruction =>
    if s.lifetime = .alive ∧ s.initiation = .idle ∧ s.reactor = .unlocked ∧
        (∀ c ∈ s.callers, c = .returned) then
      some { s.cancelOps with lifetime := .draining }
    else none
  | .drain .event =>
    match s.lifetime, s.channel with
    | .draining, ev :: rest =>
      let s := { s.log (.read .drain ev) with channel := rest }
      some (if ev.event = .established then s.log (.rdmaDisconnect .drain) else s)
    | _, _ => none
  | .drain .again =>
    if s.lifetime = .draining ∧ s.channel = [] then some { s with lifetime := .destroyed } else none
  | .drain (.hardError errno) =>
    if s.lifetime = .draining ∧ errno ≠ 0 ∧ errno ≠ eagain then
      some { s with lifetime := .destroyed }
    else none
  | .drain _ => none

/-- The ibv connector. -/
def connector (cfg : Config) : StepSystem State Label := ⟨step cfg⟩

end RdmaOnAsio.Ibv
