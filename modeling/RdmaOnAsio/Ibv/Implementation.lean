import RdmaOnAsio.Lts.Pool
import RdmaOnAsio.Ibv.Connector

/-!
# Construction, opening and moves of ibv connectors

`implementation_type` of `ibv_connector_service` from its construction on. An open implementation is the
connector of `Connector.lean`; the steps here are those that open it, those it takes when it is not open,
and `move_construct` and `move_assign`. `open` and `assign` reset `connect_state_` and `peer_closed_`, which
the moves copy and leave behind.
-/

namespace RdmaOnAsio.Ibv

open ErrorCode

/-- One implementation. `conn` holds its atomics and its ops, and the channel while it is open. -/
structure Implementation where
  deviceRegistered : Bool := false
  isOpen : Bool := false
  conn : State := {}
deriving DecidableEq, Repr

/-- The steps of an implementation. The connector's own `asyncConnect` comes after the auto-open. -/
inductive ImplLabel
  | useDevice
  /-- `open`; `ec` is the result of its native calls. -/
  | openConnector (ec : ErrorCode)
  /-- `assign`; `hasHandle` says whether both handles are non-null, `ec` is the result of
  `register_descriptor`. -/
  | assign (hasHandle : Bool) (ec : ErrorCode)
  /-- `async_connect`; `opened` is the result of the native calls of its auto-open. -/
  | asyncConnect (opened : ErrorCode) (addr : Nat) (slot hasCreateQp : Bool) (requestSize replyCap : Nat)
  /-- Any other step of the connector. -/
  | connector (l : Label)
deriving DecidableEq, Repr

namespace Implementation

def withConn (s : Implementation) (conn : Option State) : Option Implementation :=
  match conn with
  | some conn => some { s with conn := conn }
  | none => none

/-- A descriptor is registered: its channel is new. -/
def opened (s : Implementation) : Implementation :=
  { s with
    isOpen := true
    conn := { s.conn with
      connectState := .idle, peerClosed := false, channel := [], edge := false, backlog := 0 } }

/-- `open` of an implementation that is not open. -/
def openClosed (s : Implementation) (ec : ErrorCode) : Implementation × ErrorCode :=
  if !s.deviceRegistered then (s, .rdma .deviceNotRegistered)
  else if ec.isError then (s, ec)
  else (s.opened, success)

/-- `open`, which only reports `already_open` if the implementation is open. -/
def openConnector (s : Implementation) (ec : ErrorCode) : Implementation :=
  if s.isOpen then s else (s.openClosed ec).1

/-- `assign`. -/
def assign (s : Implementation) (hasHandle : Bool) (ec : ErrorCode) : Implementation :=
  if s.isOpen ∨ !hasHandle ∨ ec.isError then s else s.opened

/-- The configuration the connector's steps read. -/
def config (s : Implementation) (aliased : Bool) : Config :=
  { deviceRegistered := s.deviceRegistered, aliased := aliased }

/-- `async_connect`. -/
def asyncConnect (aliased : Bool) (s : Implementation) (opened : ErrorCode) (addr : Nat)
    (slot hasCreateQp : Bool) (requestSize replyCap : Nat) : Option Implementation :=
  let (s, openEc) := if s.isOpen then (s, success) else s.openClosed opened
  if openEc.isError then
    if s.conn.initiation = .idle ∧ s.conn.freshAddr addr then
      some { s with conn := s.conn.guarded (.newConnect addr slot hasCreateQp replyCap) openEc }
    else none
  else
    s.withConn (Ibv.step (s.config aliased) s.conn
      (.asyncConnect addr slot hasCreateQp requestSize replyCap))

/-- The steps of an implementation that is not open. -/
def closedStep (aliased : Bool) (s : Implementation) : Label → Option Implementation
  | .asyncAccept addr slot hasCreateQp bindFails _ =>
    if s.conn.initiation = .idle ∧ s.conn.freshAddr addr then
      some { s with
        conn := s.conn.guarded (.newAccept addr slot hasCreateQp)
          (if bindFails ∨ !s.deviceRegistered then .rdma .deviceNotRegistered
          else .rdma .invalidHandle) }
    else none
  | .initiate a =>
    match s.conn.initiation, a with
    | .waitState op, .run =>
      let ec : RdmaErrc := if s.conn.connectState = .closed then .disconnected else .invalidHandle
      some { s with conn := { s.conn with initiation := .post { op with ec := .rdma ec } } }
    | _, _ => s.withConn (initStep s.conn a)
  | .disconnect =>
    some { s with conn := { s.conn with callers := s.conn.callers ++ [.returned] } }
  | .event _ | .performIo => none
  | l => s.withConn (Ibv.step (s.config aliased) s.conn l)

/-- One step of an implementation. -/
def step (aliased : Bool) (s : Implementation) : ImplLabel → Option Implementation
  | .useDevice => some { s with deviceRegistered := true }
  | .openConnector ec => if s.conn.initiation = .idle then some (s.openConnector ec) else none
  | .assign hasHandle ec =>
    if s.conn.initiation = .idle then some (s.assign hasHandle ec) else none
  | .asyncConnect opened addr slot hasCreateQp requestSize replyCap =>
    if s.conn.initiation = .idle then
      s.asyncConnect aliased opened addr slot hasCreateQp requestSize replyCap
    else none
  | .connector (.asyncConnect ..) | .connector .closeForDestruction | .connector (.drain _) => none
  | .connector l =>
    if s.isOpen then s.withConn (Ibv.step (s.config aliased) s.conn l) else s.closedStep aliased l

/-- No op and no `disconnect()` call is in flight. -/
def quiescent (s : Implementation) : Bool :=
  s.conn.initiation == .idle && s.conn.armed.isEmpty && s.conn.retired.isEmpty &&
    s.conn.callers.all (fun c => c == .returned)

/-- What is left of an implementation whose handles have been moved away. -/
def movedFrom (s : Implementation) : Implementation :=
  { s with isOpen := false, conn := { s.conn with channel := [], edge := false, backlog := 0 } }

/-- The handles and the descriptor of `other`, and a copy of its atomics. -/
def adopt (impl other : Implementation) : Implementation :=
  { impl with
    isOpen := other.isOpen
    conn := { impl.conn with
      connectState := other.conn.connectState, peerClosed := other.conn.peerClosed
      channel := other.conn.channel, edge := other.conn.edge, backlog := other.conn.backlog } }

/-- `move_construct`. -/
def moveConstruct (other : Implementation) : Option (Implementation × Implementation) :=
  if other.quiescent then
    some (({ deviceRegistered := other.deviceRegistered } : Implementation).adopt other, other.movedFrom)
  else none

/-- `move_assign`; `close_for_destruction` deregisters the descriptor of `impl`, which posts its queued
ops with `operation_aborted`, and frees its channel. -/
def moveAssign (impl other : Implementation) : Option (Implementation × Implementation) :=
  if other.quiescent ∧ impl.conn.initiation = .idle ∧ impl.conn.reactor = .unlocked ∧
      impl.conn.callers.all (fun c => c == .returned) then
    some ({ impl with conn := impl.conn.cancelOps }.adopt other, other.movedFrom)
  else none

end Implementation

/-- The implementations of `ibv_connector_service`; `use_device` is a step of each of them. -/
def implementations (aliased : Bool) : Movable Implementation ImplLabel where
  system := ⟨Implementation.step aliased⟩
  construct := {}
  moveConstruct := Implementation.moveConstruct
  moveAssign := Implementation.moveAssign

end RdmaOnAsio.Ibv
