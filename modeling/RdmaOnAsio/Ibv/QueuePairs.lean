import RdmaOnAsio.Ibv.UseDevice
import RdmaOnAsio.Nd.QueuePair

/-!
# Queue pairs and the connectors that own their QPs

An `ibv_queue_pair` is bound to a CQ and moved about; its native QP is created by the connector it is
passed to, on the connector's id, and destroyed with that. Between the two there are pointers: a connect
op has the address of the queue pair until the address of the peer is resolved, and the queue pair has
the native QP until it is moved from. The steps are those of any number of queue pairs and connectors.
-/

namespace RdmaOnAsio.Ibv

open ErrorCode

namespace QueuePairs

/-- `native_qp_init_attr_t`, as `create_qp` fills it in. -/
structure QpInitAttr where
  sendCq : Option Nat
  recvCq : Option Nat
  maxSendWr : UInt32
  maxRecvWr : UInt32
  maxSendSge : UInt32
  maxRecvSge : UInt32
  maxInlineData : UInt32
  sqSigAll : Bool
deriving DecidableEq, Repr

/-- `ibv_queue_pair` with its `implementation_type`. Native objects, `io_context`s, services and
completion queues are known by their addresses, null being `none`; `device` says whether there is a
device with a PD. -/
structure QueuePair where
  qp : Option Nat := none
  cq : Option Nat := none
  device : Bool := false
  config : RdmaConfig := {}
  pollCq : Option Nat := none
  ioCtx : Option Nat := none
  verbsSvc : Option Nat := none
deriving DecidableEq, Repr

/-- What a queue pair is bound to: an `io_context`, with what its services hold, or a completion queue. -/
inductive BindTarget
  | ioContext (address : Nat) (registered device : Bool) (cq : Option Nat) (effective : RdmaConfig)
      (verbsSvc : Nat)
  | completionQueue (address : Nat) (device : Bool) (cq : Option Nat) (effective : RdmaConfig)
deriving DecidableEq, Repr

/-- What `bind` reports. -/
inductive BindError
  | alreadyOpen
  | deviceNotRegistered
deriving DecidableEq, Repr

namespace QueuePair

/-- `is_bound`. -/
def isBound (q : QueuePair) : Bool := q.cq.isSome

/-- `bound_type`. -/
def boundType (q : QueuePair) : CompletionMode :=
  if !q.isBound then .none
  else if q.ioCtx.isSome then .event
  else .poll

/-- The two overloads of `bind`. -/
def bind (q : QueuePair) (target : BindTarget) : Except BindError QueuePair :=
  if q.isBound then .error .alreadyOpen
  else
    match target with
    | .ioContext address registered device cq effective verbsSvc =>
      if !registered then .error .deviceNotRegistered
      else
        .ok { q with
          ioCtx := some address
          device := device
          cq := cq
          config := effective
          pollCq := none
          verbsSvc := some verbsSvc }
    | .completionQueue address device cq effective =>
      .ok { q with
        ioCtx := none
        verbsSvc := none
        device := device
        cq := cq
        config := effective
        pollCq := some address }

/-- The attributes `create_qp` asks for. -/
def initAttr (q : QueuePair) : QpInitAttr where
  sendCq := q.cq
  recvCq := q.cq
  maxSendWr := q.config.maxSendWr
  maxRecvWr := q.config.maxRecvWr
  maxSendSge := q.config.maxSendSge
  maxRecvSge := q.config.maxRecvSge
  maxInlineData := 0
  sqSigAll := true

end QueuePair

/-- A native QP: what it was created with, on the id of which connector, and whether that has not destroyed
it. -/
structure NativeQp where
  attr : QpInitAttr
  connector : Nat
  alive : Bool := true
deriving DecidableEq, Repr

/-- How far a connector is, as to its QP. -/
inductive Phase
  | idle
  /-- A connect op resolves the address of the peer; its function has the address of a queue pair. -/
  | resolving (createQp : Nat)
  /-- Its function has been called or dropped, or the connector disconnected before it had one. -/
  | used
  /-- Destroyed or assigned to. -/
  | gone
deriving DecidableEq, Repr

/-- A connector, known by its id, which moves with it. `qp` is the QP of the id. -/
structure Connector where
  phase : Phase := .idle
  qp : Option Nat := none
deriving DecidableEq, Repr

/-- The storage of the queue pairs, empty where one was destroyed; the connectors; and the native QPs
that were created. `fault` records that a connect op used a queue pair that was gone. -/
structure State where
  objects : List (Option QueuePair) := []
  connectors : List Connector := []
  qps : List NativeQp := []
  fault : Bool := false
deriving DecidableEq, Repr

/-- The steps of the system. -/
inductive Label
  /-- `ibv_queue_pair{}`. -/
  | construct
  | bind (i : Nat) (target : BindTarget)
  | moveConstruct (other : Nat)
  | moveAssign (i other : Nat)
  | destroy (i : Nat)
  | openConnector
  /-- `async_connect` of a connector, with the queue pair at an address. -/
  | asyncConnect (c i : Nat)
  /-- The connect op performs on `RDMA_CM_EVENT_ADDR_RESOLVED`; `errno` is that of `rdma_create_qp`. -/
  | addrResolved (c : Nat) (errno : Option UseDevice.Errno)
  /-- The connect op ends before that: in an error, or aborted. -/
  | connectEnds (c : Nat)
  /-- `async_accept` of a connector, with the queue pair at an address: the caller's, or the one that a
  move-accept has put into its op. -/
  | asyncAccept (c i : Nat) (errno : Option UseDevice.Errno)
  /-- `disconnect` of a connector; one that is idle can do nothing after it. -/
  | disconnect (c : Nat)
  /-- `close_for_destruction`. -/
  | closeConnector (c : Nat)
deriving DecidableEq, Repr

namespace State

/-- The queue pair at an address. -/
def object (s : State) (i : Nat) : Option QueuePair := (s.objects[i]?).join

/-- A queue pair is put at an address. -/
def setObject (s : State) (i : Nat) (o : Option QueuePair) : State := { s with objects := s.objects.set i o }

/-- A connector is changed. -/
def modifyConnector (s : State) (c : Nat) (f : Connector → Connector) : State :=
  { s with connectors := s.connectors.modify c f }

/-- A connector is in another phase. -/
def setPhase (s : State) (c : Nat) (phase : Phase) : State :=
  s.modifyConnector c fun conn => { conn with phase := phase }

/-- The phase of a connector. -/
def phase (s : State) (c : Nat) : Option Phase := (s.connectors[c]?).map Connector.phase

/-- `rdma_create_qp` has created a QP for `q`, which is at an address, on the id of a connector. -/
def addQp (s : State) (c i : Nat) (q : QueuePair) : State :=
  { (s.setObject i (some { q with qp := some s.qps.length })).modifyConnector c fun conn =>
      { conn with qp := some s.qps.length } with
    qps := s.qps ++ [⟨q.initAttr, c, true⟩] }

/-- `create_qp` for the queue pair at an address, on the id of a connector. -/
def createQp (s : State) (c i : Nat) (errno : Option UseDevice.Errno) : State :=
  match s.object i with
  | none => { s with fault := true }
  | some q =>
    if !q.device || q.cq.isNone then s
    else
      match errno with
      | some _ => s
      | none => s.addQp c i q

/-- `rdma_destroy_qp`, if the id has a QP. -/
def destroyQp (s : State) (conn : Connector) : List NativeQp :=
  match conn.qp with
  | some k => s.qps.modify k fun n => { n with alive := false }
  | none => s.qps

/-- A connector is made. -/
def openConnector (s : State) : State := { s with connectors := s.connectors ++ [({} : Connector)] }

/-- The step taken under a label. -/
def step (s : State) : Label → Option State
  | .construct => some { s with objects := s.objects ++ [some {}] }
  | .bind i target =>
    match s.object i with
    | some q =>
      match q.bind target with
      | .ok q => some (s.setObject i (some q))
      | .error _ => some s
    | none => none
  | .moveConstruct j =>
    match s.object j with
    | some q => some { s with objects := s.objects.set j (some {}) ++ [some q] }
    | none => none
  | .moveAssign i j =>
    match s.object i, s.object j with
    | some _, some q => if i = j then some s else some ((s.setObject i (some q)).setObject j (some {}))
    | _, _ => none
  | .destroy i =>
    match s.object i with
    | some _ => some (s.setObject i none)
    | none => none
  | .openConnector => some s.openConnector
  | .asyncConnect c i =>
    match s.phase c, s.object i with
    | some .gone, _ => none
    | some .idle, some _ => some (s.setPhase c (.resolving i))
    | some _, some _ => some s
    | _, _ => none
  | .addrResolved c errno =>
    match s.phase c with
    | some (.resolving i) => some ((s.setPhase c .used).createQp c i errno)
    | _ => none
  | .connectEnds c =>
    match s.phase c with
    | some (.resolving _) => some (s.setPhase c .used)
    | _ => none
  | .asyncAccept c i errno =>
    match s.phase c, s.object i with
    | some .gone, _ => none
    | some .idle, some _ => some ((s.setPhase c .used).createQp c i errno)
    | some _, some _ => some s
    | _, _ => none
  | .disconnect c =>
    match s.phase c with
    | some .gone => none
    | some .idle => some (s.setPhase c .used)
    | some _ => some s
    | none => none
  | .closeConnector c =>
    match s.connectors[c]? with
    | some conn =>
      if conn.phase = .gone then none
      else
        some { s.modifyConnector c fun _ => ⟨.gone, none⟩ with
          qps := s.destroyQp conn }
    | none => none

/-- An object holds the native QP. -/
def holds (s : State) (k : Nat) : Bool :=
  s.objects.any fun o => o.any fun q => q.qp == some k

end State

end QueuePairs

/-- The queue pairs and the connectors of a program. -/
def queuePairs : StepSystem QueuePairs.State QueuePairs.Label := ⟨QueuePairs.State.step⟩

end RdmaOnAsio.Ibv
