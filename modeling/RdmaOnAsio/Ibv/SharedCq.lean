import Mathlib.Logic.Function.Basic
import RdmaOnAsio.Lts.Basic
import RdmaOnAsio.Ibv.CmOp

/-!
# Services, queue pairs and the shared completion queue

Any number of `io_context`s with the services they have created, the connectors living on them, and the
native objects of the event mode: a completion channel and a CQ, owned by `ibv_io_completion_service`,
and the QPs, each owned by the connector on whose `cm_id` it was created. A connector can be given a
queue pair that is bound to another `io_context`.

The destructor of an `io_context` shuts the services down in the reverse order of their creation, then
destroys the pending handlers, and with them the connectors they own.
-/

namespace RdmaOnAsio.Ibv

namespace SharedCq

/-- The services of an `io_context`; there is a connector service for every port space. -/
inductive Service
  | device
  | ioCompletion
  | verbs
  | connector (ps : Nat)
deriving DecidableEq, Repr

/-- The native calls that make or destroy a completion channel, a CQ on it or a QP on that. A channel
and its CQ have the same number. -/
inductive NativeCall
  | createCompChannel (cq : Nat)
  | createCq (cq : Nat)
  | createQp (qp cq : Nat)
  | destroyQp (qp : Nat)
  | destroyCq (cq : Nat)
  | destroyCompChannel (cq : Nat)
deriving DecidableEq, Repr

/-- An `io_context`: its services, the last created first; whether `use_device` has registered a device; and
`cq_` together with `comp_channel_`. -/
structure Context where
  services : List Service := []
  registered : Bool := false
  cq : Option Nat := none
  stopped : Bool := false
deriving DecidableEq, Repr

/-- A connector; `qp` is `cm_id_->qp` with the CQ it was created on. -/
structure Connector where
  id : Nat
  ctx : Nat
  ps : Nat
  isOpen : Bool := false
  qp : Option (Nat × Nat) := none
deriving DecidableEq, Repr

/-- `bound` is `impl_.cq_` of every queue pair object; `log` is the history of the native calls. -/
structure State where
  contexts : Nat → Context := fun _ => {}
  connectors : List Connector := []
  bound : Nat → Option Nat := fun _ => none
  nextCq : Nat := 0
  nextQp : Nat := 0
  log : List NativeCall := []

/-- What the user does. -/
inductive Label
  /-- `use_device`: whether device and config are accepted, and the results of `create_comp_channel`,
  `create_cq` and `register_descriptor`. -/
  | useDevice (c : Nat) (valid : Bool) (channel cq register : NativeResult)
  | constructConnector (id c ps : Nat)
  /-- `open` or `assign`. -/
  | openConnector (id : Nat) (r : NativeResult)
  /-- `queue_pair::bind` to an `io_context`. -/
  | bind (qp c : Nat)
  /-- `create_qp` of the queue pair object on the connector's `cm_id`, while it connects or accepts. -/
  | createQp (id qp : Nat) (r : NativeResult)
  | destroyConnector (id : Nat)
  /-- The destructor of the `io_context`, up to the pending handlers. -/
  | shutdown (c : Nat)
deriving DecidableEq, Repr

/-- The last part of `close_for_destruction`. -/
def Connector.close (x : Connector) : Connector := { x with isOpen := false, qp := none }

namespace State

/-- Records a native call. -/
def call (s : State) (n : NativeCall) : State := { s with log := s.log ++ [n] }

/-- Changes an `io_context`. -/
def setContext (s : State) (c : Nat) (f : Context → Context) : State :=
  { s with contexts := Function.update s.contexts c (f (s.contexts c)) }

/-- `asio::use_service`: a service that does not exist is created. -/
def useService (s : State) (c : Nat) (svc : Service) : State :=
  s.setContext c fun ctx =>
    if svc ∈ ctx.services then ctx else { ctx with services := svc :: ctx.services }

/-- `ibv_io_completion_service::initialize`, and whether it succeeds. A step that fails undoes the ones
before it. -/
def initializeCq (s : State) (c : Nat) (channel cq register : NativeResult) : State × Bool :=
  if (s.contexts c).cq.isSome then (s, false)
  else
    let k := s.nextCq
    let s := { s with nextCq := k + 1 }
    match channel, cq, register with
    | .fail _, _, _ => (s, false)
    | .ok, .fail _, _ => ((s.call (.createCompChannel k)).call (.destroyCompChannel k), false)
    | .ok, .ok, .fail _ =>
      ((((s.call (.createCompChannel k)).call (.createCq k)).call (.destroyCq k)).call
        (.destroyCompChannel k), false)
    | .ok, .ok, .ok =>
      (((s.call (.createCompChannel k)).call (.createCq k)).setContext c fun ctx =>
        { ctx with cq := some k }, true)

/-- `use_device`. The device is registered once the CQ is there. -/
def useDevice (s : State) (c : Nat) (valid : Bool) (channel cq register : NativeResult) : State :=
  let s := s.useService c .device
  if (s.contexts c).registered ∨ !valid then s
  else
    match (s.useService c .ioCompletion).initializeCq c channel cq register with
    | (s, true) => s.setContext c fun ctx => { ctx with registered := true }
    | (s, false) => s

/-- `close_for_destruction` of all connectors that satisfy `p`, in the order of the list. -/
def closeWhere (s : State) (p : Connector → Bool) : State :=
  { s with
    connectors := s.connectors.map fun x => if p x then x.close else x
    log := s.log ++ ((s.connectors.filter p).filterMap Connector.qp).map fun q => .destroyQp q.1 }

/-- `ibv_io_completion_service::shutdown`. -/
def closeCompletion (s : State) (c : Nat) : State :=
  match (s.contexts c).cq with
  | none => s
  | some k =>
    ((s.call (.destroyCq k)).call (.destroyCompChannel k)).setContext c fun ctx =>
      { ctx with cq := none }

/-- `shutdown` of a service. -/
def shutdownService (s : State) (c : Nat) : Service → State
  | .device => s.setContext c fun ctx => { ctx with registered := false }
  | .ioCompletion => s.closeCompletion c
  | .verbs => s
  | .connector ps => s.closeWhere fun x => x.ctx == c && x.ps == ps

/-- The services are shut down, the last created first. -/
def shutdown (s : State) (c : Nat) : State :=
  ((s.contexts c).services.foldl (fun s svc => s.shutdownService c svc) s).setContext c fun ctx =>
    { ctx with stopped := true }

/-- `queue_pair::bind`. -/
def bind (s : State) (qp c : Nat) : State :=
  if (s.bound qp).isSome then s
  else
    let s := s.useService c .device
    if !(s.contexts c).registered then s
    else
      let s := (s.useService c .ioCompletion).useService c .verbs
      { s with bound := Function.update s.bound qp (s.contexts c).cq }

/-- The connector `id` becomes `f` of it. -/
def setConnector (s : State) (id : Nat) (f : Connector → Connector) : State :=
  { s with connectors := s.connectors.map fun x => if x.id = id then f x else x }

/-- `create_qp` on the `cm_id` of the connector, which has no QP. -/
def createQp (s : State) (id k : Nat) : State :=
  { (s.call (.createQp s.nextQp k)).setConnector id fun x => { x with qp := some (s.nextQp, k) } with
    nextQp := s.nextQp + 1 }

/-- The connector `id`. -/
def connector? (s : State) (id : Nat) : Option Connector := s.connectors.find? fun x => x.id == id

end State

/-- The steps. An `io_context` takes no call once it is being destroyed, and a CQ that was destroyed is
not used any more. -/
def step (s : State) : Label → Option State
  | .useDevice c valid channel cq register =>
    if (s.contexts c).stopped then none else some (s.useDevice c valid channel cq register)
  | .constructConnector id c ps =>
    if (s.contexts c).stopped ∨ (s.connector? id).isSome then none
    else
      let s := (s.useService c .device).useService c (.connector ps)
      some { s with connectors := { id, ctx := c, ps } :: s.connectors }
  | .openConnector id r =>
    match s.connector? id with
    | some x =>
      if (s.contexts x.ctx).stopped then none
      else if (s.contexts x.ctx).registered ∧ r = .ok then
        some (s.setConnector id fun x => { x with isOpen := true })
      else some s
    | none => none
  | .bind qp c => if (s.contexts c).stopped then none else some (s.bind qp c)
  | .createQp id qp r =>
    match s.connector? id, s.bound qp with
    | some x, some k =>
      if .destroyCq k ∈ s.log ∨ !x.isOpen then none
      else if x.qp = none ∧ r = .ok then some (s.createQp id k)
      else some s
    | _, _ => none
  | .destroyConnector id =>
    let s := s.closeWhere fun x => x.id == id
    some { s with connectors := s.connectors.filter fun x => x.id != id }
  | .shutdown c => if (s.contexts c).stopped then none else some (s.shutdown c)

/-- The ibv objects of the event mode. -/
def eventMode : StepSystem State Label := ⟨step⟩

end SharedCq

end RdmaOnAsio.Ibv
