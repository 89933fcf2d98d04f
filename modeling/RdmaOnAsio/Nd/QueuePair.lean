import RdmaOnAsio.Nd.CmOp
import RdmaOnAsio.Nd.Config

/-!
# Binding a queue pair

An `nd_queue_pair` creates and owns its native QP when it is bound, to the managed CQ of an `io_context`
or to a completion queue of the user. `bind` stores the target in the fields of the queue pair and lets
`create_qp` read it from there.
-/

namespace RdmaOnAsio

/-- `completion_mode`. -/
inductive CompletionMode
  | none
  | event
  | poll
deriving DecidableEq, Repr

namespace Nd

open ErrorCode

/-- `nd_queue_pair` with its `implementation_type`. Native objects, `io_context`s, services and
completion queues are known by their addresses, null being `none`. -/
structure QueuePair where
  qp : Option Nat := none
  cq : Option Nat := none
  device : Option NdAdapter := none
  config : RdmaConfig := {}
  pollCq : Option Nat := none
  ioCtx : Option Nat := none
  verbsSvc : Option Nat := none
deriving DecidableEq, Repr

/-- An `io_context`: its address, what its device service holds, the CQ of its
`nd_io_completion_service` and whether the poller of that is started, and the address of its verbs
service. -/
structure IoContext where
  address : Nat
  registered : Bool
  device : Option NdAdapter
  effectiveConfig : RdmaConfig
  cq : Option Nat
  pollerStarted : Bool
  verbsSvc : Nat
deriving DecidableEq, Repr

/-- An `nd_completion_queue`: its address, and what `device`, `native_handle` and `effective_config`
return. -/
structure CompletionQueue where
  address : Nat
  device : Option NdAdapter
  nativeHandle : Option Nat
  effectiveConfig : RdmaConfig
deriving DecidableEq, Repr

/-- `IND2Adapter::CreateQueuePair` returns a queue pair, or a status that is not `ND_SUCCESS`. -/
inductive QpCreation
  | created (qp : Nat)
  | failed (hr : { hr : Int // hr ≠ ndSuccess })
deriving DecidableEq, Repr

/-- `verbs_ops::create_qp`: the queue pair, and `ec = static_cast<nd_errc>(hr)`. -/
def createNativeQp : QpCreation → Option Nat × NdErrorCode
  | .created qp => (some qp, .ndErrc ndSuccess)
  | .failed hr => (none, .ndErrc hr)

namespace QueuePair

/-- `nd_verbs_service::is_bound`. -/
def isBound (q : QueuePair) : Bool := q.cq.isSome

/-- `native_handle`. -/
def nativeHandle (q : QueuePair) : Option Nat := q.qp

/-- `bound_type`. -/
def boundType (q : QueuePair) : CompletionMode :=
  if !q.isBound then .none
  else if q.ioCtx.isSome then .event
  else .poll

/-- `nd_verbs_service::create_qp`. -/
def createQp (q : QueuePair) (r : QpCreation) : QueuePair × NdErrorCode :=
  if q.qp.isSome then (q, alreadyOpen)
  else
    match q.device with
    | none => (q, .common (.rdma .invalidDevice))
    | some device =>
      if device.pd.isNone || q.cq.isNone then (q, .common (.rdma .invalidDevice))
      else
        let (qp, ec) := createNativeQp r
        ({ q with qp := qp }, ec)

/-- `bind` to an `io_context`; the poller of the shared CQ is started once there is a QP. -/
def bindIoContext (q : QueuePair) (ctx : IoContext) (r : QpCreation) :
    QueuePair × IoContext × NdErrorCode :=
  if q.isBound then (q, ctx, alreadyOpen)
  else if !ctx.registered then (q, ctx, .common (.rdma .deviceNotRegistered))
  else
    let q := { q with
      ioCtx := some ctx.address
      device := ctx.device
      cq := ctx.cq
      config := ctx.effectiveConfig
      pollCq := none
      verbsSvc := some ctx.verbsSvc }
    let (q, ec) := q.createQp r
    if !ec.isError then (q, { ctx with pollerStarted := true }, ec) else (q, ctx, ec)

/-- `bind` to a completion queue. -/
def bindCompletionQueue (q : QueuePair) (cq : CompletionQueue) (r : QpCreation) :
    QueuePair × NdErrorCode :=
  if q.isBound then (q, alreadyOpen)
  else
    let q := { q with
      ioCtx := none
      verbsSvc := none
      device := cq.device
      cq := cq.nativeHandle
      config := cq.effectiveConfig
      pollCq := some cq.address }
    q.createQp r

end QueuePair

/-- What a queue pair is bound to. -/
inductive BindTarget
  | ioContext (ctx : IoContext)
  | completionQueue (cq : CompletionQueue)
deriving DecidableEq, Repr

/-- The two overloads of `bind`. -/
def QueuePair.bind (q : QueuePair) (r : QpCreation) : BindTarget → QueuePair × NdErrorCode
  | .ioContext ctx =>
    let (q, _, ec) := q.bindIoContext ctx r
    (q, ec)
  | .completionQueue cq => q.bindCompletionQueue cq r

end Nd

end RdmaOnAsio
