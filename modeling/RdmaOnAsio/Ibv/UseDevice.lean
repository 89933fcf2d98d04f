import RdmaOnAsio.Error
import RdmaOnAsio.Lts.Basic
import RdmaOnAsio.Ibv.Config

/-!
# `use_device`

`use_device` checks the device and the configuration, has `ibv_io_completion_service` make the shared CQ on
its completion channel, and registers the device with `ibv_device_service` once that has succeeded. Every
call that can fail or throw is answered by the environment.

The effective configuration leaves the unsigned fields of `rdma_config_t` at casts to the `int`s of the
native interface: the depth of a CQ, the number of entries of a poll and the timeouts of the
resolutions.
-/

namespace RdmaOnAsio

namespace Ibv

open ErrorCode

/-! ## The casts to native integers -/

/-- The depth handed to `create_cq`. -/
def createCqDepth (cqe : UInt32) : Int32 := cqe.toInt32

/-- The value `initialize` stores in `poll_batch_`. -/
def narrowPollBatch (pollBatch : UInt32) : Int32 := if pollBatch ≠ 0 then pollBatch.toInt32 else 16

/-- The size `initialize` gives `wc_buf_`: a negative `poll_batch_` is a size close to `2 ^ 64`. -/
def eventBufferSize (pollBatch : Int32) : UInt64 := pollBatch.toInt64.toUInt64

/-- The size the constructor of `ibv_completion_queue` gives `wc_buf_`. -/
def pollBufferSize (effective : RdmaConfig) : UInt64 :=
  (if effective.cqPollBatch ≠ 0 then effective.cqPollBatch else 16).toUInt64

/-- The number of entries handed to `poll_cq`, `static_cast<int>(wc_buf_.size())`. -/
def pollEntries (wcBuf : UInt64) : Int32 := wcBuf.toUInt32.toInt32

/-- `std::vector<native_wc_t>::max_size()`; an `ibv_wc` has 48 bytes. -/
def wcBufMaxSize : Nat := (2 ^ 63 - 1) / 48

/-- `wc_buf_.resize(n)` of a buffer of `size` entries; `none` when it throws: the size is more than a vector
can have, or the storage cannot be allocated. -/
def resizeWcBuf (size n : UInt64) (allocated : Bool) : Option UInt64 :=
  if n ≤ size then some n
  else if wcBufMaxSize < n.toNat then none
  else if allocated then some n
  else none

/-! ## The two services -/

namespace UseDevice

/-- `ibv_device_t`; a null `context_` is `none`. -/
structure Device where
  context : Option Nat
  attr : NativeDeviceAttr
deriving DecidableEq, Repr

/-- `ibv_device_service`. -/
structure DeviceService where
  device : Option Device := none
  effectiveConfig : RdmaConfig := {}
  registered : Bool := false
deriving DecidableEq, Repr

namespace DeviceService

/-- `register_device`. -/
def registerDevice (device : Option Device) (effective : RdmaConfig) : DeviceService :=
  ⟨device, effective, true⟩

/-- `shutdown`. -/
def shutdown (s : DeviceService) : DeviceService := { s with device := none, registered := false }

/-- `effective_config` of a connector. -/
def effectiveConfigOrDefault (s : DeviceService) : RdmaConfig :=
  if s.registered then s.effectiveConfig else {}

/-- `cm_timeout` of a connector, the timeout handed to `rdma_resolve_addr` and `rdma_resolve_route`. -/
def cmTimeout (s : DeviceService) : Int32 :=
  let t := s.effectiveConfigOrDefault.cmResolveTimeoutMs
  (if t ≠ 0 then t else defaultCmResolveTimeoutMs).toInt32

end DeviceService

/-- `ibv_io_completion_service`: `cq_`, by the depth it was created with; whether there is a `comp_channel_`
and its descriptor is registered with the reactor; `poll_batch_`; and the size of `wc_buf_`. -/
structure IoCompletionService where
  cq : Option Int32 := none
  compChannel : Bool := false
  descriptor : Bool := false
  pollBatch : Int32 := 16
  wcBuf : UInt64 := 0
deriving DecidableEq, Repr

/-- The `errno` of a call that failed is not zero. -/
abbrev Errno := { e : Int // e ≠ 0 }

/-- A native call that makes an object, or fails. -/
inductive Creation
  | created
  | failed (errno : Errno)
deriving DecidableEq, Repr

/-- `register_descriptor` returns zero or an `errno`, or throws because it has no memory. -/
inductive Registration
  | registered
  | failed (errno : Errno)
  | thrown
deriving DecidableEq, Repr

/-- What the calls of `use_device` come to: whether `use_service` returns either service, rather than
throw; the completion channel; the CQ; the registration with the reactor; and whether the storage of
`wc_buf_` is allocated. -/
structure Calls where
  deviceService : Bool := true
  ioCompletionService : Bool := true
  compChannel : Creation := .created
  cq : Creation := .created
  descriptor : Registration := .registered
  allocated : Bool := true
deriving DecidableEq, Repr

/-- How a call ends: it returns with its `error_code&`, or an exception leaves it. -/
inductive Outcome
  | returned (ec : ErrorCode)
  | thrown
deriving DecidableEq, Repr

/-- `!device || !device->context_`. -/
def isInvalidDevice : Option Device → Bool
  | none => true
  | some device => device.context.isNone

namespace IoCompletionService

/-- `initialize`. Each failure that is returned undoes the calls before it. -/
def initializeCq (s : IoCompletionService) (device : Option Device) (cqe pollBatch : UInt32)
    (calls : Calls) : IoCompletionService × Outcome :=
  if s.cq.isSome then (s, .returned (.rdma .alreadyRegistered))
  else if isInvalidDevice device then (s, .returned (.rdma .invalidDevice))
  else
    match calls.compChannel with
    | .failed errno => ({ s with compChannel := false }, .returned (makeSystemErrorCode errno))
    | .created =>
      match calls.cq with
      | .failed errno =>
        ({ s with compChannel := false, cq := none }, .returned (makeSystemErrorCode errno))
      | .created =>
        let s := { s with compChannel := true, cq := some (createCqDepth cqe) }
        match calls.descriptor with
        | .thrown => (s, .thrown)
        | .failed errno =>
          ({ s with cq := none, compChannel := false }, .returned (makeSystemErrorCode errno))
        | .registered =>
          let s := { s with descriptor := true, pollBatch := narrowPollBatch pollBatch }
          -- nothing catches what the vector throws
          match resizeWcBuf s.wcBuf (eventBufferSize s.pollBatch) calls.allocated with
          | none => (s, .thrown)
          | some n => ({ s with wcBuf := n }, .returned success)

/-- `shutdown`. -/
def shutdown (s : IoCompletionService) : IoCompletionService :=
  { s with
    descriptor := if s.compChannel then false else s.descriptor
    cq := none
    compChannel := false }

end IoCompletionService

/-! ## The `io_context` -/

/-- An `io_context` with the two services; one that does not exist yet is as it will be constructed. `down`
is set by its destructor. -/
structure State where
  deviceService : DeviceService := {}
  ioCompletion : IoCompletionService := {}
  down : Bool := false
deriving DecidableEq, Repr

/-- `use_device`; the overload without an `error_code&` throws the error after this. -/
def State.useDevice (s : State) (device : Option Device) (config : RdmaConfig) (calls : Calls) :
    State × Outcome :=
  if !calls.deviceService then (s, .thrown)
  else if s.deviceService.registered then (s, .returned (.rdma .alreadyRegistered))
  else
    match device with
    | none => (s, .returned (.rdma .invalidDevice))
    | some dev =>
      if dev.context.isNone then (s, .returned (.rdma .invalidDevice))
      else if !isConfigCompatible config dev.attr then (s, .returned (.rdma .invalidConfig))
      else
        let effective := deriveEffectiveConfig config dev.attr
        if !calls.ioCompletionService then (s, .thrown)
        else
          match s.ioCompletion.initializeCq device effective.cqe effective.cqPollBatch calls with
          | (io, .thrown) => ({ s with ioCompletion := io }, .thrown)
          | (io, .returned ec) =>
            if ec.isError then ({ s with ioCompletion := io }, .returned ec)
            else
              ({ s with
                deviceService := .registerDevice device effective
                ioCompletion := io }, .returned ec)

/-- `~io_context`: the services are shut down, the one that was created last first. -/
def State.shutdown (s : State) : State :=
  { deviceService := s.deviceService.shutdown
    ioCompletion := s.ioCompletion.shutdown
    down := true }

/-- What the user does. -/
inductive Label
  | useDevice (device : Option Device) (config : RdmaConfig) (calls : Calls)
  | shutdown
deriving DecidableEq, Repr

/-- The steps of an `io_context` that exists. -/
def State.step (s : State) (l : Label) : Option State :=
  if s.down then none
  else
    match l with
    | .useDevice device config calls => some (s.useDevice device config calls).1
    | .shutdown => some s.shutdown

/-- One `io_context` over its life. -/
def ioContext : StepSystem State Label := ⟨State.step⟩

end UseDevice

end Ibv

end RdmaOnAsio
