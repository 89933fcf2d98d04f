import RdmaOnAsio.Lts.Basic
import RdmaOnAsio.Nd.Device

/-!
# `use_device` on the nd backend

`use_device` checks the adapter and the configuration, has `nd_io_completion_service` make the shared CQ
on an overlapped file of its own, and registers the device with `nd_device_service` once that has
succeeded. Every call that can fail or throw is answered by the environment.
-/

namespace RdmaOnAsio.Nd

open ErrorCode

namespace UseDevice

/-- `nd_device_service`. -/
structure DeviceService where
  device : Option NdAdapter := none
  effectiveConfig : RdmaConfig := {}
  registered : Bool := false
deriving DecidableEq, Repr

namespace DeviceService

/-- `register_device`. -/
def registerDevice (device : Option NdAdapter) (effective : RdmaConfig) : DeviceService :=
  ⟨device, effective, true⟩

/-- `shutdown`. -/
def shutdown (s : DeviceService) : DeviceService := { s with device := none, registered := false }

end DeviceService

/-- `nd_io_completion_service`: `cq_`, by the depth it was created with; whether there is a `cq_handle_` and
the completion port knows it; and the size of `wc_buf_`. -/
structure IoCompletionService where
  cq : Option UInt32 := none
  cqHandle : Option Nat := none
  portHandle : Option Nat := none
  wcBuf : Nat := 0
deriving DecidableEq, Repr

/-- What the calls of `use_device` come to: whether `use_service` returns either service, rather than
throw; `CreateOverlappedFile` and its handle; `CreateCompletionQueue`; the code of `register_handle`;
and whether the storage of `wc_buf_` is allocated. -/
structure Calls where
  deviceService : Bool := true
  ioCompletionService : Bool := true
  overlappedFile : Int := ndSuccess
  handle : Option Nat := some 1
  createCq : Int := ndSuccess
  registerHandle : ErrorCode := success
  allocated : Bool := true
deriving DecidableEq, Repr

/-- How a call ends: it returns with its `error_code&`, or an exception leaves it. -/
inductive Outcome
  | returned (ec : NdErrorCode)
  | thrown
deriving DecidableEq, Repr

/-- `is_valid_adapter`, of a pointer that may be null. -/
def isValidAdapterPtr : Option NdAdapter → Bool
  | none => false
  | some adapter => adapter.adapter.isSome

/-- `wc_buf_.resize(n)`; `none` when it throws. An `std::uint32_t` of results is less than a vector can
have. -/
def resizeWcBuf (size n : Nat) (allocated : Bool) : Option Nat :=
  if n ≤ size ∨ allocated then some n else none

namespace IoCompletionService

/-- `initialize`. Each failure that is returned undoes the calls before it. -/
def initializeCq (s : IoCompletionService) (device : Option NdAdapter) (cqe pollBatch : UInt32)
    (calls : Calls) : IoCompletionService × Outcome :=
  if s.cq.isSome then (s, .returned (.common (.rdma .alreadyRegistered)))
  else if !isValidAdapterPtr device then (s, .returned (.common (.rdma .invalidDevice)))
  else
    match createOverlappedFile calls.overlappedFile calls.handle with
    | .error ec => (s, .returned ec)
    | .ok handle =>
      let s := { s with cqHandle := some handle }
      let ec := NdErrorCode.ndErrc calls.createCq
      if ec.isError then ({ s with cqHandle := none }, .returned ec)
      else
        let s := { s with cq := some cqe }
        if calls.registerHandle.isError then
          ({ s with cq := none, cqHandle := none }, .returned (.common calls.registerHandle))
        else
          let s := { s with portHandle := s.cqHandle }
          let n := (if pollBatch ≠ 0 then pollBatch else defaultCqPollBatch).toNat
          -- nothing catches what the vector throws
          match resizeWcBuf s.wcBuf n calls.allocated with
          | none => (s, .thrown)
          | some n => ({ s with wcBuf := n }, .returned (.common calls.registerHandle))

/-- `shutdown`. A handle that is closed is not with the port any more. -/
def shutdown (s : IoCompletionService) : IoCompletionService :=
  { s with cq := none, cqHandle := none, portHandle := none }

end IoCompletionService

/-- An `io_context` with the two services; one that does not exist yet is as it will be constructed. `down`
is set by its destructor. -/
structure State where
  deviceService : DeviceService := {}
  ioCompletion : IoCompletionService := {}
  down : Bool := false
deriving DecidableEq, Repr

/-- `use_device`; the overload without an `error_code&` throws the error after this. -/
def State.useDevice (s : State) (device : Option NdAdapter) (config : RdmaConfig) (calls : Calls) :
    State × Outcome :=
  if !calls.deviceService then (s, .thrown)
  else if s.deviceService.registered then (s, .returned (.common (.rdma .alreadyRegistered)))
  else
    match device with
    | none => (s, .returned (.common (.rdma .invalidDevice)))
    | some adapter =>
      if !isValidAdapterPtr device then (s, .returned (.common (.rdma .invalidDevice)))
      else if !isConfigCompatible config adapter.info then (s, .returned (.common (.rdma .invalidConfig)))
      else
        let effective := deriveEffectiveConfig config adapter.info
        if !calls.ioCompletionService then (s, .thrown)
        else
          match s.ioCompletion.initializeCq device effective.cqe effective.cqPollBatch calls with
          | (io, .thrown) => ({ s with ioCompletion := io }, .thrown)
          | (io, .returned ec) =>
            if ec.isError then ({ s with ioCompletion := io }, .returned ec)
            else
              ({ s with
                deviceService := .registerDevice device effective
                ioCompletion := io }, .returned ec)

/-- `~io_context`. -/
def State.shutdown (s : State) : State :=
  { deviceService := s.deviceService.shutdown
    ioCompletion := s.ioCompletion.shutdown
    down := true }

/-- What the user does. -/
inductive Label
  | useDevice (device : Option NdAdapter) (config : RdmaConfig) (calls : Calls)
  | shutdown
deriving DecidableEq, Repr

/-- The steps of an `io_context` that exists. -/
def State.step (s : State) (l : Label) : Option State :=
  if s.down then none
  else
    match l with
    | .useDevice device config calls => some (s.useDevice device config calls).1
    | .shutdown => some s.shutdown

/-- One `io_context` over its life. -/
def ioContext : StepSystem State Label := ⟨State.step⟩

end UseDevice

end RdmaOnAsio.Nd
