import RdmaOnAsio.Detail.Address
import RdmaOnAsio.Ibv.UseDevice

/-!
# Discovery of the ibv devices

`get_devices` makes a device of every context that librdmacm knows, gives it the first local address of each
family that binds to its context, and keeps the devices that got one. `ibv_device_manager_t` holds the list
and selects from it. The native calls are answered by the environment.
-/

namespace RdmaOnAsio.Ibv

open ErrorCode

/-- `AF_INET6`. -/
def afInet6 : UInt16 := 10

/-- A `sockaddr`: the family, and the bytes after it. -/
structure Sockaddr where
  family : UInt16
  data : List UInt8
deriving DecidableEq, Repr

/-- `sockaddr_size`, of a pointer that may be null. -/
def sockaddrSize : Option Sockaddr → Nat
  | none => 0
  | some addr =>
    if addr.family == afInetNative then 16
    else if addr.family == afInet6 then 28
    else 0

/-- `to_ip_address`. The size counts the two bytes of the family. -/
def toIpAddress (addr : Option Sockaddr) : Option IpAddress :=
  match addr with
  | none => none
  | some sockaddr =>
    let size := sockaddrSize addr
    if size = 0 then none else some (endpointAddress sockaddr.family (sockaddr.data.take (size - 2)))

/-! ## The native answers -/

/-- What `create_device` is answered for an entry of the array of `rdma_get_devices`: the context, which
may be null; the `errno` of `ibv_alloc_pd` and `ibv_query_device`, if they fail; the capabilities; and
the name, if there is one. -/
structure DeviceAnswers where
  context : Option Nat
  allocPd : Option Int := none
  queryDevice : Option Int := none
  attr : NativeDeviceAttr
  name : Option String := none
deriving DecidableEq, Repr

/-- An `ifaddrs`: its address, the flags that are looked at, and what `rdma_create_id` and `rdma_bind_addr`
return for the address and the context the id is then bound to. -/
structure Interface where
  addr : Option Sockaddr
  up : Bool := true
  loopback : Bool := false
  createId : Int := 0
  bindAddr : Int := 0
  verbs : Option Nat
deriving DecidableEq, Repr

/-- What `get_devices` finds: the array of `rdma_get_devices`, which may be null, and the list of
`getifaddrs` or its `errno`. -/
structure Environment where
  devices : Option (List DeviceAnswers)
  interfaces : Except Int (List Interface)

/-! ## `ibv_device_impl` -/

/-- `ibv_device_t`; the PD is that of its context. -/
structure IbvDevice extends LocalAddresses where
  context : Nat
  attr : NativeDeviceAttr
  name : String
deriving DecidableEq, Repr

/-- `create_device`. -/
def createDevice (answers : DeviceAnswers) : ErrorCode × Option IbvDevice :=
  match answers.context with
  | none => (.rdma .invalidDevice, none)
  | some context =>
    match answers.allocPd with
    | some errno => (makeSystemErrorCode errno, none)
    | none =>
      match answers.queryDevice with
      | some errno => (makeSystemErrorCode errno, none)
      | none =>
        (success, some { context, attr := answers.attr, name := answers.name.getD "" })

/-- `is_candidate_local_address`. -/
def isCandidateLocalAddress (interface : Interface) : Bool :=
  if interface.addr.isNone then false
  else if !interface.up || interface.loopback then false
  else sockaddrSize interface.addr != 0

/-- `bindable_context_for`. -/
def bindableContextFor (interface : Interface) : Option Nat :=
  if interface.createId ≠ 0 then none
  else if interface.bindAddr ≠ 0 then none
  else interface.verbs

/-- The device with the given addresses. -/
def IbvDevice.withAddresses (device : IbvDevice) (addresses : LocalAddresses) : IbvDevice :=
  { device with toLocalAddresses := addresses }

/-- `attach_device_address`. -/
def attachDeviceAddress (address : IpAddress) (device : IbvDevice) : IbvDevice :=
  device.withAddresses (device.toLocalAddresses.attach address)

/-- What one turn of the loop of `attach_local_addresses` does to the devices. -/
def attachLocalAddress (devices : List IbvDevice) (interface : Interface) : List IbvDevice :=
  if !isCandidateLocalAddress interface then devices
  else
    match toIpAddress interface.addr with
    | none => devices
    | some address =>
      match bindableContextFor interface with
      | none => devices
      | some context => modifyFirst (·.context == context) (attachDeviceAddress address) devices

/-- `attach_local_addresses`. A `getifaddrs` that fails leaves no list. -/
def attachLocalAddresses (devices : List IbvDevice) (interfaces : Except Int (List Interface)) :
    ErrorCode × List IbvDevice :=
  let ec :=
    match interfaces with
    | .error errno => makeSystemErrorCode errno
    | .ok _ => success
  if ec.isError then (ec, devices)
  else
    match interfaces with
    | .error _ => (success, devices)
    | .ok interfaces => (success, interfaces.foldl attachLocalAddress devices)

/-- `has_local_address`. -/
def hasLocalAddress (device : IbvDevice) : Bool := device.toLocalAddresses.any

/-- The loop of `get_devices` over the array. An entry that is not usable is skipped. -/
def createDevices (array : List DeviceAnswers) : List IbvDevice :=
  array.filterMap fun answers =>
    let (ec, device) := createDevice answers
    if ec.isError then none else device

/-- `get_devices`. -/
def getDevices (env : Environment) : ErrorCode × List IbvDevice :=
  match env.devices with
  | none => (.rdma .noAvailableDevice, [])
  | some array =>
    if array.length = 0 then (.rdma .noAvailableDevice, [])
    else
      let (ec, devices) := attachLocalAddresses (createDevices array) env.interfaces
      if ec.isError then (ec, [])
      else
        let devices := devices.filter hasLocalAddress
        if devices.isEmpty then (.rdma .noAvailableDevice, devices) else (success, devices)

/-! ## `ibv_device_manager_t` -/

/-- The constructor of the manager, which throws what `get_devices` reports. -/
def deviceManager (env : Environment) : Except ErrorCode (List IbvDevice) :=
  let (ec, devices) := getDevices env
  if ec.isError then .error ec else .ok devices

/-- `get_first_available_device`. No device of the list is null or without a context. -/
def getFirstAvailableDevice (devices : List IbvDevice) (config : RdmaConfig) : Option IbvDevice :=
  devices.find? fun device => isConfigCompatible config device.attr

/-- `for_each_device`: the devices `func` is called for, until it returns false. -/
def forEachDevice (func : IbvDevice → Bool) : List IbvDevice → List IbvDevice
  | [] => []
  | device :: devices => if !func device then [device] else device :: forEachDevice func devices

/-- The device as `use_device` sees it. -/
def IbvDevice.selected (device : IbvDevice) : UseDevice.Device := ⟨some device.context, device.attr⟩

end RdmaOnAsio.Ibv
