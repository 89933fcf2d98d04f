import RdmaOnAsio.Detail.Address
import RdmaOnAsio.Nd.Config
import RdmaOnAsio.Nd.Discovery

/-!
# Opening the adapters of a provider

`open_device` opens an adapter and gives it the first address of each family that it is told of: by the
adapter itself, or by the provider if the adapter does not list any. It is what `discover_provider_devices`
calls for every group of addresses. The native calls are answered by the environment.
-/

namespace RdmaOnAsio.Nd

open ErrorCode

/-- What the functions of `nd_device_impl` report: a `std::errc`, or a code of the backend. -/
inductive DeviceError
  | invalidArgument
  | addressNotAvailable
  | notEnoughMemory
  | code (ec : NdErrorCode)
deriving DecidableEq, Repr

/-! ## Addresses -/

/-- A `SOCKET_ADDRESS`: the bytes its pointer points to, and the length it gives. -/
structure SocketAddress where
  bytes : List UInt8
  length : Int
deriving DecidableEq, Repr

/-- `sizeof(sockaddr_storage)`. -/
def sockaddrStorageSize : Nat := 128

/-- `std::memcpy` of the first `n` bytes into a `nd2_sockaddr_t` that is zero. -/
def copySockaddr (bytes : List UInt8) (n : Nat) : Nd2Sockaddr :=
  let storage := bytes.take n ++ List.replicate (sockaddrStorageSize - (bytes.take n).length) 0
  { family := UInt16.ofNat ((storage.getD 0 0).toNat + 256 * (storage.getD 1 0).toNat)
    data := storage.drop 2
    addressSize := n }

/-- `copy_socket_address_list`. A negative length is a large `size_t`; what is too long to copy has the size
zero, and is dropped with what is empty. -/
def copySocketAddressList (addrList : List SocketAddress) : List Nd2Sockaddr :=
  (addrList.map fun sockAddr =>
    if sockAddr.length < 0 ∨ sockAddr.length > (sockaddrStorageSize : Int) then (⟨0, [], 0⟩ : Nd2Sockaddr)
    else copySockaddr sockAddr.bytes sockAddr.length.toNat).filter fun addr => addr.addressSize != 0

/-- `capacity()` of an endpoint, the size of its union of socket addresses. -/
def endpointCapacity : Nat := 28

/-- `to_ip_address`. The family of an endpoint into which nothing is copied is `AF_INET`. -/
def toIpAddress (addr : Nd2Sockaddr) : Option IpAddress :=
  if !isSupportedAddrFamily addr then none
  else if addr.addressSize > endpointCapacity then none
  else
    some (endpointAddress (if addr.addressSize = 0 then afInetNative else addr.family)
      (addr.data.take (addr.addressSize - 2)))

/-- What `QueryAddressList` comes to: the size that the first call asks for, whether the buffer is
allocated, the result of the second call, and the list it wrote. -/
structure AddressListAnswers where
  size : Nat
  allocated : Bool := true
  query : Int := ndSuccess
  addresses : List SocketAddress
deriving DecidableEq, Repr

/-- The body of `enumerate_addr_list` and of `query_adapter_addr_list`. -/
def queryAddressList (answers : AddressListAnswers) : Except DeviceError (List Nd2Sockaddr) :=
  if answers.size = 0 then .error .addressNotAvailable
  else if !answers.allocated then .error .notEnoughMemory
  else if answers.query ≠ ndSuccess then .error (.code (.ndErrc answers.query))
  else if answers.addresses.length = 0 then .error .addressNotAvailable
  else .ok (copySocketAddressList answers.addresses)

/-! ## Opening an adapter -/

/-- What the calls of `open_device` come to: `OpenAdapter`, `Query` and its capabilities, the code of
`query_adapter_name` and the name, `CreateOverlappedFile` and its handle, and `QueryAddressList`. -/
structure OpenAnswers where
  openAdapter : Int := ndSuccess
  query : Int := ndSuccess
  info : NativeContextConfig
  nameEc : NdErrorCode := .common success
  name : String := ""
  overlappedFile : Int := ndSuccess
  handle : Option Nat := some 1
  addressList : AddressListAnswers
deriving DecidableEq, Repr

/-- `nd_adapter_t` with what `open_device` gives it. -/
structure NdDevice extends NdAdapter, LocalAddresses where
  adapterId : UInt64
  name : String
deriving DecidableEq, Repr

/-- `create_overlapped_file`; a handle that cannot be closed is none. -/
def createOverlappedFile (hr : Int) (handle : Option Nat) : Except NdErrorCode Nat :=
  if failed hr then .error (.ndErrc hr)
  else
    match handle with
    | none => .error (.common (.rdma .invalidHandle))
    | some handle => .ok handle

/-- `create_device`. The adapter is told by its id. -/
def createDevice (answers : OpenAnswers) (adapterId : UInt64) : Except DeviceError NdDevice :=
  if answers.openAdapter ≠ ndSuccess then .error (.code (.ndErrc answers.openAdapter))
  else if answers.query ≠ ndSuccess then .error (.code (.ndErrc answers.query))
  else if answers.nameEc.isError then .error (.code answers.nameEc)
  else
    match createOverlappedFile answers.overlappedFile answers.handle with
    | .error ec => .error (.code ec)
    | .ok handle =>
      .ok {
        adapter := some adapterId.toNat
        pd := some handle
        info := answers.info
        adapterId
        name := answers.name }

/-- The device with the given addresses. -/
def NdDevice.withAddresses (device : NdDevice) (addresses : LocalAddresses) : NdDevice :=
  { device with toLocalAddresses := addresses }

/-- What one turn of the loop of `attach_device_addresses` does. -/
def attachDeviceAddress (device : NdDevice) (addr : Nd2Sockaddr) : NdDevice :=
  match toIpAddress addr with
  | none => device
  | some address => device.withAddresses (device.toLocalAddresses.attach address)

/-- `attach_device_addresses`. -/
def attachDeviceAddresses (device : NdDevice) (addresses : List Nd2Sockaddr) : NdDevice :=
  (addresses.filter isSupportedAddrFamily).foldl attachDeviceAddress device

/-- The part of `open_device` that gives the device its addresses. -/
def attachOpened (device : NdDevice) (answers : AddressListAnswers) (providerAddresses : List Nd2Sockaddr) :
    NdDevice :=
  match queryAddressList answers with
  | .error _ => attachDeviceAddresses device providerAddresses
  | .ok adapterAddresses =>
    if !adapterAddresses.isEmpty then attachDeviceAddresses device adapterAddresses
    else attachDeviceAddresses device providerAddresses

/-- `open_device`. -/
def openDevice (answers : OpenAnswers) (adapterId : UInt64) (providerAddresses : List Nd2Sockaddr) :
    Except DeviceError NdDevice :=
  if providerAddresses.isEmpty then .error .invalidArgument
  else
    match createDevice answers adapterId with
    | .error ec => .error ec
    | .ok device =>
      let device := attachOpened device answers.addressList providerAddresses
      if device.v4Address.isNone && device.v6Address.isNone then .error .addressNotAvailable
      else .ok device

/-! ## The devices of a provider -/

/-- What a provider answers: its address list, what `ResolveAddress` comes to for the address at each
place of it, and what opening an adapter comes to when a group of addresses is tested and when it is
copied. -/
structure ProviderAnswers where
  addressList : AddressListAnswers
  resolve : Nat → Option UInt64
  opens : Bool → UInt64 → OpenAnswers

/-- The addresses of the provider, with the ids they resolve to. -/
def ProviderAnswers.listed (answers : ProviderAnswers) : Option (List ListedAddress) :=
  (queryAddressList answers.addressList).toOption.map fun addrList =>
    addrList.zipIdx.map fun addr => ⟨addr.1, answers.resolve addr.2⟩

/-- `discover_provider_devices`; a shared pointer that is null is `none`. -/
def providerDevices
    (sort : (ResolvedNdAddress → ResolvedNdAddress → Bool) → List ResolvedNdAddress →
      List ResolvedNdAddress)
    (answers : ProviderAnswers) : List (Option NdDevice) :=
  discoverProviderDevices sort
    (fun again adapterId addresses => (openDevice (answers.opens again adapterId) adapterId addresses).toOption)
    answers.listed

end RdmaOnAsio.Nd
