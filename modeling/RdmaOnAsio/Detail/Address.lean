import RdmaOnAsio.Data.FirstMatch

/-!
# The local addresses of a device

An `asio::ip::address` as it is read from a native socket address, and the two addresses that a device of
either backend has room for.
-/

namespace RdmaOnAsio

/-- `AF_INET`, on both platforms. -/
def afInetNative : UInt16 := 2

/-- `asio::ip::address`; the scope id is kept as its bytes. -/
inductive IpAddress
  | v4 (bytes : List UInt8)
  | v6 (bytes scope : List UInt8)
deriving DecidableEq, Repr

namespace IpAddress

/-- `is_v4`. -/
def isV4 : IpAddress → Bool
  | v4 _ => true
  | v6 _ _ => false

/-- `is_v6`. -/
def isV6 : IpAddress → Bool
  | v4 _ => false
  | v6 _ _ => true

end IpAddress

/-- `asio::ip::tcp::endpoint::address`, of an endpoint that was zero and into which the family and the
bytes after it were copied: the port is in the first two of them, and what an IPv6 address has before it
is the flow information. -/
def endpointAddress (family : UInt16) (bytes : List UInt8) : IpAddress :=
  let bytes := bytes ++ List.replicate (26 - bytes.length) 0
  if family == afInetNative then .v4 ((bytes.drop 2).take 4)
  else .v6 ((bytes.drop 6).take 16) ((bytes.drop 22).take 4)

/-- `v4_address_` and `v6_address_` of a device. -/
structure LocalAddresses where
  v4Address : Option IpAddress := none
  v6Address : Option IpAddress := none
deriving DecidableEq, Repr

namespace LocalAddresses

/-- An address is kept if there is none of its family yet. -/
def attach (addresses : LocalAddresses) (address : IpAddress) : LocalAddresses :=
  if address.isV4 then
    if addresses.v4Address.isNone then { addresses with v4Address := some address } else addresses
  else if address.isV6 then
    if addresses.v6Address.isNone then { addresses with v6Address := some address } else addresses
  else addresses

/-- One of the two is there. -/
def any (addresses : LocalAddresses) : Bool :=
  addresses.v4Address.isSome || addresses.v6Address.isSome

theorem v4Address_attach (addresses : LocalAddresses) (address : IpAddress) :
    (addresses.attach address).v4Address =
      addresses.v4Address.or (Option.guard (fun a : IpAddress => a.isV4) address) := by
  obtain ⟨a4, a6⟩ := addresses
  cases address <;> cases a4 <;> cases a6 <;> rfl

theorem v6Address_attach (addresses : LocalAddresses) (address : IpAddress) :
    (addresses.attach address).v6Address =
      addresses.v6Address.or (Option.guard (fun a : IpAddress => a.isV6) address) := by
  obtain ⟨a4, a6⟩ := addresses
  cases address <;> cases a4 <;> cases a6 <;> rfl

/-- What a device has after a number of addresses were attached: the first of each family, unless it had
one. -/
theorem foldl_attach (addresses : LocalAddresses) (l : List IpAddress) :
    l.foldl attach addresses =
      ⟨addresses.v4Address.or (l.find? IpAddress.isV4), addresses.v6Address.or (l.find? IpAddress.isV6)⟩ := by
  induction l generalizing addresses with
  | nil => simp
  | cons address l ih =>
    rw [List.foldl_cons, ih, v4Address_attach, v6Address_attach, Option.or_assoc, Option.or_assoc]
    cases address <;> rfl

/-- A device has an address once one was attached. -/
theorem any_foldl_attach (l : List IpAddress) : (l.foldl attach {}).any = !l.isEmpty := by
  rw [foldl_attach]
  cases l with
  | nil => rfl
  | cons address l => cases address <;> simp [any, IpAddress.isV4, IpAddress.isV6]

end LocalAddresses

end RdmaOnAsio
