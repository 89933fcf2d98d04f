import RdmaOnAsio.Nd.CmOp

/-!
# Discovery of the adapters of a provider

A provider lists addresses, and each supported one resolves to the id of an adapter or to an error. The
addresses of an adapter are brought together by sorting and cutting, with the range adaptors
`filter_map`, `sort_by` and `chunk_by`, and each adapter is opened with its addresses.
`std::ranges::sort` is a parameter; the native calls are answered by the environment.
-/

namespace RdmaOnAsio.Nd

/-! ## The range adaptors -/

section Adaptors

variable {α β κ : Type}

/-- The loop of `filter_map`: a value of `fn` is appended to the result. -/
def filterMapLoop (fn : α → Option β) (result : List β) (range : List α) : List β :=
  match range with
  | [] => result
  | item :: range =>
    match fn item with
    | some value => filterMapLoop fn (result ++ [value]) range
    | none => filterMapLoop fn result range

/-- `filter_map`. -/
def filterMap (fn : α → Option β) (range : List α) : List β := filterMapLoop fn [] range

/-- `sort_by`: the items sorted by comparing their keys. -/
def sortBy [LT κ] [DecidableLT κ] (sort : (α → α → Bool) → List α → List α) (keyFn : α → κ)
    (range : List α) : List α :=
  sort (fun a b => keyFn a < keyFn b) range

/-- The loop of `chunk_by`: the element before the one `it` is at, the elements from there on, the chunk
that grows and the chunks that are complete. -/
def chunkLoop (pred : α → α → Bool) (previous : α) (rest current : List α) (chunks : List (List α)) :
    List (List α) :=
  match rest with
  | [] => chunks ++ [current]
  | item :: rest =>
    if pred previous item then chunkLoop pred item rest (current ++ [item]) chunks
    -- `current` is moved from, cleared, and used again
    else chunkLoop pred item rest [item] (chunks ++ [current])

/-- `chunk_by`. -/
def chunkBy (pred : α → α → Bool) (range : List α) : List (List α) :=
  match range with
  | [] => []
  | item :: rest => chunkLoop pred item rest [item] []

end Adaptors

/-- What `std::ranges::sort` asks of a comparison. -/
structure StrictWeakOrder {α : Type} (lt : α → α → Bool) : Prop where
  irrefl : ∀ a, lt a a = false
  trans : ∀ a b c, lt a b = true → lt b c = true → lt a c = true
  incomparable : ∀ a b c, lt a b = false → lt b a = false → lt b c = false → lt c b = false →
    lt a c = false ∧ lt c a = false

/-- What `std::ranges::sort` promises: the elements are permuted, and none comes before a smaller one. -/
def IsSort {α : Type} (sort : (α → α → Bool) → List α → List α) : Prop :=
  ∀ lt, StrictWeakOrder lt → ∀ l, (sort lt l).Perm l ∧ (sort lt l).Pairwise fun a b => lt b a = false

/-! ## The pipeline -/

/-- `nd2_sockaddr_t`: the family, the bytes after it, and the size. -/
structure Nd2Sockaddr where
  family : UInt16
  data : List UInt8
  addressSize : Nat
deriving DecidableEq, Repr

/-- `AF_INET`. -/
def afInet : UInt16 := 2

/-- `AF_INET6`. -/
def afInet6 : UInt16 := 23

/-- `is_supported_addr_family`. -/
def isSupportedAddrFamily (addr : Nd2Sockaddr) : Bool :=
  addr.family == afInet || addr.family == afInet6

/-- `resolved_nd_address`. -/
structure ResolvedNdAddress where
  adapterId : UInt64
  address : Nd2Sockaddr
deriving DecidableEq, Repr

/-- An address of the list, and what `resolve_adapter_id` comes to when it is called for it: an id, or
an error. An address that occurs again is resolved again. -/
structure ListedAddress where
  address : Nd2Sockaddr
  resolved : Option UInt64
deriving DecidableEq, Repr

/-- The stages up to `chunk_by` of `discover_provider_devices`. -/
def groupAddresses
    (sort : (ResolvedNdAddress → ResolvedNdAddress → Bool) → List ResolvedNdAddress →
      List ResolvedNdAddress)
    (addrList : List ListedAddress) : List (List ResolvedNdAddress) :=
  chunkBy (fun a b => a.adapterId == b.adapterId) <|
    sortBy sort ResolvedNdAddress.adapterId <|
      filterMap (fun addr => addr.resolved.map fun id => ⟨id, addr.address⟩) <|
        addrList.filter fun addr => isSupportedAddrFamily addr.address

/-- `discover_provider_devices`. `openDevice` is what `open_device` comes to for an id and its
addresses, null or a device. `std::views::filter` calls the transformation to test a group, and the copy
into the result calls it once more for a group that has passed: `openDevice false` and `openDevice
true`. -/
def discoverProviderDevices {δ : Type}
    (sort : (ResolvedNdAddress → ResolvedNdAddress → Bool) → List ResolvedNdAddress →
      List ResolvedNdAddress)
    (openDevice : Bool → UInt64 → List Nd2Sockaddr → Option δ)
    (enumerated : Option (List ListedAddress)) : List (Option δ) :=
  match enumerated with
  | none => []
  | some addrList =>
    let transform := fun (again : Bool) (chunk : List ResolvedNdAddress) =>
      match chunk with
      | [] => none
      | front :: rest =>
        openDevice again front.adapterId ((front :: rest).map ResolvedNdAddress.address)
    ((groupAddresses sort addrList).filter fun chunk => (transform false chunk).isSome).map
      (transform true)

end RdmaOnAsio.Nd
