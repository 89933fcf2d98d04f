import RdmaOnAsio.Error

/-!
# Ranges of a memory region

`mr_contains_offset` and `mr_offset_of` in the 64-bit arithmetic of the source, and the members of
`ibv_memory_region` and `nd_memory_region` that hand out a range of the region.
-/

namespace RdmaOnAsio

/-- `const_buffer` and `mutable_buffer`: a view into a registered region. An address is the integer it is
cast to, `nullptr` is 0. -/
structure MrBuffer where
  addr : UInt64 := 0
  length : UInt64 := 0
  lkey : UInt32 := 0
deriving DecidableEq, Repr

/-- `rdma_remote_addr_t`. -/
structure RemoteAddr where
  addr : UInt64
  token : UInt32
deriving DecidableEq, Repr

/-- `std::numeric_limits<std::uintptr_t>::max()`, and that of `std::size_t`. -/
def uint64Max : UInt64 := 0xFFFFFFFFFFFFFFFF

/-- `mr_contains_offset`. -/
def mrContainsOffset (regionLength offset length : UInt64) : Bool :=
  offset ≤ regionLength && length ≤ regionLength - offset

/-- `mr_offset_of`. -/
def mrOffsetOf (regionBase regionLength address length : UInt64) : Option UInt64 :=
  if regionBase = 0 ∨ address = 0 then
    none
  else if uint64Max - regionBase < regionLength ∨ address < regionBase then
    none
  else
    let integerOffset := address - regionBase
    -- `std::uintptr_t` is no wider than `std::size_t` on the supported targets
    if uint64Max < integerOffset then
      none
    else if mrContainsOffset regionLength integerOffset length then
      some integerOffset
    else
      none

/-- The keys of a registration: `lkey` and `rkey`, or the local and the remote token. -/
structure MrKeys where
  localKey : UInt32
  remoteKey : UInt32
deriving DecidableEq, Repr

/-- `ibv_memory_region` and `nd_memory_region`, which share the members below except for the slices by
address, of `nd_memory_region` only. `mr` is null after a move. -/
structure MemoryRegion where
  mr : Option MrKeys
  addr : UInt64
  length : UInt64
deriving DecidableEq, Repr

namespace MemoryRegion

/-- `local_key`; throws on a moved-from region. -/
def localKey (r : MemoryRegion) : Except RdmaErrc UInt32 :=
  match r.mr with
  | some keys => .ok keys.localKey
  | none => .error .invalidHandle

/-- `remote_key`; throws on a moved-from region. -/
def remoteKey (r : MemoryRegion) : Except RdmaErrc UInt32 :=
  match r.mr with
  | some keys => .ok keys.remoteKey
  | none => .error .invalidHandle

/-- `is_in_mr(addr, length)`. -/
def isInMrAddr (r : MemoryRegion) (addr length : UInt64) : Bool :=
  r.mr.isSome && (mrOffsetOf r.addr r.length addr length).isSome

/-- `is_in_mr(offset, length)`. -/
def isInMr (r : MemoryRegion) (offset length : UInt64) : Bool :=
  r.mr.isSome && mrContainsOffset r.length offset length

/-- `buffer(mr, offset, n)`. -/
def buffer (r : MemoryRegion) (offset n : UInt64) : Except RdmaErrc MrBuffer :=
  if !r.isInMr offset n then
    .ok {}
  else do
    let lkey ← r.localKey
    return { addr := r.addr + offset, length := n, lkey := lkey }

/-- `slice(offset, length)`. -/
def slice (r : MemoryRegion) (offset length : UInt64) : Except RdmaErrc MrBuffer :=
  r.buffer offset length

/-- `cslice(offset, length)`. -/
def cslice (r : MemoryRegion) (offset length : UInt64) : Except RdmaErrc MrBuffer :=
  r.slice offset length

/-- `slice(addr, length)`. -/
def sliceAddr (r : MemoryRegion) (addr length : UInt64) : Except RdmaErrc MrBuffer :=
  match mrOffsetOf r.addr r.length addr length with
  | some offset => r.slice offset length
  | none => .ok {}

/-- `cslice(addr, length)`. -/
def csliceAddr (r : MemoryRegion) (addr length : UInt64) : Except RdmaErrc MrBuffer :=
  r.sliceAddr addr length

/-- `remote_addr`. -/
def remoteAddr (r : MemoryRegion) (offset length : UInt64) : Except RdmaErrc RemoteAddr :=
  if !r.isInMr offset length then
    .ok { addr := 0, token := 0 }
  else do
    let token ← r.remoteKey
    return { addr := r.addr + offset, token := token }

end MemoryRegion

end RdmaOnAsio
