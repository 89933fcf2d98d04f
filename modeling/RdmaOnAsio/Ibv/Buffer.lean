import RdmaOnAsio.Error

/-!
# Buffers and scatter/gather lists

The registered buffers an op is posted with, and the list of `ibv_sge` that is built from them.
-/

namespace RdmaOnAsio.Ibv

/-- `const_buffer` / `mutable_buffer`: an address, a 64-bit length and the key of its memory region. -/
structure Buffer where
  addr : Nat
  length : Nat
  localKey : Nat := 0
deriving DecidableEq, Repr

/-- `ibv_sge`. -/
structure NativeSge where
  addr : Nat
  length : Nat
  lkey : Nat
deriving DecidableEq, Repr

/-- `std::numeric_limits<std::uint32_t>::max()`, the bound of a segment and of an operation. -/
def uint32Max : Nat := 4294967295

/-- `fill_native_sge`; the length is cast to 32 bits. -/
def fillNativeSge (b : Buffer) : NativeSge :=
  { addr := b.addr, length := b.length % (uint32Max + 1), lkey := b.localKey }

/-- `built_sglist`; `count` is the length of `data`. -/
structure BuiltSglist where
  data : List NativeSge := []
  totalBytes : Nat := 0
  allEmpty : Bool := true
  tooManySge : Bool := false
  bufferTooLarge : Bool := false
deriving DecidableEq, Repr

/-- The loop of `build_native_sglist`, with `built` behind it. -/
def buildFrom (maxSge : Nat) (built : BuiltSglist) : List Buffer → BuiltSglist
  | [] => built
  | b :: bs =>
    if maxSge ≠ 0 ∧ maxSge ≤ built.data.length then
      { built with tooManySge := true }
    else if uint32Max < b.length ∨ uint32Max - b.length < built.totalBytes then
      { built with bufferTooLarge := true }
    else
      buildFrom maxSge
        { built with
          data := built.data ++ [fillNativeSge b]
          totalBytes := built.totalBytes + b.length
          allEmpty := built.allEmpty && b.length == 0 } bs

/-- `build_native_sglist`. -/
def buildNativeSglist (bs : List Buffer) (maxSge : Nat) : BuiltSglist := buildFrom maxSge {} bs

/-- The buffer sequences `do_post_*` tells apart by type. -/
inductive BufferSequence
  | single (b : Buffer)
  | sequence (bs : List Buffer)
deriving DecidableEq, Repr

end RdmaOnAsio.Ibv
