import Mathlib.Algebra.GroupWithZero.Nat
import RdmaOnAsio.Detail.MrRange
import RdmaOnAsio.Detail.SmallSglist

/-!
# Building a scatter/gather list

`build_native_sglist` of both backends, which differ in the native SGE that `fill_native_sge` writes, over
`small_sglist` and in the 64-bit arithmetic of the source. Below it, what an exact build is, in unbounded
integers.
-/

namespace RdmaOnAsio

universe u

/-- `std::numeric_limits<std::uint32_t>::max()`, the bound of a segment and of an operation. -/
def maxOperation : UInt64 := 0xFFFFFFFF

/-- `built_sglist`. `data` is where `sglist.data()` points. -/
structure BuiltSglist where
  data : Storage := .null
  count : Nat := 0
  totalBytes : UInt64 := 0
  allEmpty : Bool := true
  tooManySge : Bool := false
  bufferTooLarge : Bool := false
  heapSpilled : Bool := false
deriving DecidableEq, Repr

namespace BuiltSglist

variable {σ : Type u} [Inhabited σ] {inlineSgeCount : Nat}

/-- The last two assignments before every return. -/
def finish (built : BuiltSglist) (sglist : SmallSglist σ inlineSgeCount) : BuiltSglist :=
  { built with data := sglist.data, heapSpilled := sglist.usesHeap }

/-- The loop of `build_native_sglist`. -/
def loop (fill : MrBuffer → σ) (maxSge : UInt32) (built : BuiltSglist)
    (sglist : SmallSglist σ inlineSgeCount) :
    List MrBuffer → BuiltSglist × SmallSglist σ inlineSgeCount
  | [] => (built.finish sglist, sglist)
  | b :: bs =>
    if maxSge ≠ 0 ∧ maxSge.toNat ≤ built.count then
      ({ built with tooManySge := true }.finish sglist, sglist)
    -- the length is tested first, so the difference does not wrap where it decides
    else if maxOperation < b.length ∨ maxOperation - b.length < built.totalBytes then
      ({ built with bufferTooLarge := true }.finish sglist, sglist)
    else
      loop fill maxSge
        { built with
          count := built.count + 1
          totalBytes := built.totalBytes + b.length
          allEmpty := built.allEmpty && b.length == 0 }
        (sglist.append (fill b)) bs

end BuiltSglist

/-- `build_native_sglist`: what it returns, and the sglist it leaves. -/
def buildNativeSglist {σ : Type u} [Inhabited σ] {inlineSgeCount : Nat} (fill : MrBuffer → σ)
    (bs : List MrBuffer) (sglist : SmallSglist σ inlineSgeCount) (maxSge : UInt32) :
    BuiltSglist × SmallSglist σ inlineSgeCount :=
  BuiltSglist.loop fill maxSge {} sglist.clear bs

/-! ## What a build should be -/

/-- The bytes of the first `k` buffers. -/
def bytesOf (bs : List MrBuffer) (k : Nat) : Nat := ((bs.take k).map fun b => b.length.toNat).sum

/-- The element at index `i` is one more than `max_sge` allows. -/
def TooManyAt (maxSge : UInt32) (i : Nat) : Prop := maxSge ≠ 0 ∧ maxSge.toNat ≤ i

/-- With the element at index `i` the sequence is longer than an operation can be. -/
def TooLargeAt (bs : List MrBuffer) (i : Nat) : Prop := 2 ^ 32 - 1 < bytesOf bs (i + 1)

/-- The build of `bs` is exact; `rep sge b` says that `sge` holds the fields of `b`. -/
structure BuildExact {σ : Type u} [Inhabited σ] {inlineSgeCount : Nat} (rep : σ → MrBuffer → Prop)
    (maxSge : UInt32) (bs : List MrBuffer) (built : BuiltSglist)
    (sglist : SmallSglist σ inlineSgeCount) : Prop where
  /-- No error is reported exactly if both limits are kept. -/
  accepted : built.tooManySge = false ∧ built.bufferTooLarge = false ↔
    (maxSge = 0 ∨ bs.length ≤ maxSge.toNat) ∧ bytesOf bs bs.length ≤ 2 ^ 32 - 1
  /-- Then every element has been taken. -/
  complete : built.tooManySge = false → built.bufferTooLarge = false → built.count = bs.length
  /-- Otherwise the one flag is that of the element the build stopped at, the count limit first. -/
  refused : built.tooManySge = true ∨ built.bufferTooLarge = true →
    built.count < bs.length ∧
      (built.tooManySge = true ∧ built.bufferTooLarge = false ∧ TooManyAt maxSge built.count ∨
        built.tooManySge = false ∧ built.bufferTooLarge = true ∧ ¬ TooManyAt maxSge built.count ∧
          TooLargeAt bs built.count)
  /-- No element before it offends. -/
  first : ∀ i, i < built.count → ¬ TooManyAt maxSge i ∧ ¬ TooLargeAt bs i
  /-- The list holds the elements that were taken, in order. -/
  stored : ∀ i, i < built.count → ∃ b sge, bs[i]? = some b ∧ sglist.read i = some sge ∧ rep sge b
  size : sglist.size = built.count
  data : built.data = sglist.data
  total : built.totalBytes.toNat = bytesOf bs built.count
  allEmpty : built.allEmpty = true ↔ ∀ b ∈ bs.take built.count, b.length = 0
  /-- The capacity the list doubles is no more than twice the elements taken. -/
  room : sglist.heapCapacity ≤ 2 * built.count

end RdmaOnAsio
