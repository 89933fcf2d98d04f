import RdmaOnAsio.Lts.Basic

/-!
# `small_sglist`

A sequence of SGEs that lives in one of two stores: `inline_`, an array of `inline_sge_count` elements, and
`heap_`, a block that is kept once it has been allocated. `data_` points to the store in use.
-/

namespace RdmaOnAsio

universe u

/-- What `data_` points to; `dangling` is a block that `heap_` has released. -/
inductive Storage
  | null
  | inline_
  | heap
  | dangling
deriving DecidableEq, Repr

/-- `std::copy_n(src, n, dst)`: `dst` afterwards. -/
def copyN {α : Type u} (src : List α) (n : Nat) (dst : List α) : List α := src.take n ++ dst.drop n

/-- `small_sglist<NativeSge, InlineCount>`. -/
structure SmallSglist (α : Type u) [Inhabited α] (inlineSgeCount : Nat) where
  inline_ : List α := List.replicate inlineSgeCount default
  heap : Option (List α) := none
  heapCapacity : Nat := 0
  data : Storage := .null
  size : Nat := 0
deriving DecidableEq, Repr

namespace SmallSglist

variable {α : Type u} [Inhabited α] {inlineSgeCount : Nat}

/-- The store `data_` points into. -/
def active (s : SmallSglist α inlineSgeCount) : List α :=
  match s.data with
  | .inline_ => s.inline_
  | .heap => s.heap.getD []
  | .null | .dangling => []

/-- `uses_heap`: `data_ == heap_.get()`, which also holds of two null pointers. -/
def usesHeap (s : SmallSglist α inlineSgeCount) : Bool :=
  match s.data with
  | .heap => true
  | .null => s.heap.isNone
  | .inline_ | .dangling => false

/-- `capacity`. -/
def capacity (s : SmallSglist α inlineSgeCount) : Nat :=
  if s.usesHeap then s.heapCapacity else inlineSgeCount

/-- `operator[]` as a value; `none` where nothing is stored. -/
def read (s : SmallSglist α inlineSgeCount) (i : Nat) : Option α := s.active[i]?

/-- An assignment through `operator[]` or through the reference `append_uninitialized` returns. -/
def write (s : SmallSglist α inlineSgeCount) (i : Nat) (v : α) : SmallSglist α inlineSgeCount :=
  match s.data with
  | .inline_ => { s with inline_ := s.inline_.set i v }
  | .heap => { s with heap := s.heap.map (·.set i v) }
  | .null | .dangling => s

/-- `clear`. -/
def clear (s : SmallSglist α inlineSgeCount) : SmallSglist α inlineSgeCount :=
  { s with data := .null, size := 0 }

/-- `reserve`. -/
def reserve (s : SmallSglist α inlineSgeCount) (count : Nat) : SmallSglist α inlineSgeCount :=
  if count ≤ inlineSgeCount then
    s
  else if s.heapCapacity < count then
    let block := List.replicate count default
    { s with
      heap := some (if s.data = .null then block else copyN s.active s.size block)
      heapCapacity := count
      data :=
        if inlineSgeCount < s.size then .heap
        -- the block `data_` points into is gone
        else if s.data = .heap then .dangling
        else s.data }
  else
    s

/-- `resize`. Nothing is copied from `inline_` to `heap_` here: that is left to `reserve`. -/
def resize (s : SmallSglist α inlineSgeCount) (count : Nat) : SmallSglist α inlineSgeCount :=
  if count = 0 then
    s.clear
  else
    let moveHeapToInline := count ≤ inlineSgeCount ∧ s.usesHeap
    let t := s.reserve count
    { t with
      inline_ := if moveHeapToInline then copyN s.active (min s.size count) t.inline_ else t.inline_
      data := if count ≤ inlineSgeCount then .inline_ else .heap
      size := count }

/-- The first statement of `append_uninitialized`: room for `target` elements, twice the last block. -/
def growTo (s : SmallSglist α inlineSgeCount) (target : Nat) : SmallSglist α inlineSgeCount :=
  if inlineSgeCount < target ∧ s.heapCapacity < target then
    let doubled := if s.heapCapacity = 0 then inlineSgeCount * 2 else s.heapCapacity * 2
    s.reserve (max target doubled)
  else
    s

/-- `append_uninitialized`; the reference it returns is to the last element. -/
def appendUninitialized (s : SmallSglist α inlineSgeCount) : SmallSglist α inlineSgeCount :=
  let target := s.size + 1
  let t := s.growTo target
  { t with
    data := if t.data = .null then .inline_ else if inlineSgeCount < target then .heap else t.data
    size := target }

/-- `append_uninitialized`, and the write of the element it returns. -/
def append (s : SmallSglist α inlineSgeCount) (v : α) : SmallSglist α inlineSgeCount :=
  s.appendUninitialized.write s.size v

/-! ## Histories -/

/-- The operations of a client. -/
inductive Op (α : Type u)
  | reserve (count : Nat)
  | resize (count : Nat)
  | append (v : α)
  | write (i : Nat) (v : α)
  | clear
deriving DecidableEq, Repr

/-- The client's step; an index must be below `size()`. -/
def step (s : SmallSglist α inlineSgeCount) : Op α → Option (SmallSglist α inlineSgeCount)
  | .reserve count => some (s.reserve count)
  | .resize count => some (s.resize count)
  | .append v => some (s.append v)
  | .write i v => if i < s.size then some (s.write i v) else none
  | .clear => some s.clear

/-- The plain growable array under the same operation; `none` is an element that was not written. -/
def Op.apply (l : List (Option α)) : Op α → List (Option α)
  | .reserve _ => l
  | .resize count => l.take count ++ List.replicate (count - l.length) none
  | .append v => l ++ [some v]
  | .write i v => l.set i (some v)
  | .clear => []

/-- A small sglist beside the plain array. -/
structure Paired (α : Type u) [Inhabited α] (inlineSgeCount : Nat) where
  sglist : SmallSglist α inlineSgeCount := {}
  array : List (Option α) := []
deriving DecidableEq, Repr

/-- Both take the same operation. -/
def Paired.step (p : Paired α inlineSgeCount) (op : Op α) : Option (Paired α inlineSgeCount) :=
  (p.sglist.step op).map fun s => { sglist := s, array := op.apply p.array }

/-- The operations on a small sglist as a step system, with the plain array beside it. -/
def paired (α : Type u) [Inhabited α] (inlineSgeCount : Nat) :
    StepSystem (Paired α inlineSgeCount) (Op α) :=
  ⟨Paired.step⟩

end SmallSglist

end RdmaOnAsio
