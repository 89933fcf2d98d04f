import RdmaOnAsio.Detail.Proofs.MrRange
import RdmaOnAsio.ByteAccounting

/-!
# The memory that is posted

From a memory region to the native post: a program makes buffers of its regions, `do_post_*` makes a list of
native SGEs of them, and the work request carries the list. What the device is told to access is the bytes of
the buffers in their order, no other ones, and inside the regions under their own keys.
-/

namespace RdmaOnAsio

open ErrorCode
open Ibv (OpType)

universe u v w

/-! ## Buffers of a region -/

/-- What a program makes a buffer of: `buffer(mr)`, `buffer(mr, offset, n)` with `slice` and `cslice`, or
`slice(addr, n)` and `cslice(addr, n)` of an `nd_memory_region`. -/
inductive Part
  | whole
  | range (offset n : UInt64)
  | address (addr n : UInt64)
deriving DecidableEq, Repr

namespace MemoryRegion

/-- `buffer(mr)`. -/
def bufferAll (r : MemoryRegion) : Except RdmaErrc MrBuffer := do
  let lkey ← r.localKey
  return { addr := r.addr, length := r.length, lkey := lkey }

/-- The buffer of a part. -/
def part (r : MemoryRegion) : Part → Except RdmaErrc MrBuffer
  | .whole => r.bufferAll
  | .range offset n => r.slice offset n
  | .address addr n => r.sliceAddr addr n

/-- `n` bytes at `addr` are in the region, under the key of its registration; in unbounded integers. -/
def Contains (r : MemoryRegion) (addr : UInt64) (n : Nat) (key : UInt32) : Prop :=
  r.localKey = .ok key ∧ r.addr.toNat ≤ addr.toNat ∧ addr.toNat + n ≤ r.addr.toNat + r.length.toNat

/-- The region ends below the top of the address space. -/
def Fits (r : MemoryRegion) : Prop := r.addr.toNat + r.length.toNat ≤ uint64Max.toNat

instance (r : MemoryRegion) : Decidable r.Fits := inferInstanceAs (Decidable (_ ≤ _))

variable {r : MemoryRegion} {b : MrBuffer} {p : Part}

theorem contains_buffer (hr : r.Fits) {offset n : UInt64} (hb : r.buffer offset n = .ok b) :
    b = {} ∨ r.Contains b.addr b.length.toNat b.lkey := by
  by_cases hin : r.isInMr offset n = true
  · obtain ⟨keys, hkeys⟩ := Option.isSome_iff_exists.1 (isInMr_iff.1 hin).1
    have hkey : r.localKey = .ok keys.localKey := by
      rw [localKey, hkeys]
    rw [buffer, if_neg (by simpa using hin), hkey] at hb
    obtain rfl := Except.ok.inj hb
    obtain ⟨haddr, hend⟩ := covers_add hr hin
    refine .inr ⟨hkey, ?_, hend⟩
    show r.addr.toNat ≤ (r.addr + offset).toNat
    omega
  · rw [buffer_of_not_isInMr hin] at hb
    exact .inl (Except.ok.inj hb).symm

/-- A buffer that is made of a region is empty, or lies in the region and has its key. -/
theorem contains_part (hr : r.Fits) (hb : r.part p = .ok b) :
    b = {} ∨ r.Contains b.addr b.length.toNat b.lkey := by
  cases p with
  | whole =>
    cases hkey : r.localKey with
    | error e =>
      rw [part, bufferAll, hkey] at hb
      cases hb
    | ok key =>
      rw [part, bufferAll, hkey] at hb
      obtain rfl := Except.ok.inj hb
      exact .inr ⟨hkey, Nat.le_refl _, Nat.le_refl _⟩
  | range offset n => exact contains_buffer hr hb
  | address addr n =>
    rw [part, sliceAddr] at hb
    cases hoffset : mrOffsetOf r.addr r.length addr n with
    | none =>
      rw [hoffset] at hb
      exact .inl (Except.ok.inj hb).symm
    | some offset =>
      rw [hoffset] at hb
      exact contains_buffer hr hb

end MemoryRegion

/-! ## What is handed to the native post -/

/-- Every buffer of the sequence is made of one of the regions. -/
def MrBufferSequence.MadeOf (bs : MrBufferSequence) (rs : List MemoryRegion) : Prop :=
  ∀ b ∈ bs.buffers, ∃ r ∈ rs, ∃ p, r.part p = .ok b

/-- The sequence keeps the limits of an operation and is not empty. -/
def MrBufferSequence.Postable (bs : MrBufferSequence) (sgeMax : UInt32) : Prop :=
  (sgeMax = 0 ∨ bs.buffers.length ≤ sgeMax.toNat) ∧ bs.total ≤ 2 ^ 32 - 1 ∧ bs.total ≠ 0

section Posts

variable {σ : Type u} {ω : Type v} {ε : Type w} [Inhabited σ] {P : PostParams σ ω ε}

/-- The list of an exact build holds the elements in order. -/
theorem active_of_exact {fill : MrBuffer → σ} {maxSge : UInt32} {bs : List MrBuffer} {built : BuiltSglist}
    {sglist : SmallSglist σ 8} (h : BuildExact (fun sge b => sge = fill b) maxSge bs built sglist)
    (hcount : built.count = bs.length) : sglist.active.take built.count = bs.map fill := by
  refine List.ext_getElem? fun i => ?_
  by_cases hi : i < built.count
  · obtain ⟨b, sge, hb, hread, rfl⟩ := h.stored i hi
    rw [List.getElem?_take_of_lt hi, List.getElem?_map, hb]
    exact hread
  · rw [List.getElem?_eq_none (by rw [List.length_take]; omega),
      List.getElem?_eq_none (by rw [List.length_map]; omega)]

/-- A sequence is posted exactly if it is accepted, with one SGE for each buffer, in order. -/
theorem PostParams.wr_sequence
    (hpost : ∀ sges count, P.post sges count = P.post (sges.take count) count) (op : DataOp ε)
    (bs : List MrBuffer) (wr : ω) :
    (P.doPost op (.sequence bs)).wr = some wr ↔
      MrBufferSequence.Postable (.sequence bs) P.sgeMax ∧ (P.post (bs.map P.fill) bs.length).1 = wr := by
  have hexact : BuildExact (fun sge b => sge = P.fill b) P.sgeMax bs
      (buildNativeSglist P.fill bs ({} : SmallSglist σ 8) P.sgeMax).1
      (buildNativeSglist P.fill bs ({} : SmallSglist σ 8) P.sgeMax).2 := by
    refine buildNativeSglist_exact (by decide) ?_ bs P.sgeMax
    intro b _
    rfl
  have hnone : ∀ {Q R : Prop}, ¬ Q → ((none : Option ω) = some wr ↔ Q ∧ R) := fun hQ =>
    iff_of_false nofun fun h => hQ h.1
  simp only [doPost]
  generalize buildNativeSglist P.fill bs ({} : SmallSglist σ 8) P.sgeMax = r at hexact ⊢
  obtain ⟨built, sglist⟩ := r
  dsimp only at hexact ⊢
  have hbuilt : MrBufferSequence.Postable (.sequence bs) P.sgeMax →
      built.tooManySge = false ∧ built.bufferTooLarge = false := by
    intro hok
    exact hexact.accepted.2 ⟨hok.1, hok.2.1⟩
  by_cases hmany : built.tooManySge = true
  · rw [if_pos hmany]
    exact hnone fun hok => Bool.noConfusion (hmany.symm.trans (hbuilt hok).1)
  rw [if_neg hmany]
  by_cases hlarge : built.bufferTooLarge = true
  · rw [if_pos hlarge]
    exact hnone fun hok => Bool.noConfusion (hlarge.symm.trans (hbuilt hok).2)
  rw [if_neg hlarge]
  rw [Bool.not_eq_true] at hmany hlarge
  have hcount := hexact.complete hmany hlarge
  have hempty : built.allEmpty = true ↔ MrBufferSequence.total (.sequence bs) = 0 := by
    rw [hexact.allEmpty, hcount, MrBufferSequence.total, MrBufferSequence.buffers, bytesOf_eq_zero]
  by_cases hz : built.allEmpty = true
  · rw [if_pos hz]
    exact hnone fun hok => hok.2.2 (hempty.1 hz)
  · rw [if_neg hz]
    obtain ⟨hmax, htotal⟩ := hexact.accepted.1 ⟨hmany, hlarge⟩
    have hposted : P.post sglist.active built.count = P.post (bs.map P.fill) bs.length := by
      rw [hpost, active_of_exact hexact hcount, hcount]
    unfold submit
    rw [hposted, Option.some.injEq]
    exact ⟨fun h => ⟨⟨hmax, htotal, fun h0 => hz (hempty.2 h0)⟩, h⟩, fun h => h.2⟩

/-- Both paths of a `do_post_*`. -/
theorem PostParams.wr_iff
    (hpost : ∀ sges count, P.post sges count = P.post (sges.take count) count) (op : DataOp ε)
    (bs : MrBufferSequence) (wr : ω) :
    (P.doPost op bs).wr = some wr ↔
      bs.Postable P.sgeMax ∧ (P.post (bs.buffers.map P.fill) bs.buffers.length).1 = wr := by
  cases bs with
  | single b =>
    rw [P.doPost_single hpost op b]
    exact P.wr_sequence hpost op [b] wr
  | sequence bs => exact P.wr_sequence hpost op bs wr

end Posts

/-! ## What the device is told -/

/-- What a native SGE tells the device to access. -/
structure Segment where
  addr : UInt64
  length : UInt32
  key : UInt32
deriving DecidableEq, Repr

/-- The SGEs of a work request. -/
def Ibv.Verbs.NativeWr.segments : Ibv.Verbs.NativeWr → List Segment
  | .recv _ sgList _ | .send _ sgList _ _ _ _ => sgList.map fun sge => ⟨sge.addr, sge.length, sge.lkey⟩

/-- The number of SGEs the native call is told. -/
def Ibv.Verbs.NativeWr.count : Ibv.Verbs.NativeWr → Int
  | .recv _ _ numSge | .send _ _ numSge _ _ _ => numSge.toInt

/-- The SGEs of a work request. -/
def Nd.Verbs.NativeRequest.segments : Nd.Verbs.NativeRequest → List Segment
  | .send _ sges _ | .receive _ sges _ | .read _ sges _ _ _ | .write _ sges _ _ _ =>
    sges.map fun sge => ⟨sge.buffer, sge.bufferLength, sge.memoryRegionToken⟩

/-- The number of SGEs the native call is told. -/
def Nd.Verbs.NativeRequest.count : Nd.Verbs.NativeRequest → Int
  | .send _ _ count | .receive _ _ count | .read _ _ count _ _ | .write _ _ count _ _ => count.toNat

/-- The limit a `do_post_*` keeps to. -/
def SgeConfig.limit (cfg : SgeConfig) : OpType → UInt32
  | .postRecv => cfg.maxRecvSge
  | .postSend | .remoteRead | .remoteWrite => cfg.maxSendSge

/-- The segments are the buffers, one by one and counted right as long as an `int` can count them, and each that
is not empty lies in one of the regions, under its key. -/
structure Segment.Cover (rs : List MemoryRegion) (bs : MrBufferSequence) (segments : List Segment)
    (count : Int) : Prop where
  exact : segments.map (fun g => (g.addr, g.length.toNat, g.key)) =
    bs.buffers.map fun b => (b.addr, b.length.toNat, b.lkey)
  counted : bs.buffers.length < 2 ^ 31 → count = bs.buffers.length
  inside : ∀ g ∈ segments, g.length = 0 ∨ ∃ r ∈ rs, r.Contains g.addr g.length.toNat g.key

variable {rs : List MemoryRegion} {bs : MrBufferSequence} {max : UInt32}

theorem length_le_total {b : MrBuffer} (hb : b ∈ bs.buffers) : b.length.toNat ≤ bs.total := by
  obtain ⟨i, hi⟩ := List.mem_iff_getElem?.1 hb
  have hlt := (List.getElem?_eq_some_iff.1 hi).1
  have hle : bytesOf bs.buffers (i + 1) ≤ bs.total := bytesOf_mono hlt
  rw [bytesOf_succ hi] at hle
  omega

/-- The SGEs of buffers that were made of the regions. -/
theorem Segment.cover_fill (hrs : ∀ r ∈ rs, r.Fits)
    (hbs : bs.MadeOf rs) (hok : bs.Postable max) {count : Int}
    (hcount : bs.buffers.length < 2 ^ 31 → count = bs.buffers.length) :
    Cover rs bs (bs.buffers.map fun b => ⟨b.addr, b.length.toUInt32, b.lkey⟩) count := by
  have hlength : ∀ b ∈ bs.buffers, b.length.toUInt32.toNat = b.length.toNat := by
    intro b hb
    have hle := length_le_total hb
    have htotal := hok.2.1
    exact toNat_toUInt32 (by omega)
  refine ⟨?_, hcount, fun g hg => ?_⟩
  · rw [List.map_map]
    refine List.map_congr_left fun b hb => ?_
    simp only [Function.comp_apply, hlength b hb]
  · obtain ⟨b, hb, rfl⟩ := List.mem_map.1 hg
    obtain ⟨r, hr, p, hp⟩ := hbs b hb
    rcases r.contains_part (hrs r hr) hp with rfl | hcontains
    · exact .inl rfl
    · refine .inr ⟨r, hr, ?_⟩
      dsimp only
      rw [hlength b hb]
      exact hcontains

/-- A post that carries the SGEs it is given, as the segments they stand for. -/
theorem PostParams.posted_cover {σ : Type u} {ω : Type v} {ε : Type w} [Inhabited σ]
    {P : PostParams σ ω ε} (hpost : ∀ sges count, P.post sges count = P.post (sges.take count) count)
    (segments : ω → List Segment) (segment : σ → Segment)
    (hsegments : ∀ sges, segments (P.post sges sges.length).1 = sges.map segment)
    (hfill : ∀ b, segment (P.fill b) = ⟨b.addr, b.length.toUInt32, b.lkey⟩) (count : ω → Int)
    (hcount : ∀ sges, sges.length < 2 ^ 31 → count (P.post sges sges.length).1 = sges.length)
    (hrs : ∀ r ∈ rs, r.Fits) (hbs : bs.MadeOf rs) (op : DataOp ε) :
    ((P.doPost op bs).wr.isSome = true ↔ bs.Postable P.sgeMax) ∧
      ∀ wr, (P.doPost op bs).wr = some wr → Segment.Cover rs bs (segments wr) (count wr) := by
  refine ⟨?_, fun wr hwr => ?_⟩
  · rw [Option.isSome_iff_exists]
    constructor
    · rintro ⟨wr, hwr⟩
      exact ((P.wr_iff hpost op bs wr).1 hwr).1
    · intro hok
      exact ⟨_, (P.wr_iff hpost op bs _).2 ⟨hok, rfl⟩⟩
  · obtain ⟨hok, rfl⟩ := (P.wr_iff hpost op bs wr).1 hwr
    have hlength : bs.buffers.length = (bs.buffers.map P.fill).length := (List.length_map ..).symm
    rw [hlength, hsegments, List.map_map, show segment ∘ P.fill = _ from funext hfill]
    refine Segment.cover_fill hrs hbs hok fun hlt => ?_
    rw [hcount _ (hlength ▸ hlt), List.length_map]

/-- What the ibv backend posts. -/
theorem Ibv.Verbs.doPost_cover (hrs : ∀ r ∈ rs, r.Fits) (hbs : bs.MadeOf rs) (kind : OpType) (cfg : SgeConfig)
    (native : NativeWr → Int) (addr : Nat) (remote : RemoteAddr) (op : DataOp ErrorCode) :
    ((doPost kind cfg native addr remote op bs).wr.isSome = true ↔ bs.Postable (cfg.limit kind)) ∧
      ∀ wr, (doPost kind cfg native addr remote op bs).wr = some wr →
        Segment.Cover rs bs wr.segments wr.count := by
  have hlimit : cfg.limit kind = (paramsOf kind cfg native addr remote).sgeMax := by
    cases kind <;> rfl
  rw [doPost_eq, hlimit]
  refine PostParams.posted_cover paramsOf_post NativeWr.segments
    (fun sge => ⟨sge.addr, sge.length, sge.lkey⟩) (fun sges => ?_) (fun b => ?_) NativeWr.count
    (fun sges hlt => ?_) hrs hbs op
  · cases kind <;> exact congrArg (List.map _) (List.take_length ..)
  · cases kind <;> rfl
  · cases kind <;> exact Int32.toInt_ofNat_of_lt hlt

/-- What the nd backend posts. -/
theorem Nd.Verbs.doPost_cover (hrs : ∀ r ∈ rs, r.Fits) (hbs : bs.MadeOf rs) (kind : OpType) (cfg : SgeConfig)
    (native : NativeRequest → Int) (addr : Nat) (remote : RemoteAddr) (op : DataOp NdErrorCode) :
    ((doPost kind cfg native addr remote op bs).wr.isSome = true ↔ bs.Postable (cfg.limit kind)) ∧
      ∀ wr, (doPost kind cfg native addr remote op bs).wr = some wr →
        Segment.Cover rs bs wr.segments wr.count := by
  have hlimit : cfg.limit kind = (paramsOf kind cfg native addr remote).sgeMax := by
    cases kind <;> rfl
  rw [doPost_eq, hlimit]
  refine PostParams.posted_cover paramsOf_post NativeRequest.segments
    (fun sge => ⟨sge.buffer, sge.bufferLength, sge.memoryRegionToken⟩) (fun sges => ?_) (fun b => ?_)
    NativeRequest.count (fun sges hlt => ?_) hrs hbs op
  · cases kind <;> exact congrArg (List.map _) (List.take_length ..)
  · cases kind <;> rfl
  · have hsmall : sges.length < UInt32.size := Nat.lt_trans hlt (by decide)
    cases kind <;> exact congrArg Int.ofNat (UInt32.toNat_ofNat_of_lt hsmall)

/-- Let the buffers of an op be made of registered regions. Then it is handed to the native post, on either
backend and whatever it is, exactly if it keeps the limits and is not empty; and the device is told to access
the bytes of the buffers in order, and nothing outside the regions. -/
theorem posted_in_regions (hrs : ∀ r ∈ rs, r.Fits) (hbs : bs.MadeOf rs) (kind : OpType) (cfg : SgeConfig)
    (addr : Nat) (remote : RemoteAddr) :
    (∀ (native : Ibv.Verbs.NativeWr → Int) (op : DataOp ErrorCode),
      ((Ibv.Verbs.doPost kind cfg native addr remote op bs).wr.isSome = true ↔
          bs.Postable (cfg.limit kind)) ∧
        ∀ wr, (Ibv.Verbs.doPost kind cfg native addr remote op bs).wr = some wr →
          Segment.Cover rs bs wr.segments wr.count) ∧
    ∀ (native : Nd.Verbs.NativeRequest → Int) (op : DataOp Nd.NdErrorCode),
      ((Nd.Verbs.doPost kind cfg native addr remote op bs).wr.isSome = true ↔
          bs.Postable (cfg.limit kind)) ∧
        ∀ wr, (Nd.Verbs.doPost kind cfg native addr remote op bs).wr = some wr →
          Segment.Cover rs bs wr.segments wr.count := by
  constructor
  · intro native op
    exact Ibv.Verbs.doPost_cover hrs hbs kind cfg native addr remote op
  · intro native op
    exact Nd.Verbs.doPost_cover hrs hbs kind cfg native addr remote op

/-- Two regions; a message is taken from both. -/
def twoRegions : List MemoryRegion :=
  [{ mr := some ⟨7, 9⟩, addr := 0x1000, length := 64 },
    { mr := some ⟨8, 10⟩, addr := 0x8000, length := 16 }]

/-- The last 32 bytes of the first region, a range that is outside of it, and all of the second one. -/
def twoRegionBuffers : MrBufferSequence := .sequence [⟨0x1020, 32, 7⟩, {}, ⟨0x8000, 16, 8⟩]

theorem posted_in_regions_two :
    Segment.Cover twoRegions twoRegionBuffers [⟨0x1020, 32, 7⟩, ⟨0, 0, 0⟩, ⟨0x8000, 16, 8⟩] 3 := by
  have hbs : twoRegionBuffers.MadeOf twoRegions := by
    intro b hb
    have hcases : b = ⟨0x1020, 32, 7⟩ ∨ b = {} ∨ b = ⟨0x8000, 16, 8⟩ := by
      simpa [twoRegionBuffers, MrBufferSequence.buffers] using hb
    rcases hcases with rfl | rfl | rfl
    · exact ⟨twoRegions[0], List.mem_cons_self, .range 32 32, rfl⟩
    · exact ⟨twoRegions[0], List.mem_cons_self, .range 32 33, rfl⟩
    · exact ⟨twoRegions[1], List.mem_cons_of_mem _ List.mem_cons_self, .whole, rfl⟩
  have hposted := (posted_in_regions (by decide) hbs .postSend {} 1 ⟨0, 0⟩).1 (fun _ => 0) ⟨success, 0⟩
  exact hposted.2 _ rfl

end RdmaOnAsio
