import Mathlib.Algebra.Group.Nat.Defs
import RdmaOnAsio.Detail.MrRange

/-!
# The ranges of a memory region are exact

The checks of `mr_contains_offset` and `mr_offset_of` never wrap, and decide in 64 bits what they say in
unbounded integers. What `buffer`, `slice`, `cslice` and `remote_addr` hand out lies inside the region.
-/

namespace RdmaOnAsio

variable {B L p o n v : UInt64} {r : MemoryRegion}

theorem toNat_uint64Max : uint64Max.toNat = 2 ^ 64 - 1 := rfl

theorem mrContainsOffset_iff : mrContainsOffset L o n = true ↔ o.toNat + n.toNat ≤ L.toNat := by
  rw [mrContainsOffset, Bool.and_eq_true, decide_eq_true_iff, decide_eq_true_iff,
    UInt64.le_iff_toNat_le, UInt64.le_iff_toNat_le]
  constructor
  · rintro ⟨ho, hn⟩
    rw [UInt64.toNat_sub_of_le L o (UInt64.le_iff_toNat_le.2 ho)] at hn
    omega
  · intro h
    have ho : o.toNat ≤ L.toNat := by omega
    rw [UInt64.toNat_sub_of_le L o (UInt64.le_iff_toNat_le.2 ho)]
    exact ⟨ho, by omega⟩

/-- The guard against a region that reaches past the top of the address space does not wrap itself. -/
theorem uint64Max_sub_lt_iff : uint64Max - B < L ↔ uint64Max.toNat < B.toNat + L.toNat := by
  have hB : B.toNat ≤ uint64Max.toNat := by
    have := B.toNat_lt
    rw [toNat_uint64Max]
    omega
  rw [UInt64.lt_iff_toNat_lt, UInt64.toNat_sub_of_le _ _ (UInt64.le_iff_toNat_le.2 hB)]
  omega

theorem not_uint64Max_lt : ¬ uint64Max < v := by
  have := v.toNat_lt
  rw [UInt64.lt_iff_toNat_lt, toNat_uint64Max]
  omega

/-- When `mr_offset_of` returns a value: the address range is inside a region that does not reach past the
top of the address space. -/
def Located (B L p n : UInt64) : Prop :=
  B ≠ 0 ∧ p ≠ 0 ∧ B.toNat + L.toNat ≤ uint64Max.toNat ∧ B.toNat ≤ p.toNat ∧
    p.toNat + n.toNat ≤ B.toNat + L.toNat

theorem mrOffsetOf_of_located (h : Located B L p n) : mrOffsetOf B L p n = some (p - B) := by
  obtain ⟨hB, hp, htop, hle, hend⟩ := h
  have hsub := UInt64.toNat_sub_of_le p B (UInt64.le_iff_toNat_le.2 hle)
  rw [mrOffsetOf, if_neg (not_or.2 ⟨hB, hp⟩), if_neg, if_neg not_uint64Max_lt,
    if_pos (mrContainsOffset_iff.2 (by omega))]
  rw [uint64Max_sub_lt_iff, UInt64.lt_iff_toNat_lt]
  omega

theorem located_of_mrOffsetOf (h : mrOffsetOf B L p n = some v) : Located B L p n := by
  unfold mrOffsetOf at h
  dsimp only at h
  split_ifs at h with hnull htop hmax hin
  rw [not_or] at hnull htop
  rw [uint64Max_sub_lt_iff, UInt64.lt_iff_toNat_lt] at htop
  rw [mrContainsOffset_iff, UInt64.toNat_sub_of_le p B (UInt64.le_iff_toNat_le.2 (by omega))] at hin
  exact ⟨hnull.1, hnull.2, by omega, by omega, by omega⟩

theorem mrOffsetOf_isSome : (mrOffsetOf B L p n).isSome = true ↔ Located B L p n := by
  constructor
  · intro h
    obtain ⟨v, hv⟩ := Option.isSome_iff_exists.1 h
    exact located_of_mrOffsetOf hv
  · intro h
    rw [mrOffsetOf_of_located h, Option.isSome_some]

/-- The offset is the distance from the base, in unbounded integers. -/
theorem toNat_of_mrOffsetOf (h : mrOffsetOf B L p n = some v) : v.toNat = p.toNat - B.toNat := by
  have hloc := located_of_mrOffsetOf h
  obtain rfl := Option.some.inj ((mrOffsetOf_of_located hloc).symm.trans h)
  exact UInt64.toNat_sub_of_le p B (UInt64.le_iff_toNat_le.2 hloc.2.2.2.1)

/-! ## Slices -/

namespace MemoryRegion

theorem isInMr_iff : r.isInMr o n = true ↔ r.mr.isSome = true ∧ o.toNat + n.toNat ≤ r.length.toNat := by
  rw [isInMr, Bool.and_eq_true, mrContainsOffset_iff]

theorem buffer_of_not_isInMr (h : ¬ r.isInMr o n = true) : r.buffer o n = .ok {} := by
  rw [buffer, if_pos (by simpa using h)]

theorem remoteAddr_of_not_isInMr (h : ¬ r.isInMr o n = true) : r.remoteAddr o n = .ok ⟨0, 0⟩ := by
  rw [remoteAddr, if_pos (by simpa using h)]

/-- A range that is in the region is handed out; the region has its keys, so nothing is thrown. -/
theorem buffer_of_isInMr (h : r.isInMr o n = true) :
    ∃ lkey, r.buffer o n = .ok { addr := r.addr + o, length := n, lkey := lkey } := by
  obtain ⟨keys, hkeys⟩ := Option.isSome_iff_exists.1 (isInMr_iff.1 h).1
  refine ⟨keys.localKey, ?_⟩
  rw [buffer, if_neg (by simpa using h), localKey, hkeys]
  rfl

theorem remoteAddr_of_isInMr (h : r.isInMr o n = true) :
    ∃ token, r.remoteAddr o n = .ok { addr := r.addr + o, token := token } := by
  obtain ⟨keys, hkeys⟩ := Option.isSome_iff_exists.1 (isInMr_iff.1 h).1
  refine ⟨keys.remoteKey, ?_⟩
  rw [remoteAddr, if_neg (by simpa using h), remoteKey, hkeys]
  rfl

/-- `[addr, addr + n)` is the part of the region at `offset`, inside the region, in unbounded integers. -/
def Covers (r : MemoryRegion) (offset n addr : UInt64) : Prop :=
  addr.toNat = r.addr.toNat + offset.toNat ∧ addr.toNat + n.toNat ≤ r.addr.toNat + r.length.toNat

theorem covers_add (hr : r.addr.toNat + r.length.toNat ≤ uint64Max.toNat)
    (h : r.isInMr o n = true) : r.Covers o n (r.addr + o) := by
  have hin := (isInMr_iff.1 h).2
  rw [toNat_uint64Max] at hr
  have hadd : (r.addr + o).toNat = r.addr.toNat + o.toNat := by
    rw [UInt64.toNat_add, Nat.mod_eq_of_lt]
    omega
  exact ⟨hadd, by omega⟩

theorem buffer_covers (hr : r.addr.toNat + r.length.toNat ≤ uint64Max.toNat) (o n : UInt64) :
    ∃ b, r.buffer o n = .ok b ∧ (b = {} ∨ b.length = n ∧ r.Covers o n b.addr) := by
  by_cases h : r.isInMr o n = true
  · obtain ⟨lkey, hb⟩ := buffer_of_isInMr h
    exact ⟨_, hb, .inr ⟨rfl, covers_add hr h⟩⟩
  · exact ⟨_, buffer_of_not_isInMr h, .inl rfl⟩

theorem remoteAddr_covers (hr : r.addr.toNat + r.length.toNat ≤ uint64Max.toNat) (o n : UInt64) :
    ∃ a, r.remoteAddr o n = .ok a ∧ (a = ⟨0, 0⟩ ∨ r.Covers o n a.addr) := by
  by_cases h : r.isInMr o n = true
  · obtain ⟨token, ha⟩ := remoteAddr_of_isInMr h
    exact ⟨_, ha, .inr (covers_add hr h)⟩
  · exact ⟨_, remoteAddr_of_not_isInMr h, .inl rfl⟩

/-- An address outside the region is at no offset inside it: below the base the offset wraps to one past the
end of the region. -/
theorem located_of_isInMr_sub (hr : r.addr.toNat + r.length.toNat ≤ uint64Max.toNat)
    (hbase : r.addr ≠ 0) (h : r.isInMr (p - r.addr) n = true) : Located r.addr r.length p n := by
  have hin := (isInMr_iff.1 h).2
  have hpos : 0 < r.addr.toNat := Nat.pos_of_ne_zero fun h0 => hbase (UInt64.toNat_inj.1 h0)
  have hlt := r.addr.toNat_lt
  rw [toNat_uint64Max] at hr
  rw [UInt64.toNat_sub] at hin
  have hle : r.addr.toNat ≤ p.toNat := by
    by_contra hgt
    rw [Nat.mod_eq_of_lt (by omega)] at hin
    omega
  have hmod : (2 ^ 64 - r.addr.toNat + p.toNat) % 2 ^ 64 = p.toNat - r.addr.toNat := by
    have := p.toNat_lt
    omega
  refine ⟨hbase, fun hp => ?_, by rw [toNat_uint64Max]; omega, hle, by omega⟩
  rw [hp, UInt64.toNat_zero] at hle
  omega

theorem sliceAddr_eq_slice (hr : r.addr.toNat + r.length.toNat ≤ uint64Max.toNat)
    (hbase : r.addr ≠ 0) (p n : UInt64) : r.sliceAddr p n = r.slice (p - r.addr) n := by
  by_cases h : Located r.addr r.length p n
  · rw [sliceAddr, mrOffsetOf_of_located h]
  · have hnone : mrOffsetOf r.addr r.length p n = none :=
      Option.not_isSome_iff_eq_none.1 fun hsome => h (mrOffsetOf_isSome.1 hsome)
    have hout : ¬ r.isInMr (p - r.addr) n = true := fun hin => h (located_of_isInMr_sub hr hbase hin)
    rw [sliceAddr, hnone, slice, buffer_of_not_isInMr hout]

/-- The two overloads of `is_in_mr` agree unless the region starts at the null address. -/
theorem isInMrAddr_iff_isInMr (hr : r.addr.toNat + r.length.toNat ≤ uint64Max.toNat)
    (hbase : r.addr ≠ 0) : r.isInMrAddr p n = true ↔ r.isInMr (p - r.addr) n = true := by
  rw [isInMrAddr, Bool.and_eq_true, mrOffsetOf_isSome]
  constructor
  · rintro ⟨hmr, hloc⟩
    obtain ⟨-, -, -, hle, hend⟩ := hloc
    refine isInMr_iff.2 ⟨hmr, ?_⟩
    rw [UInt64.toNat_sub_of_le p r.addr (UInt64.le_iff_toNat_le.2 hle)]
    omega
  · intro h
    exact ⟨(isInMr_iff.1 h).1, located_of_isInMr_sub hr hbase h⟩

end MemoryRegion

/-- `mr_offset_of` and `mr_contains_offset` are exact, and so is every range a region hands out: a slice by
address is the slice at its offset unless the region starts at the null address. -/
theorem mr_range_exact :
    (∀ B L p n : UInt64,
      ((mrOffsetOf B L p n).isSome = true ↔
        B ≠ 0 ∧ p ≠ 0 ∧ B.toNat + L.toNat ≤ 2 ^ 64 - 1 ∧ B.toNat ≤ p.toNat ∧
          p.toNat + n.toNat ≤ B.toNat + L.toNat) ∧
      ∀ v, mrOffsetOf B L p n = some v → v.toNat = p.toNat - B.toNat) ∧
    (∀ L o n : UInt64, mrContainsOffset L o n = true ↔ o.toNat + n.toNat ≤ L.toNat) ∧
    ∀ r : MemoryRegion, r.addr.toNat + r.length.toNat ≤ 2 ^ 64 - 1 →
      (r.addr ≠ 0 → ∀ p n : UInt64, r.sliceAddr p n = r.slice (p - r.addr) n ∧
        r.csliceAddr p n = r.cslice (p - r.addr) n) ∧
      ∀ o n : UInt64,
        (∃ b, r.buffer o n = .ok b ∧ r.slice o n = .ok b ∧ r.cslice o n = .ok b ∧
          (b = {} ∨ b.length = n ∧ r.Covers o n b.addr)) ∧
        ∃ a, r.remoteAddr o n = .ok a ∧ (a = ⟨0, 0⟩ ∨ r.Covers o n a.addr) := by
  refine ⟨fun B L p n => ⟨mrOffsetOf_isSome, fun v hv => toNat_of_mrOffsetOf hv⟩,
    fun L o n => mrContainsOffset_iff, fun r hr => ⟨fun hbase p n => ?_, fun o n => ⟨?_, ?_⟩⟩⟩
  · have heq := MemoryRegion.sliceAddr_eq_slice hr hbase p n
    exact ⟨heq, heq⟩
  · obtain ⟨b, hb, hcov⟩ := MemoryRegion.buffer_covers hr o n
    exact ⟨b, hb, hb, hb, hcov⟩
  · exact MemoryRegion.remoteAddr_covers hr o n

/-- A registered region that ends at the top of the address space. -/
def topRegion : MemoryRegion := { mr := some ⟨7, 9⟩, addr := 0xFFFFFFFFFFFFFFEF, length := 16 }

theorem mr_range_exact_topRegion :
    topRegion.addr.toNat + topRegion.length.toNat ≤ 2 ^ 64 - 1 ∧ topRegion.addr ≠ 0 ∧
      topRegion.sliceAddr 0xFFFFFFFFFFFFFFF3 4 = topRegion.slice 4 4 :=
  ⟨by decide, by decide, ((mr_range_exact.2.2 topRegion (by decide)).1 (by decide) _ 4).1⟩

/-- A slice by address of a region that starts at the null address is empty where the slice by offset is
not. -/
theorem not_sliceAddr_null :
    ¬ ∀ r : MemoryRegion, r.mr.isSome = true → r.addr.toNat + r.length.toNat ≤ 2 ^ 64 - 1 →
      ∀ p n : UInt64, r.sliceAddr p n = r.slice (p - r.addr) n := fun h =>
  absurd (h { mr := some ⟨7, 9⟩, addr := 0, length := 16 } (by decide) (by decide) 8 4) (by decide)

end RdmaOnAsio
