import RdmaOnAsio.Detail.Proofs.SmallSglist
import RdmaOnAsio.Ibv.Verbs
import RdmaOnAsio.Nd.Verbs

/-!
# The build of a scatter/gather list is exact

A list that is only appended to allocates each of its blocks when it needs it, and so loses nothing. The
invariant of the loop is over the elements taken so far. Both backends build their lists so, each with its
own native SGE.
-/

namespace RdmaOnAsio

universe u

variable {σ : Type u} [Inhabited σ] {inlineSgeCount : Nat} {bs taken : List MrBuffer} {b : MrBuffer}
  {maxSge : UInt32} {i k : Nat}

/-! ## A list that is only appended to -/

namespace SmallSglist

variable {s : SmallSglist σ inlineSgeCount} {l : List σ} {v : σ}

/-- The list holds `l`, and has no block that it is not in. -/
structure Holds (s : SmallSglist σ inlineSgeCount) (l : List σ) : Prop where
  wf : s.Wf
  size : s.size = l.length
  read : ∀ i, i < s.size → s.read i = l[i]?
  unspilled : s.data ≠ .heap → s.heapCapacity = 0
  room : s.heapCapacity ≤ 2 * s.size

theorem holds_empty : Holds ({} : SmallSglist σ inlineSgeCount) [] :=
  ⟨wf_empty, rfl, fun _ hi => absurd hi (Nat.not_lt_zero _), fun _ => rfl, Nat.zero_le _⟩

theorem Holds.take_active (h : s.Holds l) : s.active.take s.size = l := by
  have hle := h.wf.size_le_active
  refine List.ext_getElem? fun i => ?_
  by_cases hi : i < s.size
  · rw [List.getElem?_take_of_lt hi]
    exact h.read i hi
  · rw [List.getElem?_eq_none (by rw [List.length_take]; omega),
      List.getElem?_eq_none (by rw [← h.size]; omega)]

theorem Holds.carried (h : s.Holds l) : s.carried (s.size + 1) = s.active := by
  rw [SmallSglist.carried, if_neg]
  rintro ⟨hd, -, hle⟩
  have hzero := h.unspilled (by rw [hd]; exact Storage.noConfusion)
  omega

theorem heapCapacity_write (i : Nat) (v : σ) : (s.write i v).heapCapacity = s.heapCapacity := by
  unfold write
  split <;> rfl

theorem data_write (i : Nat) (v : σ) : (s.write i v).data = s.data := by
  unfold write
  split <;> simp [*]

theorem Holds.heapCapacity_growTo (h : s.Holds l) :
    (s.growTo (s.size + 1)).heapCapacity ≤ 2 * (s.size + 1) ∧
      (s.size + 1 ≤ inlineSgeCount → (s.growTo (s.size + 1)).heapCapacity = 0) := by
  have hroom := h.room
  unfold growTo
  dsimp only
  by_cases hg : inlineSgeCount < s.size + 1 ∧ s.heapCapacity < s.size + 1
  · rw [if_pos hg]
    have hle : inlineSgeCount < max (s.size + 1)
        (if s.heapCapacity = 0 then inlineSgeCount * 2 else s.heapCapacity * 2) :=
      Nat.lt_of_lt_of_le hg.1 (Nat.le_max_left _ _)
    have hcap : s.heapCapacity < max (s.size + 1)
        (if s.heapCapacity = 0 then inlineSgeCount * 2 else s.heapCapacity * 2) :=
      Nat.lt_of_lt_of_le hg.2 (Nat.le_max_left _ _)
    rw [h.wf.reserve_eq hle hcap]
    refine ⟨Nat.max_le.2 ⟨by omega, ?_⟩, fun hle => absurd hg.1 (by omega)⟩
    split_ifs <;> omega
  · rw [if_neg hg]
    refine ⟨by omega, fun hle => h.unspilled fun hd => ?_⟩
    rcases h.wf.place with ⟨hd', -⟩ | ⟨hd', -⟩ | ⟨-, hlt, -⟩
    · cases hd.symm.trans hd'
    · cases hd.symm.trans hd'
    · omega

theorem Holds.append (hn : 0 < inlineSgeCount) (h : s.Holds l) (v : σ) :
    (s.append v).Holds (l ++ [v]) := by
  have hsize : (s.append v).size = s.size + 1 := size_write
  have hgrow := h.heapCapacity_growTo
  have hcap : (s.append v).heapCapacity = (s.growTo (s.size + 1)).heapCapacity :=
    heapCapacity_write s.size v
  refine ⟨wf_write (wf_appendUninitialized hn h.wf), ?_, fun i hi => ?_, fun hd => ?_, ?_⟩
  · rw [hsize, h.size, List.length_append, List.length_singleton]
  · rw [hsize] at hi
    rw [h.wf.read_append hn (Nat.le_of_lt_succ hi), h.carried]
    by_cases heq : s.size = i
    · rw [if_pos heq, ← heq, h.size, List.getElem?_concat_length]
    · rw [if_neg heq, List.getElem?_append_left (by rw [← h.size]; omega)]
      exact h.read i (by omega)
  · rw [hcap]
    refine hgrow.2 (Nat.not_lt.1 fun hgt => hd ?_)
    rw [SmallSglist.append, data_write, h.wf.data_append hn, if_pos hgt]
  · rw [hcap, hsize]
    exact hgrow.1

end SmallSglist

/-! ## Bytes -/

theorem bytesOf_succ (h : bs[i]? = some b) : bytesOf bs (i + 1) = bytesOf bs i + b.length.toNat := by
  rw [bytesOf, bytesOf, List.take_add_one, h, List.map_append, List.sum_append]
  simp

theorem bytesOf_mono (h : i ≤ k) : bytesOf bs i ≤ bytesOf bs k := by
  obtain ⟨d, rfl⟩ := Nat.exists_eq_add_of_le h
  rw [bytesOf, bytesOf, List.take_add, List.map_append, List.sum_append]
  exact Nat.le_add_right _ _

theorem toNat_maxOperation : maxOperation.toNat = 2 ^ 32 - 1 := rfl

/-- The size check is that of unbounded integers, given that the bytes so far fit. -/
theorem tooLarge_iff {total : UInt64} (ht : total.toNat ≤ 2 ^ 32 - 1) :
    (maxOperation < b.length ∨ maxOperation - b.length < total) ↔
      2 ^ 32 - 1 < total.toNat + b.length.toNat := by
  rw [UInt64.lt_iff_toNat_lt, UInt64.lt_iff_toNat_lt, toNat_maxOperation]
  by_cases hlt : 2 ^ 32 - 1 < b.length.toNat
  · exact iff_of_true (.inl hlt) (by omega)
  · rw [UInt64.toNat_sub_of_le _ _ (UInt64.le_iff_toNat_le.2 (by rw [toNat_maxOperation]; omega)),
      toNat_maxOperation]
    omega

theorem toNat_add_length {total : UInt64} (h : total.toNat + b.length.toNat ≤ 2 ^ 32 - 1) :
    (total + b.length).toNat = total.toNat + b.length.toNat := by
  rw [UInt64.toNat_add, Nat.mod_eq_of_lt]
  omega

/-! ## The loop -/

variable {fill : MrBuffer → σ} {rep : σ → MrBuffer → Prop} {built built' : BuiltSglist}
  {s : SmallSglist σ inlineSgeCount}

/-- The loop has taken the first `k` elements. -/
structure BuildProgress (fill : MrBuffer → σ) (maxSge : UInt32) (bs : List MrBuffer) (k : Nat)
    (built : BuiltSglist) (s : SmallSglist σ inlineSgeCount) : Prop where
  holds : s.Holds ((bs.take k).map fill)
  le : k ≤ bs.length
  count : built.count = k
  total : built.totalBytes.toNat = bytesOf bs k
  fits : bytesOf bs k ≤ 2 ^ 32 - 1
  allEmpty : built.allEmpty = true ↔ ∀ b ∈ bs.take k, b.length = 0
  counted : ∀ i, i < k → ¬ TooManyAt maxSge i
  unflagged : built.tooManySge = false ∧ built.bufferTooLarge = false

theorem buildProgress_zero (hs : s.Holds []) : BuildProgress fill maxSge bs 0 {} s :=
  ⟨hs, Nat.zero_le _, rfl, rfl, Nat.zero_le _, by simp, fun _ hi => absurd hi (Nat.not_lt_zero _), rfl, rfl⟩

theorem BuildProgress.size_eq (h : BuildProgress fill maxSge bs k built s) : s.size = k := by
  rw [h.holds.size, List.length_map, List.length_take]
  exact Nat.min_eq_left h.le

/-- The native SGEs of the elements taken so far. -/
theorem BuildProgress.take_active (h : BuildProgress fill maxSge bs k built s) :
    s.active.take built.count = (bs.take k).map fill := by
  rw [h.count, ← h.size_eq]
  exact h.size_eq ▸ h.holds.take_active

/-- Why the loop stops after `k` elements. -/
inductive BuildStop (maxSge : UInt32) (bs : List MrBuffer) (k : Nat) (built : BuiltSglist) : Prop
  | done (hk : k = bs.length) (hm : built.tooManySge = false) (hl : built.bufferTooLarge = false)
  | tooMany (hk : k < bs.length) (hm : built.tooManySge = true) (hl : built.bufferTooLarge = false)
      (hat : TooManyAt maxSge k)
  | tooLarge (hk : k < bs.length) (hm : built.tooManySge = false) (hl : built.bufferTooLarge = true)
      (hnot : ¬ TooManyAt maxSge k) (hat : TooLargeAt bs k)

theorem BuildProgress.accepted (h : BuildProgress fill maxSge bs k built s)
    (hstop : BuildStop maxSge bs k built') :
    built'.tooManySge = false ∧ built'.bufferTooLarge = false ↔
      (maxSge = 0 ∨ bs.length ≤ maxSge.toNat) ∧ bytesOf bs bs.length ≤ 2 ^ 32 - 1 := by
  cases hstop with
  | done hk hm hl =>
    refine iff_of_true ⟨hm, hl⟩ ⟨?_, hk ▸ h.fits⟩
    by_contra hnot
    rw [not_or] at hnot
    exact h.counted (bs.length - 1) (by omega) ⟨hnot.1, by omega⟩
  | tooMany hk hm hl hat =>
    refine iff_of_false (fun hno => Bool.noConfusion (hm.symm.trans hno.1)) fun hfit => ?_
    rcases hfit.1 with hz | hle
    · exact hat.1 hz
    · exact absurd hat.2 (by omega)
  | tooLarge hk hm hl hnot hat =>
    refine iff_of_false (fun hno => Bool.noConfusion (hl.symm.trans hno.2)) fun hfit => ?_
    exact absurd (Nat.lt_of_lt_of_le hat (bytesOf_mono hk)) (Nat.not_lt.2 hfit.2)

/-- The element at an index that was taken, in the list. -/
theorem BuildProgress.stored (hfill : ∀ b, b.length.toNat ≤ 2 ^ 32 - 1 → rep (fill b) b)
    (h : BuildProgress fill maxSge bs k built s) (hi : i < k) :
    ∃ b sge, bs[i]? = some b ∧ s.read i = some sge ∧ rep sge b := by
  obtain ⟨b, hb⟩ : ∃ b, bs[i]? = some b :=
    ⟨_, List.getElem?_eq_getElem (Nat.lt_of_lt_of_le hi h.le)⟩
  have hsize : s.size = k := h.size_eq
  refine ⟨b, fill b, hb, ?_, hfill b ?_⟩
  · rw [h.holds.read i (by omega), List.getElem?_map, List.getElem?_take_of_lt hi, hb]
    rfl
  · have hle : bytesOf bs (i + 1) ≤ bytesOf bs k := bytesOf_mono hi
    have hfits := h.fits
    rw [bytesOf_succ hb] at hle
    omega

theorem BuildProgress.exact (hfill : ∀ b, b.length.toNat ≤ 2 ^ 32 - 1 → rep (fill b) b)
    (h : BuildProgress fill maxSge bs k built s) (hcount : built'.count = built.count)
    (htotal : built'.totalBytes = built.totalBytes) (hempty : built'.allEmpty = built.allEmpty)
    (hdata : built'.data = s.data) (hstop : BuildStop maxSge bs k built') :
    BuildExact rep maxSge bs built' s := by
  have hk : built'.count = k := hcount.trans h.count
  have hsize : s.size = k := h.size_eq
  refine ⟨h.accepted hstop, fun hm hl => ?_, fun hflag => ?_, fun i hi => ⟨?_, ?_⟩, fun i hi => ?_,
    by rw [hsize, hk], hdata, by rw [htotal, h.total, hk], by rw [hempty, hk]; exact h.allEmpty,
    by rw [hk, ← hsize]; exact h.holds.room⟩
  · cases hstop with
    | done hlen => exact hk.trans hlen
    | tooMany _ hm' => exact Bool.noConfusion (hm.symm.trans hm')
    | tooLarge _ _ hl' => exact Bool.noConfusion (hl.symm.trans hl')
  · rw [hk]
    cases hstop with
    | done _ hm hl =>
      rw [hm, hl] at hflag
      exact absurd hflag (by decide)
    | tooMany hlt hm hl hat => exact ⟨hlt, .inl ⟨hm, hl, hat⟩⟩
    | tooLarge hlt hm hl hnot hat => exact ⟨hlt, .inr ⟨hm, hl, hnot, hat⟩⟩
  · exact h.counted i (by omega)
  · exact Nat.not_lt.2 (Nat.le_trans (bytesOf_mono (show i + 1 ≤ k by omega)) h.fits)
  · exact h.stored hfill (by omega)

/-- One more element. -/
theorem BuildProgress.take (hn : 0 < inlineSgeCount) (h : BuildProgress fill maxSge bs k built s)
    (hb : bs[k]? = some b) (hmany : ¬ TooManyAt maxSge k) (hlarge : ¬ TooLargeAt bs k) :
    BuildProgress fill maxSge bs (k + 1)
      { built with
        count := built.count + 1
        totalBytes := built.totalBytes + b.length
        allEmpty := built.allEmpty && b.length == 0 } (s.append (fill b)) := by
  have hsum := bytesOf_succ hb
  have htotal := h.total
  rw [TooLargeAt, Nat.not_lt] at hlarge
  have htake : bs.take (k + 1) = bs.take k ++ [b] := by rw [List.take_add_one, hb, Option.toList_some]
  refine ⟨?_, (List.getElem?_eq_some_iff.1 hb).1, congrArg (· + 1) h.count, ?_, hlarge, ?_,
    fun i hi => ?_, h.unflagged⟩
  · rw [htake, List.map_append]
    exact h.holds.append hn (fill b)
  · rw [hsum, ← h.total]
    exact toNat_add_length (by omega)
  · simp only [htake, Bool.and_eq_true, beq_iff_eq, h.allEmpty, List.forall_mem_append,
      List.forall_mem_singleton]
  · rcases Nat.lt_succ_iff_lt_or_eq.1 hi with hlt | rfl
    · exact h.counted i hlt
    · exact hmany

/-- The loop from any point: it stops at the first element that offends, or at the end. -/
theorem BuildProgress.loop_exact (hn : 0 < inlineSgeCount)
    (hfill : ∀ b, b.length.toNat ≤ 2 ^ 32 - 1 → rep (fill b) b) {rest : List MrBuffer}
    (h : BuildProgress fill maxSge bs k built s) (hrest : bs.drop k = rest) :
    BuildExact rep maxSge bs (BuiltSglist.loop fill maxSge built s rest).1
      (BuiltSglist.loop fill maxSge built s rest).2 := by
  induction rest generalizing k built s with
  | nil =>
    have hk : k = bs.length := Nat.le_antisymm h.le (List.drop_eq_nil_iff.1 hrest)
    exact h.exact hfill rfl rfl rfl rfl (.done hk h.unflagged.1 h.unflagged.2)
  | cons b rest ih =>
    have hb : bs[k]? = some b := by
      rw [← List.head?_drop, hrest, List.head?_cons]
    have hk : k < bs.length := (List.getElem?_eq_some_iff.1 hb).1
    have hlarge : (maxOperation < b.length ∨ maxOperation - b.length < built.totalBytes) ↔
        TooLargeAt bs k := by
      rw [tooLarge_iff (h.total ▸ h.fits), h.total, TooLargeAt, bytesOf_succ hb]
    have hmany : maxSge ≠ 0 ∧ maxSge.toNat ≤ built.count ↔ TooManyAt maxSge k := by
      rw [h.count, TooManyAt]
    rw [BuiltSglist.loop]
    by_cases hm : TooManyAt maxSge k
    · rw [if_pos (hmany.2 hm)]
      exact h.exact hfill rfl rfl rfl rfl (.tooMany hk rfl h.unflagged.2 hm)
    rw [if_neg (hm ∘ hmany.1)]
    by_cases hl : TooLargeAt bs k
    · rw [if_pos (hlarge.2 hl)]
      exact h.exact hfill rfl rfl rfl rfl (.tooLarge hk h.unflagged.1 rfl hm hl)
    rw [if_neg (hl ∘ hlarge.1)]
    refine ih (h.take hn hb hm hl) ?_
    rw [← List.tail_drop, hrest, List.tail_cons]

/-- The build of a sequence on a fresh list is exact. -/
theorem buildNativeSglist_exact (hn : 0 < inlineSgeCount)
    (hfill : ∀ b, b.length.toNat ≤ 2 ^ 32 - 1 → rep (fill b) b) (bs : List MrBuffer) (maxSge : UInt32) :
    BuildExact rep maxSge bs
      (buildNativeSglist fill bs ({} : SmallSglist σ inlineSgeCount) maxSge).1
      (buildNativeSglist fill bs ({} : SmallSglist σ inlineSgeCount) maxSge).2 :=
  (buildProgress_zero SmallSglist.holds_empty).loop_exact hn hfill List.drop_zero

/-! ## The native SGEs of the two backends -/

/-- The `ibv_sge` has the fields of the buffer, its length not truncated. -/
def Ibv.Verbs.NativeSge.Represents (sge : Ibv.Verbs.NativeSge) (b : MrBuffer) : Prop :=
  sge.addr = b.addr ∧ sge.length.toNat = b.length.toNat ∧ sge.lkey = b.lkey

/-- The `ND2_SGE` has the fields of the buffer, its length not truncated. -/
def Nd.Verbs.NativeSge.Represents (sge : Nd.Verbs.NativeSge) (b : MrBuffer) : Prop :=
  sge.buffer = b.addr ∧ sge.bufferLength.toNat = b.length.toNat ∧ sge.memoryRegionToken = b.lkey

/-- The cast of `fill_native_sge` truncates nothing that fits in 32 bits. -/
theorem toNat_toUInt32 {n : UInt64} (h : n.toNat ≤ 2 ^ 32 - 1) : n.toUInt32.toNat = n.toNat := by
  rw [UInt64.toNat_toUInt32, Nat.mod_eq_of_lt]
  omega

/-- The build of any sequence of buffers under any limit is exact, on both backends. -/
theorem native_sglist_exact (bs : List MrBuffer) (maxSge : UInt32) :
    BuildExact Ibv.Verbs.NativeSge.Represents maxSge bs (Ibv.Verbs.buildNativeSglist bs {} maxSge).1
        (Ibv.Verbs.buildNativeSglist bs {} maxSge).2 ∧
      BuildExact Nd.Verbs.NativeSge.Represents maxSge bs (Nd.Verbs.buildNativeSglist bs {} maxSge).1
        (Nd.Verbs.buildNativeSglist bs {} maxSge).2 :=
  ⟨buildNativeSglist_exact (by decide) (fun _ hb => ⟨rfl, toNat_toUInt32 hb, rfl⟩) bs maxSge,
    buildNativeSglist_exact (by decide) (fun _ hb => ⟨rfl, toNat_toUInt32 hb, rfl⟩) bs maxSge⟩

end RdmaOnAsio
