import RdmaOnAsio.SingleBuffer
import RdmaOnAsio.Detail.Proofs.Sglist

/-!
# The buffers of a submission, in machine words

The step system of a submission looks at its buffers in natural numbers, the `do_post_*` of the backend in
the 64-bit and 32-bit words of the source and over a `small_sglist`. What a `do_post_*` refuses, finds empty
or hands to the native post is what the step system has prepared.
-/

namespace RdmaOnAsio.Ibv

open ErrorCode

/-! ## Out of the machine words -/

/-- The buffer in natural numbers. -/
def Buffer.ofMr (b : MrBuffer) : Buffer := ⟨b.addr.toNat, b.length.toNat, b.lkey.toNat⟩

@[simp] theorem Buffer.length_ofMr (b : MrBuffer) : (Buffer.ofMr b).length = b.length.toNat := rfl

/-- The sequence in natural numbers. -/
def BufferSequence.ofMr : MrBufferSequence → BufferSequence
  | .single b => .single (.ofMr b)
  | .sequence bs => .sequence (bs.map .ofMr)

/-- The limits in natural numbers. -/
def SgeLimits.ofConfig (cfg : SgeConfig) : SgeLimits := ⟨cfg.maxSendSge.toNat, cfg.maxRecvSge.toNat⟩

/-- The `ibv_sge` in natural numbers. -/
def NativeSge.ofVerbs (sge : Verbs.NativeSge) : NativeSge :=
  ⟨sge.addr.toNat, sge.length.toNat, sge.lkey.toNat⟩

/-- The SGEs of a work request. -/
def Verbs.NativeWr.sges : Verbs.NativeWr → List Verbs.NativeSge
  | .recv _ sgList _ | .send _ sgList _ _ _ _ => sgList

/-- `fill_native_sge` truncates alike. -/
theorem fillNativeSge_ofMr (b : MrBuffer) :
    fillNativeSge (.ofMr b) = .ofVerbs (Verbs.fillNativeSge b) := by
  simp only [fillNativeSge, Buffer.ofMr, NativeSge.ofVerbs, Verbs.fillNativeSge, UInt64.toNat_toUInt32,
    uint32Max]

theorem limit_ofNat {maxSge : UInt32} {n : Nat} :
    (maxSge.toNat ≠ 0 ∧ maxSge.toNat ≤ n) ↔ maxSge ≠ 0 ∧ maxSge.toNat ≤ n := by
  rw [Ne, Ne, ← UInt32.toNat_inj, UInt32.toNat_zero]

/-! ## The build -/

/-- The two builds report the same, and the list of the one holds `sges`. -/
structure BuiltSglist.Agrees (nat : BuiltSglist) (built : RdmaOnAsio.BuiltSglist)
    (sges : List Verbs.NativeSge) : Prop where
  data : nat.data = sges.map .ofVerbs
  totalBytes : nat.totalBytes = built.totalBytes.toNat
  allEmpty : nat.allEmpty = built.allEmpty
  tooManySge : nat.tooManySge = built.tooManySge
  bufferTooLarge : nat.bufferTooLarge = built.bufferTooLarge

variable {bs rest : List MrBuffer} {b : MrBuffer} {maxSge : UInt32} {k : Nat} {nat : BuiltSglist}
  {built : RdmaOnAsio.BuiltSglist} {s : SmallSglist Verbs.NativeSge 8}

/-- The two loops stop at the same element. -/
theorem buildFrom_agrees (h : BuildProgress Verbs.fillNativeSge maxSge bs k built s)
    (ha : nat.Agrees built ((bs.take k).map Verbs.fillNativeSge)) (hrest : bs.drop k = rest) :
    (buildFrom maxSge.toNat nat (rest.map .ofMr)).Agrees
      (BuiltSglist.loop Verbs.fillNativeSge maxSge built s rest).1
      ((BuiltSglist.loop Verbs.fillNativeSge maxSge built s rest).2.active.take
        (BuiltSglist.loop Verbs.fillNativeSge maxSge built s rest).1.count) := by
  induction rest generalizing k built s nat with
  | nil =>
    rw [List.map_nil, buildFrom, RdmaOnAsio.BuiltSglist.loop]
    rw [← h.take_active] at ha
    exact ⟨ha.data, ha.totalBytes, ha.allEmpty, ha.tooManySge, ha.bufferTooLarge⟩
  | cons b rest ih =>
    have hb : bs[k]? = some b := by
      rw [← List.head?_drop, hrest, List.head?_cons]
    have hlen : nat.data.length = built.count := by
      rw [ha.data, h.count, List.length_map, List.length_map, List.length_take, Nat.min_eq_left h.le]
    have hmany : (maxSge.toNat ≠ 0 ∧ maxSge.toNat ≤ nat.data.length) ↔
        maxSge ≠ 0 ∧ maxSge.toNat ≤ built.count := by
      rw [hlen, limit_ofNat]
    have hfits : built.totalBytes.toNat ≤ 2 ^ 32 - 1 := h.total ▸ h.fits
    have hlarge : (uint32Max < b.length.toNat ∨ uint32Max - b.length.toNat < nat.totalBytes) ↔
        (maxOperation < b.length ∨ maxOperation - b.length < built.totalBytes) := by
      rw [tooLarge_iff hfits, ha.totalBytes, uint32Max]
      omega
    rw [List.map_cons, buildFrom, RdmaOnAsio.BuiltSglist.loop, Buffer.length_ofMr]
    by_cases hm : maxSge ≠ 0 ∧ maxSge.toNat ≤ built.count
    · rw [if_pos hm, if_pos (hmany.2 hm)]
      rw [← h.take_active] at ha
      exact ⟨ha.data, ha.totalBytes, ha.allEmpty, rfl, ha.bufferTooLarge⟩
    rw [if_neg hm, if_neg (hm ∘ hmany.1)]
    by_cases hl : maxOperation < b.length ∨ maxOperation - b.length < built.totalBytes
    · rw [if_pos hl, if_pos (hlarge.2 hl)]
      rw [← h.take_active] at ha
      exact ⟨ha.data, ha.totalBytes, ha.allEmpty, ha.tooManySge, rfl⟩
    rw [if_neg hl, if_neg (hl ∘ hlarge.1)]
    have hsum : built.totalBytes.toNat + b.length.toNat ≤ 2 ^ 32 - 1 :=
      Nat.not_lt.1 (hl ∘ (tooLarge_iff hfits).2)
    refine ih (h.take (by decide) hb (h.count ▸ hm) ?_) ⟨?_, ?_, ?_, ha.tooManySge, ha.bufferTooLarge⟩ ?_
    · rwa [TooLargeAt, bytesOf_succ hb, ← h.total, Nat.not_lt]
    · rw [List.take_add_one, hb, Option.toList_some, List.map_append, List.map_append, ha.data,
        fillNativeSge_ofMr]
      rfl
    · show nat.totalBytes + b.length.toNat = _
      rw [ha.totalBytes, toNat_add_length hsum]
    · show (nat.allEmpty && b.length.toNat == 0) = (built.allEmpty && b.length == 0)
      rw [ha.allEmpty, Bool.eq_iff_iff]
      simp [← UInt64.toNat_inj]
    · rw [← List.tail_drop, hrest, List.tail_cons]

/-- `build_native_sglist` in natural numbers is the one of the source. -/
theorem buildNativeSglist_agrees (bs : List MrBuffer) (maxSge : UInt32) :
    (buildNativeSglist (bs.map .ofMr) maxSge.toNat).Agrees (Verbs.buildNativeSglist bs {} maxSge).1
      ((Verbs.buildNativeSglist bs {} maxSge).2.active.take
        (Verbs.buildNativeSglist bs {} maxSge).1.count) :=
  buildFrom_agrees (buildProgress_zero SmallSglist.holds_empty) ⟨rfl, rfl, rfl, rfl, rfl⟩ List.drop_zero

/-! ## What is prepared -/

/-- The machine's `do_post_*` of the op `op` does what was prepared: it returns at once, with the error
assigned if there is one, or hands a request with these SGEs to the native post. -/
def Prepared.Performed (native : Verbs.NativeWr → Int) (op : DataOp ErrorCode)
    (r : PostOutcome Verbs.NativeWr ErrorCode) : Prepared → Prop
  | .immediate ec => r = ⟨true, { op with ec := ec.getD op.ec }, none⟩
  | .post sges postedBytes =>
    ∃ wr, wr.sges.map .ofVerbs = sges ∧
      r = ⟨isError (postResult (native wr)),
        ⟨postResult (native wr), postedBytes.getD op.bytesTransferred⟩, some wr⟩

/-- The parameters of a `do_post_*` of this backend: `post` hands the first `count` SGEs to the native call and
reports what that returned. -/
structure Posting (native : Verbs.NativeWr → Int)
    (P : PostParams Verbs.NativeSge Verbs.NativeWr ErrorCode) : Prop where
  fill : P.fill = Verbs.fillNativeSge
  ofRdma : P.ofRdma = rdma
  isError : P.isError = ErrorCode.isError
  sges : ∀ sges count, (P.post sges count).1.sges = sges.take count
  ec : ∀ sges count, (P.post sges count).2 = postResult (native (P.post sges count).1)

variable {native : Verbs.NativeWr → Int} {P : PostParams Verbs.NativeSge Verbs.NativeWr ErrorCode}

/-- The native post of a list. -/
theorem Posting.submit (hP : Posting native P) (op : DataOp ErrorCode) (bytes : UInt64)
    (sges : List Verbs.NativeSge) (count : Nat) :
    (Prepared.post ((sges.take count).map .ofVerbs)
      (if P.setsPostedBytes then some bytes.toNat else none)).Performed native op
        (P.submit (P.setPosted op bytes) sges count) := by
  refine ⟨(P.post sges count).1, by rw [hP.sges], ?_⟩
  rw [PostParams.submit, PostParams.setPosted, hP.isError, ← hP.ec]
  cases P.setsPostedBytes <;> rfl

/-- A refusal. -/
theorem Posting.refuse (hP : Posting native P) (op : DataOp ErrorCode) (e : RdmaErrc) :
    (Prepared.immediate (some (rdma e))).Performed native op (P.refuse op e) := by
  rw [PostParams.refuse, hP.ofRdma]
  rfl

/-- The body of `do_post_*` in natural numbers is the one of the source. -/
theorem Posting.doPost (hP : Posting native P) (op : DataOp ErrorCode) (bs : MrBufferSequence) :
    (doPost P.sgeMax.toNat P.setsPostedBytes (.ofMr bs)).Performed native op (P.doPost op bs) := by
  cases bs with
  | single b =>
    have hone : exceedsSgeLimit 1 P.sgeMax.toNat = none := if_neg (by omega)
    have hlarge : uint32Max < b.length.toNat ↔ maxOperation < b.length := by
      rw [UInt64.lt_iff_toNat_lt, toNat_maxOperation]
      rfl
    have hzero : b.length.toNat = 0 ↔ b.length = 0 := by rw [← UInt64.toNat_inj, UInt64.toNat_zero]
    simp only [BufferSequence.ofMr, Ibv.doPost, PostParams.doPost, Buffer.length_ofMr, hone,
      exceedsBufferLimit, RdmaOnAsio.exceedsBufferLimit, not_exceedsSgeLimit_one, decide_eq_true_eq, hzero,
      hlarge]
    by_cases hz : b.length = 0
    · rw [if_pos hz, if_pos hz]
      rfl
    rw [if_neg hz, if_neg hz, if_neg Bool.false_ne_true]
    by_cases hl : maxOperation < b.length
    · rw [if_pos hl, if_pos hl]
      exact hP.refuse op .bufferTooLarge
    · rw [if_neg hl, if_neg hl, fillNativeSge_ofMr, hP.fill]
      exact hP.submit op b.length [Verbs.fillNativeSge b] 1
  | sequence bs =>
    have ha : (buildNativeSglist (bs.map .ofMr) P.sgeMax.toNat).Agrees
        (RdmaOnAsio.buildNativeSglist P.fill bs ({} : SmallSglist Verbs.NativeSge 8) P.sgeMax).1
        ((RdmaOnAsio.buildNativeSglist P.fill bs ({} : SmallSglist Verbs.NativeSge 8) P.sgeMax).2.active.take
          (RdmaOnAsio.buildNativeSglist P.fill bs ({} : SmallSglist Verbs.NativeSge 8) P.sgeMax).1.count) := by
      rw [hP.fill]
      exact buildNativeSglist_agrees bs P.sgeMax
    simp only [BufferSequence.ofMr, Ibv.doPost, PostParams.doPost]
    generalize RdmaOnAsio.buildNativeSglist P.fill bs ({} : SmallSglist Verbs.NativeSge 8) P.sgeMax = r at ha ⊢
    obtain ⟨built, sglist⟩ := r
    dsimp only at ha ⊢
    rw [ha.tooManySge, ha.bufferTooLarge, ha.allEmpty]
    by_cases hm : built.tooManySge = true
    · rw [if_pos hm, if_pos hm]
      exact hP.refuse op .tooManySge
    rw [if_neg hm, if_neg hm]
    by_cases hl : built.bufferTooLarge = true
    · rw [if_pos hl, if_pos hl]
      exact hP.refuse op .bufferTooLarge
    rw [if_neg hl, if_neg hl]
    by_cases hz : built.allEmpty = true
    · rw [if_pos hz, if_pos hz]
      rfl
    · rw [if_neg hz, if_neg hz, ha.data, ha.totalBytes]
      exact hP.submit op built.totalBytes sglist.active built.count

/-- Every `do_post_*` of the backend refuses, finds empty or hands to the native post what the step system of a
submission has prepared. -/
theorem doPost_prepared (kind : OpType) (cfg : SgeConfig) (native : Verbs.NativeWr → Int) (addr : Nat)
    (remote : RemoteAddr) (op : DataOp ErrorCode) (bs : MrBufferSequence) :
    (kind.doPost (.ofConfig cfg) (.ofMr bs)).Performed native op
      (Verbs.doPost kind cfg native addr remote op bs) := by
  have hP : Posting native (Verbs.paramsOf kind cfg native addr remote) := by
    cases kind <;> exact ⟨rfl, rfl, rfl, fun _ _ => rfl, fun _ _ => rfl⟩
  rw [Verbs.doPost_eq]
  cases kind <;> exact hP.doPost op bs

end RdmaOnAsio.Ibv
