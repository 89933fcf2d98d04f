import RdmaOnAsio.Detail.Proofs.Sglist
import RdmaOnAsio.SingleBuffer

/-!
# The bytes a handler is told

An op is refused, found empty, or posted with the bytes of all its buffers; its completion then decides
the code and the count. What the handler of each kind of op gets in each case, and that the two places
of the nd backend that resolve a result agree.
-/

namespace RdmaOnAsio

open ErrorCode
open Ibv (OpType Mode)

universe u v w

/-- All bytes of a sequence. -/
def MrBufferSequence.total (bs : MrBufferSequence) : Nat := bytesOf bs.buffers bs.buffers.length

/-! ## What `do_post_*` leaves -/

section Posts

variable {σ : Type u} {ω : Type v} {ε : Type w} [Inhabited σ]

/-- How a `do_post_*` of a sequence of `total` bytes ends. -/
inductive PostParams.Posts (P : PostParams σ ω ε) (op : DataOp ε) (total : Nat) : PostOutcome ω ε → Prop
  | empty (ht : total = 0) : Posts P op total ⟨true, op, none⟩
  | refused (e : RdmaErrc) : Posts P op total (P.refuse op e)
  | submitted (bytes : UInt64) (hb : bytes.toNat = total) (ht : total ≠ 0) (sges : List σ) (count : Nat) :
    Posts P op total (P.submit (P.setPosted op bytes) sges count)

theorem bytesOf_eq_zero {bs : List MrBuffer} {k : Nat} :
    bytesOf bs k = 0 ↔ ∀ b ∈ bs.take k, b.length = 0 := by
  rw [bytesOf]
  induction bs.take k with
  | nil => simp
  | cons b bs ih =>
    rw [List.map_cons, List.sum_cons, List.forall_mem_cons, ← ih, ← UInt64.toNat_inj, UInt64.toNat_zero]
    omega

/-- The general path: the build is exact, so what it finds empty has no bytes and what it posts has them
all. -/
theorem PostParams.posts_sequence (P : PostParams σ ω ε) (op : DataOp ε) (bs : List MrBuffer) :
    P.Posts op (bytesOf bs bs.length) (P.doPost op (.sequence bs)) := by
  have hexact : BuildExact (fun (_ : σ) (_ : MrBuffer) => True) P.sgeMax bs
      (buildNativeSglist P.fill bs ({} : SmallSglist σ 8) P.sgeMax).1
      (buildNativeSglist P.fill bs ({} : SmallSglist σ 8) P.sgeMax).2 :=
    buildNativeSglist_exact (by decide) (fun _ _ => trivial) bs P.sgeMax
  simp only [doPost]
  generalize buildNativeSglist P.fill bs ({} : SmallSglist σ 8) P.sgeMax = r at hexact ⊢
  obtain ⟨built, sglist⟩ := r
  dsimp only at hexact ⊢
  by_cases hmany : built.tooManySge = true
  · rw [if_pos hmany]
    exact .refused _
  rw [if_neg hmany]
  by_cases hlarge : built.bufferTooLarge = true
  · rw [if_pos hlarge]
    exact .refused _
  rw [if_neg hlarge]
  rw [Bool.not_eq_true] at hmany hlarge
  have hcount := hexact.complete hmany hlarge
  have htotal : built.totalBytes.toNat = bytesOf bs bs.length := hcount ▸ hexact.total
  have hempty : built.allEmpty = true ↔ bytesOf bs bs.length = 0 := by
    rw [hexact.allEmpty, hcount, bytesOf_eq_zero]
  by_cases hz : built.allEmpty = true
  · rw [if_pos hz]
    exact .empty (hempty.1 hz)
  · rw [if_neg hz]
    exact .submitted _ htotal (hz ∘ hempty.2) _ _

/-- Both paths, for a post that reads no more SGEs than it is told to. -/
theorem PostParams.posts (P : PostParams σ ω ε)
    (hpost : ∀ sges count, P.post sges count = P.post (sges.take count) count) (op : DataOp ε)
    (bs : MrBufferSequence) : P.Posts op bs.total (P.doPost op bs) := by
  cases bs with
  | single b =>
    rw [P.doPost_single hpost op b]
    exact P.posts_sequence op [b]
  | sequence bs => exact P.posts_sequence op bs

end Posts

/-! ## What the handler gets -/

/-- The count of a successful op: the posted bytes of a send or a write, the bytes the completion
reports of a receive or a read unless there was nothing to post. -/
def successBytes (kind : OpType) (total cqeBytes : Nat) : Nat :=
  match kind with
  | .postSend | .remoteWrite => total
  | .postRecv | .remoteRead => if total = 0 then 0 else cqeBytes

theorem successBytes_empty (kind : OpType) (cqeBytes : Nat) : successBytes kind 0 cqeBytes = 0 := by
  cases kind <;> rfl

theorem successBytes_posted {kind : OpType} {total cqeBytes : Nat} (ht : total ≠ 0) :
    successBytes kind total cqeBytes = if kind.clearsBytes then total else cqeBytes := by
  cases kind <;> simp [successBytes, OpType.clearsBytes, ht]

/-- The arguments of a handler are in order: no bytes with an error, all of them without. -/
structure Accounted {ε : Type w} (isError : ε → Bool) (kind : OpType) (total cqeBytes : Nat)
    (args : ε × Nat) : Prop where
  failed : isError args.1 = true → args.2 = 0
  succeeded : isError args.1 = false → args.2 = successBytes kind total cqeBytes

section Handler

variable {σ : Type u} {ω : Type v} {ε : Type w} {isError : ε → Bool} {kind : OpType} {total cqeBytes : Nat}
  {P : PostParams σ ω ε} {o : DataOp ε} {ec : ε} {r : PostOutcome ω ε}

theorem accounted_failed (hec : isError o.ec = true) (hb : o.bytesTransferred = 0) :
    Accounted isError kind total cqeBytes (o.handlerArgs isError kind) := by
  refine ⟨fun _ => ?_, fun hok => absurd (hec.symm.trans hok) Bool.noConfusion⟩
  rw [DataOp.handlerArgs, hb, ite_self]

theorem accounted_succeeded (ht : total ≠ 0) (hec : isError o.ec = false)
    (hb : o.bytesTransferred = if kind.clearsBytes then total else cqeBytes) :
    Accounted isError kind total cqeBytes (o.handlerArgs isError kind) := by
  refine ⟨fun herr => absurd (hec.symm.trans herr) Bool.noConfusion, fun _ => ?_⟩
  rw [DataOp.handlerArgs, hec, Bool.and_false, if_neg Bool.false_ne_true, hb, successBytes_posted ht]

/-- The parameters of the `do_post_*` of a kind: the bytes are stored at post time by the kinds that
clear them on an error, and the library's own codes are errors. -/
structure PostParams.For (P : PostParams σ ω ε) (isError : ε → Bool) (kind : OpType) : Prop where
  isError_eq : P.isError = isError
  sets : P.setsPostedBytes = kind.clearsBytes
  ofRdma : ∀ e, isError (P.ofRdma e) = true

/-- An op that is not posted reports no bytes, and has none unless it failed. -/
theorem PostParams.Posts.immediate (hP : P.For isError kind) (hok : isError ec = false)
    (h : P.Posts { ec := ec } total r) (hr : r.immediate = true) :
    Accounted isError kind total cqeBytes (r.op.handlerArgs isError kind) := by
  cases h with
  | empty ht =>
    refine ⟨fun herr => absurd (hok.symm.trans herr) Bool.noConfusion, fun _ => ?_⟩
    rw [DataOp.handlerArgs, ht, successBytes_empty, ite_self]
  | refused e => exact accounted_failed (hP.ofRdma e) rfl
  | submitted bytes hb ht sges count =>
    have herr : isError (P.post sges count).2 = true := hP.isError_eq ▸ hr
    refine ⟨fun _ => ?_, fun hok => absurd (herr.symm.trans hok) Bool.noConfusion⟩
    simp only [DataOp.handlerArgs, submit, setPosted, herr, hP.sets, Bool.and_true]
    cases kind.clearsBytes <;> rfl

/-- An op that is posted has the bytes of all its buffers, if its kind stores them. -/
theorem PostParams.Posts.posted (hP : P.For isError kind) (h : P.Posts { ec := ec } total r)
    (hr : r.immediate = false) :
    total ≠ 0 ∧ isError r.op.ec = false ∧
      r.op.bytesTransferred = if kind.clearsBytes then total else 0 := by
  cases h with
  | empty => cases hr
  | refused => cases hr
  | submitted bytes hb ht sges count =>
    refine ⟨ht, hP.isError_eq ▸ hr, ?_⟩
    simp only [submit, setPosted, hP.sets, ← hb]
    cases kind.clearsBytes <;> rfl

end Handler

/-! ## The ibv backend -/

namespace Ibv.Verbs

/-- The opcode of the CQE of a kind of op; a receive may also be that of a write with immediate data. -/
def Completes (kind : OpType) (opcode : WcOpcode) : Prop :=
  match kind with
  | .postSend => opcode = .send
  | .postRecv => opcode ≠ .send ∧ opcode ≠ .rdmaWrite ∧ opcode ≠ .rdmaRead
  | .remoteRead => opcode = .rdmaRead
  | .remoteWrite => opcode = .rdmaWrite

/-- The CQE of the op at `addr`. Its opcode is defined only if it succeeded. -/
structure CqeOf (kind : OpType) (addr : Nat) (wc : Wc) : Prop where
  wrId : wc.wrId = addr
  opcode : wc.status = .success → Completes kind wc.opcode

variable {kind : OpType} {cfg : SgeConfig} {native : NativeWr → Int} {addr : Nat} {remote : RemoteAddr}
  {wc : Wc} {o : DataOp ErrorCode} {total : Nat}

theorem Completes.reports (h : Completes kind wc.opcode) :
    (wc.opcode = .send ∨ wc.opcode = .rdmaWrite) ↔ kind.clearsBytes = true := by
  cases kind <;> simp_all [Completes, OpType.clearsBytes]

theorem paramsOf_for : (paramsOf kind cfg native addr remote).For isError kind := by
  cases kind <;> exact ⟨rfl, rfl, fun _ => rfl⟩

theorem doPost_posts (op : DataOp ErrorCode) (bs : MrBufferSequence) :
    (paramsOf kind cfg native addr remote).Posts op bs.total
      (doPost kind cfg native addr remote op bs) := by
  rw [doPost_eq]
  exact PostParams.posts _ paramsOf_post op bs

/-- A posted op, resolved from its CQE. -/
theorem resolve_accounted (haddr : addr ≠ 0) (hwc : CqeOf kind addr wc) (ht : total ≠ 0)
    (hec : isError o.ec = false) (hb : o.bytesTransferred = if kind.clearsBytes then total else 0) :
    ∃ o', resolve wc o = some o' ∧ Accounted isError kind total wc.byteLen (o'.handlerArgs isError kind) ∧
      (wc.status = .wrFlushErr → o'.ec = operationAborted) ∧
        (wc.status ≠ .success → isError o'.ec = true) := by
  have hid : wc.wrId ≠ 0 := hwc.wrId ▸ haddr
  by_cases hs : wc.status = .success
  · have hrep := (hwc.opcode hs).reports
    by_cases hop : wc.opcode = .send ∨ wc.opcode = .rdmaWrite
    · refine ⟨o, ?_, accounted_succeeded ht hec ?_, fun hf => ?_, fun hf => absurd hs hf⟩
      · rw [resolve, resolveVerbsOp, if_neg hid, if_pos hs, if_pos hop]
        rfl
      · rw [hb, if_pos (hrep.1 hop), if_pos (hrep.1 hop)]
      · cases hs.symm.trans hf
    · refine ⟨{ o with bytesTransferred := wc.byteLen }, ?_, accounted_succeeded ht hec ?_, fun hf => ?_,
        fun hf => absurd hs hf⟩
      · rw [resolve, resolveVerbsOp, if_neg hid, if_pos hs, if_neg hop]
        rfl
      · rw [if_neg (hop ∘ hrep.2)]
      · cases hs.symm.trans hf
  · have herr : isError (wcStatusToEc wc.status) = true := by
      cases hst : wc.status with
      | success => exact absurd hst hs
      | wrFlushErr => rfl
      | other code => rfl
    refine ⟨{ ec := wcStatusToEc wc.status }, ?_, accounted_failed herr rfl, fun hf => ?_, fun _ => herr⟩
    · rw [resolve, resolveVerbsOp, if_neg hid, if_neg hs]
      rfl
    · rw [hf]
      rfl

/-- The handler of an op of the ibv backend, in either mode. -/
theorem outcome_accounted (mode : Mode) (haddr : addr ≠ 0) (bs : MrBufferSequence)
    (hwc : CqeOf kind addr wc) :
    ∃ args, outcome mode kind cfg native addr remote bs wc = some args ∧
      Accounted isError kind bs.total wc.byteLen args ∧
        ((doPost kind cfg native addr remote { ec := success } bs).immediate = false →
          (wc.status = .wrFlushErr → args.1 = operationAborted) ∧
            (wc.status ≠ .success → isError args.1 = true)) := by
  have hposts : (paramsOf kind cfg native addr remote).Posts { ec := success } bs.total _ :=
    doPost_posts { ec := success } bs
  unfold outcome
  dsimp only
  generalize doPost kind cfg native addr remote { ec := success } bs = r at hposts ⊢
  cases hi : r.immediate with
  | true =>
    exact ⟨_, if_pos rfl, hposts.immediate paramsOf_for rfl hi, fun hf => Bool.noConfusion hf⟩
  | false =>
    obtain ⟨ht, hec, hb⟩ := hposts.posted paramsOf_for hi
    obtain ⟨o', ho, hacc, hflush, hfail⟩ := resolve_accounted haddr hwc ht hec hb
    refine ⟨o'.handlerArgs isError kind, ?_, hacc, fun _ => ⟨hflush, hfail⟩⟩
    cases mode <;> simp [deliver, pollInto, dispatch, ho]

end Ibv.Verbs

/-! ## The nd backend -/

namespace Nd.Verbs

/-- The request type of the result of a kind of op. -/
def Completes (kind : OpType) (requestType : RequestType) : Prop :=
  match kind with
  | .postSend => requestType = .send
  | .postRecv => requestType = .receive
  | .remoteRead => requestType = .read
  | .remoteWrite => requestType = .write

/-- The result of the op at `addr`. -/
structure ResultOf (kind : OpType) (addr : Nat) (result : Nd2Result) : Prop where
  requestContext : result.requestContext = addr
  requestType : result.status = ndSuccess → Completes kind result.requestType

variable {kind : OpType} {cfg : SgeConfig} {native : NativeRequest → Int} {addr : Nat} {remote : RemoteAddr}
  {result : Nd2Result} {o : DataOp NdErrorCode} {total : Nat}

theorem Completes.reports (h : Completes kind result.requestType) :
    (result.requestType ≠ .send ∧ result.requestType ≠ .write) ↔ kind.clearsBytes = false := by
  cases kind <;> simp_all [Completes, OpType.clearsBytes]

/-- A status is an error exactly if it is not `ND_SUCCESS`. -/
theorem isError_completionStatusToError (status : Int) :
    (completionStatusToError status).isError = true ↔ status ≠ ndSuccess := by
  unfold completionStatusToError
  split_ifs with hs hc
  · exact iff_of_false Bool.false_ne_true (not_not.2 hs)
  · exact iff_of_true rfl hs
  · exact bne_iff_ne

/-- Event mode and poll mode give the handler the same arguments, for every result. -/
theorem pollAndDispatch_eq (kind : OpType) (result : Nd2Result) (o : DataOp NdErrorCode) :
    pollAndDispatch kind result o = dispatchCompletion kind result o := by
  unfold pollAndDispatch resolveWc dispatchCompletion
  dsimp only
  split_ifs <;> rfl

theorem paramsOf_for : (paramsOf kind cfg native addr remote).For NdErrorCode.isError kind := by
  cases kind <;> exact ⟨rfl, rfl, fun _ => rfl⟩

theorem doPost_posts (op : DataOp NdErrorCode) (bs : MrBufferSequence) :
    (paramsOf kind cfg native addr remote).Posts op bs.total
      (doPost kind cfg native addr remote op bs) := by
  rw [doPost_eq]
  exact PostParams.posts _ paramsOf_post op bs

/-- A posted op, resolved from its result. -/
theorem resolveWc_accounted (haddr : addr ≠ 0) (hres : ResultOf kind addr result) (ht : total ≠ 0)
    (hb : o.bytesTransferred = if kind.clearsBytes then total else 0) :
    ∃ o', resolveWc result o = some o' ∧
      Accounted NdErrorCode.isError kind total result.bytesTransferred
        (o'.handlerArgs NdErrorCode.isError kind) := by
  have hid : result.requestContext ≠ 0 := hres.requestContext ▸ haddr
  rw [resolveWc, if_neg hid]
  dsimp only
  by_cases hs : result.status = ndSuccess
  · have hok : (completionStatusToError result.status).isError = false :=
      Bool.eq_false_iff.2 fun herr => (isError_completionStatusToError _).1 herr hs
    have hrep := (hres.requestType hs).reports
    rw [hok, Bool.not_false, if_pos rfl]
    by_cases hty : result.requestType ≠ .send ∧ result.requestType ≠ .write
    · rw [if_pos hty]
      exact ⟨_, rfl, accounted_succeeded ht hok (by rw [hrep.1 hty]; rfl)⟩
    · have hcl : kind.clearsBytes = true := by simpa using hty ∘ hrep.2
      rw [if_neg hty]
      exact ⟨_, rfl, accounted_succeeded ht hok (by rw [hb, hcl]; rfl)⟩
  · have herr := (isError_completionStatusToError _).2 hs
    rw [herr, Bool.not_true, if_neg Bool.false_ne_true]
    exact ⟨_, rfl, accounted_failed herr rfl⟩

/-- The handler of an op of the nd backend, in either mode. -/
theorem outcome_accounted (mode : Mode) (haddr : addr ≠ 0) (bs : MrBufferSequence)
    (hres : ResultOf kind addr result) :
    ∃ args, outcome mode kind cfg native addr remote bs result = some args ∧
      Accounted NdErrorCode.isError kind bs.total result.bytesTransferred args := by
  have hposts : (paramsOf kind cfg native addr remote).Posts { ec := .common success } bs.total _ :=
    doPost_posts { ec := .common success } bs
  unfold outcome
  dsimp only
  generalize doPost kind cfg native addr remote { ec := .common success } bs = r at hposts ⊢
  cases hi : r.immediate with
  | true => exact ⟨_, if_pos rfl, hposts.immediate paramsOf_for rfl hi⟩
  | false =>
    obtain ⟨ht, -, hb⟩ := hposts.posted paramsOf_for hi
    obtain ⟨o', ho, hacc⟩ := resolveWc_accounted haddr hres ht hb
    have hevent : pollAndDispatch kind result r.op = some (o'.handlerArgs NdErrorCode.isError kind) := by
      rw [pollAndDispatch, ho]
      rfl
    refine ⟨_, ?_, hacc⟩
    rw [if_neg Bool.false_ne_true]
    cases mode with
    | event => exact hevent
    | poll => exact (pollAndDispatch_eq kind result r.op).symm.trans hevent

end Nd.Verbs

/-- Every kind of op of both backends accounts for its bytes, however it ends and in either mode; a
flushed work request is reported as aborted; and the two modes of the nd backend agree on every result.
-/
theorem byte_accounting (kind : OpType) (mode : Mode) (cfg : SgeConfig) (addr : Nat) (haddr : addr ≠ 0)
    (remote : RemoteAddr) (bs : MrBufferSequence) :
    (∀ (native : Ibv.Verbs.NativeWr → Int) (wc : Ibv.Wc), Ibv.Verbs.CqeOf kind addr wc →
      ∃ args, Ibv.Verbs.outcome mode kind cfg native addr remote bs wc = some args ∧
        Accounted isError kind bs.total wc.byteLen args ∧
          ((Ibv.Verbs.doPost kind cfg native addr remote { ec := success } bs).immediate = false →
            (wc.status = .wrFlushErr → args.1 = operationAborted) ∧
              (wc.status ≠ .success → isError args.1 = true))) ∧
    (∀ (native : Nd.Verbs.NativeRequest → Int) (result : Nd.Verbs.Nd2Result),
      Nd.Verbs.ResultOf kind addr result →
        ∃ args, Nd.Verbs.outcome mode kind cfg native addr remote bs result = some args ∧
          Accounted Nd.NdErrorCode.isError kind bs.total result.bytesTransferred args) ∧
    ∀ (result : Nd.Verbs.Nd2Result) (op : DataOp Nd.NdErrorCode),
      Nd.Verbs.pollAndDispatch kind result op = Nd.Verbs.dispatchCompletion kind result op :=
  ⟨fun _ _ hwc => Ibv.Verbs.outcome_accounted mode haddr bs hwc,
    fun _ _ hres => Nd.Verbs.outcome_accounted mode haddr bs hres, Nd.Verbs.pollAndDispatch_eq kind⟩

/-- A receive of one buffer that gets fewer bytes than it has room for. -/
theorem byte_accounting_shortRecv :
    ∃ args, Ibv.Verbs.outcome .event .postRecv {} (fun _ => 0) 1 ⟨0, 0⟩ (.single ⟨4096, 64, 7⟩)
        ⟨1, .success, .recv, 5⟩ = some args ∧
      Accounted isError .postRecv 64 5 args := by
  obtain ⟨args, hargs, hacc, -⟩ := (byte_accounting .postRecv .event {} 1 (by decide) ⟨0, 0⟩
    (.single ⟨4096, 64, 7⟩)).1 (fun _ => 0) ⟨1, .success, .recv, 5⟩
      ⟨rfl, fun _ => ⟨by decide, by decide, by decide⟩⟩
  exact ⟨args, hargs, hacc⟩

end RdmaOnAsio
