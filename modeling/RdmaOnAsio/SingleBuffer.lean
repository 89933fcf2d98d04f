import RdmaOnAsio.Ibv.Verbs
import RdmaOnAsio.Nd.Verbs

/-!
# The single-buffer fast path

`do_post_*` of one buffer does what it does of the sequence of that buffer: the count limit is no limit for
one element, and what is left of the checks is made on both paths.
-/

namespace RdmaOnAsio

universe u v w

variable {σ : Type u} {ω : Type v} {ε : Type w} {fill : MrBuffer → σ} {b : MrBuffer} {maxSge : UInt32}

theorem not_exceedsSgeLimit_one : exceedsSgeLimit 1 maxSge = false := by
  by_cases hz : maxSge = 0
  · rw [hz]
    rfl
  · have hpos : maxSge.toNat ≠ 0 := fun h => hz (UInt32.toNat_inj.1 h)
    have hlt : ¬ maxSge.toNat < 1 := by omega
    rw [exceedsSgeLimit, decide_eq_false hlt, Bool.and_false]

theorem not_tooMany_zero : ¬ (maxSge ≠ 0 ∧ maxSge.toNat ≤ 0) := fun h =>
  h.1 (UInt32.toNat_inj.1 (Nat.le_zero.1 h.2))

/-- A post that reads `count` SGEs is told by them. -/
theorem PostParams.submit_take (P : PostParams σ ω ε)
    (hpost : ∀ sges count, P.post sges count = P.post (sges.take count) count) (op : DataOp ε)
    (sges : List σ) (count : Nat) : P.submit op sges count = P.submit op (sges.take count) count := by
  unfold submit
  rw [hpost sges count]

variable [Inhabited σ]

/-- The list of one buffer, in the first element of `inline_`. -/
theorem active_append_empty (v : σ) :
    ((({} : SmallSglist σ 8).clear.append v).active).take 1 = [v] := rfl

/-- The build of one buffer that is not too large. -/
theorem buildNativeSglist_singleton (h : ¬ maxOperation < b.length) :
    buildNativeSglist fill [b] ({} : SmallSglist σ 8) maxSge =
      ({ data := .inline_, count := 1, totalBytes := b.length, allEmpty := b.length == 0 },
        ({} : SmallSglist σ 8).clear.append (fill b)) := by
  have hsize : ¬ (maxOperation < b.length ∨ maxOperation - b.length < 0) := by
    rintro (hlt | hlt)
    · exact h hlt
    · exact absurd hlt UInt64.not_lt_zero
  rw [buildNativeSglist, BuiltSglist.loop, if_neg not_tooMany_zero, if_neg hsize, BuiltSglist.loop,
    UInt64.zero_add, Bool.true_and]
  rfl

theorem buildNativeSglist_singleton_tooLarge (fill : MrBuffer → σ) (maxSge : UInt32)
    (h : maxOperation < b.length) :
    (buildNativeSglist fill [b] ({} : SmallSglist σ 8) maxSge).1.tooManySge = false ∧
      (buildNativeSglist fill [b] ({} : SmallSglist σ 8) maxSge).1.bufferTooLarge = true := by
  rw [buildNativeSglist, BuiltSglist.loop, if_neg not_tooMany_zero, if_pos (.inl h)]
  exact ⟨rfl, rfl⟩

/-- The two paths of a `do_post_*` agree, if its post reads no more SGEs than it is told to. -/
theorem PostParams.doPost_single (P : PostParams σ ω ε)
    (hpost : ∀ sges count, P.post sges count = P.post (sges.take count) count) (op : DataOp ε)
    (b : MrBuffer) : P.doPost op (.single b) = P.doPost op (.sequence [b]) := by
  simp only [doPost, not_exceedsSgeLimit_one, exceedsBufferLimit, decide_eq_true_iff, Bool.false_eq_true,
    if_false]
  by_cases hlarge : maxOperation < b.length
  · have hne : b.length ≠ 0 := fun hz => absurd hlarge (by rw [hz]; decide)
    obtain ⟨hmany, hbig⟩ := buildNativeSglist_singleton_tooLarge P.fill P.sgeMax hlarge
    rw [if_neg hne, if_pos hlarge, hmany, hbig]
    rfl
  · rw [buildNativeSglist_singleton hlarge]
    by_cases hz : b.length = 0
    · rw [if_pos hz]
      simp [hz]
    · rw [if_neg hz, if_neg hlarge]
      simp only [Bool.false_eq_true, if_false, beq_iff_eq, hz]
      rw [P.submit_take hpost _ (SmallSglist.active _), active_append_empty]

namespace Ibv.Verbs

/-- What the `do_post_*` of an op takes from its backend and from the op. -/
def paramsOf (kind : OpType) (cfg : SgeConfig) (native : NativeWr → Int) (addr : Nat) (remote : RemoteAddr) :
    PostParams NativeSge NativeWr ErrorCode :=
  match kind with
  | .postSend => params cfg.maxSendSge true (postSend native addr)
  | .postRecv => params cfg.maxRecvSge false (postRecv native addr)
  | .remoteRead => params cfg.maxSendSge false (postRdma native addr .rdmaRead remote)
  | .remoteWrite => params cfg.maxSendSge true (postRdma native addr .rdmaWrite remote)

variable {kind : OpType} {cfg : SgeConfig} {native : NativeWr → Int} {addr : Nat} {remote : RemoteAddr}

theorem doPost_eq :
    doPost kind cfg native addr remote = (paramsOf kind cfg native addr remote).doPost := by
  cases kind <;> rfl

theorem paramsOf_post (sges : List NativeSge) (count : Nat) :
    (paramsOf kind cfg native addr remote).post sges count =
      (paramsOf kind cfg native addr remote).post (sges.take count) count := by
  cases kind <;> simp only [paramsOf, params, postRecv, postSend, postRdma, List.take_take, Nat.min_self]

end Ibv.Verbs

namespace Nd.Verbs

open Ibv (OpType)

/-- What the `do_post_*` of an op takes from its backend and from the op. -/
def paramsOf (kind : OpType) (cfg : SgeConfig) (native : NativeRequest → Int) (addr : Nat)
    (remote : RemoteAddr) : PostParams NativeSge NativeRequest NdErrorCode :=
  match kind with
  | .postSend => params cfg.maxSendSge true (postSend native addr)
  | .postRecv => params cfg.maxRecvSge false (postRecv native addr)
  | .remoteRead => params cfg.maxSendSge false (postRead native addr remote)
  | .remoteWrite => params cfg.maxSendSge true (postWrite native addr remote)

variable {kind : OpType} {cfg : SgeConfig} {native : NativeRequest → Int} {addr : Nat} {remote : RemoteAddr}

theorem doPost_eq :
    doPost kind cfg native addr remote = (paramsOf kind cfg native addr remote).doPost := by
  cases kind <;> rfl

theorem paramsOf_post (sges : List NativeSge) (count : Nat) :
    (paramsOf kind cfg native addr remote).post sges count =
      (paramsOf kind cfg native addr remote).post (sges.take count) count := by
  cases kind <;> simp only [paramsOf, params, postRecv, postSend, postRead, postWrite, postWith,
    List.take_take, Nat.min_self]

end Nd.Verbs

/-- Every `do_post_*` of both backends makes of one buffer what it makes of the sequence of that buffer: the
same result, op and native call. -/
theorem do_post_single (kind : Ibv.OpType) (cfg : SgeConfig) (addr : Nat) (remote : RemoteAddr)
    (b : MrBuffer) :
    (∀ (native : Ibv.Verbs.NativeWr → Int) (op : DataOp ErrorCode),
      Ibv.Verbs.doPost kind cfg native addr remote op (.single b) =
        Ibv.Verbs.doPost kind cfg native addr remote op (.sequence [b])) ∧
    ∀ (native : Nd.Verbs.NativeRequest → Int) (op : DataOp Nd.NdErrorCode),
      Nd.Verbs.doPost kind cfg native addr remote op (.single b) =
        Nd.Verbs.doPost kind cfg native addr remote op (.sequence [b]) := by
  refine ⟨fun native op => ?_, fun native op => ?_⟩
  · rw [Ibv.Verbs.doPost_eq]
    exact PostParams.doPost_single _ Ibv.Verbs.paramsOf_post op b
  · rw [Nd.Verbs.doPost_eq]
    exact PostParams.doPost_single _ Nd.Verbs.paramsOf_post op b

end RdmaOnAsio
