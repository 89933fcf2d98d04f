import Mathlib.Algebra.GroupWithZero.Nat
import RdmaOnAsio.Data.AutoFields

/-!
# The configuration of a device

`rdma_config_t` is shared by the two backends. Its unsigned 32-bit fields are zero when the device is
to choose; the RNR fields and the backlog are operating values and are never derived.
-/

namespace RdmaOnAsio

/-- `rdma_config_t`. -/
structure RdmaConfig where
  cqe : UInt32 := 0
  cqPollBatch : UInt32 := 0
  maxSendWr : UInt32 := 0
  maxRecvWr : UInt32 := 0
  maxSendSge : UInt32 := 0
  maxRecvSge : UInt32 := 0
  maxInlineData : UInt32 := 0
  inboundReadLimit : UInt32 := 0
  outboundReadLimit : UInt32 := 0
  rnrRetry : UInt8 := 7
  minRnrTimer : UInt8 := 12
  cmResolveTimeoutMs : UInt32 := 0
  backlog : Int32 := 128
deriving DecidableEq, Repr

/-- `default_cm_resolve_timeout_ms`. -/
def defaultCmResolveTimeoutMs : UInt32 := 2000

/-- `default_cqe`, the same in both backends. -/
def defaultCqe : UInt32 := 4096

/-- `default_cq_poll_batch`. -/
def defaultCqPollBatch : UInt32 := 16

/-- `default_max_send_wr`. -/
def defaultMaxSendWr : UInt32 := 128

/-- `default_max_recv_wr`. -/
def defaultMaxRecvWr : UInt32 := 128

/-- `default_max_send_sge`. -/
def defaultMaxSendSge : UInt32 := 4

/-- `default_max_recv_sge`. -/
def defaultMaxRecvSge : UInt32 := 4

/-- `static_cast<int>` of an unsigned 32-bit value keeps its residue modulo `2 ^ 32`. -/
theorem toInt_toInt32 (x : UInt32) : x.toInt32.toInt = (x.toNat : Int).bmod (2 ^ 32) := by
  rw [Int32.toInt, BitVec.toInt_eq_toNat_bmod]
  rfl

/-! ## The fields by name -/

/-- The fields of `rdma_config_t` in which zero means automatic. -/
inductive ConfigField
  | cqe
  | cqPollBatch
  | maxSendWr
  | maxRecvWr
  | maxSendSge
  | maxRecvSge
  | maxInlineData
  | inboundReadLimit
  | outboundReadLimit
  | cmResolveTimeoutMs
deriving DecidableEq, Repr

namespace ConfigField

/-- The library's own limit on a field: the depths and the SGE counts have one. -/
def defaultLimit : ConfigField → Option UInt32
  | cqe => some defaultCqe
  | maxSendWr => some defaultMaxSendWr
  | maxRecvWr => some defaultMaxRecvWr
  | maxSendSge => some defaultMaxSendSge
  | maxRecvSge => some defaultMaxRecvSge
  | _ => none

/-- Where the fields with a library limit have a capability, each of them has one. -/
theorem exists_cap {cap : ConfigField → Option UInt32} (hcqe : (cap .cqe).isSome = true)
    (hsend : (cap .maxSendWr).isSome = true) (hrecv : (cap .maxRecvWr).isSome = true)
    (hsendSge : (cap .maxSendSge).isSome = true) (hrecvSge : (cap .maxRecvSge).isSome = true)
    (f : ConfigField) (d : UInt32) (h : f.defaultLimit = some d) : ∃ m, cap f = some m := by
  rw [← Option.isSome_iff_exists]
  cases f with
  | cqe | maxSendWr | maxRecvWr | maxSendSge | maxRecvSge => assumption
  | cqPollBatch | maxInlineData | inboundReadLimit | outboundReadLimit | cmResolveTimeoutMs =>
    cases h

/-- `std::min` of a capability and the library's default, where there is one. -/
def limited (cap : UInt32) (f : ConfigField) : UInt32 :=
  match f.defaultLimit with
  | some d => min cap d
  | none => cap

theorem limited_le_cap (cap : UInt32) (f : ConfigField) : f.limited cap ≤ cap := by
  cases h : f.defaultLimit with
  | none =>
    rw [limited, h]
    exact UInt32.le_refl cap
  | some d =>
    rw [limited, h]
    exact Std.min_le_left

theorem limited_le_default {cap d : UInt32} {f : ConfigField} (h : f.defaultLimit = some d) :
    f.limited cap ≤ d := by
  rw [limited, h]
  exact Std.min_le_right

/-- The choice for a field that is left open: a capability limits it where there is one, and
otherwise it is a policy of the library. -/
def choice (policy : ConfigField → UInt32) (cap : ConfigField → Option UInt32) (f : ConfigField) :
    UInt32 :=
  match cap f with
  | some m => f.limited m
  | none => policy f

theorem choice_of_cap {policy : ConfigField → UInt32} {cap : ConfigField → Option UInt32}
    {f : ConfigField} {m : UInt32} (h : cap f = some m) : choice policy cap f = f.limited m := by
  rw [choice, h]

theorem within_choice (policy : ConfigField → UInt32) (cap : ConfigField → Option UInt32) :
    AutoFields.Within cap (choice policy cap) := by
  intro f m hm
  rw [choice_of_cap hm]
  exact limited_le_cap m f

end ConfigField

/-- A field that is derived from a default is never zero. -/
theorem derived_ne_zero {d : UInt32} (hd : d ≠ 0) (x : UInt32) : (if x = 0 then d else x) ≠ 0 := by
  by_cases hx : x = 0
  · rwa [if_pos hx]
  · rwa [if_neg hx]

/-- A field that is derived from a small default is as small as the user chose it. -/
theorem derived_lt_iff {d : UInt32} {n : Nat} (hd : d.toNat < n) (x : UInt32) :
    (if x = 0 then d else x).toNat < n ↔ x.toNat < n := by
  by_cases hx : x = 0
  · rw [if_pos hx, hx]
    exact iff_of_true hd (Nat.zero_lt_of_lt hd)
  · rw [if_neg hx]

/-- A check of one field passes when the field is unset or within its capability. -/
theorem not_exceeds_iff {x m : UInt32} : ¬ (x ≠ 0 ∧ x > m) ↔ x = 0 ∨ x ≤ m := by
  rw [not_and_or, not_not, gt_iff_lt, UInt32.not_lt]

namespace RdmaConfig

/-- The value of an automatic field. -/
def get (c : RdmaConfig) : ConfigField → UInt32
  | .cqe => c.cqe
  | .cqPollBatch => c.cqPollBatch
  | .maxSendWr => c.maxSendWr
  | .maxRecvWr => c.maxRecvWr
  | .maxSendSge => c.maxSendSge
  | .maxRecvSge => c.maxRecvSge
  | .maxInlineData => c.maxInlineData
  | .inboundReadLimit => c.inboundReadLimit
  | .outboundReadLimit => c.outboundReadLimit
  | .cmResolveTimeoutMs => c.cmResolveTimeoutMs

/-- The operating values of two configurations are the same: zero has no special meaning in them. -/
structure SameOperating (c d : RdmaConfig) : Prop where
  rnrRetry : d.rnrRetry = c.rnrRetry
  minRnrTimer : d.minRnrTimer = c.minRnrTimer
  backlog : d.backlog = c.backlog

/-- A configuration is its automatic fields and its operating values. -/
theorem ext_get {c d : RdmaConfig} (hget : d.get = c.get) (hop : SameOperating c d) : d = c := by
  obtain ⟨h₁, h₂, h₃⟩ := hop
  have hf : ∀ f, d.get f = c.get f := congrFun hget
  cases c
  cases d
  have := hf .cqe
  have := hf .cqPollBatch
  have := hf .maxSendWr
  have := hf .maxRecvWr
  have := hf .maxSendSge
  have := hf .maxRecvSge
  have := hf .maxInlineData
  have := hf .inboundReadLimit
  have := hf .outboundReadLimit
  have := hf .cmResolveTimeoutMs
  simp_all [get]

end RdmaConfig

end RdmaOnAsio
