import RdmaOnAsio.Detail.Config

/-!
# Deriving and checking a configuration, ibv

The capabilities of a verbs device are signed: a zero or a negative capability counts as zero, for
the derivation and for the check alike. The poll batch, the inline size and the resolve timeout have
no device capability.
-/

namespace RdmaOnAsio

namespace Ibv

/-- The capabilities of `native_device_attr_t` that a configuration is held against. -/
structure NativeDeviceAttr where
  maxCqe : Int32
  maxQpWr : Int32
  maxSge : Int32
  maxQpRdAtom : Int32
  maxQpInitRdAtom : Int32
deriving DecidableEq, Repr

/-- `cap_of`. -/
def capOf (value : Int32) : UInt32 := if value > 0 then value.toUInt32 else 0

/-- `derive_effective_config`. -/
def deriveEffectiveConfig (userConfig : RdmaConfig) (caps : NativeDeviceAttr) : RdmaConfig :=
  { userConfig with
    cqe :=
      if userConfig.cqe = 0 then min (capOf caps.maxCqe) defaultCqe else userConfig.cqe
    cqPollBatch :=
      if userConfig.cqPollBatch = 0 then defaultCqPollBatch else userConfig.cqPollBatch
    maxSendWr :=
      if userConfig.maxSendWr = 0 then min (capOf caps.maxQpWr) defaultMaxSendWr
      else userConfig.maxSendWr
    maxRecvWr :=
      if userConfig.maxRecvWr = 0 then min (capOf caps.maxQpWr) defaultMaxRecvWr
      else userConfig.maxRecvWr
    maxSendSge :=
      if userConfig.maxSendSge = 0 then min (capOf caps.maxSge) defaultMaxSendSge
      else userConfig.maxSendSge
    maxRecvSge :=
      if userConfig.maxRecvSge = 0 then min (capOf caps.maxSge) defaultMaxRecvSge
      else userConfig.maxRecvSge
    -- `max_inline_data_` stays as the user gave it
    inboundReadLimit :=
      if userConfig.inboundReadLimit = 0 then capOf caps.maxQpRdAtom
      else userConfig.inboundReadLimit
    outboundReadLimit :=
      if userConfig.outboundReadLimit = 0 then capOf caps.maxQpInitRdAtom
      else userConfig.outboundReadLimit
    cmResolveTimeoutMs :=
      if userConfig.cmResolveTimeoutMs = 0 then defaultCmResolveTimeoutMs
      else userConfig.cmResolveTimeoutMs }

/-- `is_config_compatible`. -/
def isConfigCompatible (config : RdmaConfig) (caps : NativeDeviceAttr) : Bool :=
  if config.cqe ≠ 0 ∧ config.cqe > capOf caps.maxCqe then false
  else if config.maxSendWr ≠ 0 ∧ config.maxSendWr > capOf caps.maxQpWr then false
  else if config.maxRecvWr ≠ 0 ∧ config.maxRecvWr > capOf caps.maxQpWr then false
  else if config.maxSendSge ≠ 0 ∧ config.maxSendSge > capOf caps.maxSge then false
  else if config.maxRecvSge ≠ 0 ∧ config.maxRecvSge > capOf caps.maxSge then false
  else if config.inboundReadLimit ≠ 0 ∧ config.inboundReadLimit > capOf caps.maxQpRdAtom then false
  else if config.outboundReadLimit ≠ 0 ∧ config.outboundReadLimit > capOf caps.maxQpInitRdAtom then
    false
  else true

/-! ## The two as laws of the fields -/

namespace NativeDeviceAttr

/-- The capability a field is held against. -/
def cap (caps : NativeDeviceAttr) : ConfigField → Option UInt32
  | .cqe => some (capOf caps.maxCqe)
  | .maxSendWr | .maxRecvWr => some (capOf caps.maxQpWr)
  | .maxSendSge | .maxRecvSge => some (capOf caps.maxSge)
  | .inboundReadLimit => some (capOf caps.maxQpRdAtom)
  | .outboundReadLimit => some (capOf caps.maxQpInitRdAtom)
  | .cqPollBatch | .maxInlineData | .cmResolveTimeoutMs => none

end NativeDeviceAttr

/-- A property of all fields with a capability, field by field. -/
theorem NativeDeviceAttr.forall_cap (caps : NativeDeviceAttr) {P : ConfigField → UInt32 → Prop} :
    (∀ f, ∀ m ∈ caps.cap f, P f m) ↔
      P .cqe (capOf caps.maxCqe) ∧ P .maxSendWr (capOf caps.maxQpWr) ∧
      P .maxRecvWr (capOf caps.maxQpWr) ∧ P .maxSendSge (capOf caps.maxSge) ∧
      P .maxRecvSge (capOf caps.maxSge) ∧ P .inboundReadLimit (capOf caps.maxQpRdAtom) ∧
      P .outboundReadLimit (capOf caps.maxQpInitRdAtom) := by
  constructor
  · intro h
    exact ⟨h .cqe _ rfl, h .maxSendWr _ rfl, h .maxRecvWr _ rfl, h .maxSendSge _ rfl,
      h .maxRecvSge _ rfl, h .inboundReadLimit _ rfl, h .outboundReadLimit _ rfl⟩
  · rintro ⟨h₁, h₂, h₃, h₄, h₅, h₆, h₇⟩ f m hm
    cases f <;> simp only [cap, Option.mem_def, Option.some.injEq, reduceCtorEq] at hm <;>
      subst hm <;> assumption

/-- The fields without a capability that have a default of their own. -/
def policy : ConfigField → UInt32
  | .cqPollBatch => defaultCqPollBatch
  | .cmResolveTimeoutMs => defaultCmResolveTimeoutMs
  | _ => 0

/-- A capability is below `2 ^ 31`, the sign bit it does not have. -/
theorem capOf_toNat_lt (v : Int32) : (capOf v).toNat < 2 ^ 31 := by
  by_cases h : v > 0
  · have hpos : 0 < v.toInt := Int32.lt_iff_toInt_lt.1 h
    have hlt : v.toInt < 2 ^ 31 := v.toInt_lt
    have hbmod : v.toInt = (v.toUInt32.toNat : Int).bmod (2 ^ 32) := toInt_toInt32 v.toUInt32
    have hn : v.toUInt32.toNat < 2 ^ 32 := v.toUInt32.toNat_lt
    rw [Int.bmod_def] at hbmod
    have hv : (v.toUInt32.toNat : Int) = v.toInt := by
      split at hbmod <;> omega
    rw [capOf, if_pos h]
    omega
  · rw [capOf, if_neg h]
    decide

theorem get_deriveEffectiveConfig (c : RdmaConfig) (caps : NativeDeviceAttr) :
    (deriveEffectiveConfig c caps).get =
      AutoFields.derive 0 (ConfigField.choice policy caps.cap) c.get := by
  funext f
  cases f with
  | maxInlineData =>
    -- left alone, which is to derive the unset value itself
    by_cases h : c.get .maxInlineData = 0
    · rw [AutoFields.derive_of_unset h]
      exact h
    · rw [AutoFields.derive_of_set h]
      rfl
  | _ => rfl

theorem sameOperating_deriveEffectiveConfig (c : RdmaConfig) (caps : NativeDeviceAttr) :
    c.SameOperating (deriveEffectiveConfig c caps) := ⟨rfl, rfl, rfl⟩

theorem isConfigCompatible_iff (c : RdmaConfig) (caps : NativeDeviceAttr) :
    isConfigCompatible c caps = true ↔ AutoFields.Compatible 0 caps.cap c.get := by
  rw [AutoFields.Compatible, caps.forall_cap]
  simp only [isConfigCompatible, ite_eq_iff, reduceCtorEq, and_false, false_or, and_true,
    not_exceeds_iff, RdmaConfig.get]

end Ibv

end RdmaOnAsio
