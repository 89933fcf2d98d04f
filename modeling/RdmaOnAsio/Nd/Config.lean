import RdmaOnAsio.Detail.Config

/-!
# Deriving and checking a configuration, NetworkDirect

The capabilities of an adapter are unsigned, and there is one for the inline size as well. A device is
selected with a filter that is written separately from the check of `use_device`.
-/

namespace RdmaOnAsio

namespace Nd

/-- The capabilities of `native_context_config_t` that a configuration is held against. -/
structure NativeContextConfig where
  maxCompletionQueueDepth : UInt32
  maxInitiatorQueueDepth : UInt32
  maxReceiveQueueDepth : UInt32
  maxInitiatorSge : UInt32
  maxReceiveSge : UInt32
  maxInlineDataSize : UInt32
  maxInboundReadLimit : UInt32
  maxOutboundReadLimit : UInt32
deriving DecidableEq, Repr

/-- `derive_effective_config`. -/
def deriveEffectiveConfig (userConfig : RdmaConfig) (caps : NativeContextConfig) : RdmaConfig :=
  { userConfig with
    cqe :=
      if userConfig.cqe = 0 then min caps.maxCompletionQueueDepth defaultCqe else userConfig.cqe
    cqPollBatch :=
      if userConfig.cqPollBatch = 0 then defaultCqPollBatch else userConfig.cqPollBatch
    maxSendWr :=
      if userConfig.maxSendWr = 0 then min caps.maxInitiatorQueueDepth defaultMaxSendWr
      else userConfig.maxSendWr
    maxRecvWr :=
      if userConfig.maxRecvWr = 0 then min caps.maxReceiveQueueDepth defaultMaxRecvWr
      else userConfig.maxRecvWr
    maxSendSge :=
      if userConfig.maxSendSge = 0 then min caps.maxInitiatorSge defaultMaxSendSge
      else userConfig.maxSendSge
    maxRecvSge :=
      if userConfig.maxRecvSge = 0 then min caps.maxReceiveSge defaultMaxRecvSge
      else userConfig.maxRecvSge
    maxInlineData :=
      if userConfig.maxInlineData = 0 then caps.maxInlineDataSize else userConfig.maxInlineData
    inboundReadLimit :=
      if userConfig.inboundReadLimit = 0 then caps.maxInboundReadLimit
      else userConfig.inboundReadLimit
    outboundReadLimit :=
      if userConfig.outboundReadLimit = 0 then caps.maxOutboundReadLimit
      else userConfig.outboundReadLimit }

/-- `is_config_compatible`. -/
def isConfigCompatible (config : RdmaConfig) (caps : NativeContextConfig) : Bool :=
  (config.cqe == 0 || config.cqe ≤ caps.maxCompletionQueueDepth) &&
  (config.maxSendWr == 0 || config.maxSendWr ≤ caps.maxInitiatorQueueDepth) &&
  (config.maxRecvWr == 0 || config.maxRecvWr ≤ caps.maxReceiveQueueDepth) &&
  (config.maxSendSge == 0 || config.maxSendSge ≤ caps.maxInitiatorSge) &&
  (config.maxRecvSge == 0 || config.maxRecvSge ≤ caps.maxReceiveSge) &&
  (config.maxInlineData == 0 || config.maxInlineData ≤ caps.maxInlineDataSize) &&
  (config.inboundReadLimit == 0 || config.inboundReadLimit ≤ caps.maxInboundReadLimit) &&
  (config.outboundReadLimit == 0 || config.outboundReadLimit ≤ caps.maxOutboundReadLimit)

/-! ## Selecting a device -/

/-- `nd_adapter_t`; an interface it owns is an address, or null. -/
structure NdAdapter where
  adapter : Option Nat
  pd : Option Nat
  info : NativeContextConfig
deriving DecidableEq, Repr

/-- `is_valid_adapter`, of a pointer that may be null and a configuration. -/
def isValidAdapter (adapter : Option NdAdapter) (config : RdmaConfig) : Bool :=
  match adapter with
  | none => false
  | some adapter =>
    let capabilities := adapter.info
    if config.cqe > capabilities.maxCompletionQueueDepth then false
    else if config.maxSendWr > capabilities.maxInitiatorQueueDepth then false
    else if config.maxRecvWr > capabilities.maxReceiveQueueDepth then false
    else if config.maxSendSge > capabilities.maxInitiatorSge then false
    else if config.maxRecvSge > capabilities.maxReceiveSge then false
    else if config.maxInlineData > capabilities.maxInlineDataSize then false
    else if config.inboundReadLimit > capabilities.maxInboundReadLimit then false
    else if config.outboundReadLimit > capabilities.maxOutboundReadLimit then false
    else true

/-- `nd_device_manager_t::get_first_available_device`, over the devices of the providers. -/
def getFirstAvailableDevice (providers : List (List (Option NdAdapter))) (config : RdmaConfig) :
    Option NdAdapter :=
  match providers with
  | [] => none
  | devices :: providers =>
    match devices.find? (isValidAdapter · config) with
    | some device => device
    | none => getFirstAvailableDevice providers config

/-! ## The two as laws of the fields -/

namespace NativeContextConfig

/-- The capability a field is held against. -/
def cap (caps : NativeContextConfig) : ConfigField → Option UInt32
  | .cqe => some caps.maxCompletionQueueDepth
  | .maxSendWr => some caps.maxInitiatorQueueDepth
  | .maxRecvWr => some caps.maxReceiveQueueDepth
  | .maxSendSge => some caps.maxInitiatorSge
  | .maxRecvSge => some caps.maxReceiveSge
  | .maxInlineData => some caps.maxInlineDataSize
  | .inboundReadLimit => some caps.maxInboundReadLimit
  | .outboundReadLimit => some caps.maxOutboundReadLimit
  | .cqPollBatch | .cmResolveTimeoutMs => none

end NativeContextConfig

/-- A property of all fields with a capability, field by field. -/
theorem NativeContextConfig.forall_cap (caps : NativeContextConfig) {P : ConfigField → UInt32 → Prop} :
    (∀ f, ∀ m ∈ caps.cap f, P f m) ↔
      P .cqe caps.maxCompletionQueueDepth ∧ P .maxSendWr caps.maxInitiatorQueueDepth ∧
      P .maxRecvWr caps.maxReceiveQueueDepth ∧ P .maxSendSge caps.maxInitiatorSge ∧
      P .maxRecvSge caps.maxReceiveSge ∧ P .maxInlineData caps.maxInlineDataSize ∧
      P .inboundReadLimit caps.maxInboundReadLimit ∧
      P .outboundReadLimit caps.maxOutboundReadLimit := by
  constructor
  · intro h
    exact ⟨h .cqe _ rfl, h .maxSendWr _ rfl, h .maxRecvWr _ rfl, h .maxSendSge _ rfl,
      h .maxRecvSge _ rfl, h .maxInlineData _ rfl, h .inboundReadLimit _ rfl,
      h .outboundReadLimit _ rfl⟩
  · rintro ⟨h₁, h₂, h₃, h₄, h₅, h₆, h₇, h₈⟩ f m hm
    cases f <;> simp only [cap, Option.mem_def, Option.some.injEq, reduceCtorEq] at hm <;>
      subst hm <;> assumption

/-- The fields without a capability that have a default of their own. -/
def policy : ConfigField → UInt32
  | .cqPollBatch => defaultCqPollBatch
  | _ => 0

theorem get_deriveEffectiveConfig (c : RdmaConfig) (caps : NativeContextConfig) :
    (deriveEffectiveConfig c caps).get =
      AutoFields.derive 0 (ConfigField.choice policy caps.cap) c.get := by
  funext f
  cases f with
  | cmResolveTimeoutMs =>
    -- left alone, which is to derive the unset value itself
    by_cases h : c.get .cmResolveTimeoutMs = 0
    · rw [AutoFields.derive_of_unset h]
      exact h
    · rw [AutoFields.derive_of_set h]
      rfl
  | _ => rfl

theorem sameOperating_deriveEffectiveConfig (c : RdmaConfig) (caps : NativeContextConfig) :
    c.SameOperating (deriveEffectiveConfig c caps) := ⟨rfl, rfl, rfl⟩

theorem isConfigCompatible_iff (c : RdmaConfig) (caps : NativeContextConfig) :
    isConfigCompatible c caps = true ↔ AutoFields.Compatible 0 caps.cap c.get := by
  rw [AutoFields.Compatible, caps.forall_cap]
  simp only [isConfigCompatible, Bool.and_eq_true, Bool.or_eq_true, beq_iff_eq, decide_eq_true_eq,
    and_assoc, RdmaConfig.get]

/-- The filter holds every field against its capability, a zero field being within any. -/
theorem isValidAdapter_some_iff (adapter : NdAdapter) (c : RdmaConfig) :
    isValidAdapter (some adapter) c = true ↔ AutoFields.Within adapter.info.cap c.get := by
  rw [AutoFields.Within, adapter.info.forall_cap]
  simp only [isValidAdapter, ite_eq_iff, reduceCtorEq, and_false, false_or, and_true, gt_iff_lt,
    UInt32.not_lt, RdmaConfig.get]

/-- A selected device passed the filter. -/
theorem isValidAdapter_of_getFirstAvailableDevice
    {providers : List (List (Option NdAdapter))} {c : RdmaConfig} {device : NdAdapter}
    (h : getFirstAvailableDevice providers c = some device) :
    isValidAdapter (some device) c = true := by
  induction providers with
  | nil => exact absurd h (by simp [getFirstAvailableDevice])
  | cons devices providers ih =>
    rw [getFirstAvailableDevice] at h
    split at h
    next d hd =>
      have hvalid := List.find?_some hd
      rw [h] at hvalid
      exact hvalid
    next => exact ih h

end Nd

end RdmaOnAsio
