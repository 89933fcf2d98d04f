import RdmaOnAsio.Ibv.UseDevice

/-!
# The effective values at the native interface

The validated depth of a CQ is below the capability of the device, an `int`. The poll batch and the resolve
timeout have no capability: `NativeUnchanged` holds of an accepted configuration exactly if the user chose
both below `2 ^ 31`.
-/

namespace RdmaOnAsio

namespace Ibv

/-- The native value is the effective one: positive if that is, and numerically equal. -/
def Carried (native : Int32) (effective : UInt32) : Prop :=
  (0 < effective.toNat → 0 < native.toInt) ∧ native.toInt = effective.toNat

/-- Every effective value that is narrowed to a native `int` is carried over: the depth of the CQ, the
same for both modes; `poll_batch_`; the entries of a poll, wherever the buffer could be sized; and the
timeout a connector reads once `use_device` has stored the configuration. -/
structure NativeUnchanged (c : RdmaConfig) (caps : NativeDeviceAttr) : Prop where
  createCq : Carried (createCqDepth (deriveEffectiveConfig c caps).cqe) (deriveEffectiveConfig c caps).cqe
  pollBatch : Carried (narrowPollBatch (deriveEffectiveConfig c caps).cqPollBatch)
    (deriveEffectiveConfig c caps).cqPollBatch
  eventEntries : ∀ size allocated n,
    resizeWcBuf size (eventBufferSize (narrowPollBatch (deriveEffectiveConfig c caps).cqPollBatch))
      allocated = some n →
    Carried (pollEntries n) (deriveEffectiveConfig c caps).cqPollBatch
  pollEntries : ∀ size allocated n,
    resizeWcBuf size (pollBufferSize (deriveEffectiveConfig c caps)) allocated = some n →
    Carried (pollEntries n) (deriveEffectiveConfig c caps).cqPollBatch
  timeout : ∀ device,
    Carried (UseDevice.DeviceService.registerDevice device (deriveEffectiveConfig c caps)).cmTimeout
      (deriveEffectiveConfig c caps).cmResolveTimeoutMs

/-! ## The casts -/

/-- A cast to `int` carries a value over exactly if it is below `2 ^ 31`. -/
theorem carried_toInt32_iff (x : UInt32) : Carried x.toInt32 x ↔ x.toNat < 2 ^ 31 := by
  have hlt : x.toNat < 2 ^ 32 := x.toNat_lt
  rw [Carried, toInt_toInt32, Int.bmod_def]
  split <;> omega

theorem narrowPollBatch_of_ne {x : UInt32} (h : x ≠ 0) : narrowPollBatch x = x.toInt32 := by
  rw [narrowPollBatch, if_pos h]

theorem resizeWcBuf_eq {size n m : UInt64} {allocated : Bool}
    (h : resizeWcBuf size n allocated = some m) : m = n := by
  unfold resizeWcBuf at h
  split at h
  · exact (Option.some.inj h).symm
  · split at h
    · cases h
    · split at h
      · exact (Option.some.inj h).symm
      · cases h

/-- The size made of an `int` is its residue modulo `2 ^ 64`. -/
theorem eventBufferSize_bmod (v : Int32) : ((eventBufferSize v).toNat : Int).bmod (2 ^ 64) = v.toInt := by
  have hbmod : v.toInt64.toInt = (v.toInt64.toUInt64.toNat : Int).bmod (2 ^ 64) := by
    rw [Int64.toInt, BitVec.toInt_eq_toNat_bmod]
    rfl
  rw [eventBufferSize, ← hbmod, Int32.toInt_toInt64]

/-- A non-negative `int` is its own size. -/
theorem eventBufferSize_toInt32 {x : UInt32} (h : x.toNat < 2 ^ 31) :
    eventBufferSize x.toInt32 = x.toUInt64 := by
  have hbmod := eventBufferSize_bmod x.toInt32
  have hlt : (eventBufferSize x.toInt32).toNat < 2 ^ 64 := UInt64.toNat_lt _
  rw [((carried_toInt32_iff x).2 h).2, Int.bmod_def] at hbmod
  apply UInt64.toNat_inj.1
  rw [UInt32.toNat_toUInt64]
  split at hbmod <;> omega

theorem pollEntries_toUInt64 (x : UInt32) : pollEntries x.toUInt64 = x.toInt32 := by
  rw [pollEntries, UInt32.toUInt32_toUInt64]

/-- A size below `2 ^ 31` is one a vector can have. -/
theorem resizeWcBuf_toUInt64 {x : UInt32} (h : x.toNat < 2 ^ 31) :
    resizeWcBuf 0 x.toUInt64 true = some x.toUInt64 := by
  have hsize : ¬ wcBufMaxSize < x.toUInt64.toNat := by
    rw [UInt32.toNat_toUInt64, wcBufMaxSize]
    omega
  rw [resizeWcBuf, if_neg hsize, if_pos rfl, ite_self]

theorem resizeWcBuf_not_allocated {x : UInt32} (h : x.toNat < 2 ^ 31) (hne : x ≠ 0) :
    resizeWcBuf 0 x.toUInt64 false = none := by
  have hle : ¬ x.toUInt64 ≤ 0 := by
    rw [UInt64.le_iff_toNat_le, UInt64.toNat_zero, UInt32.toNat_toUInt64]
    have hpos : x.toNat ≠ 0 := fun h0 => hne (UInt32.toNat_inj.1 h0)
    omega
  rw [resizeWcBuf, if_neg hle]
  split
  · rfl
  · rfl

/-- A poll batch from `2 ^ 31` on becomes a size no vector can have. -/
theorem resizeWcBuf_eventBufferSize {x : UInt32} (h : ¬ x.toNat < 2 ^ 31) (allocated : Bool) :
    resizeWcBuf 0 (eventBufferSize x.toInt32) allocated = none := by
  have hx : x.toNat < 2 ^ 32 := x.toNat_lt
  have hbmod := eventBufferSize_bmod x.toInt32
  have hlt : (eventBufferSize x.toInt32).toNat < 2 ^ 64 := UInt64.toNat_lt _
  rw [toInt_toInt32, Int.bmod_def, Int.bmod_def] at hbmod
  have hhuge : 2 ^ 63 ≤ (eventBufferSize x.toInt32).toNat := by
    split at hbmod <;> split at hbmod <;> omega
  have hle : ¬ eventBufferSize x.toInt32 ≤ 0 := by
    rw [UInt64.le_iff_toNat_le, UInt64.toNat_zero]
    omega
  have hmax : wcBufMaxSize < (eventBufferSize x.toInt32).toNat := by
    rw [wcBufMaxSize]
    omega
  rw [resizeWcBuf, if_neg hle, if_pos hmax]

/-! ## The effective values -/

variable {c : RdmaConfig} {caps : NativeDeviceAttr}

theorem cqPollBatch_ne_zero (c : RdmaConfig) (caps : NativeDeviceAttr) :
    (deriveEffectiveConfig c caps).cqPollBatch ≠ 0 :=
  derived_ne_zero (by decide) c.cqPollBatch

theorem cmResolveTimeoutMs_ne_zero (c : RdmaConfig) (caps : NativeDeviceAttr) :
    (deriveEffectiveConfig c caps).cmResolveTimeoutMs ≠ 0 :=
  derived_ne_zero (by decide) c.cmResolveTimeoutMs

theorem cqPollBatch_lt_iff (c : RdmaConfig) (caps : NativeDeviceAttr) :
    (deriveEffectiveConfig c caps).cqPollBatch.toNat < 2 ^ 31 ↔ c.cqPollBatch.toNat < 2 ^ 31 :=
  derived_lt_iff (by decide) c.cqPollBatch

theorem cmResolveTimeoutMs_lt_iff (c : RdmaConfig) (caps : NativeDeviceAttr) :
    (deriveEffectiveConfig c caps).cmResolveTimeoutMs.toNat < 2 ^ 31 ↔
      c.cmResolveTimeoutMs.toNat < 2 ^ 31 :=
  derived_lt_iff (by decide) c.cmResolveTimeoutMs

/-- An accepted configuration has a depth within the capability of the device. -/
theorem cqe_toNat_lt (h : isConfigCompatible c caps = true) :
    (deriveEffectiveConfig c caps).cqe.toNat < 2 ^ 31 := by
  have hwithin := AutoFields.within_derive (ConfigField.within_choice policy caps.cap)
    ((isConfigCompatible_iff c caps).1 h)
  rw [← get_deriveEffectiveConfig] at hwithin
  have hle : (deriveEffectiveConfig c caps).cqe ≤ capOf caps.maxCqe := hwithin .cqe _ rfl
  exact Nat.lt_of_le_of_lt (UInt32.le_iff_toNat_le.1 hle) (capOf_toNat_lt caps.maxCqe)

theorem cmTimeout_registerDevice (device : Option UseDevice.Device) {e : RdmaConfig}
    (h : e.cmResolveTimeoutMs ≠ 0) :
    (UseDevice.DeviceService.registerDevice device e).cmTimeout = e.cmResolveTimeoutMs.toInt32 := by
  show (if e.cmResolveTimeoutMs ≠ 0 then e.cmResolveTimeoutMs else _).toInt32 = _
  rw [if_pos h]

theorem pollBufferSize_deriveEffectiveConfig (c : RdmaConfig) (caps : NativeDeviceAttr) :
    pollBufferSize (deriveEffectiveConfig c caps) =
      (deriveEffectiveConfig c caps).cqPollBatch.toUInt64 := by
  rw [pollBufferSize, if_pos (cqPollBatch_ne_zero c caps)]

/-! ## The main result -/

/-- An accepted configuration reaches the native layer unchanged exactly if the user's poll batch and
resolve timeout are below `2 ^ 31`, whatever the device reports. -/
theorem native_unchanged_iff (c : RdmaConfig) (caps : NativeDeviceAttr)
    (h : isConfigCompatible c caps = true) :
    NativeUnchanged c caps ↔ c.cqPollBatch.toNat < 2 ^ 31 ∧ c.cmResolveTimeoutMs.toNat < 2 ^ 31 := by
  have hbatch := narrowPollBatch_of_ne (cqPollBatch_ne_zero c caps)
  have htimeout := fun device => cmTimeout_registerDevice device (cmResolveTimeoutMs_ne_zero c caps)
  constructor
  · intro hu
    constructor
    · rw [← cqPollBatch_lt_iff c caps, ← carried_toInt32_iff, ← hbatch]
      exact hu.pollBatch
    · rw [← cmResolveTimeoutMs_lt_iff c caps, ← carried_toInt32_iff, ← htimeout none]
      exact hu.timeout none
  · rintro ⟨hb, ht⟩
    have hb' := (cqPollBatch_lt_iff c caps).2 hb
    have hentries : ∀ n, n = (deriveEffectiveConfig c caps).cqPollBatch.toUInt64 →
        Carried (pollEntries n) (deriveEffectiveConfig c caps).cqPollBatch := by
      rintro n rfl
      rw [pollEntries_toUInt64]
      exact (carried_toInt32_iff _).2 hb'
    refine ⟨?_, ?_, fun size allocated n hn => ?_, fun size allocated n hn => ?_, fun device => ?_⟩
    · exact (carried_toInt32_iff _).2 (cqe_toNat_lt h)
    · rw [hbatch]
      exact (carried_toInt32_iff _).2 hb'
    · rw [hbatch, eventBufferSize_toInt32 hb'] at hn
      exact hentries n (resizeWcBuf_eq hn)
    · rw [pollBufferSize_deriveEffectiveConfig] at hn
      exact hentries n (resizeWcBuf_eq hn)
    · rw [htimeout device]
      exact (carried_toInt32_iff _).2 ((cmResolveTimeoutMs_lt_iff c caps).2 ht)

/-- A device without capabilities is one to which the default configuration is carried over. -/
theorem native_unchanged_iff_default : NativeUnchanged {} ⟨0, 0, 0, 0, 0⟩ :=
  (native_unchanged_iff {} ⟨0, 0, 0, 0, 0⟩ (by decide)).2 (by decide)

/-- A resolve timeout of `2 ^ 31` milliseconds reaches `rdma_resolve_addr` as `-2 ^ 31`. -/
def longTimeout : RdmaConfig := { cmResolveTimeoutMs := 2147483648 }

theorem cmTimeout_longTimeout :
    (UseDevice.DeviceService.registerDevice none
      (deriveEffectiveConfig longTimeout ⟨8192, 256, 8, 4, 7⟩)).cmTimeout.toInt = -2147483648 := by
  decide +kernel

/-- Accepted configurations do not reach the native layer unchanged on every device. -/
theorem not_native_unchanged :
    ¬ ∀ (c : RdmaConfig) (caps : NativeDeviceAttr), 0 ≤ caps.maxCqe → 0 ≤ caps.maxQpWr →
      0 ≤ caps.maxSge → 0 ≤ caps.maxQpRdAtom → 0 ≤ caps.maxQpInitRdAtom →
      isConfigCompatible c caps = true → NativeUnchanged c caps := by
  intro hall
  have hu := hall longTimeout ⟨8192, 256, 8, 4, 7⟩ (by decide) (by decide) (by decide) (by decide)
    (by decide) (by decide)
  have hpos := (hu.timeout none).1 (by decide)
  rw [cmTimeout_longTimeout] at hpos
  exact absurd hpos (by decide)

end Ibv

end RdmaOnAsio
