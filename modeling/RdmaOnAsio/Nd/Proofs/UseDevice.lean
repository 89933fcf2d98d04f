import RdmaOnAsio.Nd.UseDevice

/-!
# `use_device` is all or nothing while the buffer can be allocated

Every failure of `initialize` that is returned undoes what came before it, and the poll batch cannot be too
large for the buffer. What is left is the allocation: if it throws, the CQ stays without a device, and the
`io_context` never gets one.
-/

namespace RdmaOnAsio.Nd.UseDevice

open ErrorCode

/-- The device is registered, the CQ and its overlapped file exist, the completion port knows the file,
and the buffer has the effective size of the poll batch. -/
structure State.Complete (s : State) : Prop where
  registered : s.deviceService.registered = true
  cq : s.ioCompletion.cq.isSome = true
  cqHandle : s.ioCompletion.cqHandle.isSome = true
  portHandle : s.ioCompletion.portHandle = s.ioCompletion.cqHandle
  wcBuf : s.ioCompletion.wcBuf = s.deviceService.effectiveConfig.cqPollBatch.toNat

/-- None of it. -/
structure State.Untouched (s : State) : Prop where
  registered : s.deviceService.registered = false
  io : s.ioCompletion = {}

/-- The CQ is there, and no device. -/
structure State.Broken (s : State) : Prop where
  registered : s.deviceService.registered = false
  cq : s.ioCompletion.cq.isSome = true

/-- The native calls of `initialize` succeed. -/
structure Creates (calls : Calls) : Prop where
  overlappedFile : ∃ handle, createOverlappedFile calls.overlappedFile calls.handle = .ok handle
  createCq : (NdErrorCode.ndErrc calls.createCq).isError = false
  registerHandle : calls.registerHandle.isError = false

/-- An adapter and a configuration that `use_device` accepts, services that exist, and native calls that
succeed. -/
structure Accepted (device : NdAdapter) (config : RdmaConfig) (calls : Calls) : Prop where
  valid : isValidAdapterPtr (some device) = true
  compatible : isConfigCompatible config device.info = true
  deviceService : calls.deviceService = true
  ioCompletionService : calls.ioCompletionService = true
  creates : Creates calls

/-- A device is registered exactly if there is a CQ; and until the `io_context` is destroyed
`use_device` has been done in full, or not at all. -/
structure State.Whole (s : State) : Prop where
  registered_iff : s.deviceService.registered = true ↔ s.ioCompletion.cq.isSome = true
  whole : s.down = false → s.Complete ∨ s.Untouched

/-- A call that would be the first to succeed does not run out of memory. -/
def KeepsWhole (s : State) : Label → Prop
  | .useDevice (some adapter) config calls =>
    s.deviceService.registered = false → s.ioCompletion.cq = none → Accepted adapter config calls →
      calls.allocated = true
  | .useDevice none _ _ | .shutdown => True

/-! ## One call -/

variable {s s' : State} {device : NdAdapter} {config : RdmaConfig} {calls : Calls} {l : Label}

theorem cqPollBatch_ne_zero (config : RdmaConfig) (caps : NativeContextConfig) :
    (deriveEffectiveConfig config caps).cqPollBatch ≠ 0 := by
  intro h
  simp only [deriveEffectiveConfig] at h
  split_ifs at h with hc
  · cases h
  · exact hc h

theorem isError_createOverlappedFile {hr : Int} {handle : Option Nat} {ec : NdErrorCode}
    (h : createOverlappedFile hr handle = .error ec) : ec.isError = true := by
  unfold createOverlappedFile at h
  split_ifs at h with hf
  · obtain rfl := Except.error.inj h
    have hne : hr ≠ 0 := by
      intro h0
      rw [h0] at hf
      cases hf
    exact bne_iff_ne.2 hne
  · cases handle with
    | none =>
      obtain rfl := Except.error.inj h
      rfl
    | some handle => cases h

/-- What a successful call makes of the service. -/
def made (handle : Nat) (cqe : UInt32) (wcBuf : Nat) : IoCompletionService :=
  ⟨some cqe, some handle, some handle, wcBuf⟩

/-- Native calls that succeed make the CQ; then the buffer is sized, or the vector throws. -/
theorem initializeCq_of_creates (hv : isValidAdapterPtr (some device) = true) (hc : Creates calls)
    (cqe : UInt32) {pollBatch : UInt32} (hb : pollBatch ≠ 0) :
    ∃ handle, ({} : IoCompletionService).initializeCq (some device) cqe pollBatch calls =
      if calls.allocated then
        (made handle cqe pollBatch.toNat, .returned (.common calls.registerHandle))
      else (made handle cqe 0, .thrown) := by
  obtain ⟨handle, hhandle⟩ := hc.overlappedFile
  refine ⟨handle, ?_⟩
  have hpos : ¬ pollBatch.toNat ≤ 0 := by
    intro hle
    apply hb
    rw [← UInt32.toNat_inj]
    exact Nat.le_zero.1 hle
  simp only [IoCompletionService.initializeCq, Option.isSome_none, hv, hhandle, hc.createCq, hc.registerHandle,
    resizeWcBuf, if_pos hb, hpos, Bool.not_true, Bool.false_eq_true, if_false, false_or]
  by_cases hall : calls.allocated = true
  · simp only [if_pos hall]
    rfl
  · simp only [if_neg hall]
    rfl

/-- A native call that fails is undone, and its error is returned. -/
theorem initializeCq_of_not_creates (hv : isValidAdapterPtr (some device) = true) (hn : ¬ Creates calls)
    (cqe pollBatch : UInt32) :
    ∃ ec, ec.isError = true ∧
      ({} : IoCompletionService).initializeCq (some device) cqe pollBatch calls = ({}, .returned ec) := by
  simp only [IoCompletionService.initializeCq, Option.isSome_none, hv, Bool.not_true, Bool.false_eq_true,
    if_false]
  cases hfile : createOverlappedFile calls.overlappedFile calls.handle with
  | error ec => exact ⟨ec, isError_createOverlappedFile hfile, rfl⟩
  | ok handle =>
    by_cases hcq : (NdErrorCode.ndErrc calls.createCq).isError = true
    · exact ⟨_, hcq, by simp only [if_pos hcq]⟩
    · by_cases hreg : calls.registerHandle.isError = true
      · exact ⟨.common calls.registerHandle, hreg, by simp only [if_neg hcq, if_pos hreg]⟩
      · exact absurd ⟨⟨handle, hfile⟩, Bool.eq_false_iff.2 hcq, Bool.eq_false_iff.2 hreg⟩ hn

namespace State

theorem Untouched.eq (h : s.Untouched) : s = ⟨⟨s.deviceService.device, s.deviceService.effectiveConfig, false⟩,
    {}, s.down⟩ := by
  obtain ⟨⟨device, effective, registered⟩, io, down⟩ := s
  obtain ⟨hregistered, hio⟩ := h
  simp only at hregistered hio
  rw [hregistered, hio]

/-- An accepted call on an untouched `io_context` is decided by the allocation of the buffer. -/
theorem Untouched.useDevice_of_accepted (h : s.Untouched) (ha : Accepted device config calls) :
    ∃ handle, s.useDevice (some device) config calls =
      let effective := deriveEffectiveConfig config device.info
      if calls.allocated then
        ({ s with
          deviceService := .registerDevice (some device) effective
          ioCompletion := made handle effective.cqe effective.cqPollBatch.toNat },
          .returned (.common calls.registerHandle))
      else ({ s with ioCompletion := made handle effective.cqe 0 }, .thrown) := by
  obtain ⟨handle, hinit⟩ := initializeCq_of_creates ha.valid ha.creates
    (deriveEffectiveConfig config device.info).cqe (cqPollBatch_ne_zero config device.info)
  refine ⟨handle, ?_⟩
  have hreg : (NdErrorCode.common calls.registerHandle).isError = false := ha.creates.registerHandle
  rw [h.eq]
  simp only [State.useDevice, ha.deviceService, ha.valid, ha.compatible, ha.ioCompletionService, hinit,
    Bool.not_true, Bool.false_eq_true, if_false]
  by_cases hall : calls.allocated = true
  · simp only [if_pos hall, hreg, Bool.false_eq_true, if_false]
  · simp only [if_neg hall]

/-- Any other call leaves it as it is. -/
theorem Untouched.useDevice_of_not_accepted (h : s.Untouched) (hn : ¬ Accepted device config calls) :
    (s.useDevice (some device) config calls).1 = s := by
  rw [h.eq]
  by_cases hds : calls.deviceService = true
  · by_cases hv : isValidAdapterPtr (some device) = true
    · by_cases hcompat : isConfigCompatible config device.info = true
      · by_cases hios : calls.ioCompletionService = true
        · obtain ⟨ec, hec, hinit⟩ := initializeCq_of_not_creates hv
            (fun hc => hn ⟨hv, hcompat, hds, hios, hc⟩)
            (deriveEffectiveConfig config device.info).cqe
            (deriveEffectiveConfig config device.info).cqPollBatch
          simp [State.useDevice, hds, hv, hcompat, hios, hinit, hec]
        · simp [State.useDevice, hds, hv, hcompat, hios]
      · simp [State.useDevice, hds, hv, hcompat]
    · simp [State.useDevice, hds, hv]
  · simp [State.useDevice, hds]

theorem Untouched.useDevice_none (h : s.Untouched) (config : RdmaConfig) (calls : Calls) :
    (s.useDevice none config calls).1 = s := by
  unfold State.useDevice
  rw [h.registered]
  split_ifs <;> rfl

/-- A registered device stays as it is. -/
theorem useDevice_of_registered (h : s.deviceService.registered = true) (device : Option NdAdapter)
    (config : RdmaConfig) (calls : Calls) : (s.useDevice device config calls).1 = s := by
  simp only [State.useDevice, h, if_true]
  split <;> rfl

/-- Nothing changes an `io_context` that has a CQ and no device. -/
theorem Broken.useDevice (h : s.Broken) (device : Option NdAdapter) (config : RdmaConfig) (calls : Calls) :
    (s.useDevice device config calls).1 = s := by
  have hinit : ∀ device cqe pollBatch, s.ioCompletion.initializeCq device cqe pollBatch calls =
      (s.ioCompletion, .returned (.common (.rdma .alreadyRegistered))) := by
    intro device cqe pollBatch
    rw [IoCompletionService.initializeCq, if_pos h.cq]
  cases device with
  | none =>
    simp only [State.useDevice, h.registered, Bool.false_eq_true, if_false]
    split <;> rfl
  | some device =>
    simp only [State.useDevice, h.registered, Bool.false_eq_true, if_false, hinit, NdErrorCode.isError_common,
      isError_rdma, if_true]
    split_ifs <;> rfl

end State

/-! ## Steps -/

namespace State

theorem Complete.whole (h : s.Complete) : s.Whole where
  registered_iff := ⟨fun _ => h.cq, fun _ => h.registered⟩
  whole _ := .inl h

theorem Untouched.whole (h : s.Untouched) : s.Whole where
  registered_iff := by rw [h.registered, h.io]; simp
  whole _ := .inr h

/-- Destroying the `io_context` takes device and CQ away together. -/
theorem whole_shutdown (s : State) : s.shutdown.Whole where
  registered_iff := by simp [shutdown, DeviceService.shutdown, IoCompletionService.shutdown]
  whole h := by cases h

theorem Broken.not_whole (h : s.Broken) : ¬ s.Whole := by
  intro hw
  have hreg := hw.registered_iff.2 h.cq
  rw [h.registered] at hreg
  cases hreg

/-- A call on an untouched `io_context` leaves it whole, or breaks it if it runs out of memory. -/
theorem Untouched.useDevice (h : s.Untouched) (device : Option NdAdapter) (config : RdmaConfig)
    (calls : Calls) :
    (KeepsWhole s (.useDevice device config calls) → (s.useDevice device config calls).1.Whole) ∧
      (¬ KeepsWhole s (.useDevice device config calls) → (s.useDevice device config calls).1.Broken) := by
  cases device with
  | none =>
    rw [h.useDevice_none]
    exact ⟨fun _ => h.whole, fun hk => absurd trivial hk⟩
  | some device =>
    by_cases ha : Accepted device config calls
    · obtain ⟨handle, heq⟩ := h.useDevice_of_accepted ha
      have hkeeps : KeepsWhole s (.useDevice (some device) config calls) ↔ calls.allocated = true :=
        ⟨fun hk => hk h.registered (by rw [h.io]) ha, fun hall _ _ _ => hall⟩
      rw [hkeeps, heq]
      by_cases hall : calls.allocated = true
      · simp only [if_pos hall]
        exact ⟨fun _ => Complete.whole ⟨rfl, rfl, rfl, rfl, rfl⟩, fun hk => absurd hall hk⟩
      · simp only [if_neg hall]
        exact ⟨fun hk => absurd hk hall, fun _ => ⟨h.registered, rfl⟩⟩
    · rw [h.useDevice_of_not_accepted ha]
      exact ⟨fun _ => h.whole, fun hk => absurd (fun _ _ hacc => absurd hacc ha) hk⟩

theorem Whole.step (h : s.Whole) (hst : ioContext.step s l = some s') :
    (KeepsWhole s l → s'.Whole) ∧ (¬ KeepsWhole s l → s'.Broken) := by
  obtain ⟨hup, hst⟩ := Option.ite_none_left_eq_some.1 hst
  cases l with
  | shutdown =>
    obtain rfl := Option.some.inj hst
    exact ⟨fun _ => whole_shutdown s, fun hk => absurd trivial hk⟩
  | useDevice device config calls =>
    obtain rfl := Option.some.inj hst
    rcases h.whole (Bool.eq_false_iff.2 hup) with hc | hu
    · rw [useDevice_of_registered hc.registered]
      refine ⟨fun _ => h, fun hk => absurd ?_ hk⟩
      cases device with
      | none => trivial
      | some device =>
        intro hreg
        rw [hc.registered] at hreg
        cases hreg
    · exact hu.useDevice device config calls

/-- An `io_context` that is broken, or destroyed, has no device after any step. -/
theorem Broken.step (h : s.Broken ∨ s.down = true ∧ s.deviceService.registered = false)
    (hst : ioContext.step s l = some s') : s'.Broken ∨ s'.down = true ∧ s'.deviceService.registered = false := by
  obtain ⟨hup, hst⟩ := Option.ite_none_left_eq_some.1 hst
  rcases h with h | ⟨hdown, -⟩
  · cases l with
    | shutdown =>
      obtain rfl := Option.some.inj hst
      exact .inr ⟨rfl, rfl⟩
    | useDevice device config calls =>
      obtain rfl := Option.some.inj hst
      rw [h.useDevice]
      exact .inl h
  · exact absurd hdown hup

end State

/-- Every state that is reached is whole, or broken, or what is left of one that was. -/
theorem whole_or_broken {ls : List Label} (hr : ioContext.run {} ls = some s) :
    s.Whole ∨ s.Broken ∨ s.down = true ∧ s.deviceService.registered = false := by
  refine StepSystem.invariant (M := ioContext)
    (I := fun s => s.Whole ∨ s.Broken ∨ s.down = true ∧ s.deviceService.registered = false)
    (fun t l t' h hst => ?_) hr (.inl (State.Untouched.whole ⟨rfl, rfl⟩))
  rcases h with h | h
  · by_cases hk : KeepsWhole t l
    · exact .inl ((h.step hst).1 hk)
    · exact .inr (.inl ((h.step hst).2 hk))
  · exact .inr (State.Broken.step h hst)

/-- The `io_context` is whole at every moment of a run exactly if no first successful call runs out of
memory, whatever poll batch is configured; and once it is not, no device is ever registered with it. -/
theorem whole_always_iff {ls : List Label} (hr : ioContext.run {} ls = some s) :
    ((∀ pre t, pre <+: ls → ioContext.run {} pre = some t → t.Whole) ↔ ioContext.Meets KeepsWhole {} ls) ∧
      (¬ s.Whole → ∀ ls' s', ioContext.run s ls' = some s' → s'.deviceService.registered = false) := by
  constructor
  · exact StepSystem.always_iff_meets_of_invariant (M := ioContext) (fun _ h => h)
      (fun _ _ _ h hk hst => (h.step hst).1 hk) (fun _ _ _ h hk hst => ((h.step hst).2 hk).not_whole) hr
      (State.Untouched.whole ⟨rfl, rfl⟩)
  · intro hnot ls' s' hr'
    have hbroken := (whole_or_broken hr).resolve_left hnot
    have hend := StepSystem.invariant (M := ioContext)
      (I := fun s => s.Broken ∨ s.down = true ∧ s.deviceService.registered = false)
      (fun _ _ _ h hst => State.Broken.step h hst) hr' hbroken
    exact hend.elim State.Broken.registered And.right

/-- An adapter with generous capabilities. -/
def largeAdapter : NdAdapter := ⟨some 1, some 1, ⟨8192, 256, 256, 8, 8, 128, 16, 16⟩⟩

/-- A poll batch that no `int` holds, and no memory for it. -/
def outOfMemory : List Label :=
  [.useDevice (some largeAdapter) { cqPollBatch := 2147483648 } { allocated := false }]

/-- A later call finds memory, and the CQ of the first one. -/
theorem whole_always_iff_outOfMemory :
    (ioContext.after (ioContext.after {} outOfMemory)
      [.useDevice (some largeAdapter) {} {}]).deviceService.registered = false := by
  have hr : (ioContext.run {} outOfMemory).isSome = true := by decide +kernel
  have hr' : (ioContext.run (ioContext.after {} outOfMemory)
      [.useDevice (some largeAdapter) {} {}]).isSome = true := by decide +kernel
  refine (whole_always_iff (StepSystem.run_after hr)).2 (fun hw => ?_) _ _ (StepSystem.run_after hr')
  exact absurd (hw.registered_iff.2 (by decide +kernel)) (by decide +kernel)

end RdmaOnAsio.Nd.UseDevice
