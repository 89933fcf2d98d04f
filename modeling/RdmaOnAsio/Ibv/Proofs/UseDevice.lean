import RdmaOnAsio.Ibv.Proofs.Narrowing

/-!
# `use_device` is all or nothing while the buffer can be sized

An `io_context` on which `use_device` has left nothing is one on which it can be called again. The
failures that are returned undo what came before them; an exception of the registration with the reactor
or of the sizing of the buffer leaves the CQ and its channel behind, and no device registered.
`AllOrNothing` holds along a run exactly if no call of the run throws there.
-/

namespace RdmaOnAsio

namespace Ibv

namespace UseDevice

open ErrorCode

/-- The device is registered, the CQ and its channel exist, the channel is registered with the reactor,
and the buffer has the effective size of the poll batch. -/
structure State.Complete (s : State) : Prop where
  registered : s.deviceService.registered = true
  cq : s.ioCompletion.cq.isSome = true
  compChannel : s.ioCompletion.compChannel = true
  descriptor : s.ioCompletion.descriptor = true
  wcBuf : s.ioCompletion.wcBuf = s.deviceService.effectiveConfig.cqPollBatch.toUInt64

/-- None of it. -/
structure State.Untouched (s : State) : Prop where
  registered : s.deviceService.registered = false
  cq : s.ioCompletion.cq = none
  compChannel : s.ioCompletion.compChannel = false
  descriptor : s.ioCompletion.descriptor = false
  wcBuf : s.ioCompletion.wcBuf = 0

/-- The sizing of the buffer does not throw: the poll batch the user chose is below `2 ^ 31`, and the
storage is allocated. -/
def Sizes (config : RdmaConfig) (calls : Calls) : Prop :=
  config.cqPollBatch.toNat < 2 ^ 31 ∧ calls.allocated = true

instance (config : RdmaConfig) (calls : Calls) : Decidable (Sizes config calls) :=
  inferInstanceAs (Decidable (_ ∧ _))

/-- A device and a configuration that `use_device` accepts, and native calls up to the registration with the
reactor that succeed. -/
structure Creates (device : Device) (config : RdmaConfig) (calls : Calls) : Prop where
  context : device.context.isSome = true
  compatible : isConfigCompatible config device.attr = true
  deviceService : calls.deviceService = true
  ioCompletionService : calls.ioCompletionService = true
  compChannel : calls.compChannel = .created
  cq : calls.cq = .created

/-- A call with an accepted device and configuration, in which nothing fails, succeeds and is complete. -/
def State.CanRetry (s : State) : Prop :=
  ∀ device config calls, Creates device config calls → calls.descriptor = .registered →
    Sizes config calls →
    (s.useDevice (some device) config calls).2 = .returned success ∧
      (s.useDevice (some device) config calls).1.Complete

/-- A device is registered exactly if there is a CQ; until the `io_context` is destroyed `use_device` has
been done in full, or not at all and can be called again. -/
structure State.AllOrNothing (s : State) : Prop where
  registered_iff : s.deviceService.registered = true ↔ s.ioCompletion.cq.isSome = true
  whole : s.down = false → s.Complete ∨ s.Untouched ∧ s.CanRetry

/-- A call that has made the CQ neither runs out of memory in `register_descriptor` nor, once that has
succeeded, throws while it sizes the buffer. -/
def KeepsWhole (s : State) : Label → Prop
  | .useDevice (some device) config calls =>
    s.deviceService.registered = false → s.ioCompletion.cq = none → Creates device config calls →
      calls.descriptor ≠ .thrown ∧ (calls.descriptor = .registered → Sizes config calls)
  | .useDevice none _ _ | .shutdown => True

/-! ## One call -/

variable {s s' : State} {device : Device} {config : RdmaConfig} {calls : Calls}

/-- A registered device stays as it is. -/
theorem State.useDevice_of_registered (h : s.deviceService.registered = true)
    (device : Option Device) (config : RdmaConfig) (calls : Calls) :
    (s.useDevice device config calls).1 = s := by
  simp only [State.useDevice, h, if_true]
  split <;> rfl

theorem isInvalidDevice_some (h : device.context.isSome = true) :
    isInvalidDevice (some device) = false := by
  rw [isInvalidDevice, Option.isNone_eq_false_iff]
  exact h

theorem isError_makeSystemErrorCode (errno : Errno) :
    (makeSystemErrorCode errno.1).isError = true := bne_iff_ne.2 errno.2

/-- The sizing of the buffer of an untouched service. -/
theorem resizeWcBuf_effective (config : RdmaConfig) (caps : NativeDeviceAttr) (calls : Calls) :
    resizeWcBuf 0
        (eventBufferSize (narrowPollBatch (deriveEffectiveConfig config caps).cqPollBatch))
        calls.allocated =
      if Sizes config calls then
        some (deriveEffectiveConfig config caps).cqPollBatch.toUInt64
      else none := by
  rw [narrowPollBatch_of_ne (cqPollBatch_ne_zero config caps)]
  by_cases hb : (deriveEffectiveConfig config caps).cqPollBatch.toNat < 2 ^ 31
  · have hne := cqPollBatch_ne_zero config caps
    rw [eventBufferSize_toInt32 hb]
    by_cases ha : calls.allocated = true
    · rw [ha, resizeWcBuf_toUInt64 hb, if_pos ⟨(cqPollBatch_lt_iff config caps).1 hb, ha⟩]
    · rw [Bool.eq_false_iff.2 ha, resizeWcBuf_not_allocated hb hne, if_neg fun h => ha h.2]
  · rw [resizeWcBuf_eventBufferSize hb, if_neg fun h => hb ((cqPollBatch_lt_iff config caps).2 h.1)]

namespace State.Untouched

/-- The calls up to the registration with the reactor, on an untouched service. -/
theorem initializeCq (h : s.Untouched) (hc : Creates device config calls) (cqe pollBatch : UInt32) :
    s.ioCompletion.initializeCq (some device) cqe pollBatch calls =
      match calls.descriptor with
      | .thrown =>
        ({ s.ioCompletion with compChannel := true, cq := some (createCqDepth cqe) }, .thrown)
      | .failed errno => (s.ioCompletion, .returned (makeSystemErrorCode errno))
      | .registered =>
        match resizeWcBuf 0 (eventBufferSize (narrowPollBatch pollBatch)) calls.allocated with
        | none =>
          (⟨some (createCqDepth cqe), true, true, narrowPollBatch pollBatch, 0⟩, .thrown)
        | some n =>
          (⟨some (createCqDepth cqe), true, true, narrowPollBatch pollBatch, n⟩, .returned success) := by
  obtain ⟨_, ⟨cq, compChannel, descriptor, pb, wcBuf⟩, _⟩ := s
  obtain ⟨-, rfl, rfl, rfl, rfl⟩ := h
  have hvalid := isInvalidDevice_some hc.context
  simp only [IoCompletionService.initializeCq, Option.isSome_none, hvalid, hc.compChannel, hc.cq]
  rfl

/-- A native call that fails before the registration is undone by the code that returns its error. -/
theorem initializeCq_failed (h : s.Untouched) (hd : device.context.isSome = true)
    (hf : ¬ (calls.compChannel = .created ∧ calls.cq = .created)) (cqe pollBatch : UInt32) :
    ∃ errno : Errno, s.ioCompletion.initializeCq (some device) cqe pollBatch calls =
      (s.ioCompletion, .returned (makeSystemErrorCode errno)) := by
  obtain ⟨_, ⟨cq, compChannel, descriptor, pb, wcBuf⟩, _⟩ := s
  obtain ⟨-, rfl, rfl, rfl, rfl⟩ := h
  have hvalid := isInvalidDevice_some hd
  cases hch : calls.compChannel with
  | failed errno =>
    refine ⟨errno, ?_⟩
    simp only [IoCompletionService.initializeCq, Option.isSome_none, hvalid, hch]
    rfl
  | created =>
    cases hcq : calls.cq with
    | failed errno =>
      refine ⟨errno, ?_⟩
      simp only [IoCompletionService.initializeCq, Option.isSome_none, hvalid, hch, hcq]
      rfl
    | created => exact absurd ⟨hch, hcq⟩ hf

/-- A call that does not come to the registration with the reactor changes nothing. -/
theorem useDevice_of_not_creates (h : s.Untouched) (hn : ¬ Creates device config calls) :
    (s.useDevice (some device) config calls).1 = s := by
  rw [State.useDevice]
  split
  · rfl
  next hds =>
    simp only [h.registered, Bool.false_eq_true, if_false]
    split
    · rfl
    next hctx =>
      split
      · rfl
      next hcomp =>
        split
        · rfl
        next hios =>
          have hctx' : device.context.isSome = true := by
            rw [← Option.isNone_eq_false_iff]
            exact Bool.eq_false_iff.2 hctx
          obtain ⟨errno, herr⟩ := h.initializeCq_failed hctx'
            (fun hcr => hn ⟨hctx', by simpa using hcomp, by simpa using hds, by simpa using hios,
              hcr.1, hcr.2⟩)
            (deriveEffectiveConfig config device.attr).cqe
            (deriveEffectiveConfig config device.attr).cqPollBatch
          simp only [herr, isError_makeSystemErrorCode, if_true]

theorem useDevice_none (h : s.Untouched) (config : RdmaConfig) (calls : Calls) :
    (s.useDevice none config calls).1 = s := by
  simp only [State.useDevice, h.registered, Bool.false_eq_true, if_false]
  split <;> rfl

/-- A call that comes to the registration is decided by it and by the sizing of the buffer. -/
theorem useDevice_of_creates (h : s.Untouched) (hc : Creates device config calls) :
    s.useDevice (some device) config calls =
      match calls.descriptor with
      | .thrown =>
        ({ s with
          ioCompletion := { s.ioCompletion with
            compChannel := true
            cq := some (createCqDepth (deriveEffectiveConfig config device.attr).cqe) } }, .thrown)
      | .failed errno => (s, .returned (makeSystemErrorCode errno))
      | .registered =>
        let effective := deriveEffectiveConfig config device.attr
        let io : IoCompletionService :=
          ⟨some (createCqDepth effective.cqe), true, true, narrowPollBatch effective.cqPollBatch, 0⟩
        if Sizes config calls then
          ({ s with
            deviceService := .registerDevice (some device) effective
            ioCompletion := { io with wcBuf := effective.cqPollBatch.toUInt64 } }, .returned success)
        else ({ s with ioCompletion := io }, .thrown) := by
  have hctx : device.context.isNone = false := Option.isNone_eq_false_iff.2 hc.context
  simp only [State.useDevice, hc.deviceService, h.registered, hctx, hc.compatible,
    hc.ioCompletionService, Bool.not_true, Bool.false_eq_true, if_false, h.initializeCq hc,
    resizeWcBuf_effective]
  cases calls.descriptor with
  | thrown => rfl
  | failed errno => simp only [isError_makeSystemErrorCode, if_true]
  | registered =>
    by_cases hs : Sizes config calls
    · simp only [if_pos hs]
      rfl
    · simp only [if_neg hs]

theorem canRetry (h : s.Untouched) : s.CanRetry := by
  intro device config calls hc hreg hs
  rw [h.useDevice_of_creates hc, hreg]
  simp only [if_pos hs]
  exact ⟨trivial, rfl, rfl, rfl, rfl, rfl⟩

end State.Untouched

/-! ## Steps -/

namespace State

theorem Complete.allOrNothing (h : s.Complete) : s.AllOrNothing where
  registered_iff := ⟨fun _ => h.cq, fun _ => h.registered⟩
  whole _ := .inl h

theorem Untouched.allOrNothing (h : s.Untouched) : s.AllOrNothing where
  registered_iff := by rw [h.registered, h.cq, Option.isSome_none]
  whole _ := .inr ⟨h, h.canRetry⟩

/-- Destroying the `io_context` takes device and CQ away together. -/
theorem allOrNothing_shutdown (s : State) : s.shutdown.AllOrNothing where
  registered_iff := by
    simp only [shutdown, DeviceService.shutdown, IoCompletionService.shutdown, Option.isSome_none]
  whole h := by cases h

/-- A call on an untouched `io_context` leaves it all or nothing if it does not throw past the CQ. -/
theorem Untouched.useDevice (h : s.Untouched) (device : Option Device) (config : RdmaConfig)
    (calls : Calls) (hk : KeepsWhole s (.useDevice device config calls)) :
    (s.useDevice device config calls).1.AllOrNothing := by
  cases device with
  | none =>
    rw [h.useDevice_none]
    exact h.allOrNothing
  | some device =>
    by_cases hc : Creates device config calls
    · obtain ⟨hthrow, hsizes⟩ := hk h.registered h.cq hc
      rw [h.useDevice_of_creates hc]
      cases hd : calls.descriptor with
      | thrown => exact absurd hd hthrow
      | failed errno => exact h.allOrNothing
      | registered =>
        simp only [if_pos (hsizes hd)]
        exact Complete.allOrNothing ⟨rfl, rfl, rfl, rfl, rfl⟩
    · rw [h.useDevice_of_not_creates hc]
      exact h.allOrNothing

/-- A call on an untouched `io_context` that throws past the CQ leaves it there without a device. -/
theorem Untouched.useDevice_broken (h : s.Untouched) (device : Option Device) (config : RdmaConfig)
    (calls : Calls) (hk : ¬ KeepsWhole s (.useDevice device config calls)) :
    ¬ (s.useDevice device config calls).1.AllOrNothing := by
  cases device with
  | none => exact absurd trivial hk
  | some device =>
    by_cases hc : Creates device config calls
    · rw [h.useDevice_of_creates hc]
      have hbroken : ∀ t : State, t.deviceService.registered = false → t.ioCompletion.cq.isSome = true →
          ¬ t.AllOrNothing := by
        intro t hr hcq hall
        rw [hall.registered_iff.2 hcq] at hr
        cases hr
      cases hd : calls.descriptor with
      | thrown => exact hbroken _ h.registered rfl
      | failed errno => exact absurd (fun _ _ _ => by rw [hd]; simp) hk
      | registered =>
        have hs : ¬ Sizes config calls := by
          intro hs
          exact hk fun _ _ _ => ⟨by rw [hd]; simp, fun _ => hs⟩
        simp only [if_neg hs]
        exact hbroken _ h.registered rfl
    · exact absurd (fun _ _ hcr => absurd hcr hc) hk

theorem AllOrNothing.step {l : Label} (h : s.AllOrNothing) (hk : KeepsWhole s l)
    (hs : ioContext.step s l = some s') : s'.AllOrNothing := by
  obtain ⟨hup, hs⟩ := Option.ite_none_left_eq_some.1 hs
  cases l with
  | shutdown =>
    obtain rfl := Option.some.inj hs
    exact State.allOrNothing_shutdown s
  | useDevice device config calls =>
    obtain rfl := Option.some.inj hs
    obtain hc | ⟨hu, -⟩ := h.whole (Bool.eq_false_iff.2 hup)
    · rw [State.useDevice_of_registered hc.registered]
      exact h
    · exact hu.useDevice device config calls hk

theorem AllOrNothing.broken {l : Label} (h : s.AllOrNothing) (hk : ¬ KeepsWhole s l)
    (hs : ioContext.step s l = some s') : ¬ s'.AllOrNothing := by
  obtain ⟨hup, hs⟩ := Option.ite_none_left_eq_some.1 hs
  cases l with
  | shutdown => exact absurd trivial hk
  | useDevice device config calls =>
    obtain rfl := Option.some.inj hs
    obtain hc | ⟨hu, -⟩ := h.whole (Bool.eq_false_iff.2 hup)
    · cases device with
      | none => exact absurd trivial hk
      | some device =>
        refine absurd (fun hr _ _ => ?_) hk
        rw [hc.registered] at hr
        cases hr
    · exact hu.useDevice_broken device config calls hk

end State

/-- The `io_context` is all or nothing at every moment of a run exactly if no call of the run throws once it
has made the CQ. -/
theorem all_or_nothing_iff {ls : List Label} (hr : ioContext.run {} ls = some s') :
    (∀ pre t, pre <+: ls → ioContext.run {} pre = some t → t.AllOrNothing) ↔
      ioContext.Meets KeepsWhole {} ls :=
  StepSystem.always_iff_meets_of_invariant (fun _ h => h) (fun _ _ _ h hk hs => h.step hk hs)
    (fun _ _ _ h hk hs => h.broken hk hs) hr
    (State.Untouched.allOrNothing ⟨rfl, rfl, rfl, rfl, rfl⟩)

/-! ## A poll batch that is no `int` -/

/-- A device with generous capabilities. -/
def largeDevice : Device := ⟨some 1, ⟨8192, 256, 8, 4, 7⟩⟩

/-- The CQ cannot be made at first, then `use_device` is called again with the same configuration. -/
def retried : List Label :=
  [.useDevice (some largeDevice) {} { cq := .failed ⟨12, by decide⟩ },
    .useDevice (some largeDevice) {} {}]

theorem all_or_nothing_iff_retried : (ioContext.after {} retried).AllOrNothing := by
  have hr : ioContext.run {} retried = some (ioContext.after {} retried) :=
    StepSystem.run_after (by decide +kernel)
  refine (all_or_nothing_iff hr).2 (StepSystem.meets_of_mem (fun l hl s => ?_) _) retried _
    (List.prefix_refl retried) hr
  obtain rfl | rfl := by simpa [retried] using hl
  · exact fun _ _ hc => nomatch hc.cq
  · exact fun _ _ _ => ⟨by decide, fun _ => by decide⟩

/-- A poll batch of `2 ^ 31`: `poll_batch_` is negative, and the vector throws. -/
def hugePollBatch : List Label := [.useDevice (some largeDevice) { cqPollBatch := 2147483648 } {}]

/-- The CQ, its channel and the registration of its descriptor stay, and no device is registered: a
later call finds the CQ and reports that a device is registered already. -/
theorem useDevice_hugePollBatch :
    (ioContext.after {} hugePollBatch).deviceService.registered = false ∧
      (ioContext.after {} hugePollBatch).ioCompletion = ⟨some 4096, true, true, -2147483648, 0⟩ ∧
      ((ioContext.after {} hugePollBatch).useDevice (some largeDevice) {} {}).2 =
        .returned (.rdma .alreadyRegistered) := by
  decide +kernel

/-- `use_device` is not all or nothing for every accepted configuration. -/
theorem not_all_or_nothing :
    ¬ ∀ ls t, ioContext.run {} ls = some t → t.AllOrNothing := by
  intro hall
  have hr : ioContext.run {} hugePollBatch = some (ioContext.after {} hugePollBatch) :=
    StepSystem.run_after (by decide +kernel)
  obtain ⟨hreg, hio, -⟩ := useDevice_hugePollBatch
  have hiff := (hall hugePollBatch _ hr).registered_iff
  rw [hreg, hio] at hiff
  exact absurd (hiff.2 rfl) (by decide)

end UseDevice

end Ibv

end RdmaOnAsio
