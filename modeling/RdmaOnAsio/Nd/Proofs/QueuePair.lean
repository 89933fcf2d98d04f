import RdmaOnAsio.Nd.QueuePair

/-!
# A bind that fails changes nothing, unless it fails late

`bind` stores its target before the call that can fail, and `is_bound` looks at one of the fields it has
stored. `Atomic` says what the caller may observe after a bind; `bind_atomic_iff` is the exact
condition: the bind is rejected before the fields are stored, has no CQ to store, or succeeds.
-/

namespace RdmaOnAsio

namespace Nd

open ErrorCode

/-- The fields that say what a queue pair is bound to. -/
structure Binding where
  cq : Option Nat
  ioCtx : Option Nat
  pollCq : Option Nat
deriving DecidableEq, Repr

namespace BindTarget

/-- The mode of the overload that takes the target. -/
def mode : BindTarget → CompletionMode
  | ioContext _ => .event
  | completionQueue _ => .poll

/-- The native CQ of the target. -/
def cq : BindTarget → Option Nat
  | ioContext ctx => ctx.cq
  | completionQueue cq => cq.nativeHandle

/-- The device of the target. -/
def device : BindTarget → Option NdAdapter
  | ioContext ctx => ctx.device
  | completionQueue cq => cq.device

/-- The overload checks that the target has a device, and it does not. -/
def unregistered : BindTarget → Bool
  | ioContext ctx => !ctx.registered
  | completionQueue _ => false

/-- The device of the target has a protection domain. -/
def hasPd (t : BindTarget) : Prop := ∃ device, t.device = some device ∧ device.pd.isSome = true

end BindTarget

/-- `CreateQueuePair` succeeds. -/
def QpCreation.isCreated : QpCreation → Bool
  | created _ => true
  | failed _ => false

namespace QueuePair

/-- What the queue pair is bound to, if it is. -/
def binding (q : QueuePair) : Option Binding :=
  if q.isBound then some ⟨q.cq, q.ioCtx, q.pollCq⟩ else none

/-- What a caller can tell about the binding of a queue pair. -/
structure SameBinding (q q' : QueuePair) : Prop where
  isBound : q'.isBound = q.isBound
  boundType : q'.boundType = q.boundType
  nativeHandle : q'.nativeHandle = q.nativeHandle
  binding : q'.binding = q.binding

/-- An empty queue pair binds to any target that has what it takes. -/
def CanBind (q : QueuePair) : Prop :=
  ∀ (t : BindTarget) (r : QpCreation), t.unregistered = false → t.cq.isSome = true → t.hasPd →
    r.isCreated = true → (q.bind r t).2.isError = false

/-- A bind of `q` is all or nothing: if it reports an error the binding is what it was, and an empty queue
pair can be bound again; otherwise the queue pair is bound by the overload used, with a native QP. -/
structure Atomic (q : QueuePair) (r : QpCreation) (t : BindTarget) : Prop where
  failed : (q.bind r t).2.isError = true → SameBinding q (q.bind r t).1
  rebind : (q.bind r t).2.isError = true → q.isBound = false → q.nativeHandle = none →
    (q.bind r t).1.CanBind
  bound : (q.bind r t).2.isError = false →
    (q.bind r t).1.isBound = true ∧ (q.bind r t).1.nativeHandle.isSome = true ∧
      (q.bind r t).1.boundType = t.mode

/-- The bind is rejected before it stores anything, the target has no CQ, or nothing is missing for the
QP. -/
def BindsWhole (q : QueuePair) (r : QpCreation) (t : BindTarget) : Prop :=
  q.isBound = true ∨ t.unregistered = true ∨ t.cq = none ∨
    q.nativeHandle = none ∧ t.hasPd ∧ r.isCreated = true

/-! ## What a bind does -/

/-- The queue pair with the fields that `bind` stores. -/
def store (q : QueuePair) : BindTarget → QueuePair
  | .ioContext ctx =>
    { q with
      ioCtx := some ctx.address
      device := ctx.device
      cq := ctx.cq
      config := ctx.effectiveConfig
      pollCq := none
      verbsSvc := some ctx.verbsSvc }
  | .completionQueue cq =>
    { q with
      ioCtx := none
      verbsSvc := none
      device := cq.device
      cq := cq.nativeHandle
      config := cq.effectiveConfig
      pollCq := some cq.address }

variable {q : QueuePair} {r : QpCreation} {t : BindTarget}

@[simp] theorem store_qp : (q.store t).qp = q.qp := by
  cases t <;> rfl

@[simp] theorem store_cq : (q.store t).cq = t.cq := by
  cases t <;> rfl

@[simp] theorem store_device : (q.store t).device = t.device := by
  cases t <;> rfl

theorem bind_of_isBound (h : q.isBound = true) : q.bind r t = (q, alreadyOpen) := by
  cases t with
  | ioContext ctx => simp only [bind, bindIoContext, if_pos h]
  | completionQueue cq => simp only [bind, bindCompletionQueue, if_pos h]

theorem bind_of_unregistered (h : q.isBound = false) (ht : t.unregistered = true) :
    q.bind r t = (q, .common (.rdma .deviceNotRegistered)) := by
  cases t with
  | ioContext ctx =>
    have hreg : (!ctx.registered) = true := ht
    simp only [bind, bindIoContext, h, Bool.false_eq_true, if_false, if_pos hreg]
  | completionQueue cq => cases ht

/-- A bind that is not rejected stores the target and creates the QP. -/
theorem bind_of_store (h : q.isBound = false) (ht : t.unregistered = false) :
    q.bind r t = (q.store t).createQp r := by
  cases t with
  | ioContext ctx =>
    have hreg : (!ctx.registered) = false := ht
    simp only [bind, bindIoContext, h, hreg, Bool.false_eq_true, if_false]
    split <;> rfl
  | completionQueue cq => simp only [bind, bindCompletionQueue, h, Bool.false_eq_true, if_false]; rfl

/-- `create_qp` has all it needs. -/
structure CanCreate (q : QueuePair) (r : QpCreation) : Prop where
  qp : q.qp = none
  device : ∃ device, q.device = some device ∧ device.pd.isSome = true
  cq : q.cq.isSome = true
  created : r.isCreated = true

theorem createQp_of_canCreate (h : q.CanCreate r) :
    (q.createQp r).2.isError = false ∧ (q.createQp r).1.qp.isSome = true ∧
      (q.createQp r).1.cq = q.cq ∧ (q.createQp r).1.ioCtx = q.ioCtx := by
  obtain ⟨hqp, ⟨device, hdev, hpd⟩, hcq, hr⟩ := h
  have hpd' : device.pd.isNone = false := Option.isNone_eq_false_iff.2 hpd
  have hcq' : q.cq.isNone = false := Option.isNone_eq_false_iff.2 hcq
  cases r with
  | created qp =>
    simp only [createQp, hqp, hdev, hpd', hcq', createNativeQp]
    exact ⟨rfl, rfl, rfl, rfl⟩
  | failed hr' => cases hr

/-- Where something is missing `create_qp` reports an error and leaves the queue pair as it is. -/
theorem createQp_of_not_canCreate (h : ¬ q.CanCreate r) :
    (q.createQp r).2.isError = true ∧ (q.createQp r).1 = q := by
  unfold createQp
  split
  · exact ⟨rfl, rfl⟩
  next hqp =>
    have hqp' : q.qp = none := Option.not_isSome_iff_eq_none.1 hqp
    split
    · exact ⟨rfl, rfl⟩
    next device hdev =>
      split
      · exact ⟨rfl, rfl⟩
      next hnull =>
        obtain ⟨hpd, hcq⟩ := Bool.or_eq_false_iff.1 (Bool.eq_false_iff.2 hnull)
        cases r with
        | created qp =>
          exact absurd ⟨hqp', ⟨device, hdev, Option.isNone_eq_false_iff.1 hpd⟩,
            Option.isNone_eq_false_iff.1 hcq, rfl⟩ h
        | failed hr =>
          refine ⟨bne_iff_ne.2 hr.2, ?_⟩
          show { q with qp := none } = q
          rw [← hqp']

/-! ## All or nothing -/

theorem SameBinding.refl (q : QueuePair) : SameBinding q q := ⟨rfl, rfl, rfl, rfl⟩

/-- An empty queue pair can be bound, whatever an earlier bind has left in its other fields. -/
theorem canBind_of_empty (hb : q.isBound = false) (hqp : q.nativeHandle = none) : q.CanBind := by
  intro t r ht hcq hpd hr
  rw [bind_of_store hb ht]
  exact (createQp_of_canCreate ⟨store_qp.trans hqp, by rwa [store_device], by rwa [store_cq], hr⟩).1

/-- Two queue pairs that are not bound and have the same QP look the same. -/
theorem sameBinding_of_unbound {q' : QueuePair} (h : q.isBound = false) (h' : q'.isBound = false)
    (hqp : q'.qp = q.qp) : SameBinding q q' where
  isBound := h'.trans h.symm
  boundType := by rw [boundType, boundType, h, h']; rfl
  nativeHandle := hqp
  binding := by rw [binding, binding, h, h']; rfl

/-- A bind that reports an error and leaves the queue pair as it is, is atomic. -/
theorem atomic_of_rejected (herr : (q.bind r t).2.isError = true) (hsame : (q.bind r t).1 = q) :
    Atomic q r t where
  failed _ := by
    rw [hsame]
    exact .refl q
  rebind _ hb hqp := by
    rw [hsame]
    exact canBind_of_empty hb hqp
  bound h := by
    rw [herr] at h
    cases h

theorem isBound_store : (q.store t).isBound = t.cq.isSome := by
  rw [isBound, store_cq]

/-- A bind that reports an error has been rejected, and changed nothing, or has stored every field of the
target and kept the QP. -/
theorem bind_of_isError (herr : (q.bind r t).2.isError = true) :
    (q.bind r t).1 = if q.isBound || t.unregistered then q else q.store t := by
  cases hb : q.isBound with
  | true =>
    rw [bind_of_isBound hb]
    rfl
  | false =>
    cases ht : t.unregistered with
    | true =>
      rw [bind_of_unregistered hb ht]
      rfl
    | false =>
      rw [bind_of_store hb ht] at herr ⊢
      by_cases hc : (q.store t).CanCreate r
      · rw [(createQp_of_canCreate hc).1] at herr
        cases herr
      · exact (createQp_of_not_canCreate hc).2

/-- A bind to a target without a CQ fails, and leaves the fields of that target in a queue pair that is not
bound. -/
theorem bind_of_no_cq (hb : q.isBound = false) (ht : t.unregistered = false) (hcq : t.cq = none) :
    (q.bind r t).2.isError = true ∧ (q.bind r t).1 = q.store t ∧ (q.store t).isBound = false := by
  have hnot : ¬ (q.store t).CanCreate r := by
    intro hc
    have := hc.cq
    rw [store_cq, hcq] at this
    cases this
  have herr : (q.bind r t).2.isError = true := by
    rw [bind_of_store hb ht]
    exact (createQp_of_not_canCreate hnot).1
  refine ⟨herr, ?_, ?_⟩
  · rw [bind_of_isError herr, hb, ht]
    rfl
  · rw [isBound_store, hcq, Option.isSome_none]

/-- A target without a CQ leaves an unbound queue pair unbound. -/
theorem atomic_of_no_cq (hb : q.isBound = false) (ht : t.unregistered = false) (hcq : t.cq = none) :
    Atomic q r t := by
  obtain ⟨herr, hstored, hunbound⟩ := bind_of_no_cq (r := r) hb ht hcq
  refine ⟨fun _ => ?_, fun _ _ hqp => ?_, fun h => ?_⟩
  · rw [hstored]
    exact sameBinding_of_unbound hb hunbound store_qp
  · rw [hstored]
    exact canBind_of_empty hunbound (store_qp.trans hqp)
  · rw [herr] at h
    cases h

/-- A bind that succeeds is bound by the overload used. -/
theorem atomic_of_created (hb : q.isBound = false) (ht : t.unregistered = false)
    (hc : (q.store t).CanCreate r) : Atomic q r t := by
  obtain ⟨hok, hqp, hcq, hctx⟩ := createQp_of_canCreate hc
  have hbind := bind_of_store (q := q) (r := r) hb ht
  have hfail : (q.bind r t).2.isError ≠ true := by
    rw [hbind, hok]
    exact Bool.false_ne_true
  have hbound : ((q.store t).createQp r).1.isBound = true := by
    rw [isBound, hcq]
    exact hc.cq
  refine ⟨fun h => absurd h hfail, fun h => absurd h hfail, fun _ => ?_⟩
  rw [hbind]
  refine ⟨hbound, hqp, ?_⟩
  rw [boundType, hbound, hctx]
  cases t <;> rfl

/-- A bind that stores a CQ and creates no QP leaves the queue pair bound without one. -/
theorem not_atomic_of_stored (hb : q.isBound = false) (ht : t.unregistered = false)
    (hcq : t.cq.isSome = true) (hn : ¬ (q.store t).CanCreate r) : ¬ Atomic q r t := by
  intro ha
  have herr : (q.bind r t).2.isError = true := by
    rw [bind_of_store hb ht]
    exact (createQp_of_not_canCreate hn).1
  have hstored : (q.bind r t).1 = q.store t := by
    rw [bind_of_isError herr, hb, ht]
    rfl
  have hisBound := (ha.failed herr).isBound
  rw [hstored, isBound_store, hcq, hb] at hisBound
  cases hisBound

/-- A bind is all or nothing exactly if it is rejected before it stores anything, has no CQ to store, or
creates the QP. -/
theorem bind_atomic_iff (q : QueuePair) (r : QpCreation) (t : BindTarget) :
    Atomic q r t ↔ BindsWhole q r t := by
  cases hb : q.isBound with
  | true =>
    have hbind := bind_of_isBound (r := r) (t := t) hb
    exact ⟨fun _ => .inl hb, fun _ => atomic_of_rejected (by rw [hbind]; rfl) (by rw [hbind])⟩
  | false =>
    cases ht : t.unregistered with
    | true =>
      have hbind := bind_of_unregistered (r := r) hb ht
      exact ⟨fun _ => .inr (.inl ht), fun _ => atomic_of_rejected (by rw [hbind]; rfl) (by rw [hbind])⟩
    | false =>
      cases hcq : t.cq with
      | none => exact ⟨fun _ => .inr (.inr (.inl hcq)), fun _ => atomic_of_no_cq hb ht hcq⟩
      | some cq =>
        have hsome : t.cq.isSome = true := by rw [hcq, Option.isSome_some]
        constructor
        · intro ha
          by_cases hc : (q.store t).CanCreate r
          · refine .inr (.inr (.inr ⟨store_qp.symm.trans hc.qp, ?_, hc.created⟩))
            obtain ⟨device, hdev, hpd⟩ := hc.device
            exact ⟨device, store_device.symm.trans hdev, hpd⟩
          · exact absurd ha (not_atomic_of_stored hb ht hsome hc)
        · rintro (h | h | h | ⟨hqp, hpd, hr⟩)
          · exact absurd (hb.symm.trans h) Bool.false_ne_true
          · exact absurd (ht.symm.trans h) Bool.false_ne_true
          · exact absurd (hcq.symm.trans h) (Option.some_ne_none cq)
          · exact atomic_of_created hb ht
              ⟨store_qp.trans hqp, by rwa [store_device], by rwa [store_cq], hr⟩

/-! ## A native QP that cannot be created -/

/-- A registered `io_context` whose device is in order. -/
def readyContext : IoContext :=
  ⟨1, true, some ⟨some 2, some 3, ⟨4096, 128, 128, 4, 4, 0, 16, 16⟩⟩, {}, some 4, false, 5⟩

/-- `ND_INSUFFICIENT_RESOURCES`. -/
def insufficientResources : QpCreation := .failed ⟨-1073741670, by decide⟩

/-- The queue pair looks bound, without a QP, and the next bind reports that it is open already. -/
theorem bind_insufficientResources :
    let q := (({} : QueuePair).bind insufficientResources (.ioContext readyContext)).1
    q.isBound = true ∧ q.boundType = .event ∧ q.nativeHandle = none ∧
      (q.bind (.created 6) (.ioContext readyContext)).2 = alreadyOpen := by
  decide +kernel

/-- A failed bind does not always leave the queue pair as it was. -/
theorem not_bind_atomic : ¬ ∀ (q : QueuePair) (r : QpCreation) (t : BindTarget), Atomic q r t := by
  intro hall
  have hsame := (hall {} insufficientResources (.ioContext readyContext)).failed (by decide +kernel)
  have hbound := hsame.isBound
  rw [bind_insufficientResources.1] at hbound
  cases hbound

end QueuePair

end Nd

end RdmaOnAsio
