import RdmaOnAsio.Ibv.Proofs.ThrowingHandler

/-!
# What becomes of the ops at shutdown

An op is owned by the HCA, by an entry of the CQ, by `completed_`, by the scheduler or by the ready queue.
The last three destroy what they hold when the `io_context` or the completion queue is destroyed; work
requests and entries are freed with the queue pair and the CQ, and nobody knows the ops any more.
-/

namespace RdmaOnAsio.Ibv

/-- Resolving entries keeps the ops. -/
theorem count_resolved {wcs : List Wc} {a : Nat} (ha : a ≠ 0) :
    ((wcs.filterMap resolveVerbsOp).map Resolved.op).count a = (wcs.map Wc.wrId).count a := by
  induction wcs with
  | nil => rfl
  | cons wc wcs ih =>
    cases hr : resolveVerbsOp wc with
    | none =>
      have hz : wc.wrId = 0 := by
        by_contra h
        have := resolveVerbsOp_isSome.2 h
        rw [hr] at this
        cases this
      rw [List.filterMap_cons_none hr, List.map_cons, hz, List.count_cons_of_ne (Ne.symm ha), ih]
    | some r =>
      rw [List.filterMap_cons_some hr, List.map_cons, List.map_cons, op_of_resolveVerbsOp hr,
        List.count_cons, List.count_cons, ih]

/-! ## Event mode -/

namespace IoCompletion

variable {pollBatch : Nat} {s s' : State} {l : Label}

/-- The `io_context` is destroyed with no work request at the HCA and no entry of an op on the CQ. -/
def drained (s : State) : Label → Bool
  | .shutdown => s.posted.isEmpty && s.poller.cq.all fun wc => wc.wrId == 0
  | _ => true

/-- The ops at this address the data plane still owns: at the HCA, on the CQ, in `completed_`, with the
scheduler. -/
def State.owned (s : State) (a : Nat) : Nat :=
  s.posted.count a + (s.poller.cq.map Wc.wrId).count a + (s.poller.completed.map Resolved.op).count a +
    s.scheduled.count a

/-- The ops at this address that are done with: completed or destroyed. -/
def State.settled (s : State) (a : Nat) : Nat :=
  (s.poller.dispatched.map Resolved.op).count a + s.completed.count a + s.destroyed.count a

/-- Every op is owned or done with, once, and after the shutdown only the HCA and the CQ own any. -/
structure Owned (s : State) : Prop where
  account : ∀ a, a ≠ 0 → s.owned a + s.settled a = s.initiated.count a
  posted : ∀ a ∈ s.posted, a ≠ 0
  completed : s.alive = false → s.poller.completed = []
  scheduled : s.alive = false → s.scheduled = []

theorem Owned.fresh : Owned {} :=
  ⟨fun _ _ => rfl, fun _ h => (nomatch h), fun h => (nomatch h), fun h => (nomatch h)⟩

/-- A step of the poller moves ops from the CQ to `completed_` and on to their handlers. -/
theorem owned_service {p : Poller.State} {l : Poller.Label} {a : Nat} (ha : a ≠ 0)
    (hl : s.admits l = true) (hp : s.poller.step pollBatch l = some p) :
    State.owned { s with poller := p, posted := s.retire l } a +
        State.settled { s with poller := p, posted := s.retire l } a =
      s.owned a + s.settled a := by
  cases Poller.Step.of_step hp with
  | context i pc t o hpc hadv =>
    have hpoll : (s.poller.cq.map Wc.wrId).count a =
        ((s.poller.cq.drop (Poller.batchSize pollBatch)).map Wc.wrId).count a +
          ((s.poller.cq.take (Poller.batchSize pollBatch)).map Wc.wrId).count a := by
      rw [Nat.add_comm, ← List.count_append, ← List.map_append, List.take_append_drop]
    cases hadv with
    | pollOn caller batches hb =>
      simp only [State.owned, State.settled, State.retire, Poller.State.pollCq, List.map_append,
        List.count_append, count_resolved ha]
      omega
    | pollEnd caller batches =>
      simp only [State.owned, State.settled, State.retire, Poller.State.pollCq, List.map_append,
        List.count_append, count_resolved ha]
      omega
    | complete r rest hc =>
      simp only [State.owned, State.settled, State.retire, hc, List.map_append, List.map_cons,
        List.map_nil, List.count_append, List.count_cons, List.count_nil]
      omega
    | _ => rfl
  | pollFails i pc t o hpc hadv =>
    cases hadv
    rfl
  | cqe wc =>
    simp only [State.owned, State.settled, State.retire, Poller.State.cqe, List.map_append,
      List.map_cons, List.map_nil, List.count_append]
    by_cases hwa : wc.wrId = a
    · have hmem : a ∈ s.posted := by
        simp only [State.admits, Bool.or_eq_true, beq_iff_eq, List.contains_iff_mem] at hl
        rcases hl with h0 | hmem
        · exact absurd (hwa.symm.trans h0) ha
        · exact hwa ▸ hmem
      have hpos := List.count_pos_iff.2 hmem
      rw [hwa, List.count_erase_self, List.count_singleton_self]
      omega
    · have hnil : [wc.wrId].count a = 0 := List.count_eq_zero.2 (by simpa using Ne.symm hwa)
      rw [List.count_erase_of_ne (Ne.symm hwa), hnil]
      omega
  | _ => rfl

theorem Owned.step (h : Owned s) (hst : (ioCompletion pollBatch).step s l = some s') : Owned s' := by
  cases Step.of_step hst with
  | service l p ha hl hp =>
    refine ⟨fun a h0 => (owned_service h0 hl hp).trans (h.account a h0), fun a hmem => ?_,
      fun hd => absurd (ha.symm.trans hd) Bool.noConfusion,
      fun hd => absurd (ha.symm.trans hd) Bool.noConfusion⟩
    refine h.posted a ?_
    cases l with
    | cqe wc => exact List.mem_of_mem_erase hmem
    | _ => exact hmem
  | handlerThrows i r rest ha hi hc =>
    refine ⟨fun a h0 => ?_, h.posted, fun hd => absurd (ha.symm.trans hd) Bool.noConfusion,
      fun hd => absurd (ha.symm.trans hd) Bool.noConfusion⟩
    have hacc := h.account a h0
    simp only [State.owned, State.settled, Poller.State.leave, hc, List.map_append, List.map_cons,
      List.map_nil, List.count_append, List.count_cons, List.count_nil] at hacc ⊢
    omega
  | post addr ha h0 =>
    refine ⟨fun a h0 => ?_, fun a hmem => ?_, h.completed, h.scheduled⟩
    · have hacc := h.account a h0
      simp only [State.owned, State.settled, List.count_append] at hacc ⊢
      omega
    · rcases List.mem_append.1 hmem with hmem | hmem
      · exact h.posted a hmem
      · rwa [List.mem_singleton.1 hmem]
  | finishEvent addr ha h0 =>
    refine ⟨fun a h0 => ?_, h.posted, h.completed,
      fun hd => absurd (ha.symm.trans hd) Bool.noConfusion⟩
    have hacc := h.account a h0
    simp only [State.owned, State.settled, List.count_append] at hacc ⊢
    omega
  | runImmediate i addr hi =>
    have hperm : (addr :: s.scheduled.eraseIdx i).Perm s.scheduled := by
      obtain ⟨hlt, rfl⟩ := List.getElem?_eq_some_iff.1 hi
      exact List.getElem_cons_eraseIdx_perm hlt
    refine ⟨fun a h0 => ?_, h.posted, h.completed, fun hd => ?_⟩
    · have hacc := h.account a h0
      have hcount := hperm.count_eq a
      simp only [State.owned, State.settled, List.count_append, List.count_cons,
        List.count_nil] at hacc hcount ⊢
      omega
    · rw [h.scheduled hd] at hi
      cases hi
  | shutdown ha hc =>
    refine ⟨fun a h0 => ?_, h.posted, fun _ => rfl, fun _ => rfl⟩
    have hacc := h.account a h0
    simp only [State.owned, State.settled, State.shutdown, List.map_nil, List.count_append,
      List.count_nil] at hacc ⊢
    omega

/-- Nothing happens after the shutdown. -/
theorem Owned.stuck (h : Owned s) (hd : s.alive = false) (l : Label) :
    (ioCompletion pollBatch).step s l = none := by
  cases hst : (ioCompletion pollBatch).step s l with
  | none => rfl
  | some s' =>
    cases Step.of_step hst with
    | service l p ha hl hp => exact absurd (ha.symm.trans hd) Bool.noConfusion
    | handlerThrows i r rest ha hi hc => exact absurd (ha.symm.trans hd) Bool.noConfusion
    | post addr ha h0 => exact absurd (ha.symm.trans hd) Bool.noConfusion
    | finishEvent addr ha h0 => exact absurd (ha.symm.trans hd) Bool.noConfusion
    | runImmediate i addr hi =>
      rw [h.scheduled hd] at hi
      cases hi
    | shutdown ha hc => exact absurd (ha.symm.trans hd) Bool.noConfusion

/-- After the shutdown every op is done with exactly if the HCA and the CQ own none. -/
theorem settled_iff (h : Owned s) (hd : s.alive = false) :
    (∀ a, a ≠ 0 → s.initiated.count a = s.settled a) ↔
      s.posted = [] ∧ ∀ wc ∈ s.poller.cq, wc.wrId = 0 := by
  have hown : ∀ a, s.owned a = s.posted.count a + (s.poller.cq.map Wc.wrId).count a := by
    intro a
    rw [State.owned, h.completed hd, h.scheduled hd]
    rfl
  constructor
  · intro hall
    have hzero : ∀ a, a ≠ 0 → s.posted.count a = 0 ∧ (s.poller.cq.map Wc.wrId).count a = 0 := by
      intro a ha
      have hacc := h.account a ha
      have := hall a ha
      rw [hown] at hacc
      omega
    constructor
    · refine List.eq_nil_iff_forall_not_mem.2 fun a hmem => ?_
      exact List.count_eq_zero.1 (hzero a (h.posted a hmem)).1 hmem
    · intro wc hwc
      by_contra hne
      exact List.count_eq_zero.1 (hzero wc.wrId hne).2 (List.mem_map_of_mem hwc)
  · rintro ⟨hp, hcq⟩ a ha
    have hnil : (s.poller.cq.map Wc.wrId).count a = 0 := by
      refine List.count_eq_zero.2 fun hmem => ?_
      obtain ⟨wc, hwc, rfl⟩ := List.mem_map.1 hmem
      exact ha (hcq wc hwc)
    have hacc := h.account a ha
    rw [hown, hp, hnil, List.count_nil] at hacc
    omega

theorem drained_shutdown :
    drained s .shutdown = true ↔ s.posted = [] ∧ ∀ wc ∈ s.poller.cq, wc.wrId = 0 := by
  simp [drained]

/-- In event mode every op is completed or destroyed, once, exactly if the `io_context` is destroyed with no
work request at the HCA and no entry of an op on the CQ. -/
theorem no_leak_iff {ls : List Label} (hr : (ioCompletion pollBatch).run {} ls = some s)
    (hd : s.alive = false) :
    (∀ a, a ≠ 0 → s.initiated.count a = s.settled a) ↔
      (ioCompletion pollBatch).Meets (fun s l => drained s l = true) {} ls := by
  have howned : Owned s := StepSystem.invariant (M := ioCompletion pollBatch)
    (fun _ _ _ h hst => h.step hst) hr .fresh
  rw [settled_iff howned hd]
  refine StepSystem.end_iff_meets (M := ioCompletion pollBatch) (I := Owned)
    (D := fun s => s.alive = false) (P := fun s => s.posted = [] ∧ ∀ wc ∈ s.poller.cq, wc.wrId = 0)
    (fun _ _ _ h hst => h.step hst) (fun _ h hd => h.stuck hd) (fun s l s' h hd hst => ?_) hr .fresh
    Bool.noConfusion hd
  have hlive : ∀ {t : State}, t.alive = s.alive → drained s l = true →
      ((t.alive = false → t.posted = [] ∧ ∀ wc ∈ t.poller.cq, wc.wrId = 0) ↔
        drained s l = true) := fun ht hdr =>
    iff_of_true (fun hd' => absurd (ht.symm.trans hd') hd) hdr
  cases Step.of_step hst with
  | service l p ha hl hp => exact hlive rfl rfl
  | handlerThrows i r rest ha hi hc => exact hlive rfl rfl
  | post addr ha h0 => exact hlive rfl rfl
  | finishEvent addr ha h0 => exact hlive rfl rfl
  | runImmediate i addr hi => exact hlive rfl rfl
  | shutdown ha hc =>
    rw [drained_shutdown]
    exact ⟨fun hdr => hdr rfl, fun hdr _ => hdr⟩

end IoCompletion

/-! ## Poll mode -/

namespace CompletionQueue

variable {pollBatch : Nat} {s s' : State} {l : Label}

/-- The completion queue is destroyed with no work request at the HCA and no entry of an op on the CQ. -/
def drained (s : State) : Label → Bool
  | .destroy => s.posted.isEmpty && s.cq.all fun c => c.wc.wrId == 0
  | _ => true

/-- The ops at this address that are done with: completed or destroyed. -/
def State.settled (s : State) (a : Nat) : Nat :=
  (s.completed.map fun c => c.op.addr).count a + (s.resolved.map Resolved.op).count a +
    s.destroyed.count a

/-- What the accounts of the last section need. -/
structure Accounted (s : State) : Prop where
  sized : Sized s
  pushed : ∀ a, s.pushedAt a = s.pushed.count a
  requested : ∀ a, a ≠ 0 →
    s.posted.count a + (s.arrived.map fun c => c.wc.wrId).count a = s.requested.count a
  posted : ∀ a ∈ s.posted, a ≠ 0
  frames : s.alive = false → s.frames = []
  ready : s.alive = false → s.ready = []

theorem Accounted.fresh : Accounted {} :=
  ⟨.fresh, fun _ => rfl, fun _ _ => rfl, fun _ h => (nomatch h), fun h => (nomatch h),
    fun h => (nomatch h)⟩

/-- Nothing happens after the destruction. -/
theorem Accounted.stuck (h : Accounted s) (hd : s.alive = false) (l : Label) :
    (completionQueue pollBatch).step s l = none := by
  have hf := h.frames hd
  change s.step pollBatch l = none
  cases l <;> simp [State.step, State.inHandler, hd, hf]

theorem Accounted.step (h : Accounted s)
    (hst : (completionQueue pollBatch).step s l = some s') : Accounted s' := by
  have halive : s.alive = true := by
    by_contra hd
    have : (completionQueue pollBatch).step s l = none := h.stuck (Bool.eq_false_iff.2 hd) l
    rw [hst] at this
    cases this
  have hsame : s'.alive = s.alive → ∀ {p : Prop}, s'.alive = false → p := fun heq _ hd =>
    absurd (halive.symm.trans (heq.symm.trans hd)) Bool.noConfusion
  have hold : s'.posted ⊆ s.posted → ∀ a ∈ s'.posted, a ≠ 0 := fun hsub a hmem =>
    h.posted a (hsub hmem)
  have hframes : s'.alive = false → s'.frames = [] ∧ s'.ready = [] := by
    cases Step.of_step hst with
    | run call pc rest b _ hf ha => cases ha <;> exact hsame rfl
    | destroy hf => exact fun _ => ⟨hf, rfl⟩
    | _ => exact hsame rfl
  refine ⟨h.sized.step hst, fun a => pushedAt_step (h.pushed a) hst,
    fun a ha => requested_step ha (h.requested a ha) hst, ?_, fun hd => (hframes hd).1,
    fun hd => (hframes hd).2⟩
  cases Step.of_step hst with
  | run call pc rest b _ hf ha => cases ha <;> exact h.posted
  | post addr ha =>
    intro a hmem
    rcases List.mem_append.1 hmem with hmem | hmem
    · exact h.posted a hmem
    · rwa [List.mem_singleton.1 hmem]
  | cqe wc hw => exact hold (List.erase_subset ..)
  | _ => exact h.posted

/-- With nothing overwritten or dropped, after the destruction every op is done with exactly if the HCA and
the CQ own none. -/
theorem settled_iff (h : Accounted s) (hc : Conserved s) (hd : s.alive = false) :
    (∀ a, a ≠ 0 → s.pushed.count a + s.requested.count a = s.settled a) ↔
      s.posted = [] ∧ ∀ c ∈ s.cq, c.wc.wrId = 0 := by
  have hf := h.frames hd
  have hentries := hc.dispatched hf
  -- the entries that arrived are the dispatched ones and those on the CQ
  have harrived : ∀ a, a ≠ 0 → (s.arrived.map fun c => c.wc.wrId).count a =
      (s.resolved.map Resolved.op).count a + (s.cq.map fun c => c.wc.wrId).count a := by
    intro a ha
    have hres : s.resolved = (s.dispatched.map Cqe.wc).filterMap resolveVerbsOp := by
      rw [State.resolved, List.filterMap_map]
      rfl
    have hperm := (hentries.map fun c => c.wc.wrId).count_eq a
    rw [h.sized.numbered.split, List.map_append, List.count_append, ← hperm, hres, count_resolved ha,
      List.map_map]
    rfl
  have hpushed : ∀ a, (s.completed.map fun c => c.op.addr).count a + s.destroyed.count a =
      s.pushed.count a := by
    intro a
    have hat := h.pushed a
    rw [State.pushedAt, h.ready hd, State.draining, hf] at hat
    simpa using hat
  constructor
  · intro hall
    have hzero : ∀ a, a ≠ 0 →
        s.posted.count a = 0 ∧ (s.cq.map fun c => c.wc.wrId).count a = 0 := by
      intro a ha
      have hreq := h.requested a ha
      have harr := harrived a ha
      have hp := hpushed a
      have := hall a ha
      unfold State.settled at this
      omega
    constructor
    · refine List.eq_nil_iff_forall_not_mem.2 fun a hmem => ?_
      exact List.count_eq_zero.1 (hzero a (h.posted a hmem)).1 hmem
    · intro c hc
      by_contra hne
      exact List.count_eq_zero.1 (hzero c.wc.wrId hne).2 (List.mem_map_of_mem hc)
  · rintro ⟨hp, hcq⟩ a ha
    have hnil : (s.cq.map fun c => c.wc.wrId).count a = 0 := by
      refine List.count_eq_zero.2 fun hmem => ?_
      obtain ⟨c, hc, rfl⟩ := List.mem_map.1 hmem
      exact ha (hcq c hc)
    have hreq := h.requested a ha
    have harr := harrived a ha
    have hpu := hpushed a
    rw [hp, List.count_nil] at hreq
    unfold State.settled
    omega

/-- In poll mode, as long as no entry is overwritten or dropped, every op is completed or destroyed, once,
exactly if the completion queue is destroyed with no work request at the HCA and no entry of an op on the
CQ. -/
theorem no_leak_iff {ls : List Label} (hr : (completionQueue pollBatch).run {} ls = some s)
    (hm : (completionQueue pollBatch).Meets
      (fun s l => (keepsBatches pollBatch s l && dropsNoEntry s l) = true) {} ls)
    (hd : s.alive = false) :
    (∀ a, a ≠ 0 → s.pushed.count a + s.requested.count a = s.settled a) ↔
      (completionQueue pollBatch).Meets (fun s l => drained s l = true) {} ls := by
  have hacc : Accounted s := StepSystem.invariant (M := completionQueue pollBatch)
    (fun _ _ _ h hst => h.step hst) hr .fresh
  have hcons : Conserved s := (conserved_iff hr).2 hm ls s (List.prefix_refl ls) hr
  rw [settled_iff hacc hcons hd]
  refine StepSystem.end_iff_meets (M := completionQueue pollBatch) (I := Accounted)
    (D := fun s => s.alive = false) (P := fun s => s.posted = [] ∧ ∀ c ∈ s.cq, c.wc.wrId = 0)
    (fun _ _ _ h hst => h.step hst) (fun _ h hd => h.stuck hd) (fun s l s' h hd hst => ?_) hr .fresh
    Bool.noConfusion hd
  have hlive : s'.alive = s.alive → drained s l = true →
      ((s'.alive = false → s'.posted = [] ∧ ∀ c ∈ s'.cq, c.wc.wrId = 0) ↔
        drained s l = true) := fun ht hdr =>
    iff_of_true (fun hd' => absurd (ht.symm.trans hd') hd) hdr
  cases Step.of_step hst with
  | run call pc rest b _ hf ha => cases ha <;> exact hlive rfl rfl
  | destroy hf =>
    simp only [drained, State.destroy, forall_const, Bool.and_eq_true, List.isEmpty_iff,
      List.all_eq_true, beq_iff_eq]
  | _ => exact hlive rfl rfl

end CompletionQueue

/-- No op is leaked at shutdown, exactly if nothing is at the HCA or on the CQ then: in event mode for every
run, in poll mode for every run in which no entry is overwritten by a nested poll or dropped by an
exception. -/
theorem shutdown_no_leak_iff (pollBatch : Nat) :
    (∀ (ls : List IoCompletion.Label) (s : IoCompletion.State),
      (ioCompletion pollBatch).run {} ls = some s → s.alive = false →
        ((∀ a, a ≠ 0 → s.initiated.count a = s.settled a) ↔
          (ioCompletion pollBatch).Meets (fun s l => IoCompletion.drained s l = true) {} ls)) ∧
    ∀ (ls : List CompletionQueue.Label) (s : CompletionQueue.State),
      (completionQueue pollBatch).run {} ls = some s →
        (completionQueue pollBatch).Meets (fun s l =>
          (CompletionQueue.keepsBatches pollBatch s l && CompletionQueue.dropsNoEntry s l) = true)
          {} ls →
        s.alive = false →
        ((∀ a, a ≠ 0 → s.pushed.count a + s.requested.count a = s.settled a) ↔
          (completionQueue pollBatch).Meets (fun s l => CompletionQueue.drained s l = true) {} ls) :=
  ⟨fun _ _ hr hd => IoCompletion.no_leak_iff hr hd,
    fun _ _ hr hm hd => CompletionQueue.no_leak_iff hr hm hd⟩

/-- A completion is in `completed_` and an immediate op with the scheduler when the `io_context` is
destroyed. -/
def shutdownQueued : List IoCompletion.Label :=
  [.post 1, .finishEvent 2, .service .ensurePollerStarted, .service (.cqe ⟨1, .success, .send, 0⟩),
    .service (.context 0), .service (.context 0), .service (.context 0), .shutdown]

/-- An immediate op is in the ready queue when the completion queue is destroyed. -/
def destroyReady : List CompletionQueue.Label :=
  [.post 1, .cqe ⟨1, .success, .send, 0⟩, .pollOne, .run false, .run false, .handlerReturns, .run false,
    .pushReady 2 false, .destroy]

/-- What is queued is destroyed. -/
theorem shutdown_no_leak_iff_queued :
    (∀ a, a ≠ 0 → ((ioCompletion 16).after {} shutdownQueued).initiated.count a =
      ((ioCompletion 16).after {} shutdownQueued).settled a) ∧
    ∀ a, a ≠ 0 → ((completionQueue 16).after {} destroyReady).pushed.count a +
      ((completionQueue 16).after {} destroyReady).requested.count a =
        ((completionQueue 16).after {} destroyReady).settled a := by
  have hevent : ((ioCompletion 16).run {} shutdownQueued).isSome = true := by decide +kernel
  have hpoll : ((completionQueue 16).run {} destroyReady).isSome = true := by decide +kernel
  constructor
  · exact ((shutdown_no_leak_iff 16).1 _ _ (StepSystem.run_after hevent) (by decide +kernel)).2
      (by decide +kernel)
  · exact ((shutdown_no_leak_iff 16).2 _ _ (StepSystem.run_after hpoll) (by decide +kernel)
      (by decide +kernel)).2 (by decide +kernel)

/-- A posted op and one with an entry on the CQ are neither completed nor destroyed, in either mode. -/
theorem not_shutdown_no_leak :
    (¬ ∀ ls s, (ioCompletion 16).run {} ls = some s → s.alive = false →
      ∀ a, a ≠ 0 → s.initiated.count a = s.settled a) ∧
    ¬ ∀ ls s, (completionQueue 16).run {} ls = some s → s.alive = false →
      ∀ a, a ≠ 0 → s.pushed.count a + s.requested.count a = s.settled a := by
  constructor
  · intro h
    have := h [.post 1, .shutdown] _ rfl rfl 1 (by decide)
    revert this
    decide
  · intro h
    have := h [.post 1, .cqe ⟨1, .success, .send, 0⟩, .destroy] _ rfl rfl 1 (by decide)
    revert this
    decide

end RdmaOnAsio.Ibv
