import RdmaOnAsio.Nd.Proofs.PollerWatch

/-!
# What becomes of the results the nd poller takes

Every result that was written is on the CQ, or its op is in the local queue of `poll_and_dispatch` or
retired, once and in the order of the CQ. Retired means completed, up to the first handler that throws:
the ops behind its own in the local queue are destroyed, and nothing is retired any more.
-/

namespace RdmaOnAsio.Nd

open ErrorCode Verbs

namespace Poller

variable {pollBatch : Nat} {s s' : State} {l : Label} {i : Nat} {b : Bool} {pc : Pc}
  {taken : List Nd2Result}

/-- `resolve_wc` is the result's own part, stamped on the op. -/
theorem resolveWc_eq (result : Nd2Result) (op : DataOp NdErrorCode) :
    resolveWc result op = (resolve result).map fun r => r.stamp op := by
  by_cases h0 : result.requestContext = 0
  · simp [resolveWc, resolve, h0]
  · cases he : (completionStatusToError result.status).isError with
    | true => simp [resolveWc, resolve, h0, he, Resolved.stamp]
    | false =>
      simp only [resolveWc, resolve, h0, he, if_false, Bool.not_false, if_true]
      split_ifs <;> rfl

/-! ## The ops of a turn -/

/-- `taken` are the results that were polled, and their ops are retired or in a local queue. -/
structure Accounted (s : State) (taken : List Nd2Result) : Prop where
  arrived : s.arrived = taken ++ s.cq
  ops : taken.filterMap resolve = s.retired.map Retired.resolved ++ s.dispatching

theorem Accounted.fresh : Accounted {} [] := ⟨rfl, rfl⟩

/-- Nothing changes that `Accounted` speaks of. -/
theorem Accounted.frame {t : State} (h : Accounted s taken) (ha : t.arrived = s.arrived)
    (hq : t.cq = s.cq) (hr : t.retired = s.retired) (hd : t.dispatching = s.dispatching) :
    Accounted t taken :=
  ⟨by rw [ha, hq]; exact h.arrived, by rw [hr, hd]; exact h.ops⟩

theorem HeldBy.dispatching {c : Context} {satisfied : Bool} (h : HeldBy s (.context c satisfied)) :
    s.dispatching = c.pc.ops := by
  simp [State.dispatching, h.contexts, Holder.contexts]

/-- The ops in the local queue of the one context, once it is at `pc'`. -/
theorem dispatching_goto {t : State} {c : Context} {satisfied : Bool} {pc' : Pc}
    (h : HeldBy s (.context c satisfied)) (hc : t.contexts = s.contexts) :
    (t.goto 0 c pc').dispatching = pc'.ops := by
  simp [State.dispatching, h.contexts_goto hc]

@[simp] theorem ops_afterPoll {n batches : Nat} {ops : List Resolved} :
    (Pc.afterPoll n pollBatch batches ops).ops = ops := by
  unfold Pc.afterPoll
  split <;> rfl

/-- A poll hands a batch to the local queue, an upcall or an exception takes from it; nothing else touches
the ops. -/
theorem Accounted.step {h : Holder} (ha : Accounted s taken) (hh : HeldBy s h)
    (hst : s.step pollBatch l = some s') : ∃ taken', Accounted s' taken' ∧ taken <+: taken' := by
  cases Step.of_step hst with
  | started hs => exact ⟨taken, ha, List.prefix_refl _⟩
  | start hs => exact ⟨taken, ha.frame rfl rfl rfl (by simp [State.dispatching, State.enter, Pc.ops]),
      List.prefix_refl _⟩
  | notifyCq i hr satisfied b hc =>
    obtain ⟨rfl, old, rfl⟩ := hh.eq_context hc
    refine ⟨taken, ha.frame rfl rfl rfl ?_, List.prefix_refl _⟩
    rw [hh.dispatching]
    exact dispatching_goto hh rfl
  | handOver i throws b pending hc =>
    obtain ⟨rfl, old, rfl⟩ := hh.eq_context hc
    refine ⟨taken, ha.frame rfl rfl rfl ?_, List.prefix_refl _⟩
    rw [hh.dispatching]
    simp [State.dispatching, State.leave, State.handOver, hh.contexts, Holder.contexts, Pc.ops]
  | pollCq i throws b batches ops hc =>
    obtain ⟨rfl, old, rfl⟩ := hh.eq_context hc
    refine ⟨taken ++ s.cq.take (s.batch pollBatch), ⟨?_, ?_⟩, List.prefix_append _ _⟩
    · show s.arrived = _ ++ s.cq.drop _
      rw [List.append_assoc, List.take_append_drop]
      exact ha.arrived
    · have hops := ha.ops
      rw [hh.dispatching] at hops
      rw [dispatching_goto (t := { s with cq := s.cq.drop (s.batch pollBatch) }) hh rfl, ops_afterPoll,
        List.filterMap_append, hops, List.append_assoc]
      rfl
  | rearm i throws b hc =>
    obtain ⟨rfl, old, rfl⟩ := hh.eq_context hc
    refine ⟨taken, ha.frame rfl rfl rfl ?_, List.prefix_refl _⟩
    rw [hh.dispatching]
    exact dispatching_goto hh rfl
  | upcall i b r ops hc =>
    obtain ⟨rfl, old, rfl⟩ := hh.eq_context hc
    refine ⟨taken, ⟨ha.arrived, ?_⟩, List.prefix_refl _⟩
    have hops := ha.ops
    rw [hh.dispatching] at hops
    rw [dispatching_goto (t := { s with retired := s.retired ++ [Retired.mk r true] }) hh rfl, hops]
    show _ = (s.retired ++ [Retired.mk r true]).map _ ++ _
    simp [Pc.ops]
  | handlerThrows i b r ops hc =>
    obtain ⟨rfl, old, rfl⟩ := hh.eq_context hc
    refine ⟨taken, ⟨ha.arrived, ?_⟩, List.prefix_refl _⟩
    have hops := ha.ops
    rw [hh.dispatching] at hops
    rw [hops]
    simp [State.dispatching, State.leave, hh.contexts, Holder.contexts, Pc.ops, Function.comp_def]
  | runPoller hp hheld =>
    exact ⟨taken, ha.frame rfl rfl rfl (by simp [State.dispatching, State.enter, Pc.ops]),
      List.prefix_refl _⟩
  | workFinished hf => exact ⟨taken, ha.frame rfl rfl rfl rfl, List.prefix_refl _⟩
  | cqe result =>
    refine ⟨taken, ⟨?_, ha.ops⟩, List.prefix_refl _⟩
    show s.arrived ++ [result] = taken ++ (s.cq ++ [result])
    rw [ha.arrived, List.append_assoc]

/-! ## What a throwing handler costs -/

/-- The poller was started and nobody holds it: an exception has left it behind. -/
def State.Abandoned (s : State) : Prop :=
  s.pollerStarted = true ∧ s.contexts = [] ∧ s.held = 0

/-- The handler the `i`-th context is about to call has other ops behind it. -/
def State.crowded (s : State) (i : Nat) : Bool :=
  match s.contexts[i]? with
  | some ⟨_, .dispatch (_ :: _ :: _)⟩ => true
  | _ => false

/-- No handler throws with ops behind its own. -/
def State.sparesOps (s : State) : Label → Bool
  | .context i throws => !(throws && s.crowded i)
  | .ensurePollerStarted | .notifyCq _ _ _ | .runPoller | .workFinished | .cqe _ => true

/-- The retired ops: first those whose handlers were called, then those that an exception destroyed. -/
structure Sorted (s : State) : Prop where
  split : ∃ called lost : List Resolved, s.retired =
    called.map (fun r => Retired.mk r true) ++ lost.map fun r => Retired.mk r false
  lost : (∃ r ∈ s.retired, r.completed = false) → s.Abandoned

theorem Sorted.fresh : Sorted {} :=
  ⟨⟨[], [], rfl⟩, fun ⟨_, hr, _⟩ => absurd hr List.not_mem_nil⟩

/-- Without an op destroyed so far, all have been called. -/
theorem Sorted.called (h : Sorted s) (hb : ¬ s.Abandoned) :
    ∃ called : List Resolved, s.retired = called.map fun r => Retired.mk r true := by
  obtain ⟨called, lost, hsplit⟩ := h.split
  cases lost with
  | nil => exact ⟨called, by simpa using hsplit⟩
  | cons r lost =>
    refine absurd (h.lost ⟨Retired.mk r false, ?_, rfl⟩) hb
    rw [hsplit]
    simp

/-- The holder of a poller that has a context is not gone. -/
theorem HeldBy.not_abandoned {c : Context} {satisfied : Bool}
    (h : HeldBy s (.context c satisfied)) : ¬ s.Abandoned := by
  rintro ⟨-, hc, -⟩
  rw [h.contexts] at hc
  cases hc

theorem HeldBy.abandoned_iff {h : Holder} (hh : HeldBy s h) : s.Abandoned ↔ h = .abandoned := by
  rw [State.Abandoned, hh.started, hh.contexts, hh.held]
  cases h <;> simp [Holder.started, Holder.contexts, Holder.held]

/-- Nobody takes up a poller that an exception left behind, and it retires nothing. -/
theorem Abandoned.step {h : Holder} (hb : s.Abandoned) (hh : HeldBy s h)
    (hst : s.step pollBatch l = some s') : s'.Abandoned ∧ s'.retired = s.retired := by
  obtain rfl := hh.abandoned_iff.1 hb
  have hctx : s.contexts = [] := hh.contexts
  have hheld : s.held = 0 := hh.held
  have hst' : s.pollerStarted = true := hh.started
  cases Step.of_step hst with
  | started hs => exact ⟨hb, rfl⟩
  | start hs =>
    rw [hst'] at hs
    cases hs
  | runPoller hp hheld' =>
    rw [hheld] at hheld'
    cases hheld'
  | workFinished hf => exact ⟨hb, rfl⟩
  | cqe result => exact ⟨hb, rfl⟩
  | notifyCq i hr satisfied b hc => simp [hctx] at hc
  | handOver i throws b pending hc => simp [hctx] at hc
  | pollCq i throws b batches ops hc => simp [hctx] at hc
  | rearm i throws b hc => simp [hctx] at hc
  | upcall i b r ops hc => simp [hctx] at hc
  | handlerThrows i b r ops hc => simp [hctx] at hc

/-- No handler throws. -/
def State.calm (s : State) : Label → Bool
  | .context i throws => !(throws && s.upcalls i)
  | .ensurePollerStarted | .notifyCq _ _ _ | .runPoller | .workFinished | .cqe _ => true

/-- Only an exception leaves the poller behind. -/
theorem HeldBy.abandoned_step {h : Holder} (hh : HeldBy s h) (hb : ¬ s.Abandoned)
    (hst : s.step pollBatch l = some s') : ¬ s'.Abandoned ↔ s.calm l = true := by
  have hgoto : ∀ {t : State} {c : Context} {satisfied : Bool} {pc' : Pc},
      HeldBy s (.context c satisfied) → t.contexts = s.contexts → ¬ (t.goto 0 c pc').Abandoned := by
    rintro t c satisfied pc' hh ht ⟨-, hc, -⟩
    rw [hh.contexts_goto ht] at hc
    cases hc
  cases Step.of_step hst with
  | started hs => exact iff_of_true hb rfl
  | start hs =>
    refine iff_of_true ?_ rfl
    rintro ⟨-, hc, -⟩
    simp [State.enter] at hc
  | notifyCq i hr satisfied b hc =>
    obtain ⟨rfl, old, rfl⟩ := hh.eq_context hc
    exact iff_of_true (hgoto hh rfl) rfl
  | handOver i throws b pending hc =>
    refine iff_of_true ?_ (by simp [State.calm, State.upcalls, hc])
    rintro ⟨-, -, hheld⟩
    simp [State.leave, State.handOver] at hheld
  | pollCq i throws b batches ops hc =>
    obtain ⟨rfl, old, rfl⟩ := hh.eq_context hc
    exact iff_of_true (hgoto hh rfl) (by simp [State.calm, State.upcalls, hc])
  | rearm i throws b hc =>
    obtain ⟨rfl, old, rfl⟩ := hh.eq_context hc
    exact iff_of_true (hgoto hh rfl) (by simp [State.calm, State.upcalls, hc])
  | upcall i b r ops hc =>
    obtain ⟨rfl, old, rfl⟩ := hh.eq_context hc
    exact iff_of_true (hgoto hh rfl) rfl
  | handlerThrows i b r ops hc =>
    obtain ⟨rfl, old, rfl⟩ := hh.eq_context hc
    refine iff_of_false (fun hn => hn ⟨hh.started, ?_, hh.held⟩) (by simp [State.calm, State.upcalls, hc])
    simp [State.leave, hh.contexts, Holder.contexts]
  | runPoller hp hheld =>
    refine iff_of_true ?_ rfl
    rintro ⟨-, hc, -⟩
    simp [State.enter] at hc
  | workFinished hf => exact iff_of_true hb rfl
  | cqe result => exact iff_of_true hb rfl

/-- A step that retires nothing. -/
theorem Sorted.frame {t : State} (h : Sorted s) (hr : t.retired = s.retired)
    (hb : s.Abandoned → t.Abandoned) : Sorted t :=
  ⟨by rw [hr]; exact h.split, fun hl => hb (h.lost (by rwa [hr] at hl))⟩

/-- Whether all retired ops have been completed. -/
def State.nothingLost (s : State) : Prop := ∀ r ∈ s.retired, r.completed = true

/-- The retired ops stay sorted, and one is destroyed exactly by a step that does not spare them. -/
theorem Sorted.step {h : Holder} (hs : Sorted s) (hh : HeldBy s h)
    (hst : s.step pollBatch l = some s') :
    Sorted s' ∧ (s.nothingLost → (s'.nothingLost ↔ s.sparesOps l = true)) := by
  -- a step that retires nothing and is no handler's
  have hframe : s'.retired = s.retired → (s.Abandoned → s'.Abandoned) → s.sparesOps l = true →
      Sorted s' ∧ (s.nothingLost → (s'.nothingLost ↔ s.sparesOps l = true)) := by
    intro hr hb hspare
    refine ⟨hs.frame hr hb, fun hn => iff_of_true ?_ hspare⟩
    rw [State.nothingLost, hr]
    exact hn
  have hab : s.Abandoned → s'.Abandoned := fun hb => (Abandoned.step hb hh hst).1
  cases Step.of_step hst with
  | started hst' => exact hframe rfl hab rfl
  | start hst' => exact hframe rfl hab rfl
  | notifyCq i hr satisfied b hc => exact hframe rfl hab rfl
  | handOver i throws b pending hc =>
    exact hframe rfl hab (by simp [State.sparesOps, State.crowded, hc])
  | pollCq i throws b batches ops hc =>
    exact hframe rfl hab (by simp [State.sparesOps, State.crowded, hc])
  | rearm i throws b hc =>
    exact hframe rfl hab (by simp [State.sparesOps, State.crowded, hc])
  | upcall i b r ops hc =>
    obtain ⟨rfl, old, rfl⟩ := hh.eq_context hc
    obtain ⟨called, hcalled⟩ := hs.called hh.not_abandoned
    have hret : s.retired ++ [Retired.mk r true] =
        (called ++ [r]).map fun r => Retired.mk r true := by simp [hcalled]
    have hall : ∀ x ∈ s.retired ++ [Retired.mk r true], x.completed = true := by
      rw [hret]
      intro x hx
      obtain ⟨y, -, rfl⟩ := List.mem_map.1 hx
      rfl
    refine ⟨⟨⟨called ++ [r], [], ?_⟩, ?_⟩, fun _ => iff_of_true hall rfl⟩
    · rw [List.map_nil, List.append_nil]
      exact hret
    · rintro ⟨x, hx, hf⟩
      rw [hall x hx] at hf
      cases hf
  | handlerThrows i b r ops hc =>
    obtain ⟨rfl, old, rfl⟩ := hh.eq_context hc
    obtain ⟨called, hcalled⟩ := hs.called hh.not_abandoned
    refine ⟨⟨⟨called ++ [r], ops, ?_⟩, fun _ => ⟨hh.started, ?_, hh.held⟩⟩, fun hn => ?_⟩
    · show s.retired ++ _ = _
      simp [hcalled]
    · simp [State.leave, hh.contexts, Holder.contexts]
    · show (∀ x ∈ s.retired ++ Retired.mk r true :: ops.map (fun r => Retired.mk r false), _) ↔ _
      cases ops with
      | nil =>
        refine iff_of_true (fun x hx => ?_) (by simp [State.sparesOps, State.crowded, hc])
        rcases List.mem_append.1 hx with hx | hx
        · exact hn x hx
        · obtain rfl := List.mem_singleton.1 hx
          rfl
      | cons r' ops =>
        refine iff_of_false (fun hall => ?_) (by simp [State.sparesOps, State.crowded, hc])
        have hf := hall (Retired.mk r' false) (by simp)
        cases hf
  | runPoller hp hheld => exact hframe rfl hab rfl
  | workFinished hf => exact hframe rfl hab rfl
  | cqe result => exact hframe rfl hab rfl

/-- What is retired stays retired. -/
theorem retired_step (hst : s.step pollBatch l = some s') : s.retired <+: s'.retired := by
  cases Step.of_step hst with
  | upcall i b r ops hc => exact List.prefix_append _ _
  | handlerThrows i b r ops hc => exact List.prefix_append _ _
  | _ => exact List.prefix_refl _

theorem started_step (hst : s.step pollBatch l = some s') (h : s.pollerStarted = true) :
    s'.pollerStarted = true := by
  cases Step.of_step hst with
  | start hs => rfl
  | _ => exact h

/-! ## Whole runs -/

variable {ls : List Label}

/-- What holds of the poller in every state reached. -/
structure Tracked (s : State) : Prop where
  held : ∃ h, HeldBy s h
  accounted : ∃ taken, Accounted s taken
  sorted : Sorted s

theorem Tracked.fresh : Tracked {} := ⟨⟨_, .fresh⟩, ⟨_, .fresh⟩, .fresh⟩

theorem Tracked.step (h : Tracked s) (hst : s.step pollBatch l = some s') : Tracked s' := by
  obtain ⟨holder, hh⟩ := h.held
  obtain ⟨taken, ha⟩ := h.accounted
  exact ⟨(hh.step hst).imp fun _ h => h.1, (ha.step hh hst).imp fun _ h => h.1, (h.sorted.step hh hst).1⟩

theorem Tracked.run (hr : (poller pollBatch).run {} ls = some s) : Tracked s :=
  StepSystem.invariant (M := poller pollBatch) (fun _ _ _ h hst => h.step hst) hr .fresh

/-- Of the results written, the ops are retired, in a local queue or on the CQ, once and in their order. -/
theorem Tracked.in_order (h : Tracked s) :
    s.arrived.filterMap resolve =
      s.retired.map Retired.resolved ++ s.dispatching ++ s.cq.filterMap resolve := by
  obtain ⟨taken, ha⟩ := h.accounted
  rw [ha.arrived, List.filterMap_append, ha.ops]

/-- In every run, throwing handlers included: every result's op is completed or destroyed, in a local
queue or still on the CQ, once and in the order of the CQ. Ops are completed before any is destroyed,
and one is destroyed exactly if some handler of the run threw with ops of the same turn behind its own.
The poller is left behind exactly if some handler threw, and then retires nothing more. -/
theorem poller_retires_in_order (hr : (poller pollBatch).run {} ls = some s) :
    s.arrived.filterMap resolve =
        s.retired.map Retired.resolved ++ s.dispatching ++ s.cq.filterMap resolve ∧
      (∃ called lost : List Resolved, s.retired =
        called.map (fun r => Retired.mk r true) ++ lost.map fun r => Retired.mk r false) ∧
      (s.nothingLost ↔ (poller pollBatch).Meets (fun s l => s.sparesOps l = true) {} ls) ∧
      (¬ s.Abandoned ↔ (poller pollBatch).Meets (fun s l => s.calm l = true) {} ls) ∧
      (s.Abandoned → ∀ ls' s', (poller pollBatch).run s ls' = some s' → s'.retired = s.retired) := by
  have ht : Tracked s := .run hr
  refine ⟨ht.in_order, ht.sorted.split, ?_, ?_, fun hb ls' s' hr' => ?_⟩
  · refine StepSystem.end_iff_meets_of_stable (M := poller pollBatch) (I := Tracked)
      (P := State.nothingLost) (fun _ _ _ h hst => h.step hst)
      (fun s l s' h hn hst => ?_) (fun s l s' h hst hn r hr => ?_) hr .fresh
      fun r hr => absurd hr List.not_mem_nil
    · obtain ⟨holder, hh⟩ := h.held
      exact (h.sorted.step hh hst).2 hn
    · exact hn r ((retired_step hst).subset hr)
  · refine StepSystem.end_iff_meets_of_stable (M := poller pollBatch) (I := Tracked)
      (P := fun s => ¬ s.Abandoned) (fun _ _ _ h hst => h.step hst)
      (fun s l s' h hb hst => ?_) (fun s l s' h hst hb' hb => ?_) hr .fresh fun ⟨h, _⟩ => nomatch h
    · obtain ⟨holder, hh⟩ := h.held
      exact hh.abandoned_step hb hst
    · obtain ⟨holder, hh⟩ := h.held
      exact hb' (Abandoned.step hb hh hst).1
  · exact (StepSystem.invariant (M := poller pollBatch)
      (I := fun t => (t.Abandoned ∧ t.retired = s.retired) ∧ Tracked t)
      (fun t l t' ⟨⟨hb, hret⟩, ht⟩ hst => by
        obtain ⟨h, hh⟩ := ht.held
        obtain ⟨hb', hret'⟩ := Abandoned.step hb hh hst
        exact ⟨⟨hb', hret'.trans hret⟩, ht.step hst⟩) hr' ⟨⟨hb, rfl⟩, ht⟩).1.2

/-- Three results in one turn, of which the second one's handler throws. -/
def throwing : List Label :=
  [.ensurePollerStarted, .notifyCq 0 ndPending false, .context 0 false, .cqe ⟨7, ndSuccess, .receive, 64⟩,
    .cqe ⟨8, ndSuccess, .send, 0⟩, .cqe ⟨9, ndCanceled, .receive, 0⟩, .runPoller, .context 0 false,
    .context 0 false, .context 0 true]

theorem poller_retires_in_order_throwing :
    let s := (poller 4).after {} throwing
    ¬ s.nothingLost ∧ s.Abandoned := by
  have hr : ((poller 4).run {} throwing).isSome = true := by decide
  obtain ⟨-, -, hlost, hleft, -⟩ := poller_retires_in_order (StepSystem.run_after hr)
  refine ⟨fun hn => absurd (hlost.1 hn) (by decide), ?_⟩
  by_contra hb
  exact absurd (hleft.1 hb) (by decide)

/-! ## One poller, and the work it stands for -/

/-- The scheduler has the poller, or calls it. -/
def Holder.scheduled : Holder → Bool
  | scheduler _ => true
  | context c _ => c.completing
  | nobody | abandoned => false

/-- A poller that the scheduler has is called by the scheduler only, until a handler throws. -/
theorem HeldBy.scheduled_step {h : Holder} (hh : HeldBy s h) (hsch : h.scheduled = true)
    (hcalm : s.calm l = true) (hst : s.step pollBatch l = some s') :
    ∃ h', HeldBy s' h' ∧ h'.scheduled = true := by
  obtain ⟨h', hh', -⟩ := hh.step hst
  refine ⟨h', hh', ?_⟩
  have hctx := hh'.contexts
  have hheld := hh'.held
  have hst' := hh'.started
  have hab : ¬ s.Abandoned := fun hb => by
    rw [hh.abandoned_iff] at hb
    subst hb
    cases hsch
  have hab' := (hh.abandoned_step hab hst).2 hcalm
  rw [hh'.abandoned_iff] at hab'
  -- the contexts of the next state, each of which was called by the scheduler
  have hcompleting : s.pollerStarted = true ∧ ∀ c ∈ s'.contexts, c.completing = true := by
    have hstarted : s.pollerStarted = true := by
      rw [hh.started]
      cases h with
      | nobody => cases hsch
      | _ => rfl
    have hold : ∀ c ∈ s.contexts, c.completing = true := by
      rw [hh.contexts]
      cases h with
      | context c satisfied =>
        intro c' hc'
        obtain rfl := List.mem_singleton.1 hc'
        exact hsch
      | _ => simp [Holder.contexts]
    refine ⟨hstarted, ?_⟩
    have hset : ∀ {t : State} {c : Context} {satisfied : Bool} {pc' : Pc},
        HeldBy s (.context c satisfied) → t.contexts = s.contexts →
          ∀ c' ∈ (t.goto 0 c pc').contexts, c'.completing = true := by
      intro t c satisfied pc' hh ht c' hc'
      rw [hh.contexts_goto ht] at hc'
      obtain rfl := List.mem_singleton.1 hc'
      exact hold c (by simp [hh.contexts, Holder.contexts])
    cases Step.of_step hst with
    | started hs => exact hold
    | start hs =>
      rw [hs] at hstarted
      cases hstarted
    | notifyCq i hr satisfied b hc =>
      obtain ⟨rfl, old, rfl⟩ := hh.eq_context hc
      exact hset hh rfl
    | handOver i throws b pending hc => exact fun c hc => hold c (List.mem_of_mem_eraseIdx hc)
    | pollCq i throws b batches ops hc =>
      obtain ⟨rfl, old, rfl⟩ := hh.eq_context hc
      exact hset hh rfl
    | rearm i throws b hc =>
      obtain ⟨rfl, old, rfl⟩ := hh.eq_context hc
      exact hset hh rfl
    | upcall i b r ops hc =>
      obtain ⟨rfl, old, rfl⟩ := hh.eq_context hc
      exact hset hh rfl
    | handlerThrows i b r ops hc => exact fun c hc => hold c (List.mem_of_mem_eraseIdx hc)
    | runPoller hp hheld =>
      intro c hc
      rcases List.mem_append.1 hc with hc | hc
      · exact hold c hc
      · rw [List.mem_singleton.1 hc]
    | workFinished hf => exact hold
    | cqe result => exact hold
  cases h' with
  | nobody =>
    have hrec : s'.pollerStarted = true := started_step hst hcompleting.1
    rw [hst'] at hrec
    cases hrec
  | abandoned => exact absurd rfl hab'
  | scheduler satisfied => rfl
  | context c satisfied => exact hcompleting.2 c (by simp [hctx, Holder.contexts])

/-- In every run there is one poller at most: one thread at a time in its code or one op with the scheduler,
and one request for a notification. Its outstanding work is zero only before the first thread has handed it
over, or after a handler has thrown; so that, once the scheduler has it, `run()` does not return for want of
work as long as no handler throws. -/
theorem poller_single (hr : (poller pollBatch).run {} ls = some s) :
    s.contexts.length + s.held ≤ 1 ∧ s.notify + s.packets ≤ 1 ∧
      (s.work = 0 ↔ s.finishing = 0 ∧
        (s.pollerStarted = false ∨ s.Abandoned ∨ ∃ pc, s.contexts = [⟨false, pc⟩])) ∧
      (0 < s.held → ∀ ls' s', (poller pollBatch).run s ls' = some s' →
        (poller pollBatch).Meets (fun s l => s.calm l = true) s ls' → 0 < s'.work) := by
  obtain ⟨h, hh⟩ := (Tracked.run hr).held
  refine ⟨?_, ?_, ?_, fun hheld ls' s' hr' hm => ?_⟩
  · rw [hh.contexts, hh.held]
    cases h <;> simp [Holder.contexts, Holder.held]
  · rw [hh.notify, hh.packets]
    split_ifs <;> simp_all
  · rw [hh.work, hh.abandoned_iff, hh.started, hh.contexts]
    cases h with
    | context c satisfied =>
      obtain ⟨b, pc⟩ := c
      cases b <;> simp [Holder.work, Holder.started, Holder.contexts]
    | _ => simp [Holder.work, Holder.started, Holder.contexts]
  · have hsch : h.scheduled = true := by
      rw [hh.held] at hheld
      cases h with
      | scheduler satisfied => rfl
      | _ => cases hheld
    have hstep : ∀ s l s', (∃ h, HeldBy s h ∧ h.scheduled = true) → s.calm l = true →
        (poller pollBatch).step s l = some s' → ∃ h, HeldBy s' h ∧ h.scheduled = true := by
      rintro s l s' ⟨h, hh, hsch⟩ hc hst
      exact hh.scheduled_step hsch hc hst
    obtain ⟨h', hh', hsch'⟩ := StepSystem.invariant_of_meets hstep hr' hm ⟨h, hh, hsch⟩
    rw [hh'.work]
    cases h' with
    | scheduler satisfied => simp [Holder.work]
    | context c satisfied =>
      have hc : c.completing = true := hsch'
      simp [Holder.work, hc]
    | _ => cases hsch'

/-- The scheduler has the poller after `throwing` has run up to its handlers. -/
theorem poller_single_throwing :
    0 < ((poller 4).after {} (throwing.take 8)).work := by
  have hr : ((poller 4).run {} (throwing.take 3)).isSome = true := by decide
  obtain ⟨-, -, -, hwork⟩ := poller_single (StepSystem.run_after hr)
  exact hwork (by decide) (throwing.drop 3 |>.take 5) _ (by decide) (by decide)

end Poller

end RdmaOnAsio.Nd
