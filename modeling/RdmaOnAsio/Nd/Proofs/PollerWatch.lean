import RdmaOnAsio.Nd.Poller

/-!
# When the nd poller keeps watch

The op `poller_` has one holder at a time: nobody before the first bind, then the scheduler or one
context, and nobody again once a handler has thrown. With it goes the one request for a notification.
The poller is asleep over a result exactly if a step of the run has let it fall asleep: a `Notify` that
stays pending over a CQ that is not empty, or a handler that throws.
-/

namespace RdmaOnAsio.Nd

open ErrorCode Verbs

namespace Poller

variable {pollBatch : Nat} {s s' : State} {l : Label} {i : Nat} {b : Bool} {pc : Pc}

/-! ## What a step can do -/

/-- Two ways for a poll to go on: with the next batch or with the dispatch. -/
def Pc.afterPoll (n pollBatch batches : Nat) (ops : List Resolved) : Pc :=
  if n = batchSize pollBatch ∧ batches + 1 < maxBatchesPerTurn then .pollCq (batches + 1) ops
  else .dispatch ops

/-- The size of the next batch. -/
def State.batch (s : State) (pollBatch : Nat) : Nat := min (batchSize pollBatch) s.cq.length

/-- What one step of the poller can do. -/
inductive Step (pollBatch : Nat) (s : State) : Label → State → Prop
  | started (hs : s.pollerStarted = true) : Step pollBatch s .ensurePollerStarted s
  | start (hs : s.pollerStarted = false) :
    Step pollBatch s .ensurePollerStarted ({ s with pollerStarted := true }.enter ⟨false, .notifyCq⟩)
  | notifyCq (i : Nat) (hr : Int) (satisfied b : Bool) (hc : s.contexts[i]? = some ⟨b, .notifyCq⟩) :
    Step pollBatch s (.notifyCq i hr satisfied) (s.notifyCq i ⟨b, .notifyCq⟩ hr satisfied)
  | handOver (i : Nat) (throws b pending : Bool) (hc : s.contexts[i]? = some ⟨b, .handOver pending⟩) :
    Step pollBatch s (.context i throws) ((s.handOver pending).leave i ⟨b, .handOver pending⟩)
  | pollCq (i : Nat) (throws b : Bool) (batches : Nat) (ops : List Resolved)
      (hc : s.contexts[i]? = some ⟨b, .pollCq batches ops⟩) :
    Step pollBatch s (.context i throws)
      ({ s with cq := s.cq.drop (s.batch pollBatch) }.goto i ⟨b, .pollCq batches ops⟩
        (Pc.afterPoll (s.batch pollBatch) pollBatch batches
          (ops ++ (s.cq.take (s.batch pollBatch)).filterMap resolve)))
  | rearm (i : Nat) (throws b : Bool) (hc : s.contexts[i]? = some ⟨b, .dispatch []⟩) :
    Step pollBatch s (.context i throws) (s.goto i ⟨b, .dispatch []⟩ .notifyCq)
  | upcall (i : Nat) (b : Bool) (r : Resolved) (ops : List Resolved)
      (hc : s.contexts[i]? = some ⟨b, .dispatch (r :: ops)⟩) :
    Step pollBatch s (.context i false)
      ({ s with retired := s.retired ++ [Retired.mk r true] }.goto i ⟨b, .dispatch (r :: ops)⟩
        (.dispatch ops))
  | handlerThrows (i : Nat) (b : Bool) (r : Resolved) (ops : List Resolved)
      (hc : s.contexts[i]? = some ⟨b, .dispatch (r :: ops)⟩) :
    Step pollBatch s (.context i true)
      ({ s with
        retired := s.retired ++ Retired.mk r true :: ops.map fun r => Retired.mk r false }.leave i
          ⟨b, .dispatch (r :: ops)⟩)
  | runPoller (hp : 0 < s.packets) (hh : 0 < s.held) :
    Step pollBatch s .runPoller
      ({ s with packets := s.packets - 1, held := s.held - 1 }.enter ⟨true, .pollCq 0 []⟩)
  | workFinished (hf : 0 < s.finishing) :
    Step pollBatch s .workFinished { s with finishing := s.finishing - 1, work := s.work - 1 }
  | cqe (result : Nd2Result) : Step pollBatch s (.cqe result) (s.cqe result)

theorem Step.of_advance {c : Context} {throws : Bool} (hc : s.contexts[i]? = some c)
    (h : s.advance pollBatch i c throws = some s') : Step pollBatch s (.context i throws) s' := by
  obtain ⟨b, pc⟩ := c
  cases pc with
  | notifyCq => cases h
  | handOver pending =>
    obtain rfl := Option.some.inj h
    exact .handOver i throws b pending hc
  | pollCq batches ops =>
    have hgoto : s' = { s with cq := s.cq.drop (s.batch pollBatch) }.goto i ⟨b, .pollCq batches ops⟩
        (Pc.afterPoll (s.batch pollBatch) pollBatch batches
          (ops ++ (s.cq.take (s.batch pollBatch)).filterMap resolve)) := by
      simp only [State.advance] at h
      rw [Pc.afterPoll, State.batch]
      split at h <;> obtain rfl := Option.some.inj h
      · next hn => rw [if_pos hn]
      · next hn => rw [if_neg hn]
    rw [hgoto]
    exact .pollCq i throws b batches ops hc
  | dispatch ops =>
    cases ops with
    | nil =>
      obtain rfl := Option.some.inj h
      exact .rearm i throws b hc
    | cons r ops =>
      cases throws with
      | false =>
        obtain rfl := Option.some.inj h
        exact .upcall i b r ops hc
      | true =>
        obtain rfl := Option.some.inj h
        exact .handlerThrows i b r ops hc

theorem Step.of_step (h : s.step pollBatch l = some s') : Step pollBatch s l s' := by
  cases l with
  | ensurePollerStarted =>
    obtain rfl := Option.some.inj h
    cases hst : s.pollerStarted with
    | true =>
      rw [State.ensurePollerStarted, if_pos hst]
      exact .started hst
    | false =>
      rw [State.ensurePollerStarted, if_neg (by simp [hst])]
      exact .start hst
  | notifyCq i hr satisfied =>
    simp only [State.step] at h
    split at h
    · next c hc =>
      split_ifs at h with hpc
      obtain rfl := Option.some.inj h
      obtain ⟨b, pc⟩ := c
      obtain rfl : pc = .notifyCq := hpc
      exact .notifyCq i hr satisfied b hc
    · cases h
  | context i throws =>
    obtain ⟨c, hc, hadv⟩ := Option.bind_eq_some_iff.1 h
    exact .of_advance hc hadv
  | runPoller =>
    simp only [State.step, State.runPoller] at h
    split_ifs at h with hp
    obtain rfl := Option.some.inj h
    exact .runPoller hp.1 hp.2
  | workFinished =>
    simp only [State.step] at h
    split_ifs at h with hf
    obtain rfl := Option.some.inj h
    exact .workFinished hf
  | cqe result =>
    obtain rfl := Option.some.inj h
    exact .cqe result

/-! ## Who holds the poller -/

/-- Where `poller_` is. `satisfied` says whether the pending call of `Notify` has been completed, where
there is one. -/
inductive Holder
  | nobody
  | abandoned
  | scheduler (satisfied : Bool)
  | context (c : Context) (satisfied : Bool)

namespace Holder

/-- The pending call of `Notify`, and whether it has been completed. -/
def request : Holder → Option Bool
  | scheduler satisfied => some satisfied
  | context c satisfied => if c.pc = .handOver true then some satisfied else none
  | nobody | abandoned => none

def started : Holder → Bool
  | nobody => false
  | abandoned | scheduler _ | context _ _ => true

def held : Holder → Nat
  | scheduler _ => 1
  | nobody | abandoned | context _ _ => 0

def contexts : Holder → List Context
  | context c _ => [c]
  | nobody | abandoned | scheduler _ => []

/-- The outstanding work that goes with the holder. -/
def work : Holder → Nat
  | scheduler _ => 1
  | context c _ => c.completing.toNat
  | nobody | abandoned => 0

/-- The poller is going to look at a CQ that holds these results. -/
def Attends (cq : List Nd2Result) : Holder → Prop
  | nobody => True
  | abandoned => False
  | scheduler satisfied => satisfied = true ∨ cq = []
  | context c satisfied => c.pc = .handOver true → satisfied = true ∨ cq = []

end Holder

/-- `poller_` is held by `h` and by nobody else. -/
structure HeldBy (s : State) (h : Holder) : Prop where
  started : s.pollerStarted = h.started
  notify : s.notify = if h.request = some false then 1 else 0
  packets : s.packets = if h.request = some true then 1 else 0
  held : s.held = h.held
  contexts : s.contexts = h.contexts
  work : s.work = s.finishing + h.work

theorem HeldBy.fresh : HeldBy {} .nobody := ⟨rfl, rfl, rfl, rfl, rfl, rfl⟩

/-- The only context is the one that holds the poller. -/
theorem HeldBy.eq_context {h : Holder} {c : Context} (hh : HeldBy s h)
    (hc : s.contexts[i]? = some c) : i = 0 ∧ ∃ satisfied, h = .context c satisfied := by
  rw [hh.contexts] at hc
  cases h with
  | context c' satisfied =>
    obtain ⟨hi, hget⟩ := List.getElem?_eq_some_iff.1 hc
    obtain rfl : i = 0 := by simpa [Holder.contexts] using hi
    exact ⟨rfl, satisfied, by rw [← hget]; rfl⟩
  | _ => simp [Holder.contexts] at hc

/-- The contexts, once the one that holds the poller is at `pc`. -/
theorem HeldBy.contexts_goto {t : State} {c : Context} {satisfied : Bool}
    (h : HeldBy s (.context c satisfied)) (hc : t.contexts = s.contexts) :
    (t.goto 0 c pc).contexts = [{ c with pc := pc }] := by
  simp [State.goto, hc, h.contexts, Holder.contexts]

/-! ## When the poller is asleep over a result -/

/-- Once started, the poller is going to look at the CQ: a context runs its code and is not just handing a
pending request over, or its notification has been completed, or one is asked for and the CQ is empty. -/
def State.Attended (s : State) : Prop :=
  s.pollerStarted = true →
    (∃ c ∈ s.contexts, c.pc ≠ .handOver true) ∨ 0 < s.packets ∨ (0 < s.notify ∧ s.cq = [])

/-- The `i`-th context is about to call a handler. -/
def State.upcalls (s : State) (i : Nat) : Bool :=
  match s.contexts[i]? with
  | some ⟨_, .dispatch (_ :: _)⟩ => true
  | _ => false

/-- A call of `Notify` that stays pending finds the CQ empty, and no handler throws. -/
def State.keepsWatch (s : State) : Label → Bool
  | .notifyCq _ hr satisfied => hr != ndPending || satisfied || s.cq.isEmpty
  | .context i throws => !(throws && s.upcalls i)
  | .ensurePollerStarted | .runPoller | .workFinished | .cqe _ => true

theorem HeldBy.attended_iff {h : Holder} (hh : HeldBy s h) : s.Attended ↔ h.Attends s.cq := by
  rw [State.Attended, hh.started, hh.contexts, hh.notify, hh.packets]
  cases h with
  | nobody => simp [Holder.started, Holder.Attends]
  | abandoned => simp [Holder.started, Holder.Attends, Holder.contexts, Holder.request]
  | scheduler satisfied =>
    cases satisfied <;> simp [Holder.started, Holder.Attends, Holder.contexts, Holder.request]
  | context c satisfied =>
    by_cases hc : c.pc = .handOver true <;> cases satisfied <;>
      simp [Holder.started, Holder.Attends, Holder.contexts, Holder.request, hc]

theorem pending_notifyCq (hr : Int) :
    (!(callError hr).isError && hr == ndPending) = decide (hr = ndPending) := by
  by_cases h : hr = ndPending
  · subst h
    decide
  · simp [h]

/-- The context goes on to `pc'`, with `Notify` not called. -/
theorem HeldBy.goto {satisfied : Bool} {pc' : Pc} {t : State}
    (h : HeldBy s (.context ⟨b, pc⟩ satisfied)) (hpc : pc ≠ .handOver true)
    (hpc' : pc' ≠ .handOver true) (hs : t.pollerStarted = s.pollerStarted)
    (hn : t.notify = s.notify) (hp : t.packets = s.packets) (hh : t.held = s.held)
    (hc : t.contexts = s.contexts) (hw : t.work = s.work) (hf : t.finishing = s.finishing) :
    HeldBy (t.goto 0 ⟨b, pc⟩ pc') (.context ⟨b, pc'⟩ satisfied) := by
  refine ⟨hs.trans h.started, ?_, ?_, hh.trans h.held, h.contexts_goto hc, ?_⟩
  · show t.notify = _
    simpa [Holder.request, hpc, hpc'] using hn.trans h.notify
  · show t.packets = _
    simpa [Holder.request, hpc, hpc'] using hp.trans h.packets
  · show t.work = t.finishing + _
    rw [hw, hf, h.work]
    rfl

/-- The poller after a step has one holder, and attends to the CQ exactly if the step keeps watch. -/
theorem HeldBy.step {h : Holder} (hh : HeldBy s h) (hst : s.step pollBatch l = some s') :
    ∃ h', HeldBy s' h' ∧ (h.Attends s.cq → (h'.Attends s'.cq ↔ s.keepsWatch l = true)) := by
  cases Step.of_step hst with
  | started hs => exact ⟨h, hh, fun ha => iff_of_true ha rfl⟩
  | start hs =>
    have hns := hh.started
    rw [hs] at hns
    cases h with
    | nobody =>
      refine ⟨.context ⟨false, .notifyCq⟩ false, ⟨rfl, hh.notify, hh.packets, hh.held, ?_, hh.work⟩,
        fun _ => iff_of_true (fun hc => nomatch hc) rfl⟩
      simp [State.enter, hh.contexts, Holder.contexts]
    | _ => cases hns
  | notifyCq i hr satisfied b hc =>
    obtain ⟨rfl, old, rfl⟩ := hh.eq_context hc
    have hn : s.notify = 0 := hh.notify
    have hp : s.packets = 0 := hh.packets
    refine ⟨.context ⟨b, .handOver (decide (hr = ndPending))⟩ satisfied,
      ⟨hh.started, ?_, ?_, hh.held, ?_, hh.work⟩, fun _ => ?_⟩
    · show s.notify + _ = _
      rw [hn, pending_notifyCq]
      by_cases hpend : hr = ndPending <;> cases satisfied <;> simp [hpend, Holder.request]
    · show s.packets + _ = _
      rw [hp, pending_notifyCq]
      by_cases hpend : hr = ndPending <;> cases satisfied <;> simp [hpend, Holder.request]
    · simp [State.notifyCq, State.goto, pending_notifyCq, hh.contexts, Holder.contexts]
    · show (_ → satisfied = true ∨ s.cq = []) ↔ _
      by_cases hpend : hr = ndPending <;> simp [hpend, State.keepsWatch]
  | handOver i throws b pending hc =>
    obtain ⟨rfl, satisfied, rfl⟩ := hh.eq_context hc
    have hn := hh.notify
    have hp := hh.packets
    have hheld : s.held = 0 := hh.held
    have hw : s.work = s.finishing + b.toNat := hh.work
    have hkeep : s.keepsWatch (.context 0 throws) = true := by simp [State.keepsWatch, State.upcalls, hc]
    have hctx : s.contexts.eraseIdx 0 = [] := by rw [hh.contexts]; rfl
    cases pending with
    | true =>
      refine ⟨.scheduler satisfied, ⟨hh.started, hn, hp, ?_, hctx, ?_⟩, fun ha =>
        iff_of_true (ha rfl) hkeep⟩
      · show s.held + 1 = 1
        rw [hheld]
      · show s.work + 1 = s.finishing + b.toNat + 1
        rw [hw]
    | false =>
      refine ⟨.scheduler true, ⟨hh.started, hn, ?_, ?_, hctx, ?_⟩, fun _ => iff_of_true (.inl rfl) hkeep⟩
      · show s.packets + 1 = 1
        rw [hp]
        rfl
      · show s.held + 1 = 1
        rw [hheld]
      · show s.work + 1 = s.finishing + b.toNat + 1
        rw [hw]
  | pollCq i throws b batches ops hc =>
    obtain ⟨rfl, satisfied, rfl⟩ := hh.eq_context hc
    have hpc : ∀ n ops, Pc.afterPoll n pollBatch batches ops ≠ .handOver true := by
      intro n ops
      unfold Pc.afterPoll
      split <;> simp
    exact ⟨_, hh.goto (by simp) (hpc _ _) rfl rfl rfl rfl rfl rfl rfl, fun _ =>
      iff_of_true (fun h => absurd h (hpc _ _)) (by simp [State.keepsWatch, State.upcalls, hc])⟩
  | rearm i throws b hc =>
    obtain ⟨rfl, satisfied, rfl⟩ := hh.eq_context hc
    exact ⟨_, hh.goto (by simp) (by simp) rfl rfl rfl rfl rfl rfl rfl, fun _ =>
      iff_of_true (fun h => nomatch h) (by simp [State.keepsWatch, State.upcalls, hc])⟩
  | upcall i b r ops hc =>
    obtain ⟨rfl, satisfied, rfl⟩ := hh.eq_context hc
    exact ⟨_, hh.goto (by simp) (by simp) rfl rfl rfl rfl rfl rfl rfl, fun _ =>
      iff_of_true (fun h => nomatch h) rfl⟩
  | handlerThrows i b r ops hc =>
    obtain ⟨rfl, satisfied, rfl⟩ := hh.eq_context hc
    have hw : s.work = s.finishing + b.toNat := hh.work
    refine ⟨.abandoned, ⟨hh.started, hh.notify, hh.packets, hh.held, ?_, hw⟩, fun _ => ?_⟩
    · simp [State.leave, hh.contexts, Holder.contexts]
    · exact iff_of_false id (by simp [State.keepsWatch, State.upcalls, hc])
  | runPoller hp hheld =>
    have hheld' := hh.held
    cases h with
    | scheduler satisfied =>
      have hpackets := hh.packets
      cases satisfied with
      | false =>
        rw [hpackets] at hp
        cases hp
      | true =>
        have hpk : s.packets = 1 := hpackets
        have hhd : s.held = 1 := hheld'
        refine ⟨.context ⟨true, .pollCq 0 []⟩ false, ⟨hh.started, hh.notify, ?_, ?_, ?_, hh.work⟩,
          fun _ => iff_of_true (fun h => nomatch h) rfl⟩
        · show s.packets - 1 = 0
          rw [hpk]
        · show s.held - 1 = 0
          rw [hhd]
        · simp [State.enter, hh.contexts, Holder.contexts]
    | _ =>
      rw [hheld'] at hheld
      cases hheld
  | workFinished hf =>
    refine ⟨h, ⟨hh.started, hh.notify, hh.packets, hh.held, hh.contexts, ?_⟩, fun ha => iff_of_true ha rfl⟩
    show s.work - 1 = s.finishing - 1 + h.work
    have hw := hh.work
    omega
  | cqe result =>
    have hn := hh.notify
    have hp := hh.packets
    cases h with
    | nobody =>
      refine ⟨.nobody, ⟨hh.started, rfl, ?_, hh.held, hh.contexts, hh.work⟩, fun ha => iff_of_true ha rfl⟩
      show s.packets + s.notify = _
      rw [hn, hp]
      rfl
    | abandoned =>
      refine ⟨.abandoned, ⟨hh.started, rfl, ?_, hh.held, hh.contexts, hh.work⟩, fun ha => ha.elim⟩
      show s.packets + s.notify = _
      rw [hn, hp]
      rfl
    | scheduler satisfied =>
      refine ⟨.scheduler true, ⟨hh.started, rfl, ?_, hh.held, hh.contexts, hh.work⟩,
        fun _ => iff_of_true (.inl rfl) rfl⟩
      show s.packets + s.notify = _
      rw [hn, hp]
      cases satisfied <;> rfl
    | context c satisfied =>
      refine ⟨.context c true, ⟨hh.started, ?_, ?_, hh.held, hh.contexts, hh.work⟩,
        fun _ => iff_of_true (fun _ => .inl rfl) rfl⟩
      · show 0 = _
        by_cases hc : c.pc = .handOver true <;> simp [Holder.request, hc]
      · show s.packets + s.notify = _
        rw [hn, hp]
        by_cases hc : c.pc = .handOver true <;> cases satisfied <;> simp [Holder.request, hc]

/-! ## Whole runs -/

variable {ls : List Label}

/-- The poller attends to the CQ throughout a run exactly if every step of the run keeps watch: no call of
`Notify` stays pending over results that are waiting, and no handler throws. -/
theorem poller_attends_iff (hr : (poller pollBatch).run {} ls = some s) :
    (∀ pre t, pre <+: ls → (poller pollBatch).run {} pre = some t → t.Attended) ↔
      (poller pollBatch).Meets (fun s l => s.keepsWatch l = true) {} ls := by
  refine StepSystem.always_iff_meets (I := fun s => ∃ h, HeldBy s h)
    (fun s l s' hi _ hst => ?_) (fun s l s' hi ha hst => ?_) hr ⟨.nobody, .fresh⟩ fun h => nomatch h
  · obtain ⟨h, hh⟩ := hi
    exact (hh.step hst).imp fun _ h => h.1
  · obtain ⟨h, hh⟩ := hi
    obtain ⟨h', hh', hiff⟩ := hh.step hst
    exact hh'.attended_iff.trans (hiff (hh.attended_iff.1 ha))

/-- A bind, a notification that stays pending over an empty CQ, a result, and its dispatch. -/
def watched : List Label :=
  [.ensurePollerStarted, .notifyCq 0 ndPending false, .context 0 false, .cqe ⟨7, ndSuccess, .receive, 64⟩,
    .runPoller, .context 0 false, .context 0 false, .context 0 false, .notifyCq 0 ndPending false,
    .context 0 false, .workFinished]

theorem poller_attends_iff_watched :
    ((poller 2).run {} watched).isSome = true ∧
      ∀ pre t, pre <+: watched → (poller 2).run {} pre = some t → t.Attended := by
  have hr : ((poller 2).run {} watched).isSome = true := by decide
  exact ⟨hr, (poller_attends_iff (StepSystem.run_after hr)).2 (by decide)⟩

end Poller

end RdmaOnAsio.Nd
