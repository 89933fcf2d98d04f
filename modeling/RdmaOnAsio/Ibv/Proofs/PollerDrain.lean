import RdmaOnAsio.Lts.Mailbox
import RdmaOnAsio.Ibv.Poller

/-!
# The poller strands no completion and repeats none

The op `poller_` has one holder at a time: nobody before the first bind, then the reactor, the scheduler or
one context. Where it is held decides what must be true of the notification, the channel and `completed_`
for no wake-up to be lost (`Holder.Ready`), and how far it is from the next completion (`State.rank`).

An `ibv_poll_cq` that fails is taken for an empty CQ. That loses a wake-up exactly if the CQ is not empty,
nothing was polled before in the turn, and no event on the channel brings the poller back.
-/

namespace RdmaOnAsio.Ibv

namespace Poller

variable {pollBatch : Nat} {s t s' : State} {pc : Pc} {o : Option Pc} {i : Nat} {l : Label} {failed : Bool}
  {caller : Caller}

/-! ## What a step of a context can do -/

/-- What a context at `pc` makes of the state, and where it goes next; `none` when it returns. The flag says
that its `ibv_poll_cq` fails. -/
inductive Advances (pollBatch : Nat) (s : State) : Bool → Pc → State → Option Pc → Prop
  | reqNotify : Advances pollBatch s false .reqNotify s.reqNotifyCq (some (.pollCq .armPoller 0))
  | takeEvent (he : 0 < s.events) :
    Advances pollBatch s false .getCqEvent { s with events := s.events - 1 } (some .rearm)
  | noEvent (he : s.events = 0) :
    Advances pollBatch s false .getCqEvent s (some (.pollCq .doPerform 0))
  | rearm : Advances pollBatch s false .rearm s.reqNotifyCq (some (.pollCq .doPerform 0))
  | pollOn (caller : Caller) (batches : Nat) (hb : batches + 1 < maxBatchesPerTurn) :
    Advances pollBatch s false (.pollCq caller batches) (s.pollCq (batchSize pollBatch))
      (some (.pollCq caller (batches + 1)))
  | pollEnd (caller : Caller) (batches : Nat) :
    Advances pollBatch s false (.pollCq caller batches) (s.pollCq (batchSize pollBatch))
      (some (.polled caller))
  | pollFails (caller : Caller) (batches : Nat) :
    Advances pollBatch s true (.pollCq caller batches) s (some (.polled caller))
  | post (hc : s.completed ≠ []) :
    Advances pollBatch s false (.polled .armPoller) { s with queued := s.queued + 1 } none
  | start (hc : s.completed = []) : Advances pollBatch s false (.polled .armPoller) s.startOp none
  | finish (hc : s.completed ≠ []) : Advances pollBatch s false (.polled .doPerform) s (some .dispatch)
  | stay (hc : s.completed = []) :
    Advances pollBatch s false (.polled .doPerform) { s with parked := s.parked + 1 } none
  | complete (r : Resolved) (rest : List Resolved) (hc : s.completed = r :: rest) :
    Advances pollBatch s false .dispatch
      { s with completed := rest, dispatched := s.dispatched ++ [r] } (some .dispatch)
  | armPoller (hc : s.completed = []) : Advances pollBatch s false .dispatch s (some .reqNotify)

/-- The contexts after the `i`-th one has moved. -/
def State.moved (s : State) (i : Nat) : Option Pc → List Pc
  | some pc => s.contexts.set i pc
  | none => s.contexts.eraseIdx i

theorem Advances.of_advance (hpc : s.contexts[i]? = some pc)
    (h : s.advance pollBatch i pc = some s') :
    ∃ t o, Advances pollBatch s false pc t o ∧ s' = { t with contexts := s.moved i o } := by
  cases pc with
  | reqNotify =>
    obtain rfl := Option.some.inj h
    exact ⟨_, _, .reqNotify, rfl⟩
  | getCqEvent =>
    simp only [State.advance] at h
    split at h <;> obtain rfl := Option.some.inj h
    · next he => exact ⟨_, _, .takeEvent he, rfl⟩
    · next he => exact ⟨_, _, .noEvent (by omega), rfl⟩
  | rearm =>
    obtain rfl := Option.some.inj h
    exact ⟨_, _, .rearm, rfl⟩
  | pollCq caller batches =>
    simp only [State.advance] at h
    split at h <;> obtain rfl := Option.some.inj h
    · next hb => exact ⟨_, _, .pollOn caller batches hb.2, rfl⟩
    · exact ⟨_, _, .pollEnd caller batches, rfl⟩
  | polled caller =>
    cases caller with
    | armPoller =>
      simp only [State.advance] at h
      split at h
      · next hc =>
        obtain rfl := Option.some.inj h
        exact ⟨_, _, .post hc, rfl⟩
      · next hc =>
        split at h
        · cases h
        · obtain rfl := Option.some.inj h
          exact ⟨_, _, .start (by simpa using hc), rfl⟩
    | doPerform =>
      simp only [State.advance] at h
      split at h <;> obtain rfl := Option.some.inj h
      · next hc => exact ⟨_, _, .finish hc, rfl⟩
      · next hc => exact ⟨_, _, .stay (by simpa using hc), rfl⟩
  | dispatch =>
    simp only [State.advance] at h
    split at h <;> obtain rfl := Option.some.inj h
    · next hc => exact ⟨_, _, .armPoller hc, rfl⟩
    · next r rest hc =>
      refine ⟨_, _, .complete r rest hc, ?_⟩
      obtain ⟨hi, hget⟩ := List.getElem?_eq_some_iff.1 hpc
      rw [State.moved, ← hget, List.set_getElem_self]

/-- What one step of the service does. -/
inductive Step (pollBatch : Nat) (s : State) : Label → State → Prop
  | start (hst : s.pollerStarted = false) :
    Step pollBatch s .ensurePollerStarted ({ s with pollerStarted := true }.enter .reqNotify)
  | started (hst : s.pollerStarted = true) : Step pollBatch s .ensurePollerStarted s
  | context (i : Nat) (pc : Pc) (t : State) (o : Option Pc) (hpc : s.contexts[i]? = some pc)
      (ha : Advances pollBatch s false pc t o) :
    Step pollBatch s (.context i) { t with contexts := s.moved i o }
  | pollFails (i : Nat) (pc : Pc) (t : State) (o : Option Pc) (hpc : s.contexts[i]? = some pc)
      (ha : Advances pollBatch s true pc t o) :
    Step pollBatch s (.pollFails i) { t with contexts := s.moved i o }
  | takeEdge (again : Bool) (hl : s.locked = false) (hp : s.parked = 0) :
    Step pollBatch s (.performIo again) { s with edge := s.edge && again }
  | perform (again : Bool) (hl : s.locked = false) (hp : s.parked ≠ 0) :
    Step pollBatch s (.performIo again)
      ({ s with edge := s.edge && again, parked := s.parked - 1 }.enter .getCqEvent)
  | runPosted (hq : 0 < s.queued) :
    Step pollBatch s .runPosted ({ s with queued := s.queued - 1 }.enter .dispatch)
  | cqe (wc : Wc) : Step pollBatch s (.cqe wc) (s.cqe wc)

theorem Step.of_step (h : s.step pollBatch l = some s') : Step pollBatch s l s' := by
  cases l with
  | ensurePollerStarted =>
    obtain rfl := Option.some.inj h
    unfold State.ensurePollerStarted
    split
    · next hst => exact .started hst
    · next hst => exact .start (Bool.eq_false_iff.2 hst)
  | context i =>
    obtain ⟨pc, hpc, hadv⟩ := Option.bind_eq_some_iff.1 h
    obtain ⟨t, o, ha, rfl⟩ := Advances.of_advance hpc hadv
    exact .context i pc t o hpc ha
  | pollFails i =>
    simp only [State.step, State.pollFails] at h
    split at h
    · next caller batches hpc =>
      obtain rfl := Option.some.inj h
      exact .pollFails i _ _ _ hpc (.pollFails caller batches)
    · cases h
  | performIo again =>
    simp only [State.step, State.performIo] at h
    split at h
    · cases h
    · next hl =>
      split at h <;> obtain rfl := Option.some.inj h
      · next hp => exact .takeEdge again (Bool.eq_false_iff.2 hl) hp
      · next hp => exact .perform again (Bool.eq_false_iff.2 hl) hp
  | runPosted =>
    simp only [State.step, State.runPosted] at h
    split at h
    · next hq =>
      obtain rfl := Option.some.inj h
      exact .runPosted hq
    · cases h
  | cqe wc =>
    obtain rfl := Option.some.inj h
    exact .cqe wc

/-! ## Who holds the poller -/

/-- Where `poller_` is. -/
inductive Holder
  | nobody
  | reactor
  | scheduler
  | context (pc : Pc)

/-- An unread event brings the poller back after this call of `poll_into`: `start_op` will find the channel
readable, and `do_perform` is called again for an edge that is announced. -/
def Caller.Recalls (s : State) : Caller → Prop
  | .armPoller => 0 < s.events
  | .doPerform => s.edge = true ∧ 0 < s.events

instance Caller.Recalls.decidable (s : State) : (caller : Caller) → Decidable (caller.Recalls s)
  | .armPoller => inferInstanceAs (Decidable (0 < s.events))
  | .doPerform => inferInstanceAs (Decidable (s.edge = true ∧ 0 < s.events))

/-- The poller will be woken by the next completion, or by an event. -/
def Wakes (s : State) (caller : Caller) : Prop := (s.notify = true ∧ s.cq = []) ∨ caller.Recalls s

/-- What a context at `pc` relies on. -/
def Pc.Ready (s : State) : Pc → Prop
  | .reqNotify => s.completed = []
  | .getCqEvent => s.completed = [] ∧ Wakes s .armPoller
  | .rearm => s.completed = []
  | .pollCq caller _ => s.notify = true ∨ caller.Recalls s
  | .polled caller => s.completed = [] → Wakes s caller
  | .dispatch => True

namespace Holder

/-- What must hold while the poller is there, for no wake-up to be lost. -/
def Ready (s : State) : Holder → Prop
  | nobody => s.completed = []
  | reactor => s.completed = [] ∧ Wakes s .doPerform
  | scheduler => s.completed ≠ []
  | context pc => pc.Ready s

/-- The holder's share of `parked`. -/
def parked : Holder → Nat
  | reactor => 1
  | _ => 0

/-- The holder's share of `queued`. -/
def queued : Holder → Nat
  | scheduler => 1
  | _ => 0

/-- The contexts that run the poller's code. -/
def contexts : Holder → List Pc
  | context pc => [pc]
  | _ => []

/-- Somebody holds the poller. -/
def started : Holder → Bool
  | nobody => false
  | _ => true

end Holder

/-- `poller_` is held by `h` and by nobody else. -/
structure HeldBy (s : State) (h : Holder) : Prop where
  started : s.pollerStarted = h.started
  parked : s.parked = h.parked
  queued : s.queued = h.queued
  contexts : s.contexts = h.contexts

/-- An `ibv_poll_cq` that fails at `pc` hides nothing: this turn has ops to dispatch already, or the CQ is
empty, or an event brings the poller back. -/
def Pc.spared (s : State) : Pc → Bool
  | .pollCq caller _ => !s.completed.isEmpty || s.cq.isEmpty || decide (caller.Recalls s)
  | _ => true

/-- A poll that fails hides nothing. -/
def State.sparesPoll (s : State) : Label → Bool
  | .pollFails i => (s.contexts[i]?).all (Pc.spared s)
  | _ => true

/-- Every work request was posted with the address of an op. -/
def Label.posted : Label → Bool
  | .cqe wc => wc.wrId != 0
  | _ => true

/-- One holder, and completions of posted ops only. -/
structure Sound (s : State) : Prop where
  held : ∃ h, HeldBy s h
  posted : ∀ wc ∈ s.arrived, wc.wrId ≠ 0
  cq : s.cq <:+ s.arrived

theorem Sound.posted_cq (h : Sound s) : ∀ wc ∈ s.cq, wc.wrId ≠ 0 :=
  fun wc hwc => h.posted wc (h.cq.subset hwc)

/-- A batch that resolves to nothing was empty, and then so was the CQ. -/
theorem cq_of_completed_pollCq (hcq : ∀ wc ∈ s.cq, wc.wrId ≠ 0)
    (hc : (s.pollCq (batchSize pollBatch)).completed = []) : s.completed = [] ∧ s.cq = [] := by
  obtain ⟨hs, hbatch⟩ := List.append_eq_nil_iff.1 hc
  refine ⟨hs, ?_⟩
  cases hq : s.cq with
  | nil => rfl
  | cons wc rest =>
    have hmem : wc ∈ s.cq.take (batchSize pollBatch) := by
      rw [hq, ← Nat.sub_add_cancel (batchSize_pos : 0 < batchSize pollBatch), List.take_succ_cons]
      exact List.mem_cons_self
    have hnone := List.filterMap_eq_nil_iff.1 hbatch wc hmem
    have hsome := resolveVerbsOp_isSome.2 (hcq wc (List.mem_of_mem_take hmem))
    simp [hnone] at hsome

/-! ## The holder changes with every step -/

/-- The only context is the one that holds the poller. -/
theorem HeldBy.eq_context {h : Holder} (hh : HeldBy s h) (hpc : s.contexts[i]? = some pc) :
    i = 0 ∧ h = .context pc := by
  rw [hh.contexts] at hpc
  cases h with
  | context pc' =>
    obtain ⟨hi, hget⟩ := List.getElem?_eq_some_iff.1 hpc
    obtain rfl : i = 0 := by simpa [Holder.contexts] using hi
    exact ⟨rfl, by rw [← hget]; rfl⟩
  | _ => simp [Holder.contexts] at hpc

/-- The context goes on to `pc'`. -/
theorem HeldBy.goto {pc' : Pc} (h : HeldBy s (.context pc))
    (hs : t.pollerStarted = s.pollerStarted) (hp : t.parked = s.parked) (hq : t.queued = s.queued) :
    HeldBy { t with contexts := s.moved 0 (some pc') } (.context pc') := by
  refine ⟨hs.trans h.started, hp.trans h.parked, hq.trans h.queued, ?_⟩
  simp [State.moved, h.contexts, Holder.contexts]

/-- The context returns and leaves the poller to `h'`. -/
theorem HeldBy.handOver {h' : Holder} (h : HeldBy s (.context pc))
    (hs : t.pollerStarted = s.pollerStarted) (h0 : h'.started = true) (hc : h'.contexts = [])
    (hp : t.parked = s.parked + h'.parked) (hq : t.queued = s.queued + h'.queued) :
    HeldBy { t with contexts := s.moved 0 none } h' := by
  refine ⟨hs.trans (h.started.trans h0.symm), ?_, ?_, ?_⟩
  · simpa [h.parked, Holder.parked] using hp
  · simpa [h.queued, Holder.queued] using hq
  · rw [hc]
    simp [State.moved, h.contexts, Holder.contexts]

theorem Caller.Recalls.frame (h : caller.Recalls s) (he : t.edge = s.edge) (hv : t.events = s.events) :
    caller.Recalls t := by
  cases caller with
  | armPoller => exact Nat.lt_of_lt_of_eq h hv.symm
  | doPerform => exact ⟨he.trans h.1, Nat.lt_of_lt_of_eq h.2 hv.symm⟩

theorem Wakes.frame (h : Wakes s caller) (hn : t.notify = s.notify) (hq : t.cq = s.cq)
    (he : t.edge = s.edge) (hv : t.events = s.events) : Wakes t caller :=
  h.imp (fun h => ⟨hn.trans h.1, hq.trans h.2⟩) fun h => h.frame he hv

/-- A context that moves leaves the poller to one holder, and loses no wake-up unless a poll fails that is
not spared. -/
theorem HeldBy.advance (h : HeldBy s (.context pc)) (hcq : ∀ wc ∈ s.cq, wc.wrId ≠ 0)
    (ha : Advances pollBatch s failed pc t o) :
    ∃ h', HeldBy { t with contexts := s.moved 0 o } h' ∧
      (pc.Ready s → (failed = true → pc.spared s = true) →
        h'.Ready { t with contexts := s.moved 0 o }) := by
  cases ha with
  | reqNotify => exact ⟨_, h.goto rfl rfl rfl, fun _ _ => .inl rfl⟩
  | takeEvent he => exact ⟨_, h.goto rfl rfl rfl, fun hr _ => hr.1⟩
  | noEvent he =>
    refine ⟨_, h.goto rfl rfl rfl, fun hr _ => .inl ?_⟩
    rcases hr.2 with hn | hpos
    · exact hn.1
    · exact absurd he (Nat.ne_of_gt hpos)
  | rearm => exact ⟨_, h.goto rfl rfl rfl, fun _ _ => .inl rfl⟩
  | pollOn caller batches hb =>
    exact ⟨_, h.goto rfl rfl rfl, fun hr _ => hr.imp id fun hrec => hrec.frame rfl rfl⟩
  | pollEnd caller batches =>
    refine ⟨_, h.goto rfl rfl rfl, fun hr _ hc => ?_⟩
    obtain ⟨-, hempty⟩ := cq_of_completed_pollCq hcq hc
    exact hr.imp (fun hn => ⟨hn, by simp [State.pollCq, hempty]⟩) fun hrec => hrec.frame rfl rfl
  | pollFails caller batches =>
    refine ⟨_, h.goto rfl rfl rfl, fun hr hspared hc => ?_⟩
    change s.completed = [] at hc
    -- nothing was polled in this turn, so that the CQ is empty or an event brings the poller back
    have hleft : s.cq = [] ∨ caller.Recalls s := by simpa [Pc.spared, hc] using hspared rfl
    rcases hleft with hempty | hrec
    · exact hr.imp (fun hn => ⟨hn, hempty⟩) fun hrec => hrec.frame rfl rfl
    · exact .inr (hrec.frame rfl rfl)
  | post hc => exact ⟨.scheduler, h.handOver rfl rfl rfl rfl rfl, fun _ _ => hc⟩
  | start hc =>
    refine ⟨.reactor, h.handOver rfl rfl rfl rfl rfl, fun hr _ => ⟨hc, ?_⟩⟩
    -- `start_op` finds the queue empty, so that an unread event announces its edge again
    have hparked : s.parked = 0 := h.parked
    rcases hr hc with hn | hpos
    · exact .inl hn
    · have hpos : 0 < s.events := hpos
      exact .inr ⟨by simp [State.startOp, hparked, hpos], hpos⟩
  | finish hc => exact ⟨_, h.goto rfl rfl rfl, fun _ _ => trivial⟩
  | stay hc =>
    exact ⟨.reactor, h.handOver rfl rfl rfl rfl rfl, fun hr _ => ⟨hc, (hr hc).frame rfl rfl rfl rfl⟩⟩
  | complete r rest hc => exact ⟨_, h.goto rfl rfl rfl, fun _ _ => trivial⟩
  | armPoller hc => exact ⟨_, h.goto rfl rfl rfl, fun _ _ => hc⟩

/-- A completion that arrives takes the notification, if one is armed, with an event and an edge. -/
theorem HeldBy.cqe {h : Holder} (hh : HeldBy s h) (wc : Wc) :
    HeldBy (s.cqe wc) h ∧ (h.Ready s → h.Ready (s.cqe wc)) := by
  have hrec : ∀ {caller : Caller}, s.notify = true ∨ caller.Recalls s → caller.Recalls (s.cqe wc) := by
    intro caller hn
    have hev : s.notify = true ∨ 0 < s.events → 0 < (s.cqe wc).events := by
      intro hn
      simp only [State.cqe]
      split
      · omega
      · next hf => exact hn.resolve_left (by simpa using hf)
    cases caller with
    | armPoller => exact hev hn
    | doPerform =>
      refine ⟨?_, hev (hn.imp id And.right)⟩
      rcases hn with hn | he
      · simp [State.cqe, hn]
      · simp [State.cqe, he.1]
  have hwake : ∀ {caller : Caller}, Wakes s caller → Wakes (s.cqe wc) caller :=
    fun hw => .inr (hrec (hw.imp And.left id))
  refine ⟨⟨hh.started, hh.parked, hh.queued, hh.contexts⟩, fun hr => ?_⟩
  cases h with
  | nobody => exact hr
  | reactor => exact ⟨hr.1, hwake hr.2⟩
  | scheduler => exact hr
  | context pc =>
    cases pc with
    | reqNotify => exact hr
    | getCqEvent => exact ⟨hr.1, hwake hr.2⟩
    | rearm => exact hr
    | pollCq caller _ => exact .inr (hrec hr)
    | polled caller => exact fun hc => hwake (hr hc)
    | dispatch => trivial

/-- A context outside `do_perform` does not rely on the edge. -/
theorem Pc.Ready.edge {b : Bool} (h : pc.Ready s) (hl : pc.locks = false) :
    pc.Ready { s with edge := b } := by
  cases pc with
  | getCqEvent => cases hl
  | rearm => cases hl
  | pollCq caller _ =>
    cases caller with
    | armPoller => exact h
    | doPerform => cases hl
  | polled caller =>
    cases caller with
    | armPoller => exact h
    | doPerform => cases hl
  | _ => exact h

/-- The reactor takes up an edge with no op in its queue. -/
theorem HeldBy.takeEdge {h : Holder} {b : Bool} (hh : HeldBy s h) (hl : s.locked = false)
    (hp : s.parked = 0) :
    HeldBy { s with edge := b } h ∧ (h.Ready s → h.Ready { s with edge := b }) := by
  refine ⟨⟨hh.started, hh.parked, hh.queued, hh.contexts⟩, fun hr => ?_⟩
  cases h with
  | reactor =>
    have hpark := hh.parked
    rw [hp] at hpark
    cases hpark
  | context pc =>
    have hpc : pc.locks = false := by simpa [State.locked, hh.contexts, Holder.contexts] using hl
    exact Pc.Ready.edge hr hpc
  | _ => exact hr

/-- The reactor performs the parked poller. -/
theorem HeldBy.perform {h : Holder} {b : Bool} (hh : HeldBy s h) (hp : s.parked ≠ 0) :
    HeldBy ({ s with edge := b, parked := s.parked - 1 }.enter .getCqEvent) (.context .getCqEvent) ∧
      (h.Ready s → Pc.Ready ({ s with edge := b, parked := s.parked - 1 }.enter .getCqEvent)
        .getCqEvent) := by
  have hpark := hh.parked
  cases h with
  | reactor =>
    refine ⟨⟨hh.started, ?_, hh.queued, ?_⟩, fun hr => ⟨hr.1, hr.2.imp id And.right⟩⟩
    · simp [State.enter, hpark, Holder.parked]
    · simp [State.enter, hh.contexts, Holder.contexts]
  | _ => exact absurd hpark hp

/-- The scheduler runs the posted poller. -/
theorem HeldBy.runPosted {h : Holder} (hh : HeldBy s h) (hpos : 0 < s.queued) :
    HeldBy ({ s with queued := s.queued - 1 }.enter .dispatch) (.context .dispatch) := by
  have hq := hh.queued
  cases h with
  | scheduler =>
    refine ⟨hh.started, hh.parked, ?_, ?_⟩
    · simp [State.enter, hq, Holder.queued]
    · simp [State.enter, hh.contexts, Holder.contexts]
  | _ =>
    rw [hq] at hpos
    cases hpos

/-- The first bind makes its thread the holder. -/
theorem HeldBy.start {h : Holder} (hh : HeldBy s h) (hns : s.pollerStarted = false) :
    HeldBy ({ s with pollerStarted := true }.enter .reqNotify) (.context .reqNotify) ∧
      (h.Ready s → s.completed = []) := by
  have hst := hh.started
  rw [hns] at hst
  cases h with
  | nobody =>
    refine ⟨⟨rfl, hh.parked, hh.queued, ?_⟩, id⟩
    simp [State.enter, hh.contexts, Holder.contexts]
  | _ => cases hst

/-- The poller keeps one holder, and loses no wake-up unless a poll fails that is not spared. -/
theorem HeldBy.step {h : Holder} (hh : HeldBy s h) (hcq : ∀ wc ∈ s.cq, wc.wrId ≠ 0)
    (hs : s.step pollBatch l = some s') :
    ∃ h', HeldBy s' h' ∧ (h.Ready s → s.sparesPoll l = true → h'.Ready s') := by
  cases Step.of_step hs with
  | start hst => exact ⟨_, (hh.start hst).1, fun hr _ => (hh.start hst).2 hr⟩
  | started hst => exact ⟨h, hh, fun hr _ => hr⟩
  | context i pc t o hpc ha =>
    obtain ⟨rfl, rfl⟩ := hh.eq_context hpc
    obtain ⟨h', hh', hr⟩ := hh.advance hcq ha
    exact ⟨h', hh', fun h _ => hr h Bool.noConfusion⟩
  | pollFails i pc t o hpc ha =>
    obtain ⟨rfl, rfl⟩ := hh.eq_context hpc
    obtain ⟨h', hh', hr⟩ := hh.advance hcq ha
    exact ⟨h', hh', fun h hspared => hr h fun _ => by simpa [State.sparesPoll, hpc] using hspared⟩
  | takeEdge again hl hp => exact ⟨h, (hh.takeEdge hl hp).1, fun hr _ => (hh.takeEdge hl hp).2 hr⟩
  | perform again hl hp => exact ⟨_, (hh.perform hp).1, fun hr _ => (hh.perform hp).2 hr⟩
  | runPosted hq => exact ⟨_, hh.runPosted hq, fun _ _ => trivial⟩
  | cqe wc => exact ⟨h, (hh.cqe wc).1, fun hr _ => (hh.cqe wc).2 hr⟩

/-! ## The CQ between the HCA and the poller -/

/-- The histories of a step of a context. -/
theorem Advances.histories (ha : Advances pollBatch s failed pc t o) :
    t.arrived = s.arrived ∧ t.cq <:+ s.cq ∧ s.dispatched <+: t.dispatched := by
  cases ha with
  | complete r rest hc => exact ⟨rfl, List.suffix_refl _, List.prefix_append _ _⟩
  | pollOn caller batches hb => exact ⟨rfl, List.drop_suffix _ _, List.prefix_refl _⟩
  | pollEnd caller batches => exact ⟨rfl, List.drop_suffix _ _, List.prefix_refl _⟩
  | _ => exact ⟨rfl, List.suffix_refl _, List.prefix_refl _⟩

/-- Only the HCA adds to the CQ, and nothing is undone that was dispatched. -/
theorem histories_step (hs : s.step pollBatch l = some s') :
    s.dispatched <+: s'.dispatched ∧
      ((∃ wc, l = .cqe wc ∧ s' = s.cqe wc) ∨ (s'.arrived = s.arrived ∧ s'.cq <:+ s.cq)) := by
  cases Step.of_step hs with
  | context i pc t o hpc ha =>
    obtain ⟨harr, hcq, hd⟩ := ha.histories
    exact ⟨hd, .inr ⟨harr, hcq⟩⟩
  | pollFails i pc t o hpc ha =>
    obtain ⟨harr, hcq, hd⟩ := ha.histories
    exact ⟨hd, .inr ⟨harr, hcq⟩⟩
  | cqe wc => exact ⟨List.prefix_refl _, .inl ⟨wc, rfl, rfl⟩⟩
  | _ => exact ⟨List.prefix_refl _, .inr ⟨rfl, List.suffix_refl _⟩⟩

theorem Sound.step (h : Sound s) (hl : l.posted = true) (hs : s.step pollBatch l = some s') :
    Sound s' := by
  obtain ⟨holder, hh⟩ := h.held
  obtain ⟨holder', hheld, -⟩ := hh.step h.posted_cq hs
  rcases (histories_step hs).2 with ⟨wc, rfl, rfl⟩ | ⟨harr, hcq⟩
  · have hwc : wc.wrId ≠ 0 := by simpa [Label.posted] using hl
    refine ⟨⟨holder', hheld⟩, fun wc' hwc' => ?_, ?_⟩
    · rcases List.mem_append.1 hwc' with hmem | hmem
      · exact h.posted wc' hmem
      · rwa [List.mem_singleton.1 hmem]
    · obtain ⟨old, hold⟩ := h.cq
      exact ⟨old, by simp [State.cqe, ← hold]⟩
  · exact ⟨⟨holder', hheld⟩, by rw [harr]; exact h.posted, harr ▸ hcq.trans h.cq⟩

theorem HeldBy.fresh : HeldBy {} .nobody := ⟨rfl, rfl, rfl, rfl⟩

theorem Sound.fresh : Sound {} := ⟨⟨.nobody, .fresh⟩, by simp, List.suffix_refl _⟩

/-- The poller has one holder, and no wake-up has been lost. -/
structure Vigilant (s : State) : Prop where
  sound : Sound s
  ready : ∃ h, HeldBy s h ∧ h.Ready s

theorem Vigilant.fresh : Vigilant {} := ⟨.fresh, .nobody, .fresh, rfl⟩

theorem Vigilant.step (h : Vigilant s) (hl : l.posted = true) (hc : s.sparesPoll l = true)
    (hs : s.step pollBatch l = some s') : Vigilant s' := by
  obtain ⟨holder, hh, hr⟩ := h.ready
  obtain ⟨holder', hh', hr'⟩ := hh.step h.sound.posted_cq hs
  exact ⟨h.sound.step hl hs, holder', hh', hr' hr hc⟩

/-! ## The poller is a mailbox -/

/-- What a step is to the ops: the HCA sends a completion, a dispatching context receives one. -/
def State.mail (s : State) : Label → Option (Mailbox.Label Resolved)
  | .cqe wc => (resolveVerbsOp wc).map .send
  | .context i =>
    if s.contexts[i]? = some .dispatch then s.completed.head?.map .receive else none
  | _ => none

/-- The mailbox the service stands for: what is sent and not received is in `completed_` or on the CQ. -/
structure Delivers (s : State) (m : Mailbox Resolved) : Prop where
  sent : m.sent = s.arrived.filterMap resolveVerbsOp
  received : m.received = s.dispatched
  pending : m.sent = m.received ++ (s.completed ++ s.cq.filterMap resolveVerbsOp)

theorem Delivers.frame {m : Mailbox Resolved} (h : Delivers s m) (ha : t.arrived = s.arrived)
    (hd : t.dispatched = s.dispatched)
    (hp : t.completed ++ t.cq.filterMap resolveVerbsOp =
      s.completed ++ s.cq.filterMap resolveVerbsOp) : Delivers t m :=
  ⟨by rw [ha]; exact h.sent, by rw [hd]; exact h.received, by rw [hp]; exact h.pending⟩

/-- A batch moves from the CQ to `completed_` in its order. -/
theorem pending_pollCq {n : Nat} :
    (s.pollCq n).completed ++ (s.pollCq n).cq.filterMap resolveVerbsOp =
      s.completed ++ s.cq.filterMap resolveVerbsOp := by
  simp only [State.pollCq]
  rw [List.append_assoc, ← List.filterMap_append, List.take_append_drop]

theorem Delivers.advance {m : Mailbox Resolved} (h : Delivers s m)
    (ha : Advances pollBatch s failed pc t o) {cs : List Pc} :
    (mailbox Resolved).Follows Delivers { t with contexts := cs } m
      (if pc = .dispatch then s.completed.head?.map .receive else none) := by
  cases ha with
  | complete r rest hc =>
    rw [if_pos rfl, hc]
    have hpend := h.pending
    rw [hc] at hpend
    refine ⟨_, Mailbox.step_receive hpend, h.sent, ?_, ?_⟩
    · rw [h.received]
    · simpa using hpend
  | armPoller hc =>
    have hhead : s.completed.head? = none := by rw [hc]; rfl
    rw [if_pos rfl, hhead]
    exact h.frame rfl rfl rfl
  | pollOn caller batches hb => exact h.frame rfl rfl pending_pollCq
  | pollEnd caller batches => exact h.frame rfl rfl pending_pollCq
  | _ => exact h.frame rfl rfl rfl

/-- What the poller does is a run of a mailbox. -/
theorem poller_simulates_mailbox :
    (poller pollBatch).Simulates (mailbox Resolved) State.mail Delivers := by
  intro s l s' m h hs
  cases Step.of_step hs with
  | context i pc t o hpc ha =>
    have hmail : s.mail (.context i) =
        if pc = .dispatch then s.completed.head?.map .receive else none := by
      simp only [State.mail, hpc, Option.some.injEq]
    rw [hmail]
    exact h.advance ha
  | pollFails i pc t o hpc ha =>
    cases ha with
    | pollFails caller batches => exact h.frame rfl rfl rfl
  | cqe wc =>
    cases hr : resolveVerbsOp wc with
    | none =>
      simp only [State.mail, hr, Option.map_none]
      have hnone : [wc].filterMap resolveVerbsOp = [] := List.filterMap_cons_none hr
      refine ⟨?_, h.received, ?_⟩
      · rw [State.cqe, List.filterMap_append, hnone, List.append_nil, h.sent]
      · simp only [State.cqe]
        rw [List.filterMap_append, hnone, List.append_nil, h.pending]
    | some r =>
      simp only [State.mail, hr, Option.map_some]
      have hsome : [wc].filterMap resolveVerbsOp = [r] := List.filterMap_cons_some hr
      refine ⟨_, rfl, ?_, h.received, ?_⟩
      · rw [State.cqe, List.filterMap_append, hsome, h.sent]
      · simp only [State.cqe]
        rw [List.filterMap_append, hsome, h.pending]
        simp only [List.append_assoc]
  | _ => exact h.frame rfl rfl rfl

theorem Delivers.fresh : Delivers {} {} := ⟨rfl, rfl, rfl⟩

/-- As long as a completion is not dispatched, it is on the CQ or in `completed_`. -/
theorem Sound.pending (h : Sound s) {m : Mailbox Resolved} (hm : Delivers s m)
    (hd : s.dispatched.length < s.arrived.length) : s.completed ≠ [] ∨ s.cq ≠ [] := by
  by_contra hno
  obtain ⟨hc, hq⟩ : s.completed = [] ∧ s.cq = [] := by simpa [not_or] using hno
  have hall : s.arrived.filterMap resolveVerbsOp = s.dispatched := by
    rw [← hm.sent, hm.pending, hm.received, hc, hq]
    simp
  have hlen := congrArg List.length (map_resolveVerbsOp h.posted)
  rw [hall, List.length_map, List.length_map] at hlen
  omega

/-! ## Progress -/

/-- How many steps a context at `pc` is from completing an op, while one is waiting; `idle` says that
`completed_` is empty. -/
def Pc.rank (idle : Bool) : Pc → Nat
  | .reqNotify => 8
  | .getCqEvent => 9
  | .rearm => 8
  | .pollCq _ batches => 4 + (3 - batches)
  | .polled _ => if idle then 11 else 3
  | .dispatch => if idle then 9 else 1

/-- How many steps the poller is from completing an op, while one is waiting. -/
def State.rank (s : State) : Nat :=
  match s.contexts with
  | pc :: _ => pc.rank s.completed.isEmpty
  | [] => if 0 < s.queued then 2 else 10

/-- How many steps the poller is from the completion of the `k`-th CQE. -/
def State.distance (k : Nat) (s : State) : Nat := 9 * (k + 1 - s.dispatched.length) + s.rank

theorem rank_le (s : State) : s.rank ≤ 11 := by
  unfold State.rank
  split
  · next pc _ _ => cases pc <;> simp only [Pc.rank] <;> (try split) <;> omega
  · split <;> omega

theorem isEmpty_eq_false {r : List Resolved} (h : r ≠ []) : r.isEmpty = false := by
  cases r with
  | nil => exact absurd rfl h
  | cons _ _ => rfl

/-- A context that moves without completing an op comes closer to completing one, unless its poll fails. -/
theorem HeldBy.rank_advance (h : HeldBy s (.context pc)) (hcq : ∀ wc ∈ s.cq, wc.wrId ≠ 0)
    (hp : s.completed ≠ [] ∨ s.cq ≠ []) (ha : Advances pollBatch s failed pc t o)
    (hd : t.dispatched = s.dispatched) :
    State.rank { t with contexts := s.moved 0 o } < s.rank + 8 * failed.toNat := by
  have hctx : s.contexts = [pc] := h.contexts
  have hq : s.queued = 0 := h.queued
  have hrank : s.rank = pc.rank s.completed.isEmpty := by simp [State.rank, hctx]
  have hgoto : ∀ pc', State.rank { t with contexts := s.moved 0 (some pc') } =
      pc'.rank t.completed.isEmpty := fun pc' => by simp [State.rank, State.moved, hctx]
  have hleave : State.rank { t with contexts := s.moved 0 none } =
      if 0 < t.queued then 2 else 10 := by simp [State.rank, State.moved, hctx]
  rw [hrank]
  cases ha with
  | reqNotify => rw [hgoto]; simp [Pc.rank]
  | takeEvent he => rw [hgoto]; simp [Pc.rank]
  | noEvent he => rw [hgoto]; simp [Pc.rank]
  | rearm => rw [hgoto]; simp [Pc.rank]
  | pollOn caller batches hb =>
    rw [hgoto]
    simp only [maxBatchesPerTurn] at hb
    simp only [Pc.rank, Bool.toNat_false]
    omega
  | pollEnd caller batches =>
    -- what is waiting has been taken, so that the batch is not empty
    have hc : (s.pollCq (batchSize pollBatch)).completed ≠ [] := by
      intro hc
      obtain ⟨h1, h2⟩ := cq_of_completed_pollCq hcq hc
      exact hp.elim (fun h => h h1) fun h => h h2
    rw [hgoto, isEmpty_eq_false hc]
    simp only [Pc.rank, Bool.false_eq_true, if_false, Bool.toNat_false]
    omega
  | pollFails caller batches =>
    rw [hgoto]
    simp only [Pc.rank, Bool.toNat_true]
    split <;> omega
  | post hc => rw [hleave, isEmpty_eq_false hc]; simp [Pc.rank]
  | start hc =>
    have hq' : s.startOp.queued = 0 := hq
    rw [hleave, hc, hq']
    simp [Pc.rank]
  | finish hc => rw [hgoto, isEmpty_eq_false hc]; simp [Pc.rank]
  | stay hc => rw [hleave, hc]; simp [Pc.rank, hq]
  | complete r rest hc => simp at hd
  | armPoller hc => rw [hgoto, hc]; simp [Pc.rank]

/-- A context that moves comes closer to the completion of a CQE it does not complete, unless its poll
fails. -/
theorem HeldBy.distance_advance (h : HeldBy s (.context pc)) (hcq : ∀ wc ∈ s.cq, wc.wrId ≠ 0)
    (hp : s.completed ≠ [] ∨ s.cq ≠ []) (ha : Advances pollBatch s failed pc t o) {k : Nat}
    (hk : t.dispatched.length ≤ k) :
    State.distance k { t with contexts := s.moved 0 o } < s.distance k + 8 * failed.toNat := by
  show 9 * (k + 1 - t.dispatched.length) + State.rank _ <
    9 * (k + 1 - s.dispatched.length) + s.rank + 8 * failed.toNat
  have hctx : s.contexts = [pc] := h.contexts
  by_cases hd : t.dispatched = s.dispatched
  · have hlt := h.rank_advance hcq hp ha hd
    have hlen := congrArg List.length hd
    omega
  · cases ha with
    | complete r rest hc =>
      have hrank : s.rank = 1 := by simp [State.rank, hctx, Pc.rank, hc]
      refine Nat.lt_of_le_of_lt (Nat.add_le_add_left (m := 9) ?_ _) ?_
      · simp only [State.rank, State.moved, hctx, List.set_cons_zero, Pc.rank]
        split <;> omega
      · rw [List.length_append, List.length_singleton] at *
        omega
    | _ => exact absurd rfl hd

theorem rank_of_idle (h : s.contexts = []) : s.rank = if 0 < s.queued then 2 else 10 := by
  simp [State.rank, h]

theorem rank_enter (h : s.contexts = []) : (s.enter pc).rank = pc.rank s.completed.isEmpty := by
  simp [State.rank, State.enter, h]

/-- The label is a poll that fails. -/
def Label.failsPoll : Label → Bool
  | .pollFails _ => true
  | _ => false

/-- Every step of the poller brings the `k`-th CQE closer to its completion, or completes it; a poll that
fails costs eight steps. -/
theorem Vigilant.distance_step (h : Vigilant s) {m : Mailbox Resolved} (hm : Delivers s m)
    (hst : s.pollerStarted = true) {k : Nat} (hk : k < s.arrived.length)
    (hs : s.step pollBatch l = some s') :
    k < s'.dispatched.length ∨
      s'.distance k + (s.polls l).toNat ≤ s.distance k + 8 * l.failsPoll.toNat := by
  by_cases hdone : k < s'.dispatched.length
  · exact .inl hdone
  refine .inr ?_
  have hle := (histories_step hs).1.length_le
  have hp := h.sound.pending hm (by omega)
  obtain ⟨holder, hh, hready⟩ := h.ready
  have hctx := hh.contexts
  have hq := hh.queued
  have hpark := hh.parked
  -- a step that changes neither the contexts nor `completed_` changes nothing
  have hsame : s'.dispatched = s.dispatched → s'.contexts = s.contexts →
      s'.completed = s.completed → s'.queued = s.queued → s'.distance k = s.distance k := by
    intro h1 h2 h3 h4
    rw [State.distance, State.distance, h1, State.rank, State.rank, h2, h3, h4]
  cases Step.of_step hs with
  | start hns => exact absurd (hst.symm.trans hns) Bool.noConfusion
  | started _ => exact Nat.le_refl _
  | context i pc t o hpc ha =>
    obtain ⟨rfl, rfl⟩ := hh.eq_context hpc
    exact hh.distance_advance h.sound.posted_cq hp ha (Nat.le_of_not_lt hdone)
  | pollFails i pc t o hpc ha =>
    obtain ⟨rfl, rfl⟩ := hh.eq_context hpc
    exact hh.distance_advance h.sound.posted_cq hp ha (Nat.le_of_not_lt hdone)
  | takeEdge again hl h0 =>
    rw [hsame rfl rfl rfl rfl]
    simp [State.polls, h0]
  | perform again hl h0 =>
    cases holder with
    | reactor =>
      have hrank : s.rank = 10 := by
        rw [rank_of_idle hctx, hq]
        rfl
      have hpolls : s.polls (.performIo again) = true := by simp [State.polls, hpark, Holder.parked]
      rw [State.distance, State.distance, rank_enter, hrank, hpolls]
      · exact Nat.le_refl _
      · exact hctx
    | _ => exact absurd hpark h0
  | runPosted hpos =>
    cases holder with
    | scheduler =>
      have hc : s.completed ≠ [] := hready
      rw [State.distance, State.distance, rank_enter, rank_of_idle hctx, if_pos hpos,
        isEmpty_eq_false hc]
      · exact Nat.le_refl _
      · exact hctx
    | _ =>
      rw [hq] at hpos
      cases hpos
  | cqe wc =>
    rw [hsame rfl rfl rfl rfl]
    exact Nat.le_refl _

/-- A step nobody can put off: a context's own, a posted completion, an edge that is announced to a parked
poller. -/
def State.owed (s : State) : Label → Bool
  | .context _ | .runPosted => true
  | .performIo _ => s.edge && 0 < s.parked
  | .ensurePollerStarted | .pollFails _ | .cqe _ => false

/-- While a CQE is waiting, such a step is enabled. -/
theorem Vigilant.owed (h : Vigilant s) (hst : s.pollerStarted = true)
    (hp : s.completed ≠ [] ∨ s.cq ≠ []) :
    ∃ l s', s.owed l = true ∧ s.step pollBatch l = some s' := by
  obtain ⟨holder, hh, hready⟩ := h.ready
  have hctx := hh.contexts
  cases holder with
  | nobody =>
    have := hh.started
    rw [hst] at this
    cases this
  | reactor =>
    have hpark : s.parked = 1 := hh.parked
    have hl : s.locked = false := by simp [State.locked, hctx, Holder.contexts]
    have hedge : s.edge = true := by
      rcases hready.2 with hn | he
      · exact absurd hready.1 (hp.resolve_right fun hq => hq hn.2)
      · exact he.1
    have hstep : ∃ s', s.performIo false = some s' := by
      rw [State.performIo, if_neg (by simp [hl]), if_neg (by omega)]
      exact ⟨_, rfl⟩
    obtain ⟨s', hs'⟩ := hstep
    exact ⟨.performIo false, s', by simp [State.owed, hedge, hpark], hs'⟩
  | scheduler =>
    have hq : s.queued = 1 := hh.queued
    have hstep : ∃ s', s.runPosted = some s' := by
      rw [State.runPosted, if_pos (by omega)]
      exact ⟨_, rfl⟩
    obtain ⟨s', hs'⟩ := hstep
    exact ⟨.runPosted, s', rfl, hs'⟩
  | context pc =>
    have hpc : s.contexts[0]? = some pc := by simp [hctx, Holder.contexts]
    have hadv : ∃ s', s.advance pollBatch 0 pc = some s' := by
      cases pc with
      | getCqEvent =>
        simp only [State.advance]
        split <;> exact ⟨_, rfl⟩
      | pollCq caller batches =>
        simp only [State.advance]
        split <;> exact ⟨_, rfl⟩
      | polled caller =>
        cases caller with
        | armPoller =>
          have hl : s.locked = false := by simp [State.locked, hctx, Holder.contexts, Pc.locks]
          simp only [State.advance, hl, Bool.false_eq_true, if_false]
          split <;> exact ⟨_, rfl⟩
        | doPerform =>
          simp only [State.advance]
          split <;> exact ⟨_, rfl⟩
      | dispatch =>
        simp only [State.advance]
        split <;> exact ⟨_, rfl⟩
      | _ => exact ⟨_, rfl⟩
    obtain ⟨s', hs'⟩ := hadv
    exact ⟨.context 0, s', rfl, by rw [State.step, hpc]; exact hs'⟩

/-! ## What a poll that fails leaves behind -/

/-- A parked poller has nothing left to dispatch, and is woken by the next completion or by an unread event
whose edge is announced. -/
def State.Attended (s : State) : Prop :=
  s.parked = 1 →
    s.completed = [] ∧ ((s.notify = true ∧ s.cq = []) ∨ (s.edge = true ∧ 0 < s.events))

/-- So it is now, and when the context that runs the poller's code has taken its next step. -/
def State.Watched (pollBatch : Nat) (s : State) : Prop :=
  s.Attended ∧ ∀ i t, s.step pollBatch (.context i) = some t → t.Attended

theorem Vigilant.attended (h : Vigilant s) : s.Attended := by
  intro hp
  obtain ⟨holder, hh, hready⟩ := h.ready
  have hpark := hh.parked
  cases holder with
  | reactor => exact hready
  | _ =>
    rw [hp] at hpark
    cases hpark

theorem Vigilant.watched (h : Vigilant s) : s.Watched pollBatch :=
  ⟨h.attended, fun i _ hs => (h.step (l := .context i) rfl rfl hs).attended⟩

/-- A context that has polled nothing parks the poller. -/
theorem HeldBy.park (pollBatch : Nat) (h : HeldBy s (.context (.polled caller))) (hc : s.completed = []) :
    ∃ t, s.step pollBatch (.context 0) = some t ∧ t.parked = 1 ∧ t.cq = s.cq ∧
      (t.edge = true ∧ 0 < t.events → caller.Recalls s) := by
  have hpc : s.contexts[0]? = some (.polled caller) := by simp [h.contexts, Holder.contexts]
  have hpark : s.parked = 0 := h.parked
  rw [State.step, hpc]
  cases caller with
  | armPoller =>
    have hl : s.locked = false := by simp [State.locked, h.contexts, Holder.contexts, Pc.locks]
    refine ⟨s.startOp.leave 0, by simp [State.advance, hc, hl], ?_, rfl, And.right⟩
    simp [State.startOp, State.leave, hpark]
  | doPerform =>
    refine ⟨{ s with parked := s.parked + 1 }.leave 0, by simp [State.advance, hc], ?_, rfl, id⟩
    simp [State.leave, hpark]

/-- A poll that fails and is not spared parks the poller over a CQ that is not empty. -/
theorem Vigilant.not_watched (h : Vigilant s) (hc : ¬ s.sparesPoll l = true)
    (hs : s.step pollBatch l = some s') : ¬ s'.Watched pollBatch := by
  cases Step.of_step hs with
  | pollFails i pc t o hpc ha =>
    obtain ⟨holder, hh⟩ := h.sound.held
    obtain ⟨rfl, rfl⟩ := hh.eq_context hpc
    cases ha with
    | pollFails caller batches =>
      obtain ⟨⟨hnil, hq⟩, hrec⟩ : (s.completed = [] ∧ s.cq ≠ []) ∧ ¬ caller.Recalls s := by
        simpa [State.sparesPoll, hpc, Pc.spared] using hc
      have hpolled : HeldBy { s with contexts := s.moved 0 (some (.polled caller)) }
          (.context (.polled caller)) := hh.goto rfl rfl rfl
      obtain ⟨u, hu, hpark, hcq, hedge⟩ := hpolled.park pollBatch hnil
      rintro ⟨-, hnext⟩
      rcases (hnext 0 u hu hpark).2 with ⟨-, hempty⟩ | he
      · exact hq (hcq.symm.trans hempty)
      · exact hrec ((hedge he).frame rfl rfl)
  | _ => exact absurd rfl hc

/-! ## Whole runs -/

variable {ls : List Label}

theorem Sound.run (h : Sound s) (hr : (poller pollBatch).run s ls = some s')
    (hw : ∀ l ∈ ls, l.posted = true) : Sound s' :=
  StepSystem.invariant_of_meets (C := fun _ l => l.posted = true) (fun _ _ _ h hl hs => h.step hl hs)
    hr (StepSystem.meets_of_mem (fun l hl _ => hw l hl) s) h

/-- The steps of a run post their ops, and none of its failing polls hides a completion. -/
def Spares (s : State) (l : Label) : Prop := l.posted = true ∧ s.sparesPoll l = true

theorem meets_spares (hw : ∀ l ∈ ls, l.posted = true)
    (hm : (poller pollBatch).Meets (fun s l => s.sparesPoll l = true) s ls) :
    (poller pollBatch).Meets Spares s ls :=
  (StepSystem.meets_of_mem (fun l hl _ => hw l hl) s).and hm

theorem Vigilant.run (h : Vigilant s) (hr : (poller pollBatch).run s ls = some s')
    (hm : (poller pollBatch).Meets Spares s ls) : Vigilant s' :=
  StepSystem.invariant_of_meets (fun _ _ _ h hc hs => h.step hc.1 hc.2 hs) hr hm h

theorem started_step (hs : s.step pollBatch l = some s') (h : s.pollerStarted = true) :
    s'.pollerStarted = true := by
  cases Step.of_step hs with
  | start hst => rfl
  | context i pc t o hpc ha => cases ha <;> exact h
  | pollFails i pc t o hpc ha =>
    cases ha
    exact h
  | _ => exact h

/-- What is on record as arrived or dispatched stays on record. -/
theorem arrived_prefix_step (hs : s.step pollBatch l = some s') : s.arrived <+: s'.arrived := by
  rcases (histories_step hs).2 with ⟨wc, -, rfl⟩ | ⟨harr, -⟩
  · exact List.prefix_append _ _
  · exact harr ▸ List.prefix_refl _

/-- From a state in which the `k`-th CQE has arrived, a bounded number of steps of the poller completes it,
however they are interleaved with other steps and further CQEs. -/
theorem Vigilant.dispatches (h : Vigilant s) {m : Mailbox Resolved} (hm : Delivers s m)
    (hst : s.pollerStarted = true) {k : Nat} (hk : k < s.arrived.length)
    (hr : (poller pollBatch).run s ls = some s') (hw : (poller pollBatch).Meets Spares s ls)
    (hn : 9 * (k + 1 - s.dispatched.length) + 11 + 8 * ls.countP Label.failsPoll <
      (poller pollBatch).count State.polls s ls) :
    k < s'.dispatched.length := by
  have hreach := StepSystem.reaches_of_rank_of_credit (M := poller pollBatch)
    (I := fun t => Vigilant t ∧ (∃ m, Delivers t m) ∧ t.pollerStarted = true ∧ k < t.arrived.length)
    (C := Spares) (G := fun t => k < t.dispatched.length) (c := State.polls)
    (v := State.distance k) (d := 8) (f := Label.failsPoll)
    (fun t l t' ht hl hs => ⟨ht.1.step hl.1 hl.2 hs, poller_simulates_mailbox.exists_step hs ht.2.1,
      started_step hs ht.2.2.1,
      Nat.lt_of_lt_of_le ht.2.2.2 (arrived_prefix_step hs).length_le⟩)
    (fun t l t' hs ht => Nat.lt_of_lt_of_le ht (histories_step hs).1.length_le)
    (fun t l t' ht _ hs => ht.1.distance_step ht.2.1.choose_spec ht.2.2.1 ht.2.2.2 hs)
    hr hw ⟨h, ⟨m, hm⟩, hst, hk⟩
  refine hreach.resolve_right fun hle => ?_
  have hrank := rank_le s
  have hdist : s.distance k = 9 * (k + 1 - s.dispatched.length) + s.rank := rfl
  omega

/-- In every run, a poller that was started has exactly one holder, and every CQE that has arrived is
dispatched, resolved or on the CQ, once and in its order. A parked poller will be woken for what is or comes
on the CQ, in every state the run goes through and when its context has moved on from there, exactly if no
`ibv_poll_cq` fails that hides a completion. In such a run, while a CQE is not dispatched the poller or what
wakes it can move, and within a bounded number of the poller's steps it is dispatched. -/
theorem no_stranded_completion_iff (hr : (poller pollBatch).run {} ls = some s)
    (hw : ∀ l ∈ ls, l.posted = true) :
    (s.pollerStarted = true → s.parked + s.queued + s.contexts.length = 1) ∧
      (s.dispatched ++ s.completed).map some ++ s.cq.map resolveVerbsOp =
        s.arrived.map resolveVerbsOp ∧
      ((∀ pre t, pre <+: ls → (poller pollBatch).run {} pre = some t → t.Watched pollBatch) ↔
        (poller pollBatch).Meets (fun s l => s.sparesPoll l = true) {} ls) ∧
      ((poller pollBatch).Meets (fun s l => s.sparesPoll l = true) {} ls → s.pollerStarted = true →
        (s.dispatched.length < s.arrived.length →
          ∃ l s', s.owed l = true ∧ (poller pollBatch).step s l = some s') ∧
        ∀ k < s.arrived.length, ∀ ls' s', (poller pollBatch).run s ls' = some s' →
          (∀ l ∈ ls', l.posted = true) →
          (poller pollBatch).Meets (fun s l => s.sparesPoll l = true) s ls' →
          9 * (k + 1 - s.dispatched.length) + 11 + 8 * ls'.countP Label.failsPoll <
            (poller pollBatch).count State.polls s ls' →
          k < s'.dispatched.length) := by
  have h : Sound s := Sound.fresh.run hr hw
  obtain ⟨m, -, hm⟩ := poller_simulates_mailbox.run hr Delivers.fresh
  refine ⟨fun hst => ?_, ?_, ?_, fun hm' hst => ?_⟩
  · obtain ⟨holder, hh⟩ := h.held
    rw [hh.parked, hh.queued, hh.contexts]
    cases holder with
    | nobody =>
      have hns := hh.started
      rw [hst] at hns
      cases hns
    | _ => rfl
  · rw [← map_resolveVerbsOp h.posted_cq, ← map_resolveVerbsOp h.posted, ← List.map_append, ← hm.sent,
      hm.pending, hm.received, List.append_assoc]
  · exact StepSystem.always_iff_meets_of_invariant_of_mem (c := fun l => l.posted = true) (J := Vigilant)
      (fun _ h => h.watched) (fun _ _ _ hl h hc hs => h.step hl hc hs)
      (fun _ _ _ _ h hc hs => h.not_watched hc hs) hr hw .fresh
  · have hv : Vigilant s := Vigilant.fresh.run hr (meets_spares hw hm')
    exact ⟨fun hd => hv.owed hst (h.pending hm hd), fun k hk ls' s' hr' hw' hm'' hn =>
      hv.dispatches hm hst hk hr' (meets_spares hw' hm'') hn⟩

/-- A completion arrives between the last poll of `arm_poller` and `start_op`. -/
def arriveBeforePark : List Label :=
  [.ensurePollerStarted, .context 0, .context 0, .cqe ⟨1, .success, .recv, 8⟩, .context 0]

/-- The poller is performed, completes the op and is armed again; three wake-ups find nothing. -/
def performAndPark : List Label :=
  .performIo false :: List.replicate 10 (.context 0) ++
    (List.replicate 3 (.performIo false :: List.replicate 3 (.context 0))).flatten

/-- The poller is parked with its edge announced, and dispatches the completion. -/
theorem no_stranded_completion_iff_arriveBeforePark :
    let s := (poller 1).after {} arriveBeforePark
    let s' := (poller 1).after s performAndPark
    s.parked = 1 ∧ s.cq ≠ [] ∧ s.parked + s.queued + s.contexts.length = 1 ∧
      ((s.notify = true ∧ s.cq = []) ∨ (s.edge = true ∧ 0 < s.events)) ∧
      0 < s'.dispatched.length := by
  intro s s'
  have hr : ((poller 1).run {} arriveBeforePark).isSome = true := by decide +kernel
  have hr' : ((poller 1).run s performAndPark).isSome = true := by decide +kernel
  have hm : (poller 1).Meets (fun s l => s.sparesPoll l = true) {} arriveBeforePark := by
    decide +kernel
  have h := no_stranded_completion_iff (StepSystem.run_after hr) (by decide)
  refine ⟨by decide +kernel, by decide +kernel, h.1 (by decide +kernel), ?_, ?_⟩
  · exact ((h.2.2.1.2 hm _ _ (List.prefix_refl _) (StepSystem.run_after hr)).1 (by decide +kernel)).2
  · exact (h.2.2.2 hm (by decide +kernel)).2 0 (by decide +kernel) performAndPark s'
      (StepSystem.run_after hr') (by decide) (by decide +kernel) (by decide +kernel)

/-- A completion is on the CQ when `arm_poller` requests the notification, and its `ibv_poll_cq` fails. -/
def pollFailsInArmPoller : List Label :=
  [.ensurePollerStarted, .cqe ⟨1, .success, .recv, 8⟩, .context 0, .pollFails 0, .context 0]

/-- The poller is parked over a completion, and nothing announces it. -/
theorem not_no_stranded_completion :
    ¬ ∀ ls s, (poller 0).run {} ls = some s → (∀ l ∈ ls, l.posted = true) → s.parked = 1 →
      (s.notify = true ∧ s.cq = []) ∨ (s.edge = true ∧ 0 < s.events) := by
  intro h
  have hr : ((poller 0).run {} pollFailsInArmPoller).isSome = true := by decide +kernel
  have hwoken := h pollFailsInArmPoller _ (StepSystem.run_after hr) (by decide) (by decide +kernel)
  revert hwoken
  decide +kernel

end Poller

end RdmaOnAsio.Ibv
