import RdmaOnAsio.Ibv.IoCompletion
import RdmaOnAsio.Ibv.Proofs.NestedPoll
import RdmaOnAsio.Ibv.Proofs.PollerDrain

/-!
# Handlers that throw

In event mode the poller is armed again by the last statement of `on_poll_complete`: an exception that
leaves the dispatch loop leaves the poller with nobody, and nothing is dispatched any more. In poll mode the
exception destroys what the local ready queue still holds, and forgets what is left of the batch.
-/

namespace RdmaOnAsio.Ibv

open ErrorCode

/-! ## Event mode -/

namespace Poller

/-- How many hold `poller_`: the reactor, the scheduler, and the contexts that run its code. -/
def State.holders (s : State) : Nat := s.parked + s.queued + s.contexts.length

/-- Once started, the poller is held by one. -/
def Armed (s : State) : Prop := s.holders = if s.pollerStarted then 1 else 0

variable {pollBatch : Nat} {s t s' : State} {pc : Pc} {o : Option Pc} {i : Nat} {l : Label} {failed : Bool}

/-- A context that returns hands the poller over. -/
theorem holders_advances (hpc : s.contexts[i]? = some pc) (ha : Advances pollBatch s failed pc t o) :
    State.holders { t with contexts := s.moved i o } = s.holders := by
  obtain ⟨hi, -⟩ := List.getElem?_eq_some_iff.1 hpc
  have hset : ∀ pc', (s.moved i (some pc')).length = s.contexts.length := fun _ => List.length_set
  have herase : (s.moved i none).length = s.contexts.length - 1 := List.length_eraseIdx_of_lt hi
  cases ha with
  | post hc =>
    simp only [State.holders, herase]
    omega
  | start hc =>
    simp only [State.holders, State.startOp, herase]
    omega
  | stay hc =>
    simp only [State.holders, herase]
    omega
  | _ => simp only [State.holders, hset, State.reqNotifyCq, State.pollCq]

theorem pollerStarted_advances (ha : Advances pollBatch s failed pc t o) :
    t.pollerStarted = s.pollerStarted := by
  cases ha <;> rfl

theorem Armed.advance (h : Armed s) (hpc : s.contexts[i]? = some pc)
    (ha : Advances pollBatch s failed pc t o) : Armed { t with contexts := s.moved i o } := by
  unfold Armed at h ⊢
  rw [holders_advances hpc ha, h]
  show _ = if t.pollerStarted then 1 else 0
  rw [pollerStarted_advances ha]

/-- A step of the poller keeps its one holder. -/
theorem Armed.step (h : Armed s) (hs : s.step pollBatch l = some s') : Armed s' := by
  cases Step.of_step hs with
  | start hst =>
    have hh : s.holders = 0 := by rw [h, hst]; rfl
    show s.parked + s.queued + (s.contexts ++ [Pc.reqNotify]).length = 1
    rw [List.length_append, List.length_singleton]
    unfold State.holders at hh
    omega
  | context i pc t o hpc ha => exact h.advance hpc ha
  | pollFails i pc t o hpc ha => exact h.advance hpc ha
  | perform again hl hp =>
    refine Eq.trans ?_ h
    simp only [State.holders, State.enter, List.length_append, List.length_singleton]
    omega
  | runPosted hq =>
    refine Eq.trans ?_ h
    simp only [State.holders, State.enter, List.length_append, List.length_singleton]
    omega
  | _ => exact h

/-- A poller that was started and is held by nobody. -/
def Abandoned (s : State) : Prop := s.pollerStarted = true ∧ s.holders = 0

/-- Nobody takes up an abandoned poller, and nothing is dispatched. -/
theorem Abandoned.step (h : Abandoned s) (hs : s.step pollBatch l = some s') :
    Abandoned s' ∧ s'.dispatched = s.dispatched := by
  obtain ⟨hst, hh⟩ := h
  have hctx : s.contexts = [] := List.eq_nil_of_length_eq_zero (by unfold State.holders at hh; omega)
  have hpark : s.parked = 0 := by
    unfold State.holders at hh
    omega
  have hqueued : s.queued = 0 := by
    unfold State.holders at hh
    omega
  have hno : ∀ {i : Nat} {pc : Pc}, s.contexts[i]? ≠ some pc := by simp [hctx]
  cases Step.of_step hs with
  | start hns => exact absurd (hst.symm.trans hns) Bool.noConfusion
  | context i pc t o hpc ha => exact absurd hpc hno
  | pollFails i pc t o hpc ha => exact absurd hpc hno
  | perform again hl hp => exact absurd hpark hp
  | runPosted hq => exact absurd hqueued (Nat.ne_of_gt hq)
  | _ => exact ⟨⟨hst, hh⟩, rfl⟩

end Poller

namespace IoCompletion

/-- The label is a handler that throws. -/
def Label.throws : Label → Bool
  | .handlerThrows _ => true
  | _ => false

variable {pollBatch : Nat} {s s' : State} {l : Label}

/-- What one step of the data plane can do. -/
inductive Step (pollBatch : Nat) (s : State) : Label → State → Prop
  | service (l : Poller.Label) (p : Poller.State) (ha : s.alive = true) (hl : s.admits l = true)
      (hp : s.poller.step pollBatch l = some p) :
    Step pollBatch s (.service l) { s with poller := p, posted := s.retire l }
  | handlerThrows (i : Nat) (r : Resolved) (rest : List Resolved) (ha : s.alive = true)
      (hi : s.poller.contexts[i]? = some .dispatch) (hc : s.poller.completed = r :: rest) :
    Step pollBatch s (.handlerThrows i)
      { s with
        poller :=
          { s.poller with completed := rest, dispatched := s.poller.dispatched ++ [r] }.leave i }
  | post (addr : Nat) (ha : s.alive = true) (h0 : addr ≠ 0) :
    Step pollBatch s (.post addr)
      { s with posted := s.posted ++ [addr], initiated := s.initiated ++ [addr] }
  | finishEvent (addr : Nat) (ha : s.alive = true) (h0 : addr ≠ 0) :
    Step pollBatch s (.finishEvent addr)
      { s with scheduled := s.scheduled ++ [addr], initiated := s.initiated ++ [addr] }
  | runImmediate (i addr : Nat) (hi : s.scheduled[i]? = some addr) :
    Step pollBatch s (.runImmediate i)
      { s with scheduled := s.scheduled.eraseIdx i, completed := s.completed ++ [addr] }
  | shutdown (ha : s.alive = true) (hc : s.poller.contexts = []) :
    Step pollBatch s .shutdown s.shutdown

theorem Step.of_step (h : (ioCompletion pollBatch).step s l = some s') : Step pollBatch s l s' := by
  change s.step pollBatch l = some s' at h
  cases l with
  | service l =>
    simp only [State.step] at h
    split_ifs at h with hg
    obtain ⟨p, hp, rfl⟩ := Option.map_eq_some_iff.1 h
    exact .service l p hg.1 hg.2 hp
  | handlerThrows i =>
    simp only [State.step, State.handlerThrows] at h
    split_ifs at h with ha
    split at h
    · next r rest hi hc =>
      obtain rfl := Option.some.inj h
      exact .handlerThrows i r rest ha hi hc
    · cases h
  | post addr =>
    simp only [State.step] at h
    split_ifs at h with hg
    obtain rfl := Option.some.inj h
    exact .post addr hg.1 hg.2
  | finishEvent addr =>
    simp only [State.step] at h
    split_ifs at h with hg
    obtain rfl := Option.some.inj h
    exact .finishEvent addr hg.1 hg.2
  | runImmediate i =>
    simp only [State.step] at h
    split at h
    · next addr hi =>
      obtain rfl := Option.some.inj h
      exact .runImmediate i addr hi
    · cases h
  | shutdown =>
    simp only [State.step] at h
    split_ifs at h with hg
    obtain rfl := Option.some.inj h
    exact .shutdown hg.1 hg.2

/-- While the `io_context` lives, a poller that was started is held by one. -/
def Rearmed (s : State) : Prop := s.alive = true → Poller.Armed s.poller

theorem started_of_context {i : Nat} {pc : Poller.Pc} (h : Poller.Armed s.poller)
    (hi : s.poller.contexts[i]? = some pc) : s.poller.pollerStarted = true := by
  by_contra hst
  rw [Poller.Armed, if_neg hst] at h
  have hlt := (List.getElem?_eq_some_iff.1 hi).1
  unfold Poller.State.holders at h
  omega

/-- Every step keeps the poller armed, exactly if it is not a handler that throws. -/
theorem Rearmed.step (h : Rearmed s) (hst : (ioCompletion pollBatch).step s l = some s') :
    Rearmed s' ↔ l.throws = false := by
  cases Step.of_step hst with
  | service l p ha hl hp => exact iff_of_true (fun _ => (h ha).step hp) rfl
  | handlerThrows i r rest ha hi hc =>
    refine iff_of_false (fun hre => ?_) Bool.noConfusion
    have harm := h ha
    have hstarted := started_of_context harm hi
    have hlt := (List.getElem?_eq_some_iff.1 hi).1
    have hre' := hre ha
    simp only [Poller.Armed, Poller.State.holders, Poller.State.leave, hstarted, if_true,
      List.length_eraseIdx_of_lt hlt] at harm hre'
    omega
  | post addr ha h0 => exact iff_of_true h rfl
  | finishEvent addr ha h0 => exact iff_of_true h rfl
  | runImmediate i addr hi => exact iff_of_true h rfl
  | shutdown ha hc => exact iff_of_true Bool.noConfusion rfl

/-- After a handler has thrown, the poller is abandoned. -/
theorem abandoned_of_throws {i : Nat} (h : Rearmed s)
    (hst : (ioCompletion pollBatch).step s (.handlerThrows i) = some s') :
    Poller.Abandoned s'.poller := by
  cases Step.of_step hst with
  | handlerThrows i r rest ha hi hc =>
    have harm := h ha
    have hstarted := started_of_context harm hi
    have hlt := (List.getElem?_eq_some_iff.1 hi).1
    refine ⟨hstarted, ?_⟩
    simp only [Poller.Armed, Poller.State.holders, hstarted, if_true] at harm
    simp only [Poller.State.holders, Poller.State.leave, List.length_eraseIdx_of_lt hlt]
    omega

theorem abandoned_step (h : Poller.Abandoned s.poller)
    (hst : (ioCompletion pollBatch).step s l = some s') :
    Poller.Abandoned s'.poller ∧ s'.poller.dispatched = s.poller.dispatched := by
  cases Step.of_step hst with
  | service l p ha hl hp => exact h.step hp
  | handlerThrows i r rest ha hi hc =>
    have hlt := (List.getElem?_eq_some_iff.1 hi).1
    have hh := h.2
    unfold Poller.State.holders at hh
    omega
  | post addr ha h0 => exact ⟨h, rfl⟩
  | finishEvent addr ha h0 => exact ⟨h, rfl⟩
  | runImmediate i addr hi => exact ⟨h, rfl⟩
  | shutdown ha hc =>
    refine ⟨⟨h.1, ?_⟩, rfl⟩
    simp [Poller.State.holders, State.shutdown, hc]

/-- The poller is where it should be, or abandoned for good. -/
theorem rearmed_or_abandoned {ls : List Label} (hr : (ioCompletion pollBatch).run {} ls = some s) :
    Rearmed s ∨ Poller.Abandoned s.poller := by
  refine StepSystem.invariant (M := ioCompletion pollBatch)
    (I := fun s => Rearmed s ∨ Poller.Abandoned s.poller) (fun s l s' h hst => ?_) hr
    (.inl fun _ => rfl)
  rcases h with h | h
  · cases hl : l.throws with
    | false => exact .inl ((h.step hst).2 hl)
    | true =>
      cases l with
      | handlerThrows i => exact .inr (abandoned_of_throws h hst)
      | _ => cases hl
  · exact .inr (abandoned_step h hst).1

/-- The poller stays armed along a run exactly if no handler throws. -/
theorem rearmed_iff {ls : List Label} (hr : (ioCompletion pollBatch).run {} ls = some s) :
    (∀ pre t, pre <+: ls → (ioCompletion pollBatch).run {} pre = some t → Rearmed t) ↔
      (ioCompletion pollBatch).Meets (fun _ l => l.throws = false) {} ls :=
  StepSystem.always_iff_meets (M := ioCompletion pollBatch) (I := fun _ => True)
    (fun _ _ _ hi _ _ => hi) (fun _ _ _ _ h hst => h.step hst) hr trivial (fun _ => rfl)

/-- After a handler has thrown, nothing is dispatched any more. -/
theorem dispatched_of_throws {pre post : List Label} {i : Nat} {t : State}
    (ht : (ioCompletion pollBatch).run {} (pre ++ [.handlerThrows i]) = some t)
    (hr : (ioCompletion pollBatch).run t post = some s) :
    s.poller.dispatched = t.poller.dispatched := by
  have hab : Poller.Abandoned t.poller := by
    obtain ⟨u, hu, hlast⟩ := StepSystem.run_append.1 ht
    obtain ⟨t', hst, hnil⟩ := StepSystem.run_cons.1 hlast
    obtain rfl : t' = t := Option.some.inj hnil
    rcases rearmed_or_abandoned hu with h | h
    · exact abandoned_of_throws h hst
    · exact (abandoned_step h hst).1
  have hinv := StepSystem.invariant (M := ioCompletion pollBatch)
    (I := fun s => Poller.Abandoned s.poller ∧ s.poller.dispatched = t.poller.dispatched)
    (fun _ _ _ h hst => ⟨(abandoned_step h.1 hst).1, (abandoned_step h.1 hst).2.trans h.2⟩) hr
    ⟨hab, rfl⟩
  exact hinv.2

end IoCompletion

/-! ## Poll mode -/

namespace CompletionQueue

/-- An exception leaves no call with ops in its local ready queue; and the queue is not destroyed with ops
in it. -/
def dropsNoReady (s : State) : Label → Bool
  | .handlerThrows calls => (s.frames.take (2 * (calls + 1))).all fun f => f.queue.isEmpty
  | .destroy => s.ready.isEmpty
  | _ => true

/-- The entries taken off the CQ and the immediate ops are all there: completed, or to be completed by a
call in progress, or queued. -/
structure State.Undamaged (s : State) : Prop where
  entries : (s.dispatched ++ s.pending).Perm s.taken
  immediate : ∀ a, s.pushed.count a =
    (s.completed.map fun c => c.op.addr).count a + (s.draining.map ReadyOp.addr).count a +
      (s.ready.map ReadyOp.addr).count a

variable {pollBatch : Nat} {s s' : State} {l : Label}

/-- A step destroys nothing, exactly if no local queue is left behind. -/
theorem destroyed_step (h : s.destroyed = []) (hst : (completionQueue pollBatch).step s l = some s') :
    s'.destroyed = [] ↔ dropsNoReady s l = true := by
  cases Step.of_step hst with
  | run call pc rest b _ hf ha => cases ha <;> exact iff_of_true h rfl
  | handlerThrows calls hh =>
    simp only [State.unwind, h, List.nil_append, List.map_eq_nil_iff, List.flatMap_eq_nil_iff,
      dropsNoReady, List.all_eq_true, List.isEmpty_iff]
  | destroy hf =>
    simp only [State.destroy, h, List.nil_append, List.map_eq_nil_iff, dropsNoReady,
      List.isEmpty_iff]
  | pushReady addr byHandler ha hh => exact iff_of_true h rfl
  | post addr ha => exact iff_of_true h rfl
  | cqe wc hw => exact iff_of_true h rfl
  | poll hc => exact iff_of_true h rfl
  | pollOne hc => exact iff_of_true h rfl
  | handlerReturns call rest hf => exact iff_of_true h rfl

/-- Nothing is missing exactly if every entry is kept and nothing is destroyed. -/
theorem undamaged_iff (h : ∀ a, s.pushedAt a = s.pushed.count a) :
    s.Undamaged ↔ Conserved s ∧ s.destroyed = [] := by
  constructor
  · rintro ⟨hc, hi⟩
    refine ⟨hc, List.eq_nil_iff_forall_not_mem.2 fun a ha => ?_⟩
    have hpos := List.count_pos_iff.2 ha
    have hat := h a
    have hia := hi a
    unfold State.pushedAt at hat
    omega
  · rintro ⟨hc, hd⟩
    refine ⟨hc, fun a => ?_⟩
    have hat := h a
    rw [State.pushedAt, hd, List.count_nil] at hat
    omega

/-- In every state of a run nothing is missing, exactly if no step overwrites an entry, drops one or
destroys an op. -/
theorem undamaged_run_iff {ls : List Label} (hr : (completionQueue pollBatch).run {} ls = some s) :
    (∀ pre t, pre <+: ls → (completionQueue pollBatch).run {} pre = some t → t.Undamaged) ↔
      (completionQueue pollBatch).Meets (fun s l =>
        (keepsBatches pollBatch s l && dropsNoEntry s l && dropsNoReady s l) = true) {} ls := by
  have hat : ∀ {ls t}, (completionQueue pollBatch).run {} ls = some t →
      ∀ a, t.pushedAt a = t.pushed.count a := fun ht a =>
    StepSystem.invariant (M := completionQueue pollBatch)
      (I := fun s => s.pushedAt a = s.pushed.count a) (fun _ _ _ h hst => pushedAt_step h hst) ht rfl
  have hiff := StepSystem.always_iff_meets (M := completionQueue pollBatch) (I := Sized)
    (P := fun s => Conserved s ∧ s.destroyed = [])
    (C := fun s l => (keepsBatches pollBatch s l && dropsNoEntry s l && dropsNoReady s l) = true)
    (fun _ _ _ hi _ hst => hi.step hst)
    (fun s l s' hi h hst => by
      rw [Bool.and_eq_true_iff, h.1.step hi.numbered hi.buffered hst, destroyed_step h.2 hst])
    hr .fresh ⟨.fresh, rfl⟩
  rw [← hiff]
  constructor
  · intro h pre t hpre ht
    exact (undamaged_iff (hat ht)).1 (h pre t hpre ht)
  · intro h pre t hpre ht
    exact (undamaged_iff (hat ht)).2 (h pre t hpre ht)

end CompletionQueue

/-- A handler that throws. In event mode the poller stays armed exactly along the runs in which no
handler throws, and after one has thrown nothing is dispatched any more. In poll mode nothing is lost
exactly along the runs in which an exception leaves no call in the middle of a batch or with ops in its
local queue, and no nested poll overwrites an entry. -/
theorem throwing_handler_iff (pollBatch : Nat) :
    (∀ (ls : List IoCompletion.Label) (s : IoCompletion.State),
      (ioCompletion pollBatch).run {} ls = some s →
        ((∀ pre t, pre <+: ls → (ioCompletion pollBatch).run {} pre = some t →
            IoCompletion.Rearmed t) ↔
          ∀ l ∈ ls, l.throws = false) ∧
        ∀ pre i post t, ls = pre ++ .handlerThrows i :: post →
          (ioCompletion pollBatch).run {} (pre ++ [.handlerThrows i]) = some t →
            s.poller.dispatched = t.poller.dispatched) ∧
    ∀ (ls : List CompletionQueue.Label) (s : CompletionQueue.State),
      (completionQueue pollBatch).run {} ls = some s →
        ((∀ pre t, pre <+: ls → (completionQueue pollBatch).run {} pre = some t → t.Undamaged) ↔
          (completionQueue pollBatch).Meets (fun s l =>
            (CompletionQueue.keepsBatches pollBatch s l && CompletionQueue.dropsNoEntry s l &&
              CompletionQueue.dropsNoReady s l) = true) {} ls) := by
  refine ⟨fun ls s hr => ⟨?_, ?_⟩, fun ls s hr => CompletionQueue.undamaged_run_iff hr⟩
  · rw [IoCompletion.rearmed_iff hr]
    exact StepSystem.meets_label_iff hr
  · rintro pre i post t rfl ht
    rw [← List.singleton_append, ← List.append_assoc] at hr
    obtain ⟨t', ht', hpost⟩ := StepSystem.run_append.1 hr
    obtain rfl : t' = t := Option.some.inj (ht'.symm.trans ht)
    exact IoCompletion.dispatched_of_throws ht hpost

/-- One completion in event mode, whose handler returns: the poller is armed again. -/
def dispatchOne : List IoCompletion.Label :=
  [.post 1, .service .ensurePollerStarted, .service (.cqe ⟨1, .success, .send, 0⟩),
    .service (.context 0), .service (.context 0), .service (.context 0), .service .runPosted,
    .service (.context 0), .service (.context 0), .service (.context 0), .service (.context 0),
    .service (.context 0)]

/-- In poll mode, the handler of the last op of the ready queue throws. -/
def throwLast : List CompletionQueue.Label :=
  [.pushReady 1 false, .pushReady 2 false, .poll, .run false, .run false, .handlerReturns,
    .run false, .handlerThrows 0]

/-- A handler that returns leaves the poller armed, and the last one of a local queue may throw. -/
theorem throwing_handler_iff_last :
    IoCompletion.Rearmed ((ioCompletion 16).after {} dispatchOne) ∧
      ((completionQueue 16).after {} throwLast).Undamaged := by
  have hevent : ((ioCompletion 16).run {} dispatchOne).isSome = true := by decide +kernel
  have hpoll : ((completionQueue 16).run {} throwLast).isSome = true := by decide +kernel
  constructor
  · exact (((throwing_handler_iff 16).1 _ _ (StepSystem.run_after hevent)).1.2 (by decide +kernel))
      dispatchOne _ (List.prefix_refl _) (StepSystem.run_after hevent)
  · exact (((throwing_handler_iff 16).2 _ _ (StepSystem.run_after hpoll)).2 (by decide +kernel))
      throwLast _ (List.prefix_refl _) (StepSystem.run_after hpoll)

/-- Two completions in event mode; the handler of the first throws. -/
def throwFirst : List IoCompletion.Label :=
  [.post 1, .post 2, .service .ensurePollerStarted, .service (.cqe ⟨1, .success, .send, 0⟩),
    .service (.cqe ⟨2, .success, .send, 0⟩), .service (.context 0), .service (.context 0),
    .service (.context 0), .service .runPosted, .handlerThrows 0]

/-- In poll mode, the handler of the first of two ready ops throws. -/
def throwFirstReady : List CompletionQueue.Label :=
  [.pushReady 1 false, .pushReady 2 false, .poll, .run false, .run false, .handlerThrows 0]

/-- In event mode the second completion stays behind with nobody to dispatch it; in poll mode the second op
is destroyed. -/
theorem not_throwing_handler :
    (¬ ∀ ls s, (ioCompletion 16).run {} ls = some s →
      IoCompletion.Rearmed s ∧ (s.poller.completed ≠ [] → 0 < s.poller.holders)) ∧
    ¬ ∀ ls s, (completionQueue 16).run {} ls = some s → s.Undamaged := by
  constructor
  · intro h
    have hr : ((ioCompletion 16).run {} throwFirst).isSome = true := by decide +kernel
    have := (h throwFirst _ (StepSystem.run_after hr)).2 (by decide +kernel)
    revert this
    decide +kernel
  · intro h
    have hr : ((completionQueue 16).run {} throwFirstReady).isSome = true := by decide +kernel
    have := (h throwFirstReady _ (StepSystem.run_after hr)).immediate 2
    revert this
    decide +kernel

end RdmaOnAsio.Ibv
