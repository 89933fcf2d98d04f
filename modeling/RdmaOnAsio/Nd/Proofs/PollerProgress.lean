import RdmaOnAsio.Nd.Proofs.PollerDelivery

/-!
# The nd poller gets to every result

As long as it keeps watch, the poller retires the op of every result that was written within a bounded
number of its own steps, whatever the others do in between. Until then it can take one.
-/

namespace RdmaOnAsio.Nd

open ErrorCode Verbs

namespace Poller

variable {pollBatch : Nat} {s s' : State} {l : Label} {taken : List Nd2Result} {k : Nat}

/-- The step is one of the poller's own: a context running its code, or the scheduler starting one. -/
def State.polls (_ : State) : Label → Bool
  | .notifyCq _ _ _ | .context _ _ | .runPoller => true
  | .ensurePollerStarted | .workFinished | .cqe _ => false

/-- How many ops the first `k` results have. -/
def State.due (s : State) (k : Nat) : Nat := ((s.arrived.take k).filterMap resolve).length

/-- How many results have been polled. -/
def State.polled (s : State) : Nat := s.arrived.length - s.cq.length

/-- How many steps a context at `pc` is from the next poll that finds something, or the next upcall. -/
def Pc.rank : Pc → Nat
  | .dispatch [] => 9
  | .notifyCq => 8
  | .handOver _ => 7
  | .pollCq batches _ => 2 + (3 - batches)
  | .dispatch (_ :: _) => 1

def State.rank (s : State) : Nat :=
  match s.contexts with
  | c :: _ => c.pc.rank
  | [] => 6

/-- How many steps the poller is at most from having retired the ops of the first `k` results. -/
def State.distance (k : Nat) (s : State) : Nat :=
  9 * (k - s.polled) + 9 * (s.due k - s.retired.length) + s.rank

theorem Pc.rank_le (pc : Pc) : pc.rank ≤ 9 := by
  unfold Pc.rank
  split <;> omega

theorem rank_le (s : State) : s.rank ≤ 9 := by
  unfold State.rank
  split
  · exact Pc.rank_le _
  · omega

theorem due_le (s : State) (k : Nat) : s.due k ≤ k :=
  Nat.le_trans (List.length_filterMap_le _ _) (List.length_take_le _ _)

theorem distance_le (s : State) (k : Nat) : s.distance k ≤ 18 * k + 9 := by
  have hdue := due_le s k
  have hrank := rank_le s
  unfold State.distance
  omega

theorem Accounted.polled (h : Accounted s taken) : s.polled = taken.length := by
  rw [State.polled, h.arrived, List.length_append]
  omega

/-- If all of the first `k` results are polled and not all of their ops retired, the rest is in the local
queue. -/
theorem Accounted.dispatching_ne_nil (h : Accounted s taken) (hk : k ≤ s.polled)
    (hdue : s.retired.length < s.due k) : s.dispatching ≠ [] := by
  intro hnil
  rw [h.polled] at hk
  have hops := h.ops
  rw [hnil, List.append_nil] at hops
  have htake : s.arrived.take k = taken.take k := by
    rw [h.arrived, List.take_append_of_le_length hk]
  have hle := ((List.take_sublist k taken).filterMap resolve).length_le
  have hlen := congrArg List.length hops
  rw [List.length_map] at hlen
  rw [State.due, htake] at hdue
  omega

/-- Unless all of the first `k` results are polled, the next batch is not empty. -/
theorem batch_pos (hk : k ≤ s.arrived.length) (hlt : s.polled < k) : 0 < s.batch pollBatch := by
  refine Nat.lt_min.2 ⟨batchSize_pos, ?_⟩
  unfold State.polled at hlt
  omega

theorem due_cqe (result : Nd2Result) (hk : k ≤ s.arrived.length) : (s.cqe result).due k = s.due k := by
  unfold State.due
  show (((s.arrived ++ [result]).take k).filterMap resolve).length = _
  rw [List.take_append_of_le_length hk]

/-- The rank once the one context is at `pc'`. -/
theorem rank_goto {t : State} {c : Context} {satisfied : Bool} {pc' : Pc}
    (h : HeldBy s (.context c satisfied)) (hc : t.contexts = s.contexts) :
    (t.goto 0 c pc').rank = pc'.rank := by
  simp [State.rank, h.contexts_goto hc]

theorem HeldBy.rank {c : Context} {satisfied : Bool} (h : HeldBy s (.context c satisfied)) :
    s.rank = c.pc.rank := by
  simp [State.rank, h.contexts, Holder.contexts]

/-- A poll takes what is due from the CQ, or finds its ops in the local queue. -/
theorem distance_pollCq {b satisfied : Bool} {batches : Nat} {ops : List Resolved}
    (hh : HeldBy s (.context ⟨b, .pollCq batches ops⟩ satisfied)) (ha : Accounted s taken)
    (hk : k ≤ s.arrived.length) (hdue : s.retired.length < s.due k) :
    State.distance k ({ s with cq := s.cq.drop (s.batch pollBatch) }.goto 0 ⟨b, .pollCq batches ops⟩
      (Pc.afterPoll (s.batch pollBatch) pollBatch batches
        (ops ++ (s.cq.take (s.batch pollBatch)).filterMap resolve))) < s.distance k := by
  have hpolled : State.polled { s with cq := s.cq.drop (s.batch pollBatch) } =
      s.arrived.length - (s.cq.length - s.batch pollBatch) := by
    simp [State.polled]
  have hbatch : s.batch pollBatch ≤ s.cq.length := Nat.min_le_right _ _
  have hcq := congrArg List.length ha.arrived
  rw [List.length_append] at hcq
  show 9 * (k - State.polled { s with cq := s.cq.drop (s.batch pollBatch) }) +
    9 * (s.due k - s.retired.length) + State.rank _ < 9 * (k - s.polled) + _ + s.rank
  rw [rank_goto (t := { s with cq := s.cq.drop (s.batch pollBatch) }) hh rfl, hh.rank, hpolled]
  by_cases hlt : s.polled < k
  · have hpos : 0 < s.batch pollBatch := batch_pos hk hlt
    have hrank := Pc.rank_le (Pc.afterPoll (s.batch pollBatch) pollBatch batches
      (ops ++ (s.cq.take (s.batch pollBatch)).filterMap resolve))
    have hold : 2 ≤ Pc.rank (.pollCq batches ops) := by simp [Pc.rank]
    show 9 * _ + _ + _ < 9 * _ + _ + Pc.rank (.pollCq batches ops)
    unfold State.polled at hlt ⊢
    omega
  · -- everything due is polled, so that the local queue is not empty
    have hne := ha.dispatching_ne_nil (Nat.le_of_not_lt hlt) hdue
    rw [hh.dispatching] at hne
    have hrank : Pc.rank (Pc.afterPoll (s.batch pollBatch) pollBatch batches
        (ops ++ (s.cq.take (s.batch pollBatch)).filterMap resolve)) < Pc.rank (.pollCq batches ops) := by
      unfold Pc.afterPoll
      split
      · next hb =>
        simp only [maxBatchesPerTurn] at hb
        simp only [Pc.rank]
        omega
      · cases ops with
        | nil => exact absurd rfl hne
        | cons r ops =>
          simp only [Pc.rank, List.cons_append]
          omega
    show 9 * _ + _ + _ < 9 * _ + _ + Pc.rank (.pollCq batches ops)
    unfold State.polled
    omega

/-- A step of a poller that attends brings it closer to the first `k` results, if it is one of its own. -/
theorem distance_step {h : Holder} (hh : HeldBy s h) (ha : Accounted s taken)
    (hst' : s.pollerStarted = true) (hk : k ≤ s.arrived.length)
    (hdue : s.retired.length < s.due k) (hkeep : s.keepsWatch l = true)
    (hst : s.step pollBatch l = some s') : s'.distance k + (s.polls l).toNat ≤ s.distance k := by
  cases Step.of_step hst with
  | started hs => exact Nat.le_refl _
  | start hs =>
    rw [hst'] at hs
    cases hs
  | notifyCq i hr satisfied b hc =>
    obtain ⟨rfl, old, rfl⟩ := hh.eq_context hc
    show 9 * (k - s.polled) + 9 * (s.due k - s.retired.length) + State.rank (State.goto _ 0 _ _) + 1 ≤ _
    rw [rank_goto hh (by rfl)]
    simp [State.distance, hh.rank, Pc.rank]
  | handOver i throws b pending hc =>
    obtain ⟨rfl, old, rfl⟩ := hh.eq_context hc
    have hrank : State.rank ((s.handOver pending).leave 0 ⟨b, .handOver pending⟩) = 6 := by
      simp [State.rank, State.leave, State.handOver, hh.contexts, Holder.contexts]
    show 9 * (k - s.polled) + 9 * (s.due k - s.retired.length) + State.rank (State.leave _ 0 _) + 1 ≤ _
    simp [State.distance, hh.rank, Pc.rank, hrank]
  | pollCq i throws b batches ops hc =>
    obtain ⟨rfl, old, rfl⟩ := hh.eq_context hc
    exact distance_pollCq hh ha hk hdue
  | rearm i throws b hc =>
    obtain ⟨rfl, old, rfl⟩ := hh.eq_context hc
    show 9 * (k - s.polled) + 9 * (s.due k - s.retired.length) + State.rank (State.goto _ 0 _ _) + 1 ≤ _
    rw [rank_goto hh rfl]
    simp [State.distance, hh.rank, Pc.rank]
  | upcall i b r ops hc =>
    obtain ⟨rfl, old, rfl⟩ := hh.eq_context hc
    have hrank := Pc.rank_le (.dispatch ops)
    have hold : s.rank = 1 := hh.rank
    show 9 * (k - s.polled) + 9 * (s.due k - (s.retired ++ [Retired.mk r true]).length) +
      State.rank (State.goto _ 0 _ _) + 1 ≤ 9 * (k - s.polled) + 9 * (s.due k - s.retired.length) + s.rank
    rw [rank_goto (t := { s with retired := s.retired ++ [Retired.mk r true] }) hh rfl, hold,
      List.length_append, List.length_singleton]
    omega
  | handlerThrows i b r ops hc => simp [State.keepsWatch, State.upcalls, hc] at hkeep
  | runPoller hp hheld =>
    have hctx : s.contexts = [] := by
      have hheld' := hh.held
      rw [hh.contexts]
      cases h with
      | scheduler satisfied => rfl
      | _ =>
        rw [hheld'] at hheld
        cases hheld
    show 9 * (k - s.polled) + 9 * (s.due k - s.retired.length) + State.rank (State.enter _ _) + 1 ≤ _
    simp [State.distance, State.rank, State.enter, hctx, Pc.rank]
  | workFinished hf => exact Nat.le_refl _
  | cqe result =>
    have hcq := congrArg List.length ha.arrived
    rw [List.length_append] at hcq
    have hpolled : (s.cqe result).polled = s.polled := by
      simp only [State.polled, State.cqe, List.length_append, List.length_singleton]
      omega
    show 9 * (k - (s.cqe result).polled) + 9 * ((s.cqe result).due k - s.retired.length) + s.rank + 0 ≤ _
    rw [hpolled, due_cqe result hk]
    exact Nat.le_refl _

/-- A poller that attends can take a step of its own while an op waits. -/
theorem HeldBy.exists_polls {h : Holder} (hh : HeldBy s h) (hatt : h.Attends s.cq)
    (hst : s.pollerStarted = true) (hw : s.dispatching ≠ [] ∨ s.cq ≠ []) :
    ∃ l s', s.polls l = true ∧ s.keepsWatch l = true ∧ s.step pollBatch l = some s' := by
  cases h with
  | nobody =>
    have hns := hh.started
    rw [hst] at hns
    cases hns
  | abandoned => exact hatt.elim
  | scheduler satisfied =>
    have hdisp : s.dispatching = [] := by simp [State.dispatching, hh.contexts, Holder.contexts]
    have hsat : satisfied = true :=
      hatt.resolve_right (hw.resolve_left fun hne => hne hdisp)
    subst hsat
    have hp : s.packets = 1 := hh.packets
    have hheld : s.held = 1 := hh.held
    exact ⟨.runPoller, _, rfl, rfl, by
      rw [State.step, State.runPoller, if_pos ⟨by omega, by omega⟩]⟩
  | context c satisfied =>
    obtain ⟨b, pc⟩ := c
    have hc : s.contexts[0]? = some ⟨b, pc⟩ := by simp [hh.contexts, Holder.contexts]
    have hadv : ∀ t, s.advance pollBatch 0 ⟨b, pc⟩ false = some t →
        s.step pollBatch (.context 0 false) = some t := by
      intro t ht
      rw [State.step, hc]
      exact ht
    cases pc with
    | notifyCq =>
      refine ⟨.notifyCq 0 ndPending true, s.notifyCq 0 ⟨b, .notifyCq⟩ ndPending true, rfl, ?_, ?_⟩
      · simp [State.keepsWatch]
      · simp [State.step, hc]
    | handOver pending => exact ⟨.context 0 false, _, rfl, rfl, hadv _ rfl⟩
    | pollCq batches ops =>
      by_cases hn : min (batchSize pollBatch) s.cq.length = batchSize pollBatch ∧
          batches + 1 < maxBatchesPerTurn
      · exact ⟨.context 0 false, _, rfl, rfl, hadv _ (if_pos hn)⟩
      · exact ⟨.context 0 false, _, rfl, rfl, hadv _ (if_neg hn)⟩
    | dispatch ops =>
      cases ops with
      | nil => exact ⟨.context 0 false, _, rfl, rfl, hadv _ rfl⟩
      | cons r ops => exact ⟨.context 0 false, _, rfl, rfl, hadv _ rfl⟩

/-- While an op is not retired, it is in the local queue or its result on the CQ. -/
theorem Tracked.waiting (h : Tracked s) (hdue : s.retired.length < s.due s.arrived.length) :
    s.dispatching ≠ [] ∨ s.cq ≠ [] := by
  by_contra hno
  obtain ⟨hd, hq⟩ : s.dispatching = [] ∧ s.cq = [] := by simpa [not_or] using hno
  have hlen := congrArg List.length h.in_order
  rw [hd, hq] at hlen
  rw [State.due, List.take_length] at hdue
  simp at hlen
  omega

/-! ## Whole runs -/

variable {ls : List Label}

/-- What holds in every state of a run that keeps watch. -/
structure Watching (s : State) : Prop where
  tracked : Tracked s
  attends : ∃ h, HeldBy s h ∧ h.Attends s.cq
  nothingLost : s.nothingLost

theorem Watching.fresh : Watching {} :=
  ⟨.fresh, ⟨.nobody, .fresh, trivial⟩, fun _ hr => absurd hr List.not_mem_nil⟩

/-- A step that keeps watch spares the ops. -/
theorem sparesOps_of_keepsWatch (h : s.keepsWatch l = true) : s.sparesOps l = true := by
  cases l with
  | context i throws =>
    cases throws with
    | false => rfl
    | true =>
      simp only [State.keepsWatch, State.upcalls, Bool.true_and, Bool.not_eq_true'] at h
      simp only [State.sparesOps, State.crowded, Bool.true_and, Bool.not_eq_true']
      split
      · next b r r' ops hc => simp [hc] at h
      · rfl
  | _ => rfl

theorem Watching.step (h : Watching s) (hkeep : s.keepsWatch l = true)
    (hst : s.step pollBatch l = some s') : Watching s' := by
  obtain ⟨holder, hh, hatt⟩ := h.attends
  obtain ⟨h', hh', hiff⟩ := hh.step hst
  exact ⟨h.tracked.step hst, ⟨h', hh', (hiff hatt).2 hkeep⟩,
    ((h.tracked.sorted.step hh hst).2 h.nothingLost).2 (sparesOps_of_keepsWatch hkeep)⟩

theorem Watching.run (h : Watching s) (hr : (poller pollBatch).run s ls = some s')
    (hm : (poller pollBatch).Meets (fun s l => s.keepsWatch l = true) s ls) : Watching s' :=
  StepSystem.invariant_of_meets (M := poller pollBatch) (fun _ _ _ h hk hst => h.step hk hst) hr hm h

/-- The results on record stay on record. -/
theorem arrived_step (hst : s.step pollBatch l = some s') : s.arrived <+: s'.arrived := by
  cases Step.of_step hst with
  | cqe result => exact List.prefix_append _ _
  | _ => exact List.prefix_refl _

theorem due_eq_of_prefix {t : State} (h : s.arrived <+: t.arrived) (hk : k ≤ s.arrived.length) :
    t.due k = s.due k := by
  obtain ⟨rest, hrest⟩ := h
  rw [State.due, State.due, ← hrest, List.take_append_of_le_length hk]

/-- Enough of the poller's own steps retire the ops of the first `k` results. -/
theorem Watching.reaches (h : Watching s) (hst : s.pollerStarted = true) (hk : k ≤ s.arrived.length)
    (hr : (poller pollBatch).run s ls = some s')
    (hm : (poller pollBatch).Meets (fun s l => s.keepsWatch l = true) s ls)
    (hn : 18 * k + 9 < (poller pollBatch).count State.polls s ls) : s.due k ≤ s'.retired.length := by
  have hreach := StepSystem.reaches_of_rank (M := poller pollBatch)
    (I := fun t => Watching t ∧ t.pollerStarted = true ∧ s.arrived <+: t.arrived)
    (C := fun s l => s.keepsWatch l = true) (G := fun t => s.due k ≤ t.retired.length)
    (c := State.polls) (v := State.distance k)
    (fun t l t' ht hkeep hs => ⟨ht.1.step hkeep hs, started_step hs ht.2.1,
      ht.2.2.trans (arrived_step hs)⟩)
    (fun t l t' hs hg => Nat.le_trans hg (retired_step hs).length_le)
    (fun t l t' ⟨hw, hst, hpre⟩ hkeep hs => by
      obtain ⟨h, hh, -⟩ := hw.attends
      obtain ⟨taken, ha⟩ := hw.tracked.accounted
      have hdue := due_eq_of_prefix hpre hk
      by_cases hg : s.due k ≤ t.retired.length
      · exact .inl (Nat.le_trans hg (retired_step hs).length_le)
      · exact .inr (distance_step hh ha hst (Nat.le_trans hk hpre.length_le)
          (hdue ▸ Nat.lt_of_not_le hg) hkeep hs))
    hr hm ⟨h, hst, List.prefix_refl _⟩
  have hle := distance_le s k
  exact hreach.resolve_right (by omega)

/-- In every run that keeps watch: while an op of a result that was written is not completed, the poller
can take a step of its own; and once it has taken more than `18 * k + 9` of them, whatever was done and
written in between, the handlers of the first `k` results have been called, first and in their order. -/
theorem poller_completes (hr : (poller pollBatch).run {} ls = some s)
    (hm : (poller pollBatch).Meets (fun s l => s.keepsWatch l = true) {} ls)
    (hst : s.pollerStarted = true) :
    (s.retired.length < (s.arrived.filterMap resolve).length →
      ∃ l s', s.polls l = true ∧ s.keepsWatch l = true ∧ (poller pollBatch).step s l = some s') ∧
    ∀ k ≤ s.arrived.length, ∀ ls' s', (poller pollBatch).run s ls' = some s' →
      (poller pollBatch).Meets (fun s l => s.keepsWatch l = true) s ls' →
      18 * k + 9 < (poller pollBatch).count State.polls s ls' →
      ((s.arrived.take k).filterMap resolve).map (fun r => Retired.mk r true) <+: s'.retired := by
  have hw : Watching s := Watching.fresh.run hr hm
  refine ⟨fun hlt => ?_, fun k hk ls' s' hr' hm' hn => ?_⟩
  · obtain ⟨h, hh, hatt⟩ := hw.attends
    exact hh.exists_polls hatt hst (hw.tracked.waiting (by rwa [State.due, List.take_length]))
  · have hw' := hw.run hr' hm'
    have hdue := hw.reaches hst hk hr' hm' hn
    have hpre : s.arrived <+: s'.arrived := StepSystem.run_rel (M := poller pollBatch)
      (R := fun s s' => s.arrived <+: s'.arrived) (fun _ => List.prefix_refl _)
      (fun _ _ _ => List.IsPrefix.trans) (fun _ _ _ hs => arrived_step hs) hr'
    -- both are prefixes of what has been written
    have hall : (s.arrived.take k).filterMap resolve <+: s'.retired.map Retired.resolved := by
      refine List.prefix_of_prefix_length_le
        (((List.take_prefix k s.arrived).trans hpre).filterMap resolve) ?_ (by rwa [List.length_map])
      rw [hw'.tracked.in_order, List.append_assoc]
      exact List.prefix_append _ _
    have hret : s'.retired = (s'.retired.map Retired.resolved).map fun r => Retired.mk r true := by
      rw [List.map_map]
      refine (List.map_id s'.retired).symm.trans (List.map_congr_left fun x hx => ?_)
      obtain ⟨r, c⟩ := x
      obtain rfl : c = true := hw'.nothingLost _ hx
      rfl
    rw [hret]
    exact hall.map _

/-- After `watched` and one more result, the poller can take a step. -/
theorem poller_completes_watched :
    let s := (poller 2).after {} (watched ++ [.cqe ⟨8, ndSuccess, .send, 0⟩])
    ∃ l s', s.polls l = true ∧ s.keepsWatch l = true ∧ (poller 2).step s l = some s' := by
  have hr : ((poller 2).run {} (watched ++ [.cqe ⟨8, ndSuccess, .send, 0⟩])).isSome = true := by decide
  exact (poller_completes (StepSystem.run_after hr) (by decide) (by decide)).1 (by decide)

end Poller

end RdmaOnAsio.Nd
