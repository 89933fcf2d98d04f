import RdmaOnAsio.Ibv.Proofs.PollerDrain

/-!
# The backlog of the completion channel

A CQ that is armed owes the channel an event. `do_perform` pays for the notification it requests with
the event it has just taken; `arm_poller` takes none. The channel holds at most one event as long as
`arm_poller` does not request a notification over an unread one, and any number under a load that lets
the poller queue itself.
-/

namespace RdmaOnAsio.Ibv

namespace Poller

variable {pollBatch : Nat} {s t s' : State} {pc : Pc} {o : Option Pc} {i k : Nat} {l : Label}
  {failed : Bool}

/-- A notification that is not yet requested again in place of the event that was taken. -/
def State.rearming (s : State) : Nat := s.contexts.count .rearm

/-- The events on the channel, and those that it is owed. -/
def State.due (s : State) : Nat := s.events + s.notify.toNat + s.rearming

/-- One holder of the poller at most, and one event owed. -/
structure Backed (s : State) : Prop where
  single : s.parked + s.queued + s.contexts.length ≤ s.pollerStarted.toNat
  due : s.due ≤ 1

/-- The label is `arm_poller`'s request, over a notification that has fired and an event that nobody
took. -/
def State.overarms (s : State) : Label → Bool
  | .context i => s.contexts[i]? == some .reqNotify && !s.notify && 0 < s.events
  | .ensurePollerStarted | .pollFails _ | .performIo _ | .runPosted | .cqe _ => false

/-- The channel holds one event at most, also if a completion arrives. -/
def State.Bounded (s : State) : Prop := s.events ≤ 1 ∧ ∀ wc, (s.cqe wc).events ≤ 1

theorem events_cqe (wc : Wc) : (s.cqe wc).events = s.events + s.notify.toNat := by
  cases hn : s.notify <;> simp [State.cqe, hn]

theorem Backed.bounded (h : Backed s) : s.Bounded := by
  have hdue := h.due
  unfold State.due at hdue
  exact ⟨by omega, fun wc => by rw [events_cqe]; omega⟩

theorem backed_fresh : Backed {} := ⟨Nat.le_refl _, by decide⟩

/-- With one holder the context that moves is the only one. -/
theorem Backed.contexts_eq (h : Backed s) (hpc : s.contexts[i]? = some pc) :
    s.contexts = [pc] ∧ i = 0 ∧ s.parked = 0 ∧ s.queued = 0 ∧ s.pollerStarted = true := by
  have hsingle := h.single
  obtain ⟨hi, hget⟩ := List.getElem?_eq_some_iff.1 hpc
  have hle : s.pollerStarted.toNat ≤ 1 := Bool.toNat_le _
  have hlen : s.contexts.length = 1 := by omega
  obtain ⟨pc', heq⟩ := List.length_eq_one_iff.1 hlen
  obtain rfl : i = 0 := by omega
  refine ⟨?_, rfl, by omega, by omega, ?_⟩
  · simp_all
  · cases hst : s.pollerStarted with
    | true => rfl
    | false =>
      rw [hst, Bool.toNat_false] at hsingle
      omega

/-- What a context leaves behind it: as many holders as before, and what is owed unless it armed the CQ
anew. -/
theorem Advances.backed (ha : Advances pollBatch s failed pc t o) (hc : s.contexts = [pc]) (hp : s.parked = 0)
    (hq : s.queued = 0) :
    t.pollerStarted = s.pollerStarted ∧ t.parked + t.queued + (s.moved 0 o).length = 1 ∧
      t.events + t.notify.toNat + (s.moved 0 o).count .rearm ≤
        if pc = .reqNotify then s.events + 1 else s.due := by
  cases ha with
  | takeEvent he =>
    -- the event taken is owed again, by the context that is to arm the CQ
    refine ⟨rfl, by simp [State.moved, hc, hp, hq], ?_⟩
    have hone : s.events - 1 + s.notify.toNat + 1 ≤ s.events + s.notify.toNat := by omega
    simpa [State.moved, State.due, State.rearming, hc] using hone
  | _ =>
    simp_all [State.moved, State.due, State.rearming, State.reqNotifyCq, State.pollCq, State.startOp]

/-- An idle service has no context yet. -/
theorem Backed.idle (h : Backed s) (hst : s.pollerStarted = false) :
    s.parked = 0 ∧ s.queued = 0 ∧ s.contexts = [] := by
  have hsingle := h.single
  rw [hst, Bool.toNat_false] at hsingle
  exact ⟨by omega, by omega, List.eq_nil_of_length_eq_zero (by omega)⟩

theorem Backed.advance (h : Backed s) (hc : s.overarms (.context i) = false)
    (hpc : s.contexts[i]? = some pc) (ha : Advances pollBatch s failed pc t o) :
    Backed { t with contexts := s.moved i o } := by
  obtain ⟨heq, rfl, hp, hq, hst⟩ := h.contexts_eq hpc
  obtain ⟨hst', hone, hdue⟩ := ha.backed heq hp hq
  have hle := h.due
  refine ⟨?_, ?_⟩
  · change t.parked + t.queued + (s.moved 0 o).length ≤ t.pollerStarted.toNat
    rw [hone, hst', hst]
    exact Nat.le_of_eq rfl
  · change t.events + t.notify.toNat + (s.moved 0 o).count .rearm ≤ 1
    by_cases hreq : pc = .reqNotify
    · rw [if_pos hreq] at hdue
      unfold State.due at hle
      -- the request is over a notification that is still armed, or over an empty channel
      rw [State.overarms, hpc, hreq] at hc
      cases hn : s.notify with
      | true =>
        rw [hn, Bool.toNat_true] at hle
        omega
      | false =>
        have he : s.events = 0 := by simpa [hn] using hc
        omega
    · rw [if_neg hreq] at hdue
      exact Nat.le_trans hdue hle

/-- A step that does not arm the CQ over an unread event keeps the backlog bounded. -/
theorem Backed.step (h : Backed s) (hc : s.overarms l = false)
    (hs : (poller pollBatch).step s l = some s') : Backed s' := by
  have hsingle := h.single
  have hdue := h.due
  cases Step.of_step hs with
  | start hst =>
    obtain ⟨hp, hq, hctx⟩ := h.idle hst
    exact ⟨by simp [State.enter, hp, hq, hctx],
      by simpa [State.due, State.rearming, State.enter, hctx] using hdue⟩
  | started hst => exact h
  | context i pc t o hpc ha => exact h.advance hc hpc ha
  | pollFails i pc t o hpc ha =>
    refine h.advance ?_ hpc ha
    -- where a poll fails, no notification is requested
    cases ha
    simp [State.overarms, hpc]
  | takeEdge again hl hp => exact ⟨hsingle, hdue⟩
  | perform again hl hp =>
    refine ⟨?_, by simpa [State.due, State.rearming, State.enter, List.count_append] using hdue⟩
    simp only [State.enter, List.length_append, List.length_singleton]
    omega
  | runPosted hq =>
    refine ⟨?_, by simpa [State.due, State.rearming, State.enter, List.count_append] using hdue⟩
    simp only [State.enter, List.length_append, List.length_singleton]
    omega
  | cqe wc =>
    refine ⟨hsingle, ?_⟩
    have hev := events_cqe (s := s) wc
    unfold State.due at hdue ⊢
    have hno : (s.cqe wc).notify.toNat = 0 := rfl
    have hre : (s.cqe wc).rearming = s.rearming := rfl
    omega

/-- After a request over an unread event the next completion makes it two. -/
theorem not_bounded_of_overarms (hc : s.overarms l = true) (hs : (poller pollBatch).step s l = some s') :
    ¬ s'.Bounded := by
  cases l with
  | context i =>
    simp only [State.overarms, Bool.and_eq_true, beq_iff_eq, decide_eq_true_eq] at hc
    obtain ⟨⟨hpc, -⟩, hpos⟩ := hc
    have hs : s.advance pollBatch i .reqNotify = some s' := by
      obtain ⟨pc, hpc', hadv⟩ := Option.bind_eq_some_iff.1 hs
      rwa [Option.some.inj (hpc.symm.trans hpc')]
    obtain rfl := Option.some.inj hs
    intro hb
    have hev := hb.2 ⟨1, .success, .recv, 0⟩
    rw [events_cqe] at hev
    change s.events + 1 ≤ 1 at hev
    omega
  | _ => cases hc

/-- The completion channel holds no more than one unread event, in every state a run goes through and
whenever a completion arrives there, exactly if `arm_poller` never requests a notification over an
unread event whose own notification has fired. -/
theorem backlog_iff {ls : List Label} (hr : (poller pollBatch).run {} ls = some s) :
    (∀ pre t, pre <+: ls → (poller pollBatch).run {} pre = some t → t.Bounded) ↔
      (poller pollBatch).Meets (fun s l => s.overarms l = false) {} ls :=
  StepSystem.always_iff_meets_of_invariant (fun _ h => h.bounded) (fun _ _ _ h hc hs => h.step hc hs)
    (fun _ _ _ _ hc hs => not_bounded_of_overarms (by simpa using hc) hs) hr backed_fresh

/-! ## A load without end -/

/-- The poller is about to request a notification, with nothing to poll and `k` events unread. -/
structure Loaded (k : Nat) (s : State) : Prop where
  cq : s.cq = []
  events : s.events = k
  completed : s.completed = []
  queued : s.queued = 0
  contexts : s.contexts = [.reqNotify]

/-- A completion that arrives right after the request: `arm_poller` polls it and queues itself. -/
def underLoad : List Label :=
  [.context 0, .cqe ⟨1, .success, .recv, 8⟩, .context 0, .context 0, .runPosted, .context 0, .context 0]

theorem Loaded.turn (h : Loaded k s) :
    ∃ s', (poller 0).run s underLoad = some s' ∧ Loaded (k + 1) s' := by
  obtain ⟨started, cq, notify, events, edge, completed, parked, queued, contexts, arrived, dispatched⟩ := s
  obtain ⟨rfl, rfl, rfl, rfl, rfl⟩ := h
  exact ⟨_, rfl, rfl, rfl, rfl, rfl, rfl⟩

theorem exists_loaded (n : Nat) : ∃ ls s, (poller 0).run {} ls = some s ∧ Loaded n s := by
  induction n with
  | zero => exact ⟨[.ensurePollerStarted], _, rfl, rfl, rfl, rfl, rfl, rfl⟩
  | succ n ih =>
    obtain ⟨ls, s, hr, hs⟩ := ih
    obtain ⟨s', hr', hs'⟩ := hs.turn
    exact ⟨ls ++ underLoad, s', StepSystem.run_append.2 ⟨s, hr, hr'⟩, hs'⟩

/-- No constant bounds the backlog of the poller with the default batch. -/
theorem not_backlog_bounded :
    ¬ ∃ B, ∀ ls s, (poller 0).run {} ls = some s → s.events ≤ B := by
  rintro ⟨B, hB⟩
  obtain ⟨ls, s, hr, hs⟩ := exists_loaded (B + 1)
  have hle := hB ls s hr
  rw [hs.events] at hle
  omega

/-- One completion, taken by `do_perform`, and the poller parked again with its notification armed. -/
def oneCompletion : List Label :=
  [.ensurePollerStarted, .context 0, .context 0, .context 0, .cqe ⟨1, .success, .recv, 8⟩] ++
    .performIo false :: List.replicate 9 (.context 0)

theorem backlog_iff_oneCompletion : ((poller 0).after {} oneCompletion).Bounded := by
  have hr := StepSystem.run_after
    (show ((poller 0).run {} oneCompletion).isSome = true by decide +kernel)
  exact (backlog_iff hr).2 (by decide +kernel) oneCompletion _ (List.prefix_refl _) hr

end Poller

end RdmaOnAsio.Ibv
