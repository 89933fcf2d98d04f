import Mathlib.Data.List.Perm.Subperm
import RdmaOnAsio.Ibv.Proofs.CompletionQueueStep

/-!
# Nested polls share one buffer

`poll(ec)` dispatches a batch out of the member `wc_buf_`, and a handler that calls `poll(ec)` fills it
again from the front. What the outer call has not dispatched yet is overwritten, unless the inner batch
ends before it: `keepsBatches`. An entry that is overwritten is never dispatched, and one that takes its
place is dispatched twice.
-/

namespace RdmaOnAsio.Ibv

open ErrorCode

namespace CompletionQueue

/-- A batch of `n` entries overwrites nothing that the call in this frame is still going to dispatch. -/
def Frame.survives (n : Nat) (f : Frame) : Bool :=
  match f.pc with
  | .batch _ m i => m ≤ i || n ≤ i
  | _ => true

/-- A batch handed out to a nested `poll(ec)` overwrites nothing that an outer call is still going to
dispatch. -/
def keepsBatches (pollBatch : Nat) (s : State) : Label → Bool
  | .run false =>
    match s.frames with
    | ⟨_, .pollCq _⟩ :: rest =>
      rest.all (Frame.survives (min (Poller.batchSize pollBatch) s.cq.length))
    | _ => true
  | _ => true

/-- The call in this frame has dispatched its batch. -/
def Frame.batchDone (f : Frame) : Bool :=
  match f.pc with
  | .batch _ m i => m ≤ i
  | _ => true

/-- An exception leaves no call that has not dispatched its batch. -/
def dropsNoEntry (s : State) : Label → Bool
  | .handlerThrows calls => (s.frames.take (2 * (calls + 1))).all Frame.batchDone
  | _ => true

/-- Every entry that was taken off the CQ is dispatched or still to be dispatched, once. -/
def Conserved (s : State) : Prop := (s.dispatched ++ s.pending).Perm s.taken

/-- The entry was taken off the CQ and is not dispatched, and no call is going to dispatch it. -/
def Lost (c : Cqe) (s : State) : Prop := c ∈ s.taken ∧ c ∉ s.dispatched ∧ c ∉ s.pending

variable {pollBatch : Nat} {s s' : State} {call : Nat} {rest : List Frame} {pc : Pc} {b : Bool}
  {l : Label} {c : Cqe} {f : Frame} {buf : List Cqe}

/-! ## What a call is going to dispatch -/

theorem Frame.mem_pending :
    c ∈ f.pending buf ↔ ∃ total m i j, f.pc = .batch total m i ∧ i ≤ j ∧ j < m ∧ buf[j]? = some c := by
  obtain ⟨k, pc⟩ := f
  constructor
  · intro hmem
    cases pc with
    | batch total m i =>
      obtain ⟨j, hj⟩ := List.mem_iff_getElem?.1 hmem
      rw [Frame.pending_batch, List.getElem?_drop, List.getElem?_take] at hj
      split_ifs at hj with hlt
      exact ⟨total, m, i, i + j, rfl, Nat.le_add_right i j, hlt, hj⟩
    | _ => cases hmem
  · rintro ⟨total, m, i, j, hpc, hij, hjm, hc⟩
    obtain rfl : pc = .batch total m i := hpc
    refine List.mem_iff_getElem?.2 ⟨j - i, ?_⟩
    rw [Frame.pending_batch, List.getElem?_drop, List.getElem?_take, if_pos (by omega), Nat.add_sub_cancel' hij]
    exact hc

theorem State.mem_pending : c ∈ s.pending ↔ ∃ f ∈ s.frames, c ∈ f.pending s.wcBuf :=
  List.mem_flatMap

/-- How many entries the call in this frame is still going to dispatch. -/
def Frame.remaining (f : Frame) : Nat :=
  match f.pc with
  | .batch _ m i => m - i
  | _ => 0

theorem Frame.length_pending
    (hb : ∀ total m i, f.pc = .batch total m i → i ≤ m ∧ m ≤ buf.length) :
    (f.pending buf).length = f.remaining := by
  obtain ⟨k, pc⟩ := f
  cases pc with
  | batch total m i =>
    have hle := hb total m i rfl
    rw [Frame.pending_batch, List.length_drop, List.length_take]
    show _ = m - i
    omega
  | _ => rfl

theorem length_flatMap_pending {fs : List Frame}
    (hb : ∀ f ∈ fs, ∀ total m i, f.pc = .batch total m i → i ≤ m ∧ m ≤ buf.length) :
    (fs.flatMap (Frame.pending buf)).length = (fs.map Frame.remaining).sum := by
  rw [List.length_flatMap]
  exact congrArg List.sum (List.map_congr_left fun f hf => Frame.length_pending (hb f hf))

/-- A batch that ends before the remaining entries leaves them alone. -/
theorem Frame.pending_survives {n : Nat} (hs : f.survives n = true) (hn : n ≤ s.cq.length) :
    f.pending (s.fillBuffer n).wcBuf = f.pending s.wcBuf := by
  obtain ⟨k, pc⟩ := f
  cases pc with
  | batch total m i =>
    rcases Bool.or_eq_true_iff.1 hs with hdone | hle
    · rw [Frame.pending_end (of_decide_eq_true hdone), Frame.pending_end (of_decide_eq_true hdone)]
    · have hni : n ≤ i := of_decide_eq_true hle
      have hlen : (s.cq.take n).length = n := by
        rw [List.length_take]
        omega
      have hskip : (s.cq.take n ++ s.wcBuf.drop n).drop i = s.wcBuf.drop i := by
        rw [List.drop_append, List.drop_eq_nil_of_le (by omega), List.nil_append, hlen, List.drop_drop,
          Nat.add_sub_cancel' hni]
      rw [Frame.pending_batch, Frame.pending_batch, List.drop_take, List.drop_take]
      exact congrArg (List.take (m - i)) hskip
  | _ => rfl

/-- A batch that reaches into the remaining entries puts one of its own among them. -/
theorem Frame.pending_overwritten {n : Nat} (hs : f.survives n = false) (hn : n ≤ s.cq.length) :
    ∃ c ∈ s.cq.take n, c ∈ f.pending (s.fillBuffer n).wcBuf := by
  obtain ⟨k, pc⟩ := f
  cases pc with
  | batch total m i =>
    obtain ⟨him, hin⟩ : i < m ∧ i < n := by simpa [Frame.survives] using hs
    have hlt : i < (s.cq.take n).length := by
      rw [List.length_take]
      omega
    refine ⟨(s.cq.take n)[i], List.getElem_mem hlt, Frame.mem_pending.2 ⟨total, m, i, i, rfl,
      Nat.le_refl i, him, ?_⟩⟩
    show (s.cq.take n ++ s.wcBuf.drop n)[i]? = _
    rw [List.getElem?_append_left hlt, List.getElem?_eq_getElem hlt]
  | _ => cases hs

/-- Nothing but the batch itself comes among the remaining entries. -/
theorem Frame.mem_pending_fillBuffer {n : Nat} (hn : n ≤ s.cq.length)
    (hc : c ∈ f.pending (s.fillBuffer n).wcBuf) : c ∈ s.cq.take n ∨ c ∈ f.pending s.wcBuf := by
  obtain ⟨total, m, i, j, hpc, hij, hjm, hj⟩ := Frame.mem_pending.1 hc
  change (s.cq.take n ++ s.wcBuf.drop n)[j]? = some c at hj
  have hlen : (s.cq.take n).length = n := by
    rw [List.length_take]
    omega
  rw [List.getElem?_append] at hj
  split_ifs at hj with hlt
  · exact .inl (List.mem_of_getElem? hj)
  · refine .inr (Frame.mem_pending.2 ⟨total, m, i, j, hpc, hij, hjm, ?_⟩)
    rw [List.getElem?_drop, hlen, Nat.add_sub_cancel' (by omega)] at hj
    exact hj

/-! ## No entry is forgotten or repeated -/

/-- The entries dispatched and the entries to be dispatched are as many as were taken. -/
def Tallied (s : State) : Prop :=
  s.dispatched.length + (s.frames.map Frame.remaining).sum = s.taken.length

theorem sum_remaining_dispatched {below : List Frame} :
    ((s.dispatch c call below).frames.map Frame.remaining).sum = (below.map Frame.remaining).sum := by
  simp only [State.dispatch]
  split_ifs
  · rw [List.map_cons, List.sum_cons, show Frame.remaining ⟨call, .handler⟩ = 0 from rfl, Nat.zero_add]
  · rfl

theorem Tallied.advances (h : Tallied s) (hf : s.frames = ⟨call, pc⟩ :: rest)
    (hst : Advances pollBatch s call rest pc b s') : Tallied s' := by
  unfold Tallied at h ⊢
  rw [hf, List.map_cons, List.sum_cons] at h
  cases hst with
  | drain op queue n => simpa [State.complete, Frame.remaining] using h
  | popReady op ready b hr => simpa [State.complete, Frame.remaining] using h
  | pollCq total n hn =>
    simp only [State.fillBuffer, List.map_cons, List.sum_cons, Frame.remaining, List.length_append,
      List.length_take] at h ⊢
    omega
  | dispatch total n i c b hi hc =>
    rw [sum_remaining_dispatched]
    simp only [State.dispatch, List.map_cons, List.sum_cons, Frame.remaining, List.length_append,
      List.length_singleton] at h ⊢
    omega
  | pollOneTake c cq hc =>
    rw [sum_remaining_dispatched]
    simp only [State.dispatch, List.map_cons, List.sum_cons, Frame.remaining, List.length_append,
      List.length_singleton] at h ⊢
    omega
  | pollAgain total n i b hi hn =>
    simp only [List.map_cons, List.sum_cons, Frame.remaining] at h ⊢
    omega
  | pollEnd total i => simpa [State.leave, Frame.remaining] using h
  | _ => simpa [State.leave, Frame.remaining] using h

theorem Tallied.step (h : Tallied s) (hq : l.quiet = true)
    (hst : (completionQueue pollBatch).step s l = some s') : Tallied s' := by
  cases Step.of_step hst with
  | run call pc rest b _ hf ha => exact h.advances hf ha
  | poll hc => simpa [Tallied, State.enter, Frame.remaining] using h
  | pollOne hc => simpa [Tallied, State.enter, Frame.remaining] using h
  | handlerReturns call rest hf => simpa [Tallied, hf, Frame.remaining] using h
  | handlerThrows calls hh => cases hq
  | pushReady addr byHandler ha hh => exact h
  | post addr ha => exact h
  | cqe wc hw => exact h
  | destroy hf => exact h

/-- If the numbers agree and an entry is missing or repeated, then one is lost. -/
theorem exists_lost (hn : Numbered s) (hb : Buffered s) (ht : Tallied s) (h : ¬ Conserved s) :
    ∃ c, Lost c s := by
  by_contra hnone
  have hnd : s.taken.Nodup := by
    have := hn.nodup
    rw [hn.split] at this
    exact (List.nodup_append.1 this).1
  have hsub : s.taken ⊆ s.dispatched ++ s.pending := by
    intro c hc
    by_contra hmem
    rw [List.mem_append, not_or] at hmem
    exact hnone ⟨c, hc, hmem⟩
  refine h (((List.subperm_of_subset hnd hsub).perm_of_length_le ?_).symm)
  have hlen : (s.frames.flatMap (Frame.pending s.wcBuf)).length = _ := length_flatMap_pending hb
  rw [List.length_append, State.pending, hlen]
  exact Nat.le_of_eq ht

/-! ## A step keeps every entry, or loses one for good -/

/-- `poll_cq` into `wc_buf_` keeps every entry exactly if the batch overwrites nothing that is left. -/
theorem Conserved.pollCq (h : Conserved s) (hn : Numbered s)
    {total : Nat} (hf : s.frames = ⟨call, .pollCq total⟩ :: rest) {n : Nat}
    (hle : n ≤ s.cq.length) :
    Conserved { s.fillBuffer n with frames := ⟨call, .batch total n 0⟩ :: rest } ↔
      rest.all (Frame.survives n) = true := by
  have hpend : State.pending { s.fillBuffer n with frames := ⟨call, .batch total n 0⟩ :: rest } =
      s.cq.take n ++ rest.flatMap (Frame.pending (s.fillBuffer n).wcBuf) := by
    rw [State.pending_of_frames rfl, Frame.pending_fillBuffer hle]
  unfold Conserved at h ⊢
  rw [State.pending_of_frames hf] at h
  rw [hpend]
  show (s.dispatched ++ _).Perm (s.taken ++ s.cq.take n) ↔ _
  constructor
  · intro hperm
    by_contra hall
    rw [Bool.not_eq_true, List.all_eq_false] at hall
    obtain ⟨f, hfr, hs⟩ := hall
    obtain ⟨c, hc, hcf⟩ := Frame.pending_overwritten (by simpa using hs) hle
    -- the entry is in the new batch and in what an outer call is going to dispatch
    have hnd : (s.taken ++ s.cq.take n).Nodup := by
      have hnd := hn.nodup
      rw [hn.split, ← List.take_append_drop n s.cq, ← List.append_assoc] at hnd
      exact (List.nodup_append.1 hnd).1
    have hcount := List.nodup_iff_count_le_one.1 (hperm.nodup_iff.2 hnd) c
    have hone := List.count_pos_iff.2 hc
    have htwo := List.count_pos_iff.2 (List.mem_flatMap.2 ⟨f, hfr, hcf⟩)
    rw [List.count_append, List.count_append] at hcount
    omega
  · intro hall
    have hsame : rest.flatMap (Frame.pending (s.fillBuffer n).wcBuf) =
        rest.flatMap (Frame.pending s.wcBuf) :=
      List.flatMap_congr fun f hfr => Frame.pending_survives (List.all_eq_true.1 hall f hfr) hle
    rw [hsame]
    have hnil : Frame.pending s.wcBuf ⟨call, .pollCq total⟩ = [] := rfl
    rw [hnil, List.nil_append] at h
    refine List.Perm.trans ?_ (h.append_right (s.cq.take n))
    rw [List.append_assoc]
    exact List.perm_append_comm.append_left _

theorem Conserved.advances (h : Conserved s) (hn : Numbered s) (hf : s.frames = ⟨call, pc⟩ :: rest)
    (hst : Advances pollBatch s call rest pc b s') :
    Conserved s' ↔ keepsBatches pollBatch s (.run b) = true := by
  have hkeep : (∀ total, pc ≠ .pollCq total) → Conserved s' →
      (Conserved s' ↔ keepsBatches pollBatch s (.run b) = true) := by
    intro hne hs'
    refine iff_of_true hs' ?_
    unfold keepsBatches
    rw [hf]
    cases b with
    | true => rfl
    | false =>
      cases pc with
      | pollCq total => exact absurd rfl (hne total)
      | _ => rfl
  have hp := State.pending_of_frames hf
  unfold Conserved at h
  rw [hp] at h
  cases hst with
  | pollCq total n hn' =>
    rw [Conserved.pollCq (by unfold Conserved; rwa [hp]) hn hf (by omega)]
    simp only [keepsBatches, hf, hn']
  | pollFailed total => exact iff_of_true h rfl
  | takeReady => exact hkeep (fun _ => Pc.noConfusion) h
  | drained n => exact hkeep (fun _ => Pc.noConfusion) h
  | drain op queue n => exact hkeep (fun _ => Pc.noConfusion) h
  | dispatch total n i c b hi hc =>
    refine hkeep (fun _ => Pc.noConfusion) ?_
    unfold Conserved
    rw [State.pending, flatMap_dispatched rfl, List.flatMap_cons]
    rw [Frame.pending_dispatch hi hc] at h
    simpa [State.dispatch] using h
  | pollAgain total n i b hi hn' =>
    refine hkeep (fun _ => Pc.noConfusion) ?_
    rw [Frame.pending_end hi] at h
    exact h
  | pollEnd total i =>
    refine hkeep (fun _ => Pc.noConfusion) ?_
    rw [Frame.pending_end (Nat.zero_le i)] at h
    exact h
  | popReady op ready b hr => exact hkeep (fun _ => Pc.noConfusion) h
  | noReady b hr => exact hkeep (fun _ => Pc.noConfusion) h
  | pollOneFailed => exact hkeep (fun _ => Pc.noConfusion) h
  | pollOneTake c cq hc =>
    refine hkeep (fun _ => Pc.noConfusion) ?_
    unfold Conserved
    rw [State.pending, flatMap_dispatched rfl, List.flatMap_cons]
    have hnil : ∀ buf, Frame.pending buf ⟨call, .pollOneCq⟩ = [] := fun _ => rfl
    rw [hnil, List.nil_append] at h
    show (s.dispatched ++ [c] ++ rest.flatMap (Frame.pending s.wcBuf)).Perm (s.taken ++ [c])
    refine List.Perm.trans ?_ (h.append_right [c])
    rw [List.append_assoc, List.append_assoc]
    exact List.perm_append_comm.append_left _
  | pollOneEmpty hc => exact hkeep (fun _ => Pc.noConfusion) h
  | pollOneDone => exact hkeep (fun _ => Pc.noConfusion) h

/-- Unwinding keeps every entry exactly if the calls on the way have dispatched their batches. -/
theorem Conserved.unwind (h : Conserved s) (hb : Buffered s) (calls : Nat) :
    Conserved (s.unwind calls) ↔ dropsNoEntry s (.handlerThrows calls) = true := by
  have hsplit : s.pending = (s.frames.take (2 * (calls + 1))).flatMap (Frame.pending s.wcBuf) ++
      (s.unwind calls).pending := by
    rw [State.pending, State.unwind, State.pending, ← List.flatMap_append, List.take_append_drop]
  unfold Conserved at h ⊢
  constructor
  · intro hperm
    have hlen := hperm.length_eq
    have hlen' := h.length_eq
    rw [hsplit, List.length_append, List.length_append] at hlen'
    have hnil : (s.frames.take (2 * (calls + 1))).flatMap (Frame.pending s.wcBuf) = [] := by
      refine List.eq_nil_of_length_eq_zero ?_
      rw [List.length_append] at hlen
      have hd : (s.unwind calls).dispatched.length = s.dispatched.length := rfl
      have ht : (s.unwind calls).taken.length = s.taken.length := rfl
      omega
    refine List.all_eq_true.2 fun f hf => ?_
    have hempty := List.flatMap_eq_nil_iff.1 hnil f hf
    obtain ⟨k, pc⟩ := f
    cases pc with
    | batch total m i =>
      have hle := hb _ (List.mem_of_mem_take hf) total m i rfl
      have hzero := congrArg List.length hempty
      rw [Frame.pending_batch, List.length_drop, List.length_take, List.length_nil] at hzero
      refine decide_eq_true ?_
      omega
    | _ => rfl
  · intro hall
    have hnil : (s.frames.take (2 * (calls + 1))).flatMap (Frame.pending s.wcBuf) = [] := by
      refine List.flatMap_eq_nil_iff.2 fun f hf => ?_
      have hdone := List.all_eq_true.1 hall f hf
      obtain ⟨k, pc⟩ := f
      cases pc with
      | batch total m i => exact Frame.pending_end (of_decide_eq_true hdone)
      | _ => rfl
    rw [hsplit, hnil, List.nil_append] at h
    exact h

/-- Every step keeps every entry, exactly if it neither overwrites nor drops one. -/
theorem Conserved.step (h : Conserved s) (hn : Numbered s) (hb : Buffered s)
    (hst : (completionQueue pollBatch).step s l = some s') :
    Conserved s' ↔ (keepsBatches pollBatch s l && dropsNoEntry s l) = true := by
  cases Step.of_step hst with
  | run call pc rest b _ hf ha =>
    rw [h.advances hn hf ha, show dropsNoEntry s (.run b) = true from rfl, Bool.and_true]
  | handlerThrows calls hh => exact h.unwind hb calls
  | handlerReturns call rest hf =>
    refine iff_of_true ?_ rfl
    unfold Conserved at h
    rw [State.pending_of_frames hf] at h
    exact h
  | pushReady addr byHandler ha hh => exact iff_of_true h rfl
  | post addr ha => exact iff_of_true h rfl
  | cqe wc hw => exact iff_of_true h rfl
  | poll hc => exact iff_of_true h rfl
  | pollOne hc => exact iff_of_true h rfl
  | destroy hf => exact iff_of_true h rfl

theorem Lost.advances (h : Lost c s) (hn : Numbered s) (hf : s.frames = ⟨call, pc⟩ :: rest)
    (hst : Advances pollBatch s call rest pc b s') : Lost c s' := by
  obtain ⟨ht, hd, hp⟩ := h
  rw [State.pending_of_frames hf, List.mem_append, not_or] at hp
  cases hst with
  | pollCq total n hn' =>
    have hfresh : c ∉ s.cq.take n := fun hc => hn.fresh (List.mem_of_mem_take hc) ht
    refine ⟨List.mem_append_left _ ht, hd, fun hmem => ?_⟩
    rw [State.pending_of_frames rfl, Frame.pending_fillBuffer (by omega)] at hmem
    rcases List.mem_append.1 hmem with hmem | hmem
    · exact hfresh hmem
    · obtain ⟨f, hfr, hmem⟩ := List.mem_flatMap.1 hmem
      rcases Frame.mem_pending_fillBuffer (by omega) hmem with hmem | hmem
      · exact hfresh hmem
      · exact hp.2 (List.mem_flatMap.2 ⟨f, hfr, hmem⟩)
  | dispatch total n i c' b hi hc =>
    rw [Frame.pending_dispatch hi hc, List.mem_cons, not_or] at hp
    refine ⟨ht, fun hmem => ?_, fun hmem => ?_⟩
    · rcases List.mem_append.1 hmem with hmem | hmem
      · exact hd hmem
      · exact hp.1.1 (List.mem_singleton.1 hmem)
    · rw [State.pending, flatMap_dispatched rfl, List.flatMap_cons] at hmem
      rcases List.mem_append.1 hmem with hmem | hmem
      · exact hp.1.2 hmem
      · exact hp.2 hmem
  | pollOneTake c' cq hc =>
    have hne : c ≠ c' := by
      rintro rfl
      exact hn.fresh (by rw [hc]; exact List.mem_cons_self) ht
    refine ⟨List.mem_append_left _ ht, fun hmem => ?_, fun hmem => ?_⟩
    · rcases List.mem_append.1 hmem with hmem | hmem
      · exact hd hmem
      · exact hne (List.mem_singleton.1 hmem)
    · rw [State.pending, flatMap_dispatched rfl, List.flatMap_cons] at hmem
      rcases List.mem_append.1 hmem with hmem | hmem
      · cases hmem
      · exact hp.2 hmem
  | pollFailed total => exact ⟨ht, hd, hp.2⟩
  | pollEnd total i => exact ⟨ht, hd, hp.2⟩
  | pollOneFailed => exact ⟨ht, hd, hp.2⟩
  | pollOneEmpty hc => exact ⟨ht, hd, hp.2⟩
  | pollOneDone => exact ⟨ht, hd, hp.2⟩
  | _ => exact ⟨ht, hd, hp.2⟩

/-- What is lost stays lost. -/
theorem Lost.step (h : Lost c s) (hn : Numbered s)
    (hst : (completionQueue pollBatch).step s l = some s') : Lost c s' := by
  cases Step.of_step hst with
  | run call pc rest b _ hf ha => exact h.advances hn hf ha
  | handlerReturns call rest hf =>
    refine ⟨h.1, h.2.1, fun hmem => h.2.2 ?_⟩
    rw [State.pending_of_frames hf]
    exact hmem
  | handlerThrows calls hh =>
    refine ⟨h.1, h.2.1, fun hmem => h.2.2 ?_⟩
    obtain ⟨f, hf, hc⟩ := State.mem_pending.1 hmem
    exact State.mem_pending.2 ⟨f, List.mem_of_mem_drop hf, hc⟩
  | pushReady addr byHandler ha hh => exact h
  | post addr ha => exact h
  | cqe wc hw => exact h
  | poll hc => exact h
  | pollOne hc => exact h
  | destroy hf => exact h

/-! ## Whole runs -/

/-- What holds however the calls overlap: the entries are numbered and the batches lie within `wc_buf_`. -/
structure Sized (s : State) : Prop where
  numbered : Numbered s
  buffered : Buffered s

theorem Sized.fresh : Sized {} := ⟨⟨rfl, rfl⟩, fun _ hmem => nomatch hmem⟩

theorem Sized.step (h : Sized s) (hst : (completionQueue pollBatch).step s l = some s') : Sized s' :=
  ⟨h.numbered.step hst, h.buffered.step hst⟩

theorem Conserved.fresh : Conserved {} := List.Perm.refl _

/-- In every state of a run every entry is dispatched or to be dispatched, once, exactly if no step
overwrites or drops one. -/
theorem conserved_iff {ls : List Label} (hr : (completionQueue pollBatch).run {} ls = some s) :
    (∀ pre t, pre <+: ls → (completionQueue pollBatch).run {} pre = some t → Conserved t) ↔
      (completionQueue pollBatch).Meets
        (fun s l => (keepsBatches pollBatch s l && dropsNoEntry s l) = true) {} ls :=
  StepSystem.always_iff_meets (M := completionQueue pollBatch) (I := Sized)
    (fun _ _ _ hi _ hst => hi.step hst)
    (fun _ _ _ hi h hst => h.step hi.numbered hi.buffered hst) hr .fresh .fresh

theorem dropsNoEntry_of_quiet (hq : l.quiet = true) : dropsNoEntry s l = true := by
  cases l <;> first | rfl | cases hq

/-- Entries dispatched or to be dispatched, with no call in progress: dispatched. -/
theorem Conserved.dispatched (h : Conserved s) (hf : s.frames = []) : s.dispatched.Perm s.taken := by
  unfold Conserved at h
  rw [State.pending, hf, List.flatMap_nil, List.append_nil] at h
  exact h

/-- Once something is lost, the entries dispatched are no longer the entries taken. -/
theorem not_perm_of_lost {t : State} {ls : List Label} (ht : Sized t) (hl : Lost c t)
    (hr : (completionQueue pollBatch).run t ls = some s) : ¬ s.dispatched.Perm s.taken := by
  have hinv := StepSystem.invariant (M := completionQueue pollBatch)
    (I := fun s => Sized s ∧ Lost c s)
    (fun _ _ _ h hst => ⟨h.1.step hst, h.2.step h.1.numbered hst⟩) hr ⟨ht, hl⟩
  obtain ⟨-, hmem, hnot, -⟩ := hinv
  exact fun hperm => hnot (hperm.mem_iff.2 hmem)

/-- Nested polls are safe exactly if none overwrites what is left of an outer batch: when all calls have
returned, every entry taken off the CQ was dispatched once, and the counts returned add up to the ops
completed and the entries dispatched. -/
theorem nested_polls_iff {ls : List Label} (hr : (completionQueue pollBatch).run {} ls = some s)
    (hq : ∀ l ∈ ls, l.quiet = true) (hf : s.frames = []) :
    s.dispatched.Perm s.taken ∧
        (s.returned.map Returned.count).sum = s.completed.length + s.dispatched.length ↔
      (completionQueue pollBatch).Meets (fun s l => keepsBatches pollBatch s l = true) {} ls := by
  have hiff := conserved_iff hr
  have hquiet : (completionQueue pollBatch).Meets (fun _ l => l.quiet = true) {} ls :=
    StepSystem.meets_of_mem (fun l hl _ => hq l hl) ({} : State)
  constructor
  · rintro ⟨hperm, -⟩
    refine StepSystem.Meets.mono (fun t l hand => (Bool.and_eq_true_iff.1 hand).1) (hiff.1 ?_)
    rintro pre t ⟨post, rfl⟩ ht
    by_contra hnot
    obtain ⟨t', ht', hpost⟩ := StepSystem.run_append.1 hr
    obtain rfl : t' = t := Option.some.inj (ht'.symm.trans ht)
    have hqpre : ∀ l ∈ pre, l.quiet = true := fun l hl => hq l (List.mem_append_left _ hl)
    obtain ⟨hsized, htally⟩ := StepSystem.invariant_of_meets (M := completionQueue pollBatch)
      (I := fun s => Sized s ∧ Tallied s) (C := fun _ l => l.quiet = true)
      (fun _ _ _ h hl hst => ⟨h.1.step hst, h.2.step hl hst⟩) ht
      (StepSystem.meets_of_mem (fun l hl _ => hqpre l hl) ({} : State)) ⟨.fresh, rfl⟩
    obtain ⟨c, hlost⟩ := exists_lost hsized.numbered hsized.buffered htally hnot
    exact not_perm_of_lost hsized hlost hpost hperm
  · intro hm
    have hall : (completionQueue pollBatch).Meets
        (fun s l => (keepsBatches pollBatch s l && dropsNoEntry s l) = true) {} ls :=
      (hm.and hquiet).mono fun t l hand =>
        Bool.and_eq_true_iff.2 ⟨hand.1, dropsNoEntry_of_quiet hand.2⟩
    refine ⟨(hiff.2 hall ls s (List.prefix_refl ls) hr).dispatched hf, ?_⟩
    obtain ⟨-, hcount⟩ := StepSystem.invariant_of_meets (M := completionQueue pollBatch)
      (I := fun s => Buffered s ∧ s.counted = s.completed.length + s.dispatched.length)
      (fun _ _ _ h hl hst => ⟨h.1.step hst, counted_step h.1 h.2 hl hst⟩) hr hquiet
      ⟨Sized.fresh.buffered, rfl⟩
    rw [State.counted, hf] at hcount
    exact hcount

/-- The first handler of a batch of two polls again and takes one entry. -/
def nestedPoll : List Label :=
  [.post 1, .post 2, .post 3, .cqe ⟨1, .success, .send, 0⟩, .cqe ⟨2, .success, .send, 0⟩, .poll,
    .run false, .run false, .run false, .run false, .cqe ⟨3, .success, .send, 0⟩, .poll, .run false,
    .run false, .run false, .run false, .handlerReturns, .run false, .run false, .run false,
    .handlerReturns, .run false, .handlerReturns, .run false, .run false, .run false]

/-- The inner batch ends before what the outer call has left. -/
theorem nested_polls_iff_nestedPoll :
    let s := (completionQueue 2).after {} nestedPoll
    s.dispatched.Perm s.taken ∧
      (s.returned.map Returned.count).sum = s.completed.length + s.dispatched.length := by
  have hr : ((completionQueue 2).run {} nestedPoll).isSome = true := by decide +kernel
  exact (nested_polls_iff (StepSystem.run_after hr) (by decide +kernel) (by decide +kernel)).2
    (by decide +kernel)

/-- The first handler of a batch of two polls again and takes two entries. -/
def overwritingPoll : List Label :=
  [.post 1, .post 2, .post 3, .post 4, .cqe ⟨1, .success, .send, 0⟩, .cqe ⟨2, .success, .send, 0⟩,
    .poll, .run false, .run false, .run false, .run false, .cqe ⟨3, .success, .send, 0⟩,
    .cqe ⟨4, .success, .send, 0⟩, .poll, .run false, .run false, .run false, .run false,
    .handlerReturns, .run false, .handlerReturns, .run false, .run false, .run false,
    .handlerReturns, .run false, .handlerReturns, .run false, .run false, .run false]

/-- The second entry is never dispatched, and the fourth is dispatched twice. -/
theorem not_nested_polls :
    ¬ ∀ ls s, (completionQueue 2).run {} ls = some s → (∀ l ∈ ls, l.quiet = true) →
      s.frames = [] → s.dispatched.Perm s.taken := by
  intro h
  have hr : ((completionQueue 2).run {} overwritingPoll).isSome = true := by decide +kernel
  have := h overwritingPoll _ (StepSystem.run_after hr) (by decide +kernel) (by decide +kernel)
  revert this
  decide +kernel

end CompletionQueue

end RdmaOnAsio.Ibv
