import Mathlib.Algebra.GroupWithZero.Nat
import Mathlib.Data.List.Nodup
import RdmaOnAsio.Ibv.CompletionQueue

/-!
# What one step of the completion queue can do

`Advances` lists the steps of a call, `Step` those of the system. What follows from them without looking at
how the calls overlap: the entries are numbered, every immediate op is in one of four places, and every
posted op is with the HCA or has an entry.
-/

namespace RdmaOnAsio.Ibv

open ErrorCode

namespace CompletionQueue

/-- The steps of `advance`. -/
inductive Advances (pollBatch : Nat) (s : State) (call : Nat) (rest : List Frame) :
    Pc → Bool → State → Prop
  | takeReady (b : Bool) :
    Advances pollBatch s call rest .takeReady b
      { s with ready := [], frames := ⟨call, .drain s.ready 0⟩ :: rest }
  | drained (n : Nat) (b : Bool) :
    Advances pollBatch s call rest (.drain [] n) b { s with frames := ⟨call, .pollCq n⟩ :: rest }
  | drain (op : ReadyOp) (queue : List ReadyOp) (n : Nat) (b : Bool) :
    Advances pollBatch s call rest (.drain (op :: queue) n) b
      (s.complete op call (⟨call, .drain queue (n + 1)⟩ :: rest))
  | pollFailed (total : Nat) :
    Advances pollBatch s call rest (.pollCq total) true
      (s.leave call total (makeSystemErrorCode eio) rest)
  | pollCq (total n : Nat) (hn : n = min (Poller.batchSize pollBatch) s.cq.length) :
    Advances pollBatch s call rest (.pollCq total) false
      { s.fillBuffer n with frames := ⟨call, .batch total n 0⟩ :: rest }
  | dispatch (total n i : Nat) (c : Cqe) (b : Bool) (hi : i < n) (hc : s.wcBuf[i]? = some c) :
    Advances pollBatch s call rest (.batch total n i) b
      (s.dispatch c call (⟨call, .batch total n (i + 1)⟩ :: rest))
  | pollAgain (total n i : Nat) (b : Bool) (hi : n ≤ i) (hn : 0 < n) :
    Advances pollBatch s call rest (.batch total n i) b
      { s with frames := ⟨call, .pollCq (total + n)⟩ :: rest }
  | pollEnd (total i : Nat) (b : Bool) :
    Advances pollBatch s call rest (.batch total 0 i) b (s.leave call total success rest)
  | popReady (op : ReadyOp) (ready : List ReadyOp) (b : Bool) (hr : s.ready = op :: ready) :
    Advances pollBatch s call rest .popReady b
      ({ s with ready := ready }.complete op call (⟨call, .pollOneDone⟩ :: rest))
  | noReady (b : Bool) (hr : s.ready = []) :
    Advances pollBatch s call rest .popReady b { s with frames := ⟨call, .pollOneCq⟩ :: rest }
  | pollOneFailed :
    Advances pollBatch s call rest .pollOneCq true (s.leave call 0 (makeSystemErrorCode eio) rest)
  | pollOneTake (c : Cqe) (cq : List Cqe) (hc : s.cq = c :: cq) :
    Advances pollBatch s call rest .pollOneCq false
      ({ s with cq := cq, taken := s.taken ++ [c] }.dispatch c call (⟨call, .pollOneDone⟩ :: rest))
  | pollOneEmpty (hc : s.cq = []) :
    Advances pollBatch s call rest .pollOneCq false (s.leave call 0 success rest)
  | pollOneDone (b : Bool) :
    Advances pollBatch s call rest .pollOneDone b (s.leave call 1 success rest)

/-- The steps of `step`. -/
inductive Step (pollBatch : Nat) (s : State) : Label → State → Prop
  | pushReady (addr : Nat) (byHandler : Bool) (ha : addr ≠ 0) (hh : byHandler → s.inHandler) :
    Step pollBatch s (.pushReady addr byHandler)
      { s with
        ready := s.ready ++ [⟨addr, if byHandler then s.handlerCall else none⟩]
        pushed := s.pushed ++ [addr] }
  | post (addr : Nat) (ha : addr ≠ 0) :
    Step pollBatch s (.post addr)
      { s with posted := s.posted ++ [addr], requested := s.requested ++ [addr] }
  | cqe (wc : Wc) (hw : wc.wrId = 0 ∨ wc.wrId ∈ s.posted) :
    Step pollBatch s (.cqe wc)
      { s with
        posted := s.posted.erase wc.wrId
        cq := s.cq ++ [⟨s.arrived.length, wc⟩]
        arrived := s.arrived ++ [⟨s.arrived.length, wc⟩] }
  | poll (hc : s.callable = true) : Step pollBatch s .poll (s.enter .takeReady)
  | pollOne (hc : s.callable = true) : Step pollBatch s .pollOne (s.enter .popReady)
  | run (call : Nat) (pc : Pc) (rest : List Frame) (b : Bool) (s' : State)
      (hf : s.frames = ⟨call, pc⟩ :: rest) (h : Advances pollBatch s call rest pc b s') :
    Step pollBatch s (.run b) s'
  | handlerReturns (call : Nat) (rest : List Frame) (hf : s.frames = ⟨call, .handler⟩ :: rest) :
    Step pollBatch s .handlerReturns { s with frames := rest }
  | handlerThrows (calls : Nat) (hh : s.inHandler = true) :
    Step pollBatch s (.handlerThrows calls) (s.unwind calls)
  | destroy (hf : s.frames = []) : Step pollBatch s .destroy s.destroy

variable {pollBatch : Nat} {s s' : State} {call : Nat} {rest : List Frame} {pc : Pc} {b : Bool}
  {l : Label}

theorem Advances.of_advance (h : s.advance pollBatch call rest b pc = some s') :
    Advances pollBatch s call rest pc b s' := by
  cases pc with
  | takeReady =>
    obtain rfl := Option.some.inj h
    exact .takeReady b
  | drain queue n =>
    cases queue with
    | nil =>
      obtain rfl := Option.some.inj h
      exact .drained n b
    | cons op queue =>
      obtain rfl := Option.some.inj h
      exact .drain op queue n b
  | pollCq total =>
    cases b with
    | true =>
      obtain rfl := Option.some.inj h
      exact .pollFailed total
    | false =>
      obtain rfl := Option.some.inj h
      exact .pollCq total _ rfl
  | batch total n i =>
    simp only [State.advance] at h
    split_ifs at h with hi hn
    · split at h
      · next c hc =>
        obtain rfl := Option.some.inj h
        exact .dispatch total n i c b hi hc
      · cases h
    · obtain rfl := Option.some.inj h
      exact .pollAgain total n i b (by omega) hn
    · obtain rfl := Option.some.inj h
      obtain rfl : n = 0 := by omega
      exact .pollEnd total i b
  | popReady =>
    simp only [State.advance] at h
    split at h <;> obtain rfl := Option.some.inj h
    · next op ready hr => exact .popReady op ready b hr
    · next hr => exact .noReady b hr
  | pollOneCq =>
    cases b with
    | true =>
      obtain rfl := Option.some.inj h
      exact .pollOneFailed
    | false =>
      simp only [State.advance, Bool.false_eq_true, if_false] at h
      split at h <;> obtain rfl := Option.some.inj h
      · next c cq hc => exact .pollOneTake c cq hc
      · next hc => exact .pollOneEmpty hc
  | pollOneDone =>
    obtain rfl := Option.some.inj h
    exact .pollOneDone b
  | handler => cases h

/-- The step function takes only the listed steps. -/
theorem Step.of_step (h : (completionQueue pollBatch).step s l = some s') :
    Step pollBatch s l s' := by
  change s.step pollBatch l = some s' at h
  cases l with
  | pushReady addr byHandler =>
    simp only [State.step, Option.ite_none_right_eq_some, Option.some.injEq] at h
    obtain ⟨hg, rfl⟩ := h
    exact .pushReady addr byHandler hg.2.1 hg.2.2
  | post addr =>
    simp only [State.step] at h
    split_ifs at h with hg
    obtain rfl := Option.some.inj h
    exact .post addr hg.2
  | cqe wc =>
    simp only [State.step] at h
    split_ifs at h with hg
    obtain rfl := Option.some.inj h
    exact .cqe wc hg.2
  | poll =>
    simp only [State.step] at h
    split_ifs at h with hg
    obtain rfl := Option.some.inj h
    exact .poll hg.2
  | pollOne =>
    simp only [State.step] at h
    split_ifs at h with hg
    obtain rfl := Option.some.inj h
    exact .pollOne hg.2
  | run pollFails =>
    simp only [State.step] at h
    split at h
    · next call pc rest hf => exact .run call pc rest pollFails s' hf (.of_advance h)
    · cases h
  | handlerReturns =>
    simp only [State.step] at h
    split at h
    · next call rest hf =>
      obtain rfl := Option.some.inj h
      exact .handlerReturns call rest hf
    · cases h
  | handlerThrows calls =>
    simp only [State.step] at h
    split_ifs at h with hg
    obtain rfl := Option.some.inj h
    exact .handlerThrows calls hg
  | destroy =>
    simp only [State.step] at h
    split_ifs at h with hg
    obtain rfl := Option.some.inj h
    exact .destroy hg.2

/-! ## Frames -/

@[simp] theorem Frame.queue_handler : Frame.queue ⟨call, .handler⟩ = [] := rfl

@[simp] theorem Frame.pending_handler {buf : List Cqe} : Frame.pending buf ⟨call, .handler⟩ = [] := rfl

theorem State.pending_of_frames (hf : s.frames = ⟨call, pc⟩ :: rest) :
    s.pending = Frame.pending s.wcBuf ⟨call, pc⟩ ++ rest.flatMap (Frame.pending s.wcBuf) := by
  rw [State.pending, hf, List.flatMap_cons]

theorem State.draining_of_frames (hf : s.frames = ⟨call, pc⟩ :: rest) :
    s.draining = Frame.queue ⟨call, pc⟩ ++ rest.flatMap Frame.queue := by
  rw [State.draining, hf, List.flatMap_cons]

/-- A handler on top of the frames holds nothing itself. -/
theorem flatMap_dispatched {α : Type} {g : Frame → List α} {c : Cqe} {below : List Frame}
    (hg : g ⟨call, .handler⟩ = []) :
    (s.dispatch c call below).frames.flatMap g = below.flatMap g := by
  simp only [State.dispatch]
  split_ifs
  · rw [List.flatMap_cons, hg, List.nil_append]
  · rfl

/-! ## The entries are numbered -/

/-- The entries have the numbers from zero on, and what was taken off the CQ and what is on it make up what
arrived. -/
structure Numbered (s : State) : Prop where
  seq : s.arrived.map Cqe.seq = List.range s.arrived.length
  split : s.arrived = s.taken ++ s.cq

theorem Numbered.nodup (h : Numbered s) : s.arrived.Nodup := by
  refine List.Nodup.of_map Cqe.seq ?_
  rw [h.seq]
  exact List.nodup_range

/-- An entry on the CQ was not taken before. -/
theorem Numbered.fresh (h : Numbered s) {c : Cqe} (hc : c ∈ s.cq) : c ∉ s.taken := by
  have hnd := h.nodup
  rw [h.split] at hnd
  exact fun ht => List.disjoint_of_nodup_append hnd ht hc

theorem Numbered.advances (h : Numbered s) (hst : Advances pollBatch s call rest pc b s') :
    Numbered s' := by
  cases hst with
  | pollCq total n hn =>
    refine ⟨h.seq, ?_⟩
    exact h.split.trans (by simp [State.fillBuffer])
  | pollOneTake c cq hc =>
    refine ⟨h.seq, ?_⟩
    exact h.split.trans (by simp [State.dispatch, hc])
  | _ => exact ⟨h.seq, h.split⟩

theorem Numbered.step (h : Numbered s) (hst : (completionQueue pollBatch).step s l = some s') :
    Numbered s' := by
  cases Step.of_step hst with
  | run call pc rest b _ hf ha => exact h.advances ha
  | cqe wc hw =>
    constructor
    · rw [List.map_append, h.seq, List.length_append]
      exact List.range_succ.symm
    · exact (congrArg (· ++ _) h.split).trans (List.append_assoc ..)
  | _ => exact ⟨h.seq, h.split⟩

/-! ## Where the immediate ops are -/

/-- The immediate ops at this address: queued, in a local queue, completed, and destroyed. -/
def State.pushedAt (s : State) (a : Nat) : Nat :=
  (s.ready.map ReadyOp.addr).count a + (s.draining.map ReadyOp.addr).count a +
    (s.completed.map fun c => c.op.addr).count a + s.destroyed.count a

theorem pushedAt_advances {a : Nat} (hf : s.frames = ⟨call, pc⟩ :: rest)
    (hst : Advances pollBatch s call rest pc b s') : s'.pushedAt a = s.pushedAt a := by
  have hd := State.draining_of_frames hf
  cases hst with
  | takeReady =>
    simp only [State.pushedAt, State.draining, hf, List.flatMap_cons, Frame.queue, List.map_append,
      List.map_nil, List.count_append, List.count_nil]
    omega
  | drain op queue n =>
    simp only [State.pushedAt, State.draining, hf, State.complete, List.flatMap_cons, Frame.queue,
      List.map_append, List.map_cons, List.map_nil, List.count_append, List.count_cons,
      List.count_nil]
    omega
  | popReady op ready b hr =>
    simp only [State.pushedAt, State.draining, hf, hr, State.complete, List.flatMap_cons, Frame.queue,
      List.map_append, List.map_cons, List.map_nil, List.count_append, List.count_cons,
      List.count_nil]
    omega
  | dispatch total n i c b hi hc =>
    have hq : (s.dispatch c call (⟨call, .batch total n (i + 1)⟩ :: rest)).draining = s.draining := by
      rw [State.draining, flatMap_dispatched rfl, hd]
      rfl
    rw [State.pushedAt, State.pushedAt, hq]
    rfl
  | pollOneTake c cq hc =>
    have hq : ({ s with cq := cq, taken := s.taken ++ [c] }.dispatch c call
        (⟨call, .pollOneDone⟩ :: rest)).draining = s.draining := by
      rw [State.draining, flatMap_dispatched rfl, hd]
      rfl
    rw [State.pushedAt, State.pushedAt, hq]
    rfl
  | _ =>
    rw [State.pushedAt, State.pushedAt, hd]
    rfl

/-- Every immediate op is queued, completed or destroyed, once. -/
theorem pushedAt_step {a : Nat} (h : s.pushedAt a = s.pushed.count a)
    (hst : (completionQueue pollBatch).step s l = some s') : s'.pushedAt a = s'.pushed.count a := by
  cases Step.of_step hst with
  | run call pc rest b _ hf ha =>
    rw [pushedAt_advances hf ha, h]
    cases ha <;> rfl
  | pushReady addr byHandler ha hh =>
    simp only [State.pushedAt, State.draining, List.map_append, List.map_cons, List.map_nil,
      List.count_append] at h ⊢
    omega
  | post addr ha => exact h
  | cqe wc hw => exact h
  | poll hc => exact h
  | pollOne hc => exact h
  | handlerReturns call rest hf =>
    rw [State.pushedAt, State.draining_of_frames hf] at h
    exact h
  | handlerThrows calls hh =>
    -- what the local queues held is destroyed
    have hsplit : s.draining =
        (s.frames.take (2 * (calls + 1))).flatMap Frame.queue ++ (s.unwind calls).draining := by
      rw [State.draining, State.unwind, State.draining, ← List.flatMap_append,
        List.take_append_drop]
    rw [State.pushedAt, hsplit] at h
    rw [State.pushedAt]
    simp only [State.unwind, List.map_append, List.count_append] at h ⊢
    omega
  | destroy hf =>
    simp only [State.pushedAt, State.destroy, State.draining, hf, List.flatMap_nil, List.map_nil,
      List.count_append, List.count_nil] at h ⊢
    omega

/-! ## Where the posted ops are -/

/-- Every posted op is with the HCA, or has one entry. -/
theorem requested_step {a : Nat} (ha : a ≠ 0)
    (h : s.posted.count a + (s.arrived.map fun c => c.wc.wrId).count a = s.requested.count a)
    (hst : (completionQueue pollBatch).step s l = some s') :
    s'.posted.count a + (s'.arrived.map fun c => c.wc.wrId).count a = s'.requested.count a := by
  cases Step.of_step hst with
  | run call pc rest b _ hf hadv => cases hadv <;> exact h
  | post addr _ =>
    simp only [List.count_append] at h ⊢
    omega
  | cqe wc hw =>
    simp only [List.map_append, List.map_cons, List.map_nil, List.count_append]
    by_cases hwa : wc.wrId = a
    · have hmem : a ∈ s.posted := by
        rcases hw with h0 | hmem
        · exact absurd (hwa.symm.trans h0) ha
        · exact hwa ▸ hmem
      have hpos := List.count_pos_iff.2 hmem
      rw [hwa, List.count_erase_self, List.count_singleton_self]
      omega
    · have hnil : [wc.wrId].count a = 0 := List.count_eq_zero.2 (by simpa using Ne.symm hwa)
      rw [List.count_erase_of_ne (Ne.symm hwa), hnil]
      omega
  | _ => exact h

/-! ## The shared buffer -/

/-- Every batch in progress lies within `wc_buf_`. -/
def Buffered (s : State) : Prop :=
  ∀ f ∈ s.frames, ∀ total n i, f.pc = .batch total n i → i ≤ n ∧ n ≤ s.wcBuf.length

/-- `poll_cq` leaves what is behind the entries it writes. -/
theorem wcBuf_fillBuffer_length {n : Nat} (hn : n ≤ s.cq.length) :
    (s.fillBuffer n).wcBuf.length = max n s.wcBuf.length := by
  simp only [State.fillBuffer, List.length_append, List.length_take, List.length_drop]
  omega

theorem Frame.pending_batch {buf : List Cqe} {total n i : Nat} :
    Frame.pending buf ⟨call, .batch total n i⟩ = (buf.take n).drop i := rfl

/-- A batch that is dispatched holds nothing. -/
theorem Frame.pending_end {buf : List Cqe} {total n i : Nat} (hi : n ≤ i) :
    Frame.pending buf ⟨call, .batch total n i⟩ = [] := by
  refine List.drop_eq_nil_of_le ?_
  have := List.length_take_le n buf
  omega

/-- A batch is dispatched from its front. -/
theorem Frame.pending_dispatch {buf : List Cqe} {total n i : Nat} {c : Cqe} (hi : i < n)
    (hc : buf[i]? = some c) :
    Frame.pending buf ⟨call, .batch total n i⟩ =
      c :: Frame.pending buf ⟨call, .batch total n (i + 1)⟩ := by
  obtain ⟨hlt, rfl⟩ := List.getElem?_eq_some_iff.1 hc
  have hlen : i < (buf.take n).length := by
    rw [List.length_take]
    omega
  rw [Frame.pending_batch, Frame.pending_batch, List.drop_eq_getElem_cons hlen, List.getElem_take]

/-- A fresh batch is what `poll_cq` handed out. -/
theorem Frame.pending_fillBuffer {total n : Nat} (hn : n ≤ s.cq.length) :
    Frame.pending (s.fillBuffer n).wcBuf ⟨call, .batch total n 0⟩ = s.cq.take n := by
  have hlen : (s.cq.take n).length = n := by
    rw [List.length_take]
    omega
  rw [Frame.pending_batch, List.drop_zero]
  show (s.cq.take n ++ s.wcBuf.drop n).take n = _
  rw [List.take_append_of_le_length (Nat.le_of_eq hlen.symm), List.take_of_length_le]
  omega

theorem Buffered.advances (h : Buffered s) (hf : s.frames = ⟨call, pc⟩ :: rest)
    (hst : Advances pollBatch s call rest pc b s') : Buffered s' := by
  have hrest : ∀ f ∈ rest, ∀ total n i, f.pc = .batch total n i →
      i ≤ n ∧ n ≤ s.wcBuf.length := fun f hfr =>
    h f (by rw [hf]; exact List.mem_cons_of_mem _ hfr)
  have hcons : ∀ {k : Nat} {p : Pc} {fs : List Frame} {m : Nat},
      (∀ f ∈ fs, ∀ total n i, f.pc = .batch total n i → i ≤ n ∧ n ≤ m) →
      (∀ total n i, p = .batch total n i → i ≤ n ∧ n ≤ m) →
      ∀ f ∈ (⟨k, p⟩ :: fs : List Frame), ∀ total n i, f.pc = .batch total n i →
        i ≤ n ∧ n ≤ m := by
    intro k p fs m hfs hpc f hmem
    rcases List.mem_cons.1 hmem with rfl | hmem
    · exact hpc
    · exact hfs f hmem
  cases hst with
  | takeReady => exact hcons hrest (fun _ _ _ h => nomatch h)
  | drained n => exact hcons hrest (fun _ _ _ h => nomatch h)
  | drain op queue n =>
    exact hcons (hcons hrest (fun _ _ _ h => nomatch h)) (fun _ _ _ h => nomatch h)
  | pollFailed total => exact hrest
  | pollCq total n hn =>
    have hle : n ≤ s.cq.length := by omega
    have hlen := wcBuf_fillBuffer_length hle
    refine hcons (fun f hfr total m i hpc => ?_) (fun total' m i hpc => ?_)
    · have hb := hrest f hfr total m i hpc
      show i ≤ m ∧ m ≤ (s.fillBuffer n).wcBuf.length
      omega
    · obtain ⟨-, rfl, rfl⟩ : total = total' ∧ n = m ∧ 0 = i := by simpa using hpc
      show 0 ≤ n ∧ n ≤ (s.fillBuffer n).wcBuf.length
      omega
  | dispatch total n i c b hi hc =>
    have hb := h ⟨call, .batch total n i⟩ (by rw [hf]; exact List.mem_cons_self) total n i rfl
    have hbelow := hcons (k := call) (p := .batch total n (i + 1)) (m := s.wcBuf.length) hrest
      (fun total' m j hpc => by
        obtain ⟨-, rfl, rfl⟩ : total = total' ∧ n = m ∧ i + 1 = j := by simpa using hpc
        omega)
    intro f hmem
    simp only [State.dispatch] at hmem
    split_ifs at hmem
    · exact hcons (k := call) (p := .handler) hbelow (fun _ _ _ h => nomatch h) f hmem
    · exact hbelow f hmem
  | pollAgain total n i b hi hn => exact hcons hrest (fun _ _ _ h => nomatch h)
  | pollEnd total i => exact hrest
  | popReady op ready b hr =>
    exact hcons (hcons hrest (fun _ _ _ h => nomatch h)) (fun _ _ _ h => nomatch h)
  | noReady b hr => exact hcons hrest (fun _ _ _ h => nomatch h)
  | pollOneFailed => exact hrest
  | pollOneTake c cq hc =>
    have hbelow := hcons (k := call) (p := .pollOneDone) hrest (fun _ _ _ h => nomatch h)
    intro f hmem
    simp only [State.dispatch] at hmem
    split_ifs at hmem
    · exact hcons (k := call) (p := .handler) hbelow (fun _ _ _ h => nomatch h) f hmem
    · exact hbelow f hmem
  | pollOneEmpty hc => exact hrest
  | pollOneDone => exact hrest

theorem Buffered.step (h : Buffered s) (hst : (completionQueue pollBatch).step s l = some s') :
    Buffered s' := by
  have henter : ∀ {pc : Pc}, (∀ total n i, pc ≠ .batch total n i) → Buffered (s.enter pc) := by
    intro pc hpc f hmem total n i hf
    rcases List.mem_cons.1 hmem with rfl | hmem
    · exact absurd hf (hpc total n i)
    · exact h f hmem total n i hf
  cases Step.of_step hst with
  | run call pc rest b _ hf ha => exact h.advances hf ha
  | poll hc => exact henter (fun _ _ _ => Pc.noConfusion)
  | pollOne hc => exact henter (fun _ _ _ => Pc.noConfusion)
  | handlerReturns call rest hf =>
    exact fun f hmem => h f (by rw [hf]; exact List.mem_cons_of_mem _ hmem)
  | handlerThrows calls hh => exact fun f hmem => h f (List.mem_of_mem_drop hmem)
  | pushReady addr byHandler ha hh => exact h
  | post addr ha => exact h
  | cqe wc hw => exact h
  | destroy hf => exact h

/-! ## The counts -/

/-- What a call in progress has counted. -/
def Frame.progress (f : Frame) : Nat :=
  match f.pc with
  | .drain _ n => n
  | .pollCq total => total
  | .batch total _ i => total + i
  | .pollOneDone => 1
  | .takeReady | .popReady | .pollOneCq | .handler => 0

/-- The completions the calls have counted: those that returned, and those in progress. -/
def State.counted (s : State) : Nat :=
  (s.returned.map Returned.count).sum + (s.frames.map Frame.progress).sum

theorem counted_dispatched {c : Cqe} {below : List Frame} :
    (s.dispatch c call below).counted =
      (s.returned.map Returned.count).sum + (below.map Frame.progress).sum := by
  simp only [State.counted, State.dispatch]
  split_ifs
  · rw [List.map_cons, List.sum_cons, show Frame.progress ⟨call, .handler⟩ = 0 from rfl, Nat.zero_add]
  · rfl

/-- A call counts what it completes. -/
theorem counted_advances (hb : Buffered s) (hf : s.frames = ⟨call, pc⟩ :: rest)
    (h : s.counted = s.completed.length + s.dispatched.length)
    (hst : Advances pollBatch s call rest pc b s') :
    s'.counted = s'.completed.length + s'.dispatched.length := by
  cases hst with
  | drain op queue n =>
    simp only [State.counted, State.complete, hf, List.map_cons, List.sum_cons, Frame.progress,
      List.length_append, List.length_singleton] at h ⊢
    omega
  | dispatch total n i c b hi hc =>
    rw [counted_dispatched]
    simp only [State.counted, State.dispatch, hf, List.map_cons, List.sum_cons, Frame.progress,
      List.length_append, List.length_singleton] at h ⊢
    omega
  | pollCq total n hn =>
    simp only [State.counted, State.fillBuffer, hf, List.map_cons, List.sum_cons, Frame.progress] at h ⊢
    omega
  | pollAgain total n i b hi hn =>
    have hle := hb ⟨call, .batch total n i⟩ (by rw [hf]; exact List.mem_cons_self) total n i rfl
    simp only [State.counted, hf, List.map_cons, List.sum_cons, Frame.progress] at h ⊢
    omega
  | pollEnd total i =>
    have hle := hb ⟨call, .batch total 0 i⟩ (by rw [hf]; exact List.mem_cons_self) total 0 i rfl
    simp only [State.counted, State.leave, hf, List.map_cons, List.map_append, List.map_nil,
      List.sum_append, List.sum_cons, List.sum_nil, Frame.progress] at h ⊢
    omega
  | popReady op ready b hr =>
    simp only [State.counted, State.complete, hf, List.map_cons, List.sum_cons, Frame.progress,
      List.length_append, List.length_singleton] at h ⊢
    omega
  | pollOneTake c cq hc =>
    rw [counted_dispatched]
    simp only [State.counted, State.dispatch, hf, List.map_cons, List.sum_cons, Frame.progress,
      List.length_append, List.length_singleton] at h ⊢
    omega
  | _ =>
    simp only [State.counted, State.leave, hf, List.map_cons, List.map_append, List.map_nil,
      List.sum_append, List.sum_cons, List.sum_nil, Frame.progress] at h ⊢
    omega

/-- The label is not a handler that throws. -/
def Label.quiet : Label → Bool
  | .handlerThrows _ => false
  | _ => true

theorem counted_step (hb : Buffered s) (h : s.counted = s.completed.length + s.dispatched.length)
    (hq : l.quiet = true) (hst : (completionQueue pollBatch).step s l = some s') :
    s'.counted = s'.completed.length + s'.dispatched.length := by
  cases Step.of_step hst with
  | run call pc rest b _ hf ha => exact counted_advances hb hf h ha
  | poll hc =>
    simpa only [State.counted, State.enter, List.map_cons, List.sum_cons, Frame.progress,
      Nat.zero_add] using h
  | pollOne hc =>
    simpa only [State.counted, State.enter, List.map_cons, List.sum_cons, Frame.progress,
      Nat.zero_add] using h
  | handlerReturns call rest hf =>
    simpa only [State.counted, hf, List.map_cons, List.sum_cons, Frame.progress, Nat.zero_add] using h
  | handlerThrows calls hh => cases hq
  | pushReady addr byHandler ha hh => exact h
  | post addr ha => exact h
  | cqe wc hw => exact h
  | destroy hf => exact h

end CompletionQueue

end RdmaOnAsio.Ibv
