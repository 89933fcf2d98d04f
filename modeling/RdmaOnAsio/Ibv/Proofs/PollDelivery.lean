import RdmaOnAsio.Ibv.Proofs.CompletionQueueStep

/-!
# Poll-mode delivery

As long as no handler polls and none throws there is one call at a time, with its handler above it, and the
queue delivers as it should: immediate ops in the order in which they were pushed, entries in the order in
which the HCA wrote them, each once, and the calls return how many they completed.
-/

namespace RdmaOnAsio.Ibv

open ErrorCode

namespace CompletionQueue

/-- No handler polls or throws, the queue is not destroyed, and every entry names the op it was posted
with. -/
def flat (s : State) : Label → Bool
  | .poll | .pollOne => s.frames.isEmpty
  | .cqe wc => wc.wrId != 0
  | .handlerThrows _ | .destroy => false
  | .pushReady _ _ | .post _ | .run _ | .handlerReturns => true

/-- The call is waiting for a handler it runs, if there is one. -/
def Pc.upcalls : Pc → Bool
  | .drain _ _ | .batch _ _ _ | .pollOneDone => true
  | .takeReady | .pollCq _ | .popReady | .pollOneCq | .handler => false

/-- One call at most, with its handler above it. -/
inductive Stack (calls : Nat) : List Frame → Prop
  | idle : Stack calls []
  | call (k : Nat) (pc : Pc) (hk : k < calls) (hpc : pc ≠ .handler) : Stack calls [⟨k, pc⟩]
  | handler (k : Nat) (pc : Pc) (hk : k < calls) (hpc : pc.upcalls = true) :
    Stack calls [⟨k, .handler⟩, ⟨k, pc⟩]

/-- The ready ops a call is going to complete, if no other call takes them. -/
def Frame.reach (ready : List ReadyOp) (f : Frame) : List ReadyOp :=
  match f.pc with
  | .takeReady | .popReady => ready
  | .drain queue _ => queue
  | _ => []

/-- No op is completed by the call whose handler pushed it. -/
structure Deferred (s : State) : Prop where
  earlier : ∀ op ∈ s.ready, ∀ k, op.pushedIn = some k → k < s.calls
  reach : ∀ f ∈ s.frames, ∀ op ∈ f.reach s.ready, op.pushedIn ≠ some f.call
  completed : ∀ c ∈ s.completed, c.op.pushedIn ≠ some c.call

/-- What holds while the calls do not overlap. -/
structure Delivering (s : State) : Prop where
  numbered : Numbered s
  buffered : Buffered s
  stack : Stack s.calls s.frames
  counted : s.counted = s.completed.length + s.dispatched.length
  readyOrder : s.pushed =
    s.completed.map (fun c => c.op.addr) ++ (s.draining ++ s.ready).map ReadyOp.addr
  cqOrder : s.taken = s.dispatched ++ s.pending
  posted : ∀ c ∈ s.arrived, c.wc.wrId ≠ 0
  requested : ∀ a, a ≠ 0 →
    s.posted.count a + (s.arrived.map fun c => c.wc.wrId).count a = s.requested.count a
  deferred : Deferred s
  ended : ∀ r ∈ s.returned, r.call < s.calls

variable {pollBatch : Nat} {s s' : State} {call : Nat} {rest : List Frame} {pc : Pc} {b : Bool}
  {l : Label}

/-! ## One call at a time -/

/-- A call that takes a step is the only frame. -/
theorem Stack.top {calls : Nat} (h : Stack calls (⟨call, pc⟩ :: rest)) (hpc : pc ≠ .handler) :
    rest = [] ∧ call < calls := by
  cases h with
  | call k pc hk _ => exact ⟨rfl, hk⟩
  | handler k pc hk _ => exact absurd rfl hpc

theorem Advances.not_handler (hst : Advances pollBatch s call rest pc b s') : pc ≠ .handler := by
  cases hst <;> exact Pc.noConfusion

/-- The handler that a call runs stands above it. -/
theorem Stack.dispatched {c : Cqe} {k calls : Nat} (hk : k < calls) (hpc : pc.upcalls = true) :
    Stack calls (s.dispatch c k [⟨k, pc⟩]).frames := by
  simp only [State.dispatch]
  split_ifs
  · exact .handler k pc hk hpc
  · refine .call k pc hk ?_
    rintro rfl
    cases hpc

theorem Stack.advances (h : Stack s.calls s.frames) (hf : s.frames = ⟨call, pc⟩ :: rest)
    (hst : Advances pollBatch s call rest pc b s') : Stack s'.calls s'.frames := by
  rw [hf] at h
  obtain ⟨rfl, hk⟩ := h.top hst.not_handler
  cases hst with
  | drain op queue n => exact .handler call _ hk rfl
  | dispatch total n i c b hi hc => exact Stack.dispatched hk rfl
  | popReady op ready b hr => exact .handler call _ hk rfl
  | pollOneTake c cq hc => exact Stack.dispatched hk rfl
  | pollFailed total => exact .idle
  | pollEnd total i => exact .idle
  | pollOneFailed => exact .idle
  | pollOneEmpty hc => exact .idle
  | pollOneDone => exact .idle
  | _ => exact .call call _ hk Pc.noConfusion

theorem Stack.step (h : Stack s.calls s.frames) (hfl : flat s l = true)
    (hst : (completionQueue pollBatch).step s l = some s') : Stack s'.calls s'.frames := by
  have henter : ∀ {pc : Pc}, pc ≠ .handler → s.frames.isEmpty = true →
      Stack (s.enter pc).calls (s.enter pc).frames := by
    intro pc hpc he
    rw [State.enter, List.isEmpty_iff.1 he]
    exact .call _ pc (Nat.lt_succ_self _) hpc
  cases Step.of_step hst with
  | run call pc rest b _ hf ha => exact h.advances hf ha
  | poll hc => exact henter Pc.noConfusion hfl
  | pollOne hc => exact henter Pc.noConfusion hfl
  | handlerReturns call rest hf =>
    rw [hf] at h
    cases h with
    | call k pc hk hpc => exact absurd rfl hpc
    | handler _ pc hk hpc =>
      refine .call _ pc hk ?_
      rintro rfl
      cases hpc
  | handlerThrows calls hh => cases hfl
  | pushReady addr byHandler ha hh => exact h
  | post addr ha => exact h
  | cqe wc hw => exact h
  | destroy hf => exact h

/-! ## The order of the immediate ops -/

theorem readyOrder_advances (hstack : Stack s.calls s.frames) (hf : s.frames = ⟨call, pc⟩ :: rest)
    (h : s.pushed = s.completed.map (fun c => c.op.addr) ++ (s.draining ++ s.ready).map ReadyOp.addr)
    (hst : Advances pollBatch s call rest pc b s') :
    s'.pushed =
      s'.completed.map (fun c => c.op.addr) ++ (s'.draining ++ s'.ready).map ReadyOp.addr := by
  have hd := State.draining_of_frames hf
  rw [hf] at hstack
  obtain ⟨rfl, -⟩ := hstack.top hst.not_handler
  cases hst with
  | takeReady => simpa [State.draining, hf, Frame.queue] using h
  | drain op queue n => simpa [State.draining, State.complete, hf, Frame.queue] using h
  | popReady op ready b hr => simpa [State.draining, State.complete, hf, hr, Frame.queue] using h
  | dispatch total n i c b hi hc =>
    rw [State.draining, flatMap_dispatched rfl]
    rw [hd] at h
    exact h
  | pollOneTake c cq hc =>
    rw [State.draining, flatMap_dispatched rfl]
    rw [hd] at h
    exact h
  | _ =>
    rw [hd] at h
    exact h

theorem readyOrder_step (hstack : Stack s.calls s.frames)
    (h : s.pushed = s.completed.map (fun c => c.op.addr) ++ (s.draining ++ s.ready).map ReadyOp.addr)
    (hfl : flat s l = true) (hst : (completionQueue pollBatch).step s l = some s') :
    s'.pushed =
      s'.completed.map (fun c => c.op.addr) ++ (s'.draining ++ s'.ready).map ReadyOp.addr := by
  cases Step.of_step hst with
  | run call pc rest b _ hf ha => exact readyOrder_advances hstack hf h ha
  | pushReady addr byHandler ha hh => simp [State.draining, h]
  | handlerReturns call rest hf =>
    rw [State.draining_of_frames hf] at h
    exact h
  | handlerThrows calls hh => cases hfl
  | destroy hf => cases hfl
  | post addr ha => exact h
  | cqe wc hw => exact h
  | poll hc => exact h
  | pollOne hc => exact h

/-! ## The order of the entries -/

theorem cqOrder_advances (hstack : Stack s.calls s.frames) (hf : s.frames = ⟨call, pc⟩ :: rest)
    (h : s.taken = s.dispatched ++ s.pending)
    (hst : Advances pollBatch s call rest pc b s') : s'.taken = s'.dispatched ++ s'.pending := by
  rw [State.pending_of_frames hf] at h
  rw [hf] at hstack
  obtain ⟨rfl, -⟩ := hstack.top hst.not_handler
  cases hst with
  | pollCq total n hn =>
    have hle : n ≤ s.cq.length := by omega
    have hpend : State.pending { s.fillBuffer n with frames := [⟨call, .batch total n 0⟩] } =
        s.cq.take n := by
      rw [State.pending_of_frames rfl, Frame.pending_fillBuffer hle]
      exact List.append_nil _
    rw [hpend]
    have hd : s.taken = s.dispatched := by simpa [Frame.pending] using h
    exact congrArg (· ++ s.cq.take n) hd
  | dispatch total n i c b hi hc =>
    rw [State.pending, flatMap_dispatched rfl, List.flatMap_cons]
    rw [Frame.pending_dispatch hi hc] at h
    simpa [State.dispatch] using h
  | pollAgain total n i b hi hn =>
    rw [Frame.pending_end hi] at h
    exact h
  | pollEnd total i =>
    rw [Frame.pending_end (Nat.zero_le i)] at h
    exact h
  | pollOneTake c cq hc =>
    rw [State.pending, flatMap_dispatched rfl]
    have hd : s.taken = s.dispatched := by simpa [Frame.pending] using h
    simp [State.dispatch, Frame.pending, hd]
  | _ => exact h

theorem cqOrder_step (hstack : Stack s.calls s.frames)
    (h : s.taken = s.dispatched ++ s.pending) (hfl : flat s l = true)
    (hst : (completionQueue pollBatch).step s l = some s') :
    s'.taken = s'.dispatched ++ s'.pending := by
  cases Step.of_step hst with
  | run call pc rest b _ hf ha => exact cqOrder_advances hstack hf h ha
  | handlerReturns call rest hf =>
    rw [State.pending_of_frames hf] at h
    exact h
  | handlerThrows calls hh => cases hfl
  | destroy hf => cases hfl
  | pushReady addr byHandler ha hh => exact h
  | post addr ha => exact h
  | cqe wc hw => exact h
  | poll hc => exact h
  | pollOne hc => exact h

/-! ## Which call completes an op -/

theorem Deferred.advances (h : Deferred s) (hstack : Stack s.calls s.frames)
    (hf : s.frames = ⟨call, pc⟩ :: rest) (hst : Advances pollBatch s call rest pc b s') :
    Deferred s' := by
  rw [hf] at hstack
  obtain ⟨rfl, -⟩ := hstack.top hst.not_handler
  have hreach : ∀ op ∈ Frame.reach s.ready ⟨call, pc⟩, op.pushedIn ≠ some call :=
    h.reach ⟨call, pc⟩ (by rw [hf]; exact List.mem_cons_self)
  have hdone : ∀ {op : ReadyOp}, op.pushedIn ≠ some call →
      ∀ c ∈ s.completed ++ [(⟨op, call⟩ : Completed)], c.op.pushedIn ≠ some c.call := by
    intro op hop c hc
    rcases List.mem_append.1 hc with hc | hc
    · exact h.completed c hc
    · obtain rfl := List.mem_singleton.1 hc
      exact hop
  have hnone : ∀ {c : Cqe} {p : Pc}, Frame.reach s.ready ⟨call, p⟩ = [] →
      ∀ f ∈ (s.dispatch c call [⟨call, p⟩]).frames, ∀ op ∈ f.reach s.ready,
        op.pushedIn ≠ some f.call := by
    intro c p hp f hmem op hop
    have hnil : f.reach s.ready = [] := by
      simp only [State.dispatch] at hmem
      split_ifs at hmem
      · rcases List.mem_cons.1 hmem with rfl | hmem
        · rfl
        · rwa [List.mem_singleton.1 hmem]
      · rwa [List.mem_singleton.1 hmem]
    rw [hnil] at hop
    cases hop
  cases hst with
  | takeReady =>
    refine ⟨fun op hop => absurd hop List.not_mem_nil, ?_, h.completed⟩
    intro f hmem op hop
    obtain rfl := List.mem_singleton.1 hmem
    exact hreach op hop
  | drain op queue n =>
    refine ⟨h.earlier, ?_, hdone (hreach op List.mem_cons_self)⟩
    intro f hmem o ho
    rcases List.mem_cons.1 hmem with rfl | hmem
    · cases ho
    · obtain rfl := List.mem_singleton.1 hmem
      exact hreach o (List.mem_cons_of_mem _ ho)
  | popReady op ready b hr =>
    refine ⟨fun o ho => h.earlier o (hr ▸ List.mem_cons_of_mem _ ho), ?_,
      hdone (hreach op (by simp [Frame.reach, hr]))⟩
    intro f hmem o ho
    rcases List.mem_cons.1 hmem with rfl | hmem
    · cases ho
    · obtain rfl := List.mem_singleton.1 hmem
      cases ho
  | dispatch total n i c b hi hc => exact ⟨h.earlier, hnone rfl, h.completed⟩
  | pollOneTake c cq hc => exact ⟨h.earlier, hnone (c := c) (p := .pollOneDone) rfl, h.completed⟩
  | pollFailed total => exact ⟨h.earlier, fun f hmem => absurd hmem List.not_mem_nil, h.completed⟩
  | pollEnd total i => exact ⟨h.earlier, fun f hmem => absurd hmem List.not_mem_nil, h.completed⟩
  | pollOneFailed => exact ⟨h.earlier, fun f hmem => absurd hmem List.not_mem_nil, h.completed⟩
  | pollOneEmpty hc => exact ⟨h.earlier, fun f hmem => absurd hmem List.not_mem_nil, h.completed⟩
  | pollOneDone => exact ⟨h.earlier, fun f hmem => absurd hmem List.not_mem_nil, h.completed⟩
  | _ =>
    refine ⟨h.earlier, ?_, h.completed⟩
    intro f hmem op hop
    obtain rfl := List.mem_singleton.1 hmem
    cases hop

/-- An op that a handler pushes is out of reach for the call that runs the handler. -/
theorem Deferred.pushReady (h : Deferred s) (hstack : Stack s.calls s.frames) {addr : Nat}
    {byHandler : Bool} (hh : byHandler → s.inHandler) :
    Deferred { s with
      ready := s.ready ++ [⟨addr, if byHandler then s.handlerCall else none⟩]
      pushed := s.pushed ++ [addr] } := by
  have hhandler : byHandler = true → ∃ k pc, k < s.calls ∧ pc.upcalls = true ∧
      s.frames = [⟨k, .handler⟩, ⟨k, pc⟩] := by
    intro hby
    have hin := hh hby
    cases hfr : s.frames with
    | nil => simp [State.inHandler, hfr] at hin
    | cons f fs =>
      rw [hfr] at hstack
      cases hstack with
      | call k pc hk hpc => simp [State.inHandler, hfr, hpc] at hin
      | handler k pc hk hpc => exact ⟨k, pc, hk, hpc, rfl⟩
  refine ⟨?_, ?_, h.completed⟩
  · intro op hop k hk
    rcases List.mem_append.1 hop with hop | hop
    · exact h.earlier op hop k hk
    · obtain rfl := List.mem_singleton.1 hop
      cases byHandler with
      | false => cases hk
      | true =>
        obtain ⟨k', pc, hlt, -, hfr⟩ := hhandler rfl
        obtain rfl : k' = k := by simpa [State.handlerCall, hfr] using hk
        exact hlt
  · intro f hmem op hop
    by_cases hold : op ∈ f.reach s.ready
    · exact h.reach f hmem op hold
    · -- only a call that has not taken the ready queue reaches the new op
      cases byHandler with
      | true =>
        obtain ⟨k, pc, -, hup, hfr⟩ := hhandler rfl
        refine absurd ?_ hold
        rw [hfr] at hmem
        rcases List.mem_cons.1 hmem with rfl | hmem
        · exact hop
        · obtain rfl := List.mem_singleton.1 hmem
          cases pc with
          | takeReady => cases hup
          | popReady => cases hup
          | _ => exact hop
      | false =>
        obtain ⟨k, pc⟩ := f
        cases pc with
        | takeReady =>
          rcases List.mem_append.1 hop with hop | hop
          · exact absurd hop hold
          · obtain rfl := List.mem_singleton.1 hop
            exact fun hk => nomatch hk
        | popReady =>
          rcases List.mem_append.1 hop with hop | hop
          · exact absurd hop hold
          · obtain rfl := List.mem_singleton.1 hop
            exact fun hk => nomatch hk
        | _ => exact absurd hop hold

/-- A call that begins has a number no op carries yet. -/
theorem Deferred.enter (h : Deferred s)
    (hpc : Frame.reach s.ready ⟨s.calls, pc⟩ = s.ready) : Deferred (s.enter pc) := by
  refine ⟨fun op hop k hk => Nat.lt_succ_of_lt (h.earlier op hop k hk), ?_, h.completed⟩
  intro f hmem op hop
  rcases List.mem_cons.1 hmem with rfl | hmem
  · replace hop : op ∈ s.ready := hpc ▸ hop
    exact fun hk => Nat.lt_irrefl _ (h.earlier op hop _ hk)
  · exact h.reach f hmem op hop

theorem Deferred.step (h : Deferred s) (hstack : Stack s.calls s.frames) (hfl : flat s l = true)
    (hst : (completionQueue pollBatch).step s l = some s') : Deferred s' := by
  cases Step.of_step hst with
  | run call pc rest b _ hf ha => exact h.advances hstack hf ha
  | pushReady addr byHandler ha hh => exact h.pushReady hstack hh
  | poll hc => exact h.enter rfl
  | pollOne hc => exact h.enter rfl
  | handlerReturns call rest hf =>
    refine ⟨h.earlier, fun f hmem => h.reach f ?_, h.completed⟩
    rw [hf]
    exact List.mem_cons_of_mem _ hmem
  | handlerThrows calls hh => cases hfl
  | destroy hf => cases hfl
  | post addr ha => exact ⟨h.earlier, h.reach, h.completed⟩
  | cqe wc hw => exact ⟨h.earlier, h.reach, h.completed⟩

/-! ## Whole runs -/

theorem Delivering.fresh : Delivering {} where
  numbered := ⟨rfl, rfl⟩
  buffered := fun _ hmem => nomatch hmem
  stack := .idle
  counted := rfl
  readyOrder := rfl
  cqOrder := rfl
  posted := fun _ hmem => nomatch hmem
  requested := fun _ _ => rfl
  deferred := ⟨fun _ hmem => (nomatch hmem), fun _ hmem => (nomatch hmem), fun _ hmem => (nomatch hmem)⟩
  ended := fun _ hmem => nomatch hmem

theorem posted_step (h : ∀ c ∈ s.arrived, c.wc.wrId ≠ 0) (hfl : flat s l = true)
    (hst : (completionQueue pollBatch).step s l = some s') : ∀ c ∈ s'.arrived, c.wc.wrId ≠ 0 := by
  cases Step.of_step hst with
  | run call pc rest b _ hf ha => cases ha <;> exact h
  | cqe wc hw =>
    intro c hc
    rcases List.mem_append.1 hc with hc | hc
    · exact h c hc
    · obtain rfl := List.mem_singleton.1 hc
      simpa [flat] using hfl
  | _ => exact h

/-- Only a call in progress returns. -/
theorem ended_step (hstack : Stack s.calls s.frames) (h : ∀ r ∈ s.returned, r.call < s.calls)
    (hst : (completionQueue pollBatch).step s l = some s') :
    ∀ r ∈ s'.returned, r.call < s'.calls := by
  have hleave : ∀ {n : Nat} {ec : ErrorCode} {k : Nat}, k < s.calls →
      ∀ r ∈ s.returned ++ [(⟨k, n, ec⟩ : Returned)], r.call < s.calls := by
    intro n ec k hk r hmem
    rcases List.mem_append.1 hmem with hmem | hmem
    · exact h r hmem
    · obtain rfl := List.mem_singleton.1 hmem
      exact hk
  cases Step.of_step hst with
  | run call pc rest b _ hf ha =>
    rw [hf] at hstack
    have hk := (hstack.top ha.not_handler).2
    cases ha with
    | pollFailed total => exact hleave hk
    | pollEnd total i => exact hleave hk
    | pollOneFailed => exact hleave hk
    | pollOneEmpty hc => exact hleave hk
    | pollOneDone => exact hleave hk
    | _ => exact h
  | poll hc => exact fun r hmem => Nat.lt_succ_of_lt (h r hmem)
  | pollOne hc => exact fun r hmem => Nat.lt_succ_of_lt (h r hmem)
  | _ => exact h

/-- A step without overlapping calls keeps the queue delivering. -/
theorem Delivering.step (h : Delivering s) (hfl : flat s l = true)
    (hst : (completionQueue pollBatch).step s l = some s') : Delivering s' where
  numbered := h.numbered.step hst
  buffered := h.buffered.step hst
  stack := h.stack.step hfl hst
  counted := by
    refine counted_step h.buffered h.counted ?_ hst
    cases l <;> first | rfl | cases hfl
  readyOrder := readyOrder_step h.stack h.readyOrder hfl hst
  cqOrder := cqOrder_step h.stack h.cqOrder hfl hst
  posted := posted_step h.posted hfl hst
  requested := fun a ha => requested_step ha (h.requested a ha) hst
  deferred := h.deferred.step h.stack hfl hst
  ended := ended_step h.stack h.ended hst

/-! ## What a successful `poll(ec)` has completed -/

/-- The call `poll(ec)` in this frame began when `p` immediate ops were pushed and `a` entries written.
Where it stands tells how many of them are completed. -/
def Frame.Covers (p a : Nat) (s : State) (f : Frame) : Prop :=
  match f.pc with
  | .takeReady | .handler => True
  | .drain queue _ => p ≤ s.completed.length + queue.length
  | .pollCq _ => p ≤ s.completed.length
  | .batch _ n _ => p ≤ s.completed.length ∧ (n = 0 → a ≤ s.taken.length)
  | .popReady | .pollOneCq | .pollOneDone => False

/-- What holds from the beginning of the call `poll(ec)` with the number `k` on. -/
structure Covers (k p a : Nat) (s : State) : Prop where
  begun : k < s.calls
  pushed : p ≤ s.pushed.length
  arrived : a ≤ s.arrived.length
  frames : ∀ f ∈ s.frames, f.call = k → f.Covers p a s
  returned : ∀ n, ⟨k, n, success⟩ ∈ s.returned → p ≤ s.completed.length ∧ a ≤ s.dispatched.length

/-- The histories only grow. -/
structure Grows (s s' : State) : Prop where
  pushed : s.pushed <+: s'.pushed
  arrived : s.arrived <+: s'.arrived
  completed : s.completed <+: s'.completed
  dispatched : s.dispatched <+: s'.dispatched
  calls : s.calls ≤ s'.calls

theorem Grows.refl (s : State) : Grows s s :=
  ⟨List.prefix_refl _, List.prefix_refl _, List.prefix_refl _, List.prefix_refl _, Nat.le_refl _⟩

theorem Grows.trans {t u : State} (h : Grows s t) (h' : Grows t u) : Grows s u :=
  ⟨h.pushed.trans h'.pushed, h.arrived.trans h'.arrived, h.completed.trans h'.completed,
    h.dispatched.trans h'.dispatched, Nat.le_trans h.calls h'.calls⟩

theorem Grows.of_step (hst : (completionQueue pollBatch).step s l = some s') : Grows s s' := by
  obtain ⟨hp, ha, hc, hd, hk⟩ := Grows.refl s
  cases Step.of_step hst with
  | run call pc rest b _ hf hadv =>
    cases hadv with
    | drain op queue n => exact ⟨hp, ha, List.prefix_append _ _, hd, hk⟩
    | popReady op ready b hr => exact ⟨hp, ha, List.prefix_append _ _, hd, hk⟩
    | dispatch total n i c b hi hc' => exact ⟨hp, ha, hc, List.prefix_append _ _, hk⟩
    | pollOneTake c cq hc' => exact ⟨hp, ha, hc, List.prefix_append _ _, hk⟩
    | _ => exact ⟨hp, ha, hc, hd, hk⟩
  | pushReady addr byHandler _ hh => exact ⟨List.prefix_append _ _, ha, hc, hd, hk⟩
  | cqe wc hw => exact ⟨hp, List.prefix_append _ _, hc, hd, hk⟩
  | poll hcall => exact ⟨hp, ha, hc, hd, Nat.le_succ _⟩
  | pollOne hcall => exact ⟨hp, ha, hc, hd, Nat.le_succ _⟩
  | _ => exact ⟨hp, ha, hc, hd, hk⟩

variable {k p a : Nat}

theorem Covers.next (h : Covers k p a s) (hg : Grows s s')
    (hframes : ∀ f ∈ s'.frames, f.call = k → f.Covers p a s')
    (hret : ∀ n, ⟨k, n, success⟩ ∈ s'.returned → ⟨k, n, success⟩ ∈ s.returned ∨
      p ≤ s'.completed.length ∧ a ≤ s'.dispatched.length) : Covers k p a s' where
  begun := Nat.lt_of_lt_of_le h.begun hg.calls
  pushed := Nat.le_trans h.pushed hg.pushed.length_le
  arrived := Nat.le_trans h.arrived hg.arrived.length_le
  frames := hframes
  returned n hn := by
    rcases hret n hn with hold | hnew
    · have hle := h.returned n hold
      exact ⟨Nat.le_trans hle.1 hg.completed.length_le, Nat.le_trans hle.2 hg.dispatched.length_le⟩
    · exact hnew

/-- A call that returns with an error is not the one that is asked for. -/
theorem mem_returned {n m : Nat} {ec : ErrorCode} {rs : List Returned}
    (h : ⟨k, n, success⟩ ∈ rs ++ [⟨call, m, ec⟩]) :
    ⟨k, n, success⟩ ∈ rs ∨ call = k ∧ ec = success := by
  rcases List.mem_append.1 h with h | h
  · exact .inl h
  · have heq := List.mem_singleton.1 h
    simp only [Returned.mk.injEq] at heq
    exact .inr ⟨heq.1.symm, heq.2.2.symm⟩

theorem Covers.advances (h : Covers k p a s) (hd : Delivering s)
    (hf : s.frames = ⟨call, pc⟩ :: rest) (hst : Advances pollBatch s call rest pc b s')
    (hg : Grows s s') : Covers k p a s' := by
  have hstack := hd.stack
  rw [hf] at hstack
  obtain ⟨rfl, -⟩ := hstack.top hst.not_handler
  have hold : call = k → Frame.Covers p a s ⟨call, pc⟩ :=
    h.frames ⟨call, pc⟩ (by rw [hf]; exact List.mem_cons_self)
  have hone : ∀ {pc' : Pc} {t : State}, (call = k → Frame.Covers p a t ⟨call, pc'⟩) →
      ∀ f ∈ ([⟨call, pc'⟩] : List Frame), f.call = k → f.Covers p a t := by
    intro pc' t hpc f hmem
    obtain rfl := List.mem_singleton.1 hmem
    exact hpc
  have htwo : ∀ {pc' : Pc} {t : State}, (call = k → Frame.Covers p a t ⟨call, pc'⟩) →
      ∀ f ∈ ([⟨call, .handler⟩, ⟨call, pc'⟩] : List Frame), f.call = k → f.Covers p a t := by
    intro pc' t hpc f hmem
    rcases List.mem_cons.1 hmem with rfl | hmem
    · exact fun _ => trivial
    · exact hone hpc f hmem
  cases hst with
  | takeReady =>
    refine h.next hg (hone fun _ => ?_) (fun _ => .inl)
    have hlen := congrArg List.length hd.readyOrder
    have hpushed := h.pushed
    simp only [State.draining, hf, List.flatMap_cons, List.flatMap_nil, Frame.queue, List.length_append,
      List.length_map, List.length_nil] at hlen
    show p ≤ s.completed.length + s.ready.length
    omega
  | drained n => exact h.next hg (hone hold) (fun _ => .inl)
  | drain op queue n =>
    refine h.next hg (htwo fun hk => ?_) (fun _ => .inl)
    have hle : p ≤ s.completed.length + (op :: queue).length := hold hk
    show p ≤ (s.completed ++ [_]).length + queue.length
    simp only [List.length_cons, List.length_append, List.length_nil] at hle ⊢
    omega
  | pollFailed total =>
    refine h.next hg (fun f hmem => absurd hmem List.not_mem_nil) (fun n hn => ?_)
    rcases mem_returned hn with hn | ⟨-, hec⟩
    · exact .inl hn
    · simp [makeSystemErrorCode, eio, success] at hec
  | pollCq total n hn =>
    refine h.next hg (hone fun hk => ⟨hold hk, fun h0 => ?_⟩) (fun _ => .inl)
    have hpos : 0 < Poller.batchSize pollBatch := Poller.batchSize_pos
    have hcq : s.cq.length = 0 := by omega
    have harr := h.arrived
    rw [hd.numbered.split, List.length_append, hcq] at harr
    show a ≤ (s.taken ++ s.cq.take n).length
    rw [List.length_append]
    omega
  | dispatch total n i c b hi hc =>
    refine h.next hg ?_ (fun _ => .inl)
    simp only [State.dispatch]
    split_ifs
    · exact htwo hold
    · exact hone hold
  | pollAgain total n i b hi hn => exact h.next hg (hone fun hk => (hold hk).1) (fun _ => .inl)
  | pollEnd total i =>
    refine h.next hg (fun f hmem => absurd hmem List.not_mem_nil) (fun n hn => ?_)
    rcases mem_returned hn with hn | ⟨hk, -⟩
    · exact .inl hn
    · obtain ⟨hp, ha⟩ := hold hk
      have hlen := congrArg List.length hd.cqOrder
      rw [State.pending_of_frames hf, Frame.pending_end (Nat.zero_le i), List.length_append] at hlen
      have hle := ha rfl
      exact .inr ⟨hp, Nat.le_trans hle (Nat.le_of_eq hlen)⟩
  | popReady op ready b hr => exact h.next hg (htwo hold) (fun _ => .inl)
  | noReady b hr => exact h.next hg (hone hold) (fun _ => .inl)
  | pollOneFailed =>
    refine h.next hg (fun f hmem => absurd hmem List.not_mem_nil) (fun n hn => ?_)
    exact (mem_returned hn).imp id fun hk => (hold hk.1).elim
  | pollOneTake c cq hc =>
    refine h.next hg ?_ (fun _ => .inl)
    simp only [State.dispatch]
    split_ifs
    · exact htwo hold
    · exact hone hold
  | pollOneEmpty hc =>
    refine h.next hg (fun f hmem => absurd hmem List.not_mem_nil) (fun n hn => ?_)
    exact (mem_returned hn).imp id fun hk => (hold hk.1).elim
  | pollOneDone =>
    refine h.next hg (fun f hmem => absurd hmem List.not_mem_nil) (fun n hn => ?_)
    exact (mem_returned hn).imp id fun hk => (hold hk.1).elim

theorem Covers.step (h : Covers k p a s) (hd : Delivering s) (hfl : flat s l = true)
    (hst : (completionQueue pollBatch).step s l = some s') : Covers k p a s' := by
  have hg := Grows.of_step hst
  have henter : ∀ {pc : Pc}, Grows s (s.enter pc) → Covers k p a (s.enter pc) := by
    intro pc hg
    refine h.next hg (fun f hmem hk => ?_) (fun _ => .inl)
    rcases List.mem_cons.1 hmem with rfl | hmem
    · exact absurd hk (Nat.ne_of_gt h.begun)
    · exact h.frames f hmem hk
  cases Step.of_step hst with
  | run call pc rest b _ hf ha => exact h.advances hd hf ha hg
  | poll hc => exact henter hg
  | pollOne hc => exact henter hg
  | handlerReturns call rest hf =>
    refine h.next hg (fun f hmem => h.frames f ?_) (fun _ => .inl)
    rw [hf]
    exact List.mem_cons_of_mem _ hmem
  | handlerThrows calls hh => cases hfl
  | destroy hf => cases hfl
  | pushReady addr byHandler ha hh => exact h.next hg h.frames (fun _ => .inl)
  | post addr ha => exact h.next hg h.frames (fun _ => .inl)
  | cqe wc hw => exact h.next hg h.frames (fun _ => .inl)

theorem Covers.enter (hd : Delivering s) (hf : s.frames = []) :
    Covers s.calls s.pushed.length s.arrived.length (s.enter .takeReady) where
  begun := Nat.lt_succ_self _
  pushed := Nat.le_refl _
  arrived := Nat.le_refl _
  frames f hmem _ := by
    rw [State.enter, hf] at hmem
    obtain rfl := List.mem_singleton.1 hmem
    trivial
  returned n hn := absurd (hd.ended _ hn) (Nat.lt_irrefl _)

/-- A `poll(ec)` that has succeeded has completed everything that was there when it began. -/
theorem poll_completes {pre post : List Label} {t : State} {n : Nat}
    (ht : (completionQueue pollBatch).run {} pre = some t)
    (hr : (completionQueue pollBatch).run t (.poll :: post) = some s)
    (hm : (completionQueue pollBatch).Meets (fun s l => flat s l = true) {} (pre ++ .poll :: post))
    (hret : ⟨t.calls, n, success⟩ ∈ s.returned) :
    t.pushed <+: s.completed.map (fun c => c.op.addr) ∧ t.arrived <+: s.dispatched := by
  obtain ⟨hmpre, hmpost⟩ := (StepSystem.Meets.append ht).1 hm
  have hd : Delivering t := StepSystem.invariant_of_meets (M := completionQueue pollBatch)
    (fun _ _ _ h hfl hst => h.step hfl hst) ht hmpre .fresh
  obtain ⟨u, hu, hrest⟩ := StepSystem.run_cons.1 hr
  obtain ⟨hfl, hmrest⟩ := (StepSystem.meets_cons hu).1 hmpost
  have hcov : Covers t.calls t.pushed.length t.arrived.length u := by
    cases Step.of_step hu
    exact .enter hd (List.isEmpty_iff.1 hfl)
  obtain ⟨hds, hcs⟩ := StepSystem.invariant_of_meets (M := completionQueue pollBatch)
    (I := fun s => Delivering s ∧ Covers t.calls t.pushed.length t.arrived.length s)
    (fun _ _ _ h hfl hst => ⟨h.1.step hfl hst, h.2.step h.1 hfl hst⟩) hrest hmrest
    ⟨hd.step hfl hu, hcov⟩
  obtain ⟨hp, ha⟩ := hcs.returned n hret
  have hg : Grows t s := StepSystem.run_rel (M := completionQueue pollBatch) Grows.refl
    (fun _ _ _ => Grows.trans) (fun _ _ _ => Grows.of_step) hr
  constructor
  · refine List.prefix_of_prefix_length_le hg.pushed ?_ (by rwa [List.length_map])
    rw [hds.readyOrder]
    exact List.prefix_append _ _
  · refine List.prefix_of_prefix_length_le hg.arrived ?_ ha
    rw [hds.numbered.split, hds.cqOrder, List.append_assoc]
    exact List.prefix_append _ _

/-- Every immediate op is completed once and in push order, or still queued; every posted op is with the HCA
or has one entry, and the entries are dispatched once and in CQ order, each to its own op, or still to be;
no op is completed by the call whose handler pushed it; and when no call is in progress, what the calls
returned adds up to the ops completed. -/
structure State.Delivered (s : State) : Prop where
  immediate : s.pushed =
    s.completed.map (fun c => c.op.addr) ++ (s.draining ++ s.ready).map ReadyOp.addr
  requested : ∀ a, a ≠ 0 →
    s.requested.count a = s.posted.count a + (s.arrived.map fun c => c.wc.wrId).count a
  entries : s.arrived = s.dispatched ++ s.pending ++ s.cq
  own : s.resolved.map Resolved.op = s.dispatched.map fun c => c.wc.wrId
  deferred : ∀ c ∈ s.completed, c.op.pushedIn ≠ some c.call
  counts : s.frames = [] →
    (s.returned.map Returned.count).sum = s.completed.length + s.resolved.length

/-- Entries of posted ops are resolved one by one. -/
theorem map_op_filterMap {cs : List Cqe} (h : ∀ c ∈ cs, c.wc.wrId ≠ 0) :
    (cs.filterMap fun c => resolveVerbsOp c.wc).map Resolved.op = cs.map fun c => c.wc.wrId := by
  induction cs with
  | nil => rfl
  | cons c cs ih =>
    obtain ⟨r, hr⟩ :=
      Option.isSome_iff_exists.1 (resolveVerbsOp_isSome.2 (h c List.mem_cons_self))
    rw [List.filterMap_cons_some (f := fun c : Cqe => resolveVerbsOp c.wc) hr, List.map_cons,
      List.map_cons, op_of_resolveVerbsOp hr, ih fun c' hc => h c' (List.mem_cons_of_mem c hc)]

theorem Delivering.delivered (h : Delivering s) : s.Delivered := by
  have hown : s.resolved.map Resolved.op = s.dispatched.map fun c => c.wc.wrId := by
    refine map_op_filterMap fun c hc => h.posted c ?_
    rw [h.numbered.split, h.cqOrder]
    exact List.mem_append_left _ (List.mem_append_left _ hc)
  refine ⟨h.readyOrder, fun a ha => (h.requested a ha).symm, ?_, hown, h.deferred.completed, ?_⟩
  · rw [← h.cqOrder]
    exact h.numbered.split
  · intro hf
    have hlen := congrArg List.length hown
    rw [List.length_map, List.length_map] at hlen
    have hcount := h.counted
    rw [State.counted, hf] at hcount
    rw [hlen]
    exact hcount

/-- Poll-mode delivery: in every run in which the calls do not overlap, nothing is lost, repeated or
reordered, and a `poll(ec)` that has succeeded has completed everything that was there when it began. -/
theorem poll_mode_delivery {ls : List Label} (hr : (completionQueue pollBatch).run {} ls = some s)
    (hm : (completionQueue pollBatch).Meets (fun s l => flat s l = true) {} ls) :
    s.Delivered ∧ ∀ pre post t n, ls = pre ++ .poll :: post →
      (completionQueue pollBatch).run {} pre = some t → ⟨t.calls, n, success⟩ ∈ s.returned →
        t.pushed <+: s.completed.map (fun c => c.op.addr) ∧ t.arrived <+: s.dispatched := by
  have hd : Delivering s := StepSystem.invariant_of_meets (M := completionQueue pollBatch)
    (fun _ _ _ h hfl hst => h.step hfl hst) hr hm .fresh
  refine ⟨hd.delivered, ?_⟩
  rintro pre post t n rfl ht hret
  obtain ⟨t', ht', hpost⟩ := StepSystem.run_append.1 hr
  obtain rfl : t' = t := Option.some.inj (ht'.symm.trans ht)
  exact poll_completes ht hpost hm hret

/-- Two posted ops and an immediate one; the handler of the first entry pushes another. -/
def pollOnce : List Label :=
  [.post 1, .post 2, .pushReady 3 false, .cqe ⟨2, .success, .recv, 8⟩, .cqe ⟨1, .success, .send, 0⟩,
    .poll, .run false, .run false, .handlerReturns, .run false, .run false, .run false,
    .pushReady 4 true, .handlerReturns, .run false, .handlerReturns, .run false, .run false,
    .run false]

/-- The one `poll(ec)` completes three ops and leaves the one pushed by the handler. -/
theorem poll_mode_delivery_pollOnce :
    let s := (completionQueue 2).after {} pollOnce
    s.Delivered ∧ s.ready = [⟨4, some 0⟩] ∧ s.returned = [⟨0, 3, success⟩] := by
  have hr : ((completionQueue 2).run {} pollOnce).isSome = true := by decide +kernel
  refine ⟨(poll_mode_delivery (StepSystem.run_after hr) (by decide +kernel)).1, ?_, ?_⟩
  · decide +kernel
  · decide +kernel

end CompletionQueue

end RdmaOnAsio.Ibv
