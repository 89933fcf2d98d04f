import Mathlib.Logic.Equiv.Nat
import RdmaOnAsio.Ibv.Proofs.PollDelivery
import RdmaOnAsio.Ibv.Proofs.ThrowingHandler
import RdmaOnAsio.Lts.Morphism
import RdmaOnAsio.Nd.CompletionQueue

/-!
# The nd queue is the ibv queue whose polls do not fail

A result read as an entry of an ibv CQ tells the queue as much, and no two results read alike. Under this
reading every step of the nd queue is the step of the ibv queue with a poll that succeeds, so that what is
known of the one holds of the other.
-/

namespace RdmaOnAsio.Nd

open ErrorCode Verbs
open Ibv (Wc WcStatus WcOpcode)
open Ibv.CompletionQueue (ReadyOp Completed Frame)

namespace CompletionQueue

variable {pollBatch : Nat} {s s' t : State} {l : Label} {ls : List Label} {c : Cqe}

/-! ## Reading a result as an entry -/

/-- A status read as an `ibv_wc_status`. -/
def asStatus (status : Int) : WcStatus :=
  if status = ndSuccess then .success
  else if status = ndCanceled then .wrFlushErr
  else .other (Equiv.intEquivNat status)

/-- A request type read as an `ibv_wc_opcode`. -/
def asOpcode : RequestType → WcOpcode
  | .receive => .recv
  | .send => .send
  | .read => .rdmaRead
  | .write => .rdmaWrite
  | .bind => .other 0
  | .invalidate => .other 1

/-- A result read as an `ibv_wc`. -/
def asWc (result : Nd2Result) : Wc :=
  ⟨result.requestContext, asStatus result.status, asOpcode result.requestType, result.bytesTransferred⟩

theorem asStatus_injective : Function.Injective asStatus := by
  intro a b h
  unfold asStatus at h
  split_ifs at h with ha hb hb' hc hd <;> simp_all

theorem asOpcode_injective : Function.Injective asOpcode := by
  intro a b h
  cases a <;> cases b <;> first | rfl | cases h

theorem asWc_injective : Function.Injective asWc := by
  rintro ⟨c, st, ty, n⟩ ⟨c', st', ty', n'⟩ h
  simp only [asWc, Wc.mk.injEq] at h
  obtain ⟨rfl, hst, hty, rfl⟩ := h
  rw [asStatus_injective hst, asOpcode_injective hty]

/-- Every status but success is reported as an error. -/
theorem isError_completionStatusToError {status : Int} :
    (completionStatusToError status).isError = true ↔ status ≠ ndSuccess := by
  unfold completionStatusToError
  split_ifs with h0 hc
  · exact iff_of_false Bool.noConfusion fun h => h h0
  · exact iff_of_true rfl h0
  · exact iff_of_true (bne_iff_ne.2 h0) h0

/-- The two backends resolve an entry to the same op and the same length. -/
theorem resolveVerbsOp_asWc (result : Nd2Result) :
    (Ibv.resolveVerbsOp (asWc result)).map (fun r => (r.op, r.bytesTransferred)) =
      (Poller.resolve result).map fun r => (r.op, r.bytesTransferred) := by
  obtain ⟨addr, status, type, n⟩ := result
  by_cases h0 : addr = 0
  · simp [Ibv.resolveVerbsOp, Poller.resolve, asWc, h0]
  · by_cases hst : status = ndSuccess
    · subst hst
      have hec : (completionStatusToError ndSuccess).isError = false := rfl
      cases type <;> simp [Ibv.resolveVerbsOp, Poller.resolve, asWc, h0, hec, asStatus, asOpcode]
    · have hne : asStatus status ≠ .success := by
        unfold asStatus
        split_ifs <;> simp
      have hec := isError_completionStatusToError.2 hst
      simp [Ibv.resolveVerbsOp, Poller.resolve, asWc, h0, hec, hne]

/-- A numbered result read as an entry. -/
def Cqe.asIbv (c : Cqe) : Ibv.CompletionQueue.Cqe := ⟨c.seq, asWc c.result⟩

theorem Cqe.asIbv_injective : Function.Injective Cqe.asIbv := by
  rintro ⟨n, r⟩ ⟨n', r'⟩ h
  simp only [Cqe.asIbv, Ibv.CompletionQueue.Cqe.mk.injEq] at h
  rw [h.1, asWc_injective h.2]

/-- What a call returned, with the code of a queue whose polls do not fail. -/
def Returned.asIbv (r : Returned) : Ibv.CompletionQueue.Returned := ⟨r.call, r.count, success⟩

/-- The queue read as an ibv queue. -/
def State.asIbv (s : State) : Ibv.CompletionQueue.State where
  alive := s.alive
  ready := s.ready
  posted := s.posted
  cq := s.cq.map Cqe.asIbv
  wcBuf := s.wcBuf.map Cqe.asIbv
  frames := s.frames
  calls := s.calls
  pushed := s.pushed
  requested := s.requested
  arrived := s.arrived.map Cqe.asIbv
  taken := s.taken.map Cqe.asIbv
  dispatched := s.dispatched.map Cqe.asIbv
  completed := s.completed
  destroyed := s.destroyed
  returned := s.returned.map Returned.asIbv

/-- Who moves, read as in the ibv queue. -/
def Label.asIbv : Label → Ibv.CompletionQueue.Label
  | .pushReady addr byHandler => .pushReady addr byHandler
  | .post addr => .post addr
  | .cqe result => .cqe (asWc result)
  | .poll => .poll
  | .pollOne => .pollOne
  | .run => .run false
  | .handlerReturns => .handlerReturns
  | .handlerThrows calls => .handlerThrows calls
  | .destroy => .destroy

/-! ## Every step is the ibv queue's -/

theorem asIbv_dispatchCompletion {call : Nat} {below : List Frame} :
    (s.dispatchCompletion c call below).asIbv = s.asIbv.dispatch c.asIbv call below := by
  have hframes : (if c.result.requestContext = 0 then below else Frame.mk call .handler :: below) =
      if (Ibv.resolveVerbsOp c.asIbv.wc).isSome then Frame.mk call .handler :: below else below := by
    by_cases h0 : c.result.requestContext = 0
    · rw [if_pos h0, if_neg fun hs => Ibv.resolveVerbsOp_isSome.1 hs h0]
    · rw [if_neg h0, if_pos (Ibv.resolveVerbsOp_isSome.2 h0)]
  simp only [State.dispatchCompletion, State.asIbv, Ibv.CompletionQueue.State.dispatch, List.map_append,
    List.map_cons, List.map_nil, hframes]

theorem asIbv_leave (s : State) (call count : Nat) (rest : List Frame) :
    (s.leave call count rest).asIbv = s.asIbv.leave call count success rest := by
  simp only [State.leave, State.asIbv, Ibv.CompletionQueue.State.leave, List.map_append, List.map_cons,
    List.map_nil, Returned.asIbv]

/-- The innermost call moves as that of the ibv queue. -/
theorem advance_asIbv {call : Nat} {rest : List Frame} {pc : Ibv.CompletionQueue.Pc} :
    s.asIbv.advance pollBatch call rest false pc = (s.advance pollBatch call rest pc).map State.asIbv := by
  cases pc with
  | takeReady => rfl
  | drain queue n =>
    cases queue with
    | nil => rfl
    | cons op queue => rfl
  | pollCq total =>
    simp [Ibv.CompletionQueue.State.advance, State.advance, State.asIbv, State.fillBuffer,
      Ibv.CompletionQueue.State.fillBuffer, Ibv.Poller.batchSize, Poller.batchSize]
  | batch total n i =>
    simp only [Ibv.CompletionQueue.State.advance, State.advance]
    split_ifs with hi hn hn' hn'
    · have hget : s.asIbv.wcBuf[i]? = (s.wcBuf[i]?).map Cqe.asIbv := List.getElem?_map
      rw [hget]
      cases s.wcBuf[i]? with
      | none => rfl
      | some c => exact congrArg some asIbv_dispatchCompletion.symm
    · rfl
    · omega
    · omega
    · exact congrArg some (asIbv_leave s call (total + n) rest).symm
  | popReady =>
    simp only [Ibv.CompletionQueue.State.advance, State.advance]
    have hready : s.asIbv.ready = s.ready := rfl
    rw [hready]
    cases s.ready <;> rfl
  | pollOneCq =>
    simp only [Ibv.CompletionQueue.State.advance, State.advance]
    have hcq : s.asIbv.cq = s.cq.map Cqe.asIbv := rfl
    rw [hcq]
    cases s.cq with
    | nil => exact congrArg some (asIbv_leave s call 0 rest).symm
    | cons c cq =>
      refine congrArg some (Eq.trans ?_ asIbv_dispatchCompletion.symm)
      simp [State.asIbv]
  | pollOneDone => exact congrArg some (asIbv_leave s call 1 rest).symm
  | handler => rfl

/-- The nd queue steps as the ibv queue does when `ibv_poll_cq` succeeds. -/
theorem morphism (pollBatch : Nat) :
    (completionQueue pollBatch).Morphism (Ibv.completionQueue pollBatch) State.asIbv Label.asIbv := by
  intro s l
  cases l with
  | pushReady addr byHandler =>
    simp only [completionQueue, State.step, Option.map_if]
    rfl
  | post addr =>
    simp only [completionQueue, State.step, Option.map_if]
    rfl
  | cqe result =>
    simp only [completionQueue, State.step, Option.map_if]
    simp only [Ibv.completionQueue, Ibv.CompletionQueue.State.step, Label.asIbv, State.asIbv,
      List.map_append, List.map_cons, List.map_nil, List.length_map, Cqe.asIbv]
    rfl
  | poll =>
    simp only [completionQueue, State.step, Option.map_if]
    rfl
  | pollOne =>
    simp only [completionQueue, State.step, Option.map_if]
    rfl
  | run =>
    have hframes : s.asIbv.frames = s.frames := rfl
    simp only [Ibv.completionQueue, completionQueue, Ibv.CompletionQueue.State.step, State.step,
      Label.asIbv, hframes]
    cases s.frames with
    | nil => rfl
    | cons f rest => exact advance_asIbv
  | handlerReturns =>
    have hframes : s.asIbv.frames = s.frames := rfl
    simp only [Ibv.completionQueue, completionQueue, Ibv.CompletionQueue.State.step, State.step,
      Label.asIbv, hframes]
    cases s.frames with
    | nil => rfl
    | cons f rest =>
      obtain ⟨call, pc⟩ := f
      cases pc <;> rfl
  | handlerThrows calls =>
    simp only [completionQueue, State.step, Option.map_if]
    rfl
  | destroy =>
    simp only [completionQueue, State.step, Option.map_if]
    rfl

/-! ## Delivery -/

/-- No handler polls or throws, the queue is not destroyed, and every result names the op it was posted
with. -/
def flat (s : State) : Label → Bool
  | .poll | .pollOne => s.frames.isEmpty
  | .cqe result => result.requestContext != 0
  | .handlerThrows _ | .destroy => false
  | .pushReady _ _ | .post _ | .run | .handlerReturns => true

theorem flat_asIbv : Ibv.CompletionQueue.flat s.asIbv l.asIbv = flat s l := by
  cases l <;> rfl

theorem pending_asIbv : s.asIbv.pending = s.pending.map Cqe.asIbv := by
  have hframe : ∀ f : Frame, f.pending (s.wcBuf.map Cqe.asIbv) = (pendingIn s.wcBuf f).map Cqe.asIbv := by
    rintro ⟨call, pc⟩
    cases pc with
    | batch total n i => simp [Frame.pending, pendingIn, List.map_take, List.map_drop]
    | _ => rfl
  rw [State.pending, List.map_flatMap]
  exact List.flatMap_congr fun f _ => hframe f

/-- Every immediate op is completed once and in push order, or still queued; every posted op is with the
provider or has one result, and the results are dispatched once and in CQ order, each to its own op, or
still to be; no op is completed by the call whose handler pushed it; and when no call is in progress,
what the calls returned adds up to the ops completed. -/
structure State.Delivered (s : State) : Prop where
  immediate : s.pushed =
    s.completed.map (fun c => c.op.addr) ++ (s.draining ++ s.ready).map ReadyOp.addr
  requested : ∀ a, a ≠ 0 →
    s.requested.count a = s.posted.count a + (s.arrived.map fun c => c.result.requestContext).count a
  entries : s.arrived = s.dispatched ++ s.pending ++ s.cq
  own : s.resolved.map Poller.Resolved.op = s.dispatched.map fun c => c.result.requestContext
  deferred : ∀ c ∈ s.completed, c.op.pushedIn ≠ some c.call
  counts : s.frames = [] →
    (s.returned.map Returned.count).sum = s.completed.length + s.resolved.length

/-- The dispatched results are resolved to the ops, and the lengths, that the entries they read as are. -/
theorem resolved_asIbv (s : State) :
    s.asIbv.resolved.map (fun r => (r.op, r.bytesTransferred)) =
      s.resolved.map fun r => (r.op, r.bytesTransferred) := by
  simp only [Ibv.CompletionQueue.State.resolved, State.resolved, State.asIbv, List.filterMap_map,
    List.map_filterMap]
  exact List.filterMap_congr fun c _ => resolveVerbsOp_asWc c.result

/-- Run for run, the nd queue is the ibv queue whose polls succeed: the same labels are enabled, they
lead to the same queue, and the ops that are resolved in it are the same and have the same lengths. -/
theorem runs_as_ibv (pollBatch : Nat) (s : State) (ls : List Label) :
    (Ibv.completionQueue pollBatch).run s.asIbv (ls.map Label.asIbv) =
      ((completionQueue pollBatch).run s ls).map State.asIbv ∧
    ((completionQueue pollBatch).run s ls).map (fun t =>
        t.asIbv.resolved.map fun r => (r.op, r.bytesTransferred)) =
      ((completionQueue pollBatch).run s ls).map fun t =>
        t.resolved.map fun r => (r.op, r.bytesTransferred) :=
  ⟨(morphism pollBatch).run s ls, congrArg (Option.map · _) (funext resolved_asIbv)⟩

/-- A reading that keeps the property keeps what it says of the queue. -/
theorem delivered_of_asIbv (h : s.asIbv.Delivered) : s.Delivered := by
  have hops := congrArg (List.map Prod.fst) (resolved_asIbv s)
  simp only [List.map_map, Function.comp_def] at hops
  refine ⟨h.immediate, fun a ha => ?_, ?_, ?_, h.deferred, fun hf => ?_⟩
  · have hreq := h.requested a ha
    simpa [State.asIbv, Cqe.asIbv, asWc, Function.comp_def] using hreq
  · refine List.map_injective_iff.2 Cqe.asIbv_injective ?_
    rw [List.map_append, List.map_append, ← pending_asIbv]
    exact h.entries
  · refine hops.symm.trans (h.own.trans ?_)
    simp [State.asIbv, Cqe.asIbv, asWc, Function.comp_def]
  · have hlen := congrArg List.length (resolved_asIbv s)
    rw [List.length_map, List.length_map] at hlen
    have hcount := h.counts hf
    rw [hlen] at hcount
    simpa [State.asIbv, Returned.asIbv, Function.comp_def] using hcount

/-- A step of a call that is in progress returns from it without an error, or does not return. -/
theorem returned_advance {call : Nat} {rest : List Frame} {pc : Ibv.CompletionQueue.Pc}
    (hst : s.advance pollBatch call rest pc = some s') :
    s'.returned = s.returned ∨ ∃ n, s'.returned = s.returned ++ [⟨call, n, .common success⟩] := by
  cases pc with
  | takeReady =>
    obtain rfl := Option.some.inj hst
    exact .inl rfl
  | drain queue n =>
    cases queue <;> obtain rfl := Option.some.inj hst <;> exact .inl rfl
  | pollCq total =>
    obtain rfl := Option.some.inj hst
    exact .inl rfl
  | batch total n i =>
    simp only [State.advance] at hst
    split_ifs at hst
    · split at hst
      · obtain rfl := Option.some.inj hst
        exact .inl rfl
      · cases hst
    · obtain rfl := Option.some.inj hst
      exact .inl rfl
    · obtain rfl := Option.some.inj hst
      exact .inr ⟨_, rfl⟩
  | popReady =>
    simp only [State.advance] at hst
    split at hst <;> obtain rfl := Option.some.inj hst <;> exact .inl rfl
  | pollOneCq =>
    simp only [State.advance] at hst
    split at hst
    · obtain rfl := Option.some.inj hst
      exact .inl rfl
    · obtain rfl := Option.some.inj hst
      exact .inr ⟨_, rfl⟩
  | pollOneDone =>
    obtain rfl := Option.some.inj hst
    exact .inr ⟨_, rfl⟩
  | handler => cases hst

/-- `ec` is cleared when a call begins, and nothing sets it. -/
theorem returned_step (h : ∀ r ∈ s.returned, r.ec = .common success)
    (hst : (completionQueue pollBatch).step s l = some s') :
    ∀ r ∈ s'.returned, r.ec = .common success := by
  cases l with
  | run =>
    simp only [completionQueue, State.step] at hst
    split at hst
    · rcases returned_advance hst with hsame | ⟨n, hnew⟩
      · rwa [hsame]
      · intro r hr
        rw [hnew] at hr
        rcases List.mem_append.1 hr with hr | hr
        · exact h r hr
        · rw [List.mem_singleton.1 hr]
    · cases hst
  | handlerReturns =>
    simp only [completionQueue, State.step] at hst
    split at hst
    · obtain rfl := Option.some.inj hst
      exact h
    · cases hst
  | _ =>
    simp only [completionQueue, State.step] at hst
    split_ifs at hst <;> obtain rfl := Option.some.inj hst <;> exact h

/-- Poll-mode delivery: in every run in which the calls do not overlap, nothing is lost, repeated or
reordered; every call returns without an error; and a `poll(ec)` that has returned has completed everything
that was there when it began. -/
theorem delivers_in_order (hr : (completionQueue pollBatch).run {} ls = some s)
    (hm : (completionQueue pollBatch).Meets (fun s l => flat s l = true) {} ls) :
    s.Delivered ∧ (∀ r ∈ s.returned, r.ec = .common success) ∧
      ∀ pre post t, ls = pre ++ .poll :: post → (completionQueue pollBatch).run {} pre = some t →
        (∃ r ∈ s.returned, r.call = t.calls) →
          t.pushed <+: s.completed.map (fun c => c.op.addr) ∧ t.arrived <+: s.dispatched := by
  have hmor := morphism pollBatch
  have hrun := hmor.run_eq_some hr
  have hmeets : (Ibv.completionQueue pollBatch).Meets
      (fun s l => Ibv.CompletionQueue.flat s l = true) {} (ls.map Label.asIbv) := by
    refine hmor.meets_iff.2 (hm.mono fun s l hfl => ?_)
    rw [flat_asIbv]
    exact hfl
  have hd : Ibv.CompletionQueue.Delivering s.asIbv :=
    StepSystem.invariant_of_meets (M := Ibv.completionQueue pollBatch)
      (fun _ _ _ h hfl hst => h.step hfl hst) hrun hmeets .fresh
  refine ⟨delivered_of_asIbv hd.delivered, ?_, ?_⟩
  · exact StepSystem.invariant (M := completionQueue pollBatch)
      (I := fun s => ∀ r ∈ s.returned, r.ec = .common success) (fun _ _ _ h hst => returned_step h hst)
      hr fun _ hmem => absurd hmem List.not_mem_nil
  · rintro pre post t rfl ht ⟨⟨call, n, ec⟩, hret, rfl⟩
    obtain ⟨t', ht', hpost⟩ := StepSystem.run_append.1 hr
    obtain rfl : t' = t := Option.some.inj (ht'.symm.trans ht)
    obtain ⟨hp, ha⟩ := Ibv.CompletionQueue.poll_completes (hmor.run_eq_some ht)
      (hmor.run_eq_some hpost) (by simpa [Label.asIbv] using hmeets)
      (List.mem_map.2 ⟨_, hret, rfl⟩)
    exact ⟨hp, (List.prefix_map_iff_of_injective Cqe.asIbv_injective).1 ha⟩

/-- Two posted ops and an immediate one; the handler of the first result pushes another. -/
def pollOnce : List Label :=
  [.post 1, .post 2, .pushReady 3 false, .cqe ⟨2, ndSuccess, .receive, 8⟩, .cqe ⟨1, ndSuccess, .send, 0⟩,
    .poll, .run, .run, .handlerReturns, .run, .run, .run, .pushReady 4 true, .handlerReturns, .run,
    .handlerReturns, .run, .run, .run]

/-- The one `poll(ec)` completes what was there when it began. -/
theorem delivers_in_order_pollOnce :
    let s := (completionQueue 2).after {} pollOnce
    s.Delivered ∧ s.returned = [⟨0, 3, .common success⟩] := by
  have hr : ((completionQueue 2).run {} pollOnce).isSome = true := by decide +kernel
  exact ⟨(delivers_in_order (StepSystem.run_after hr) (by decide +kernel)).1, by decide +kernel⟩

/-! ## Nested polls and throwing handlers -/

/-- A batch handed out to a nested `poll(ec)` overwrites nothing that an outer call is still going to
dispatch. -/
def keepsBatches (pollBatch : Nat) (s : State) : Label → Bool
  | .run =>
    match s.frames with
    | ⟨_, .pollCq _⟩ :: rest => rest.all (Frame.survives (min (Poller.batchSize pollBatch) s.cq.length))
    | _ => true
  | _ => true

/-- An exception leaves no call that has not dispatched its batch. -/
def dropsNoEntry (s : State) : Label → Bool
  | .handlerThrows calls => (s.frames.take (2 * (calls + 1))).all Frame.batchDone
  | _ => true

/-- An exception leaves no call with ops in its local ready queue; and the queue is not destroyed with ops
in it. -/
def dropsNoReady (s : State) : Label → Bool
  | .handlerThrows calls => (s.frames.take (2 * (calls + 1))).all fun f => f.queue.isEmpty
  | .destroy => s.ready.isEmpty
  | _ => true

/-- The results taken off the CQ and the immediate ops are all there: completed, or to be completed by a
call in progress, or queued. -/
structure State.Undamaged (s : State) : Prop where
  entries : (s.dispatched ++ s.pending).Perm s.taken
  immediate : ∀ a, s.pushed.count a =
    (s.completed.map fun c => c.op.addr).count a + (s.draining.map ReadyOp.addr).count a +
      (s.ready.map ReadyOp.addr).count a

theorem undamaged_asIbv : s.asIbv.Undamaged ↔ s.Undamaged := by
  have hperm : (s.asIbv.dispatched ++ s.asIbv.pending).Perm s.asIbv.taken ↔
      (s.dispatched ++ s.pending).Perm s.taken := by
    rw [pending_asIbv]
    show (s.dispatched.map Cqe.asIbv ++ s.pending.map Cqe.asIbv).Perm (s.taken.map Cqe.asIbv) ↔ _
    rw [← List.map_append, List.map_perm_map_iff Cqe.asIbv_injective]
  exact ⟨fun h => ⟨hperm.1 h.entries, h.immediate⟩, fun h => ⟨hperm.2 h.entries, h.immediate⟩⟩

theorem keepsBatches_asIbv :
    Ibv.CompletionQueue.keepsBatches pollBatch s.asIbv l.asIbv = keepsBatches pollBatch s l := by
  cases l with
  | run =>
    have hlen : s.asIbv.cq.length = s.cq.length := List.length_map _
    have hframes : s.asIbv.frames = s.frames := rfl
    simp only [Label.asIbv, Ibv.CompletionQueue.keepsBatches, keepsBatches, hlen, hframes]
    rfl
  | _ => rfl

theorem dropsNoEntry_asIbv : Ibv.CompletionQueue.dropsNoEntry s.asIbv l.asIbv = dropsNoEntry s l := by
  cases l <;> rfl

theorem dropsNoReady_asIbv : Ibv.CompletionQueue.dropsNoReady s.asIbv l.asIbv = dropsNoReady s l := by
  cases l <;> rfl

/-- Whatever handlers poll and throw: nothing is missing in any state of a run exactly if no nested poll
overwrites a result that an outer call has not dispatched, and no exception leaves a call with results
or ops it has not completed. -/
theorem nothing_missing_iff (hr : (completionQueue pollBatch).run {} ls = some s) :
    (∀ pre t, pre <+: ls → (completionQueue pollBatch).run {} pre = some t → t.Undamaged) ↔
      (completionQueue pollBatch).Meets (fun s l =>
        (keepsBatches pollBatch s l && dropsNoEntry s l && dropsNoReady s l) = true) {} ls := by
  have hmor := morphism pollBatch
  have hiff := Ibv.CompletionQueue.undamaged_run_iff (hmor.run_eq_some hr)
  rw [show ({} : Ibv.CompletionQueue.State) = State.asIbv {} from rfl, hmor.always_iff, hmor.meets_iff]
    at hiff
  simpa only [undamaged_asIbv, keepsBatches_asIbv, dropsNoEntry_asIbv, dropsNoReady_asIbv] using hiff

/-- The handler of the last result of a batch polls again. -/
def nestedPoll : List Label :=
  [.post 1, .post 2, .cqe ⟨1, ndSuccess, .send, 0⟩, .poll, .run, .run, .run, .run,
    .cqe ⟨2, ndCanceled, .receive, 0⟩, .poll, .run, .run, .run, .run, .handlerReturns, .run, .run, .run,
    .handlerReturns, .run, .run, .run]

theorem nothing_missing_iff_nested :
    ((completionQueue 2).run {} nestedPoll).isSome = true ∧
      ∀ pre t, pre <+: nestedPoll → (completionQueue 2).run {} pre = some t → t.Undamaged := by
  have hr : ((completionQueue 2).run {} nestedPoll).isSome = true := by decide +kernel
  exact ⟨hr, (nothing_missing_iff (StepSystem.run_after hr)).2 (by decide +kernel)⟩

end CompletionQueue

end RdmaOnAsio.Nd
