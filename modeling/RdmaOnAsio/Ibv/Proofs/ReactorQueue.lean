import RdmaOnAsio.Ibv.Connector

/-!
# The reactor's queue

What `proceed`, `nextOp` and the cancellations do to the armed and the retired ops, and the rule by
which a condition on every op is carried over them. Nothing here looks inside an op.
-/

namespace RdmaOnAsio.Ibv

/-- The op a piece of `do_perform` leaves armed. -/
def kept : CmOp × Outcome → List CmOp
  | (_, .ret .done) => []
  | (op, .ret .notDone) => [op]
  | (op, .goto _) => [op]

/-- The op a piece of `do_perform` retires. -/
def finished : CmOp × Outcome → List CmOp
  | (op, .ret .done) => [op]
  | (_, .ret .notDone) => []
  | (_, .goto _) => []

namespace State

variable {s : State} {r : CmOp × Outcome} {p : CmOp → Bool}

/-- Takes the queued ops that satisfy `p` off the queue and posts them with `operation_aborted`; both
cancellations are of this form. -/
def cancelWhere (s : State) (p : CmOp → Bool) : State :=
  { s with
    readQueue := s.readQueue.filter fun op => !p op
    scheduled := s.scheduled ++ (s.readQueue.filter p).map CmOp.abort }

/-! ## What stays the same -/

@[simp] theorem connectState_log (a : Action) : (s.log a).connectState = s.connectState := rfl
@[simp] theorem initiation_log (a : Action) : (s.log a).initiation = s.initiation := rfl
@[simp] theorem callers_log (a : Action) : (s.log a).callers = s.callers := rfl
@[simp] theorem channel_log (a : Action) : (s.log a).channel = s.channel := rfl
@[simp] theorem reactor_log (a : Action) : (s.log a).reactor = s.reactor := rfl
@[simp] theorem readQueue_log (a : Action) : (s.log a).readQueue = s.readQueue := rfl
@[simp] theorem ioCleanup_log (a : Action) : (s.log a).ioCleanup = s.ioCleanup := rfl
@[simp] theorem scheduled_log (a : Action) : (s.log a).scheduled = s.scheduled := rfl
@[simp] theorem lifetime_log (a : Action) : (s.log a).lifetime = s.lifetime := rfl
@[simp] theorem armed_log (a : Action) : (s.log a).armed = s.armed := rfl
@[simp] theorem retired_log (a : Action) : (s.log a).retired = s.retired := rfl
@[simp] theorem trace_log (a : Action) : (s.log a).trace = a :: s.trace := rfl

@[simp] theorem connectState_cancelWhere : (s.cancelWhere p).connectState = s.connectState := rfl
@[simp] theorem initiation_cancelWhere : (s.cancelWhere p).initiation = s.initiation := rfl
@[simp] theorem callers_cancelWhere : (s.cancelWhere p).callers = s.callers := rfl
@[simp] theorem channel_cancelWhere : (s.cancelWhere p).channel = s.channel := rfl
@[simp] theorem reactor_cancelWhere : (s.cancelWhere p).reactor = s.reactor := rfl
@[simp] theorem lifetime_cancelWhere : (s.cancelWhere p).lifetime = s.lifetime := rfl
@[simp] theorem trace_cancelWhere : (s.cancelWhere p).trace = s.trace := rfl

@[simp] theorem connectState_takeEdge : s.takeEdge.connectState = s.connectState := rfl
@[simp] theorem initiation_takeEdge : s.takeEdge.initiation = s.initiation := rfl
@[simp] theorem callers_takeEdge : s.takeEdge.callers = s.callers := rfl
@[simp] theorem channel_takeEdge : s.takeEdge.channel = s.channel := rfl
@[simp] theorem reactor_takeEdge : s.takeEdge.reactor = s.reactor := rfl
@[simp] theorem lifetime_takeEdge : s.takeEdge.lifetime = s.lifetime := rfl
@[simp] theorem armed_takeEdge : s.takeEdge.armed = s.armed := rfl
@[simp] theorem retired_takeEdge : s.takeEdge.retired = s.retired := rfl
@[simp] theorem trace_takeEdge : s.takeEdge.trace = s.trace := rfl

theorem armCmCancellation_frame (s : State) (op : CmOp) :
    ∃ sl, s.armCmCancellation op = { s with slots := sl } := by
  unfold armCmCancellation
  split
  · exact ⟨_, rfl⟩
  · exact ⟨_, rfl⟩

/-- `nextOp` moves ops and touches nothing else. -/
theorem nextOp_frame : ∃ rc q b io sch,
    s.nextOp =
      { s with reactor := rc, readQueue := q, backlog := b, ioCleanup := io, scheduled := sch } := by
  unfold nextOp
  split
  · exact ⟨_, _, _, _, _, rfl⟩
  · exact ⟨_, _, _, _, _, rfl⟩

/-- `proceed` moves ops and touches nothing else. -/
theorem proceed_frame : ∃ rc q b io sch,
    s.proceed r =
      { s with reactor := rc, readQueue := q, backlog := b, ioCleanup := io, scheduled := sch } := by
  unfold proceed
  split
  · exact ⟨_, _, _, _, _, rfl⟩
  · next op =>
    obtain ⟨rc, q, b, io, sch, h⟩ := nextOp_frame (s := { s with ioCleanup := s.ioCleanup ++ [op] })
    exact ⟨rc, q, b, io, sch, h⟩
  · exact ⟨_, _, _, _, _, rfl⟩

section Frame

@[simp] theorem connectState_nextOp : s.nextOp.connectState = s.connectState := by
  obtain ⟨_, _, _, _, _, h⟩ := s.nextOp_frame
  rw [h]

@[simp] theorem initiation_nextOp : s.nextOp.initiation = s.initiation := by
  obtain ⟨_, _, _, _, _, h⟩ := s.nextOp_frame
  rw [h]

@[simp] theorem callers_nextOp : s.nextOp.callers = s.callers := by
  obtain ⟨_, _, _, _, _, h⟩ := s.nextOp_frame
  rw [h]

@[simp] theorem channel_nextOp : s.nextOp.channel = s.channel := by
  obtain ⟨_, _, _, _, _, h⟩ := s.nextOp_frame
  rw [h]

@[simp] theorem lifetime_nextOp : s.nextOp.lifetime = s.lifetime := by
  obtain ⟨_, _, _, _, _, h⟩ := s.nextOp_frame
  rw [h]

@[simp] theorem trace_nextOp : s.nextOp.trace = s.trace := by
  obtain ⟨_, _, _, _, _, h⟩ := s.nextOp_frame
  rw [h]

@[simp] theorem connectState_proceed : (s.proceed r).connectState = s.connectState := by
  obtain ⟨_, _, _, _, _, h⟩ := s.proceed_frame (r := r)
  rw [h]

@[simp] theorem initiation_proceed : (s.proceed r).initiation = s.initiation := by
  obtain ⟨_, _, _, _, _, h⟩ := s.proceed_frame (r := r)
  rw [h]

@[simp] theorem callers_proceed : (s.proceed r).callers = s.callers := by
  obtain ⟨_, _, _, _, _, h⟩ := s.proceed_frame (r := r)
  rw [h]

@[simp] theorem channel_proceed : (s.proceed r).channel = s.channel := by
  obtain ⟨_, _, _, _, _, h⟩ := s.proceed_frame (r := r)
  rw [h]

@[simp] theorem lifetime_proceed : (s.proceed r).lifetime = s.lifetime := by
  obtain ⟨_, _, _, _, _, h⟩ := s.proceed_frame (r := r)
  rw [h]

@[simp] theorem trace_proceed : (s.proceed r).trace = s.trace := by
  obtain ⟨_, _, _, _, _, h⟩ := s.proceed_frame (r := r)
  rw [h]

end Frame

/-! ## Where the ops go -/

/-- The armed ops after a piece of `do_perform`: the performed op if it stays, then the queue. -/
theorem armed_proceed : (s.proceed r).armed = kept r ++ s.readQueue := by
  obtain ⟨op, out⟩ := r
  cases out with
  | goto pc => rfl
  | ret st =>
    cases st with
    | notDone => rfl
    | done =>
      simp only [proceed, nextOp]
      split
      · simp [armed, Reactor.ops, kept]
      · next o rest hq => simpa [armed, Reactor.ops, kept] using hq.symm

/-- The retired ops after a piece of `do_perform`. -/
theorem retired_proceed : (s.proceed r).retired.Perm (s.retired ++ finished r) := by
  obtain ⟨op, out⟩ := r
  cases out with
  | goto pc => simp [proceed, retired, finished]
  | ret st =>
    cases st with
    | notDone => simpa [proceed, retired, finished] using List.perm_append_comm
    | done =>
      have hcomm : (s.ioCleanup ++ op :: s.scheduled).Perm (s.ioCleanup ++ (s.scheduled ++ [op])) :=
        (List.perm_append_singleton op s.scheduled).symm.append_left s.ioCleanup
      simp only [proceed, nextOp]
      split
      · have hswap : (s.scheduled ++ (s.ioCleanup ++ [op])).Perm
            (s.ioCleanup ++ (s.scheduled ++ [op])) := by
          rw [← List.append_assoc, ← List.append_assoc]
          exact List.perm_append_comm.append_right [op]
        simpa [retired, finished] using hswap
      · simpa [retired, finished] using hcomm

theorem cancelOps_eq : s.cancelOps = s.cancelWhere fun _ => true := by
  have hnil : s.readQueue.filter (fun op => !(fun _ => true) op) = [] := by simp
  have hall : s.readQueue.filter (fun _ => true) = s.readQueue := by simp
  rw [cancelWhere, hnil, hall, cancelOps]

theorem cancelOpsByKey_eq (key : Nat) :
    s.cancelOpsByKey key = s.cancelWhere fun op => op.cancellationKey == some key := rfl

theorem mem_retired_cancelWhere {o : CmOp} :
    o ∈ (s.cancelWhere p).retired ↔
      o ∈ s.retired ∨ ∃ o' ∈ s.readQueue, p o' = true ∧ o'.abort = o := by
  simp only [retired, cancelWhere, ← List.append_assoc]
  rw [List.mem_append, List.mem_map]
  simp only [List.mem_filter, and_assoc]

/-- What is cancelled and what stays make up what was armed. -/
theorem countP_cancelWhere (hr : s.reactor = .unlocked) (f : CmOp → Bool) :
    (s.readQueue.filter p).countP f + (s.cancelWhere p).armed.countP f = s.armed.countP f := by
  have hperm := (List.filter_append_perm p s.readQueue).countP_eq f
  rw [List.countP_append] at hperm
  simpa [armed, cancelWhere, hr, Reactor.ops] using hperm

theorem armed_nextOp (h : s.reactor = .unlocked) : s.nextOp.armed = s.armed := by
  unfold nextOp
  split
  · next hq => simp [armed, Reactor.ops, h]
  · next o rest hq => simp [armed, Reactor.ops, h, hq]

theorem retired_nextOp : s.nextOp.retired.Perm s.retired := by
  unfold nextOp
  split
  · simpa [retired] using List.perm_append_comm
  · exact List.Perm.refl _

/-- The op `perform_io` goes on with is the one it was performing, or the next one of the queue. -/
theorem performing_proceed {op : CmOp} {pc : PerformPc}
    (h : (s.proceed r).reactor = .performing op pc) :
    r = (op, .goto pc) ∨ op ∈ s.readQueue ∧ pc = .getCmEvent := by
  obtain ⟨o, out⟩ := r
  cases out with
  | goto pc' =>
    obtain ⟨rfl, rfl⟩ : o = op ∧ pc' = pc := by simpa [proceed] using h
    exact .inl rfl
  | ret st =>
    cases st with
    | notDone => simp [proceed] at h
    | done =>
      simp only [proceed, nextOp] at h
      split at h
      · cases h
      · next o' rest hq =>
        obtain ⟨rfl, rfl⟩ : o' = op ∧ .getCmEvent = pc := by simpa using h
        exact .inr ⟨by simp [hq], rfl⟩

theorem performing_nextOp {op : CmOp} {pc : PerformPc}
    (h : s.nextOp.reactor = .performing op pc) : op ∈ s.readQueue ∧ pc = .getCmEvent := by
  unfold nextOp at h
  split at h
  · cases h
  · next o rest hq =>
    obtain ⟨rfl, rfl⟩ : o = op ∧ .getCmEvent = pc := by simpa using h
    exact ⟨by simp [hq], rfl⟩

theorem mem_readQueue_proceed {op : CmOp} (h : op ∈ (s.proceed r).readQueue) :
    op ∈ s.readQueue ∨ r = (op, .ret .notDone) := by
  obtain ⟨o, out⟩ := r
  cases out with
  | goto pc' => exact .inl h
  | ret st =>
    cases st with
    | notDone =>
      rcases List.mem_cons.1 h with rfl | h
      · exact .inr rfl
      · exact .inl h
    | done =>
      simp only [proceed, nextOp] at h
      split at h
      · exact .inl h
      · next o' rest hq =>
        simp only at hq h
        exact .inl (by simp [hq, h])

theorem mem_readQueue_nextOp {op : CmOp} (h : op ∈ s.nextOp.readQueue) : op ∈ s.readQueue := by
  unfold nextOp at h
  split at h
  · exact h
  · next o rest hq => exact by simp [hq, show op ∈ rest from h]

end State

/-! ## Conditions on every op -/

/-- `P` holds of the performed op at its next access and of every queued op before its first one, and
`R` of every retired op. -/
structure OpsOk (P : CmOp → PerformPc → Prop) (R : CmOp → Prop) (s : State) : Prop where
  performing : ∀ op pc, s.reactor = .performing op pc → P op pc
  queued : ∀ op ∈ s.readQueue, P op .getCmEvent
  retired : ∀ op ∈ s.retired, R op

/-- What a piece of `do_perform` must leave behind for `OpsOk`. -/
def Fits (P : CmOp → PerformPc → Prop) (R : CmOp → Prop) : CmOp × Outcome → Prop
  | (op, .goto pc) => P op pc
  | (op, .ret .notDone) => P op .getCmEvent
  | (op, .ret .done) => R op

namespace OpsOk

variable {P P' : CmOp → PerformPc → Prop} {R R' : CmOp → Prop} {s : State}

theorem mono (h : OpsOk P R s) (hP : ∀ op pc, P op pc → P' op pc) (hR : ∀ op, R op → R' op) :
    OpsOk P' R' s where
  performing op pc hop := hP op pc (h.performing op pc hop)
  queued op hop := hP op _ (h.queued op hop)
  retired op hop := hR op (h.retired op hop)

theorem proceed {r : CmOp × Outcome} (hq : ∀ op ∈ s.readQueue, P op .getCmEvent)
    (hret : ∀ op ∈ s.retired, R op) (hr : Fits P R r) : OpsOk P R (s.proceed r) where
  performing op pc hop := by
    rcases State.performing_proceed hop with rfl | ⟨hmem, rfl⟩
    · exact hr
    · exact hq op hmem
  queued op hop := by
    rcases State.mem_readQueue_proceed hop with hmem | rfl
    · exact hq op hmem
    · exact hr
  retired op hop := by
    rcases List.mem_append.1 (State.retired_proceed.mem_iff.1 hop) with hmem | hmem
    · exact hret op hmem
    · obtain ⟨o, out⟩ := r
      cases out with
      | goto pc => simp [finished] at hmem
      | ret st =>
        cases st with
        | notDone => simp [finished] at hmem
        | done =>
          obtain rfl : op = o := by simpa [finished] using hmem
          exact hr

theorem nextOp (h : OpsOk P R s) : OpsOk P R s.nextOp where
  performing op pc hop := by
    obtain ⟨hmem, rfl⟩ := State.performing_nextOp hop
    exact h.queued op hmem
  queued op hop := h.queued op (State.mem_readQueue_nextOp hop)
  retired op hop := h.retired op (State.retired_nextOp.mem_iff.1 hop)

theorem startOp (h : OpsOk P R s) {op : CmOp} (hop : P op .getCmEvent) :
    OpsOk P R (s.startOp op) where
  performing := h.performing
  queued o ho := by
    rcases List.mem_append.1 ho with ho | ho
    · exact h.queued o ho
    · obtain rfl := List.mem_singleton.1 ho
      exact hop
  retired := h.retired

/-- Retiring queued ops with `operation_aborted` keeps the conditions if aborting leads from `P` to
`R`. -/
theorem cancelWhere (h : OpsOk P R s) {p : CmOp → Bool}
    (hR : ∀ op ∈ s.readQueue, p op = true → P op .getCmEvent → R op.abort) :
    OpsOk P R (s.cancelWhere p) where
  performing := h.performing
  queued op hop := h.queued op (List.mem_filter.1 hop).1
  retired op hop := by
    rcases State.mem_retired_cancelWhere.1 hop with hop | ⟨o, ho, hp, rfl⟩
    · exact h.retired op hop
    · exact hR o ho hp (h.queued o ho)

end OpsOk

end RdmaOnAsio.Ibv
