import RdmaOnAsio.Waits
import RdmaOnAsio.Ibv.Proofs.ConnectorStep
import RdmaOnAsio.Ibv.Proofs.ReactorQueue

/-!
# The waits of an established ibv connector

From its establishment on, with one `async_wait_disconnect` at a time, the ibv connector is an
implementation of `waits`. The wait that is in progress is in one of the places of `WaitPlace`, and the
place says how far it has got; `latch` never happens, since `disconnect()` does not touch `peer_closed_`.
-/

namespace RdmaOnAsio.Ibv

open ErrorCode

/-! ## The histories -/

/-- The steps of one established connector with one waiter at a time. No other operation is initiated, the
device stays, and no native call fails hard. -/
def inHistory (s : State) : Label → Bool
  | .event ev => ev.event != .deviceRemoval
  | .asyncWaitDisconnect _ _ => s.armed.isEmpty && s.retired.isEmpty
  | .perform (.hardError _) | .asyncConnect .. | .asyncAccept .. | .closeForDestruction | .drain _ =>
    false
  | .initiate _ | .performIo | .perform _ | .complete _ | .disconnect | .disconnectStep _ _ | .emit _ =>
    true

/-- The code of a wait whose handler is invoked. -/
def Action.waitCode : Action → Option ErrorCode
  | .invoked op _ => if op.kind = .wait then some op.ec else none
  | _ => none

/-- The codes the waits were completed with, newest first. -/
def State.waitCodes (s : State) : List ErrorCode := s.trace.filterMap Action.waitCode

/-- The connector is established and has no wait yet, and no `disconnect()` has got past its exchange. -/
structure State.Established (s : State) : Prop where
  connectState : s.connectState = .connected
  peerClosed : s.peerClosed = false
  initiation : s.initiation = .idle
  reactor : s.reactor = .unlocked
  readQueue : s.readQueue = []
  ioCleanup : s.ioCleanup = []
  scheduled : s.scheduled = []
  channel : ∀ ev ∈ s.channel, ev.event ≠ .deviceRemoval
  callers : ∀ c ∈ s.callers, c = .load ∨ c = .returned ∨ ∃ old, c = .cas old ∧ old ≠ .closed
  codes : s.waitCodes = []

/-- Cancelling the queued ops that satisfy `q` aborts the wait if it is one of them. -/
def State.abortedBy (s : State) (q : CmOp → Bool) : Option WaitEvent :=
  if s.readQueue.any q then some .aborted else none

/-- The event that a step of the connector is. -/
def waitEvent (s : State) : Label → Option WaitEvent
  | .initiate .run =>
    match s.initiation with
    | .waitLatch _ => if s.peerClosed then some .initiate else none
    | .waitState _ => some .initiate
    | _ => none
  | .perform .event =>
    match s.channel with
    | ev :: _ => if ev.event = .disconnected then some .notified else none
    | [] => none
  | .complete _ => some .complete
  | .disconnectStep i .run =>
    match s.callers[i]? with
    | some (.cas old) => if s.connectState = old then some .close else none
    | some (.cancelOps _) => s.abortedBy fun _ => true
    | _ => none
  | .emit key => s.abortedBy fun op => op.cancellationKey == some key
  | _ => none

/-- The connector as far as the histories go. -/
def waiting (cfg : Config) : StepSystem State Label := (connector cfg).restrict inHistory

/-- The history of a run. -/
def waitHistory (cfg : Config) (s : State) (ls : List Label) : List WaitEvent :=
  (waiting cfg).visible waitEvent s ls

/-! ## Where the wait is -/

/-- Where the wait that is in progress is. -/
inductive WaitPlace
  | idle
  | latch (op : CmOp)
  | state (op : CmOp)
  | post (op : CmOp)
  | start (op : CmOp)
  | queued (op : CmOp)
  | reading (op : CmOp)
  | storing (op : CmOp)
  | scheduled (op : CmOp)

namespace WaitPlace

def op? : WaitPlace → Option CmOp
  | .idle => none
  | .latch op | .state op | .post op | .start op | .queued op | .reading op | .storing op
  | .scheduled op => some op

def initiation : WaitPlace → InitPc
  | .latch op => .waitLatch op
  | .state op => .waitState op
  | .post op => .post op
  | .start op => .startOp op
  | .idle | .queued _ | .reading _ | .storing _ | .scheduled _ => .idle

def reactor : WaitPlace → Reactor
  | .reading op => .performing op .getCmEvent
  | .storing op => .performing op .storePeerClosed
  | .idle | .latch _ | .state _ | .post _ | .start _ | .queued _ | .scheduled _ => .unlocked

def readQueue : WaitPlace → List CmOp
  | .queued op => [op]
  | .idle | .latch _ | .state _ | .post _ | .start _ | .reading _ | .storing _ | .scheduled _ => []

def completions : WaitPlace → List CmOp
  | .scheduled op => [op]
  | .idle | .latch _ | .state _ | .post _ | .start _ | .queued _ | .reading _ | .storing _ => []

/-- How far the wait has got. -/
def wait : WaitPlace → Wait
  | .idle | .latch _ | .state _ => .idle
  | .start _ | .queued _ | .reading _ => .pending
  | .post op | .storing op | .scheduled op => .ended op.ec

/-- `peer_closed_` says whether a wait was notified, except while a notified wait is about to store it. A
wait on its way to `connect_state_` has found it clear. -/
def Latches (notified peerClosed : Bool) : WaitPlace → Prop
  | .storing _ => notified = true
  | .state _ => notified = false ∧ peerClosed = false
  | .idle | .latch _ | .post _ | .start _ | .queued _ | .reading _ | .scheduled _ =>
    notified = peerClosed

end WaitPlace

/-- The connector with its wait at `p`, and the abstract connection it implements. -/
structure Implements (s : State) (p : WaitPlace) (w : Waits) : Prop where
  kind : ∀ op, p.op? = some op → op.kind = .wait
  initiation : s.initiation = p.initiation
  reactor : s.reactor = p.reactor
  readQueue : s.readQueue = p.readQueue
  ioCleanup : s.ioCleanup = []
  scheduled : s.scheduled = p.completions
  wait : w.wait = p.wait
  latches : p.Latches w.notified s.peerClosed
  connectState : s.connectState = if w.closed then .closed else .connected
  callers : .cas .closed ∉ s.callers
  channel : ∀ ev ∈ s.channel, ev.event ≠ .deviceRemoval
  codes : s.waitCodes = w.codes.map Prod.fst

variable {cfg : Config} {s s' : State} {p : WaitPlace} {w : Waits}

theorem State.Established.implements (h : s.Established) : Implements s .idle {} where
  kind op ho := by cases ho
  initiation := h.initiation
  reactor := h.reactor
  readQueue := h.readQueue
  ioCleanup := h.ioCleanup
  scheduled := h.scheduled
  wait := rfl
  latches := h.peerClosed.symm
  connectState := h.connectState
  callers hmem := by
    obtain hc | hc | ⟨old, hc, hne⟩ := h.callers _ hmem
    · cases hc
    · cases hc
    · exact hne (DisconnectPc.cas.inj hc).symm
  channel := h.channel
  codes := h.codes

namespace Implements

/-- The initiating thread works on a wait only. -/
theorem initiation_eq (h : Implements s p w) {pc : InitPc} (hi : s.initiation = pc) :
    p.initiation = pc := h.initiation.symm.trans hi

theorem closed_of (h : Implements s p w) (hs : s.connectState = .closed) : w.closed = true := by
  by_contra hc
  rw [h.connectState, if_neg hc] at hs
  cases hs

theorem open_of (h : Implements s p w) (hs : s.connectState ≠ .closed) : w.closed = false := by
  by_contra hc
  rw [Bool.not_eq_false] at hc
  exact hs (h.connectState.trans (if_pos hc))

/-- No wait is in progress if there is no op. -/
theorem eq_idle (h : Implements s p w) (hi : s.initiation = .idle) (ha : s.armed = [])
    (hr : s.retired = []) : p = .idle := by
  rw [State.armed, h.reactor, h.readQueue] at ha
  rw [State.retired, h.scheduled] at hr
  have hpc := h.initiation_eq hi
  cases p with
  | idle => rfl
  | latch op | state op | post op | start op => cases hpc
  | queued op | reading op | storing op => cases ha
  | scheduled op => exact absurd (List.append_eq_nil_iff.1 hr).2 (List.cons_ne_nil op [])

/-- What `perform_io` has retired is posted. -/
theorem posted (h : Implements s p w) : s.scheduled ++ s.ioCleanup = p.completions := by
  rw [h.scheduled, h.ioCleanup, List.append_nil]

end Implements

/-! ## The initiation -/

namespace WaitPlace

theorem eq_latch {op : CmOp} (h : p.initiation = .waitLatch op) : p = .latch op := by
  cases p <;> simp_all [initiation]

theorem eq_state {op : CmOp} (h : p.initiation = .waitState op) : p = .state op := by
  cases p <;> simp_all [initiation]

theorem eq_post {op : CmOp} (h : p.initiation = .post op) : p = .post op := by
  cases p <;> simp_all [initiation]

theorem eq_start {op : CmOp} (h : p.initiation = .startOp op) : p = .start op := by
  cases p <;> simp_all [initiation]

end WaitPlace

/-- The steps of `async_wait_disconnect`. -/
theorem Implements.initiates {a : Answer} (h : Implements s p w) (hst : Initiates s a s') :
    waits.Follows (fun s w => ∃ p, Implements s p w) s' w (waitEvent s (.initiate a)) := by
  cases hst with
  | latchSet op hi hp =>
    obtain rfl := WaitPlace.eq_latch (h.initiation_eq hi)
    have hev : waitEvent s (.initiate .run) = some .initiate := by simp [waitEvent, hi, hp]
    have hnotified : w.notified = true := h.latches.trans hp
    rw [hev]
    refine ⟨_, Waits.step_initiate_ended h.wait (by simp [hnotified]),
      .post { op with ec := .rdma .disconnected }, ?_⟩
    exact { h with
      kind := fun o ho => Option.some.inj ho ▸ h.kind op rfl
      initiation := rfl
      wait := rfl }
  | latchClear op hi hp =>
    obtain rfl := WaitPlace.eq_latch (h.initiation_eq hi)
    have hev : waitEvent s (.initiate .run) = none := by simp [waitEvent, hi, hp]
    rw [hev]
    exact ⟨.state op, { h with initiation := rfl, latches := ⟨h.latches.trans hp, hp⟩ }⟩
  | waitClosed op hi hs =>
    obtain rfl := WaitPlace.eq_state (h.initiation_eq hi)
    have hev : waitEvent s (.initiate .run) = some .initiate := by simp [waitEvent, hi]
    rw [hev]
    refine ⟨_, Waits.step_initiate_ended h.wait (by simp [h.closed_of hs]),
      .post { op with ec := .rdma .disconnected }, ?_⟩
    exact { h with
      kind := fun o ho => Option.some.inj ho ▸ h.kind op rfl
      initiation := rfl
      wait := rfl
      latches := h.latches.1.trans h.latches.2.symm }
  | waitOpen op hi hs =>
    obtain rfl := WaitPlace.eq_state (h.initiation_eq hi)
    have hev : waitEvent s (.initiate .run) = some .initiate := by simp [waitEvent, hi]
    obtain ⟨sl, hsl⟩ := s.armCmCancellation_frame op
    rw [hev, hsl]
    refine ⟨_, Waits.step_initiate_pending h.wait (by simp [h.open_of hs, h.latches.1]),
      .start op, ?_⟩
    exact { h with
      initiation := rfl
      wait := rfl
      latches := h.latches.1.trans h.latches.2.symm }
  | posted op hi =>
    obtain rfl := WaitPlace.eq_post (h.initiation_eq hi)
    have hev : waitEvent s (.initiate .run) = none := by simp [waitEvent, hi]
    rw [hev]
    exact ⟨.scheduled op, { h with
      initiation := rfl
      scheduled := congrArg (· ++ [op]) h.scheduled }⟩
  | started op hi hr =>
    obtain rfl := WaitPlace.eq_start (h.initiation_eq hi)
    have hev : waitEvent s (.initiate .run) = none := by simp [waitEvent, hi]
    rw [hev]
    exact ⟨.queued op, { h with
      initiation := rfl
      readQueue := congrArg (· ++ [op]) h.readQueue }⟩
  | guardRejected op hi | guardPassed op hi | resolveAddrOk op hi | resolveAddrFailed op _ hi
  | published op hi | publishLost op hi | createQpFailed op _ hi | createQpOk op _ hi
  | acceptOk op hi | acceptFailed op _ hi | storedClosed op hi =>
    exact absurd (h.initiation_eq hi) (by cases p <;> simp [WaitPlace.initiation])

/-! ## The reactor -/

theorem onEvent_disconnected {op : CmOp} {ev : CmEvent} (hk : op.kind = .wait)
    (he : ev.event = .disconnected) :
    op.onEvent ev = ({ op with ec := .rdma .disconnected }, .goto .storePeerClosed) := by
  simp only [CmOp.onEvent, hk, CmOp.waitEvent, he]

theorem onEvent_ignored {op : CmOp} {ev : CmEvent} (hk : op.kind = .wait)
    (hne : ev.event ≠ .disconnected) (hne' : ev.event ≠ .deviceRemoval) :
    op.onEvent ev = ({ op with ec := success }, .ret .notDone) := by
  simp only [CmOp.onEvent, hk, CmOp.waitEvent]

theorem WaitPlace.eq_performing {op : CmOp} {pc : PerformPc} (h : p.reactor = .performing op pc) :
    p = .reading op ∧ pc = .getCmEvent ∨ p = .storing op ∧ pc = .storePeerClosed := by
  cases p <;> simp_all [reactor]

/-- The steps of `ibv_wait_disconnect_op::do_perform`. -/
theorem Implements.performs {a : Answer} {op : CmOp} {pc : PerformPc} {t : State}
    {r : CmOp × Outcome} (h : Implements s p w) (hc : inHistory s (.perform a) = true)
    (hr : s.reactor = .performing op pc) (hst : Performs s op pc a t r) :
    waits.Follows (fun s w => ∃ p, Implements s p w) (t.proceed r) w (waitEvent s (.perform a)) := by
  obtain ⟨rfl, rfl⟩ | ⟨rfl, rfl⟩ := WaitPlace.eq_performing (h.reactor.symm.trans hr)
  · cases hst with
    | readEvent ev rest hch =>
      have hne' : ev.event ≠ .deviceRemoval := h.channel ev (hch ▸ List.mem_cons_self)
      have hrest : ∀ e ∈ rest, e.event ≠ .deviceRemoval := fun e he =>
        h.channel e (hch ▸ List.mem_cons_of_mem ev he)
      by_cases he : ev.event = .disconnected
      · have hev : waitEvent s (.perform .event) = some .notified := by simp [waitEvent, hch, he]
        rw [hev, onEvent_disconnected (h.kind op rfl) he]
        refine ⟨_, Waits.step_notified h.wait, .storing { op with ec := .rdma .disconnected }, ?_⟩
        exact { h with
          kind := fun o ho => Option.some.inj ho ▸ h.kind op rfl
          reactor := rfl
          wait := rfl
          latches := rfl
          channel := hrest }
      · have hev : waitEvent s (.perform .event) = none := by simp [waitEvent, hch, he]
        rw [hev, onEvent_ignored (h.kind op rfl) he hne']
        exact ⟨.queued { op with ec := success }, { h with
          kind := fun o ho => Option.some.inj ho ▸ h.kind op rfl
          reactor := rfl
          readQueue := congrArg (_ :: ·) h.readQueue
          ioCleanup := rfl
          scheduled := h.posted
          channel := hrest }⟩
    | readAgain hch =>
      have hev : waitEvent s (.perform .again) = none := rfl
      rw [hev]
      exact ⟨.queued { op with ec := success }, { h with
        kind := fun o ho => Option.some.inj ho ▸ h.kind op rfl
        reactor := rfl
        readQueue := congrArg (_ :: ·) h.readQueue
        ioCleanup := rfl
        scheduled := h.posted }⟩
    | readHardError errno hne => cases hc
  · cases hst with
    | peerClosed =>
      have hev : waitEvent s (.perform .run) = none := rfl
      have hnext : ({ s with peerClosed := true }.proceed (op, .ret .done)) =
          { s with
            peerClosed := true, reactor := .unlocked, backlog := 0, ioCleanup := [],
            scheduled := s.scheduled ++ (s.ioCleanup ++ [op]) } := by
        simp only [State.proceed, State.nextOp, h.readQueue, WaitPlace.readQueue]
      rw [hev, hnext]
      exact ⟨.scheduled op, { h with
        reactor := rfl
        ioCleanup := rfl
        scheduled := by rw [h.scheduled, h.ioCleanup]; rfl
        latches := h.latches }⟩

/-- `perform_io` takes the edge. -/
theorem Implements.performIo (h : Implements s p w) (hr : s.reactor = .unlocked) :
    ∃ p, Implements s.takeEdge.nextOp p w := by
  cases p with
  | queued op =>
    have hnext : s.takeEdge.nextOp =
        { s.takeEdge with reactor := .performing op .getCmEvent, readQueue := [] } := by
      simp only [State.nextOp, State.takeEdge, h.readQueue, WaitPlace.readQueue]
    rw [hnext]
    exact ⟨.reading op, { h with reactor := rfl, readQueue := rfl }⟩
  | reading op | storing op => exact absurd (hr.symm.trans h.reactor) Reactor.noConfusion
  | idle | latch op | state op | post op | start op | scheduled op =>
    have hnext : s.takeEdge.nextOp =
        { s.takeEdge with
          reactor := .unlocked, backlog := 0, ioCleanup := [],
          scheduled := s.scheduled ++ s.ioCleanup } := by
      simp only [State.nextOp, State.takeEdge, h.readQueue, WaitPlace.readQueue]
    rw [hnext]
    exact ⟨_, { h with reactor := rfl, ioCleanup := rfl, scheduled := h.posted }⟩

/-! ## The completion -/

/-- The handler of the wait is invoked. -/
theorem Implements.completes {i : Nat} {op : CmOp} (h : Implements s p w)
    (hop : s.scheduled[i]? = some op) :
    waits.Follows (fun s w => ∃ p, Implements s p w)
      (completeOp cfg { s with scheduled := s.scheduled.eraseIdx i } op) w (some .complete) := by
  obtain ⟨rfl, rfl⟩ : p = .scheduled op ∧ i = 0 := by
    rw [h.scheduled] at hop
    cases p <;> simp_all [WaitPlace.completions, List.getElem?_singleton]
  have hk : op.kind = .wait := h.kind op rfl
  have hconn : op.isConn = false := by simp [CmOp.isConn, hk]
  have hstep : completeOp cfg { s with scheduled := s.scheduled.eraseIdx 0 } op =
      { s with scheduled := s.scheduled.eraseIdx 0 }.log (.invoked op s.connectState) := by
    simp [completeOp, hconn]
  rw [hstep]
  refine ⟨_, Waits.step_complete h.wait, .idle, ?_⟩
  exact { h with
    kind := fun _ ho => absurd ho.symm (Option.some_ne_none _)
    scheduled := congrArg (·.eraseIdx 0) h.scheduled
    wait := rfl
    codes := by
      have hcode : (Action.invoked op s.connectState).waitCode = some op.ec := if_pos hk
      simp only [State.waitCodes, State.trace_log, List.filterMap_cons, hcode, List.map_cons]
      exact congrArg (op.ec :: ·) h.codes }

/-! ## The callers and the cancellations -/

/-- A step of the callers that touches nothing else. -/
theorem Implements.setCallers (h : Implements s p w) {cs : List DisconnectPc}
    (hcs : .cas .closed ∉ cs) : Implements { s with callers := cs } p w :=
  { h with callers := hcs }

/-- The wait is aborted if it is queued and not spared. -/
theorem Implements.cancelWhere (h : Implements s p w) (q : CmOp → Bool) :
    waits.Follows (fun s w => ∃ p, Implements s p w) (s.cancelWhere q) w (s.abortedBy q) := by
  have hq := h.readQueue
  cases p with
  | queued op =>
    cases hop : q op with
    | true =>
      have hev : s.abortedBy q = some .aborted := by
        simp [State.abortedBy, hq, WaitPlace.readQueue, hop]
      rw [hev]
      refine ⟨_, Waits.step_aborted h.wait, .scheduled op.abort, ?_⟩
      exact { h with
        kind := fun o ho => Option.some.inj ho ▸ h.kind op rfl
        readQueue := by simp [State.cancelWhere, hq, WaitPlace.readQueue, hop]
        scheduled := by
          simp [State.cancelWhere, hq, h.scheduled, WaitPlace.readQueue, WaitPlace.completions, hop]
        wait := rfl }
    | false =>
      have hev : s.abortedBy q = none := by
        simp [State.abortedBy, hq, WaitPlace.readQueue, hop]
      rw [hev]
      exact ⟨.queued op, { h with
        readQueue := by simp [State.cancelWhere, hq, WaitPlace.readQueue, hop]
        scheduled := by
          simp [State.cancelWhere, hq, h.scheduled, WaitPlace.readQueue, WaitPlace.completions, hop] }⟩
  | idle | latch op | state op | post op | start op | reading op | storing op | scheduled op =>
    have hev : s.abortedBy q = none := by simp [State.abortedBy, hq, WaitPlace.readQueue]
    rw [hev]
    exact ⟨_, { h with
      readQueue := by rw [State.cancelWhere, hq]; rfl
      scheduled := by
        simp [State.cancelWhere, hq, h.scheduled, WaitPlace.readQueue, WaitPlace.completions] }⟩

theorem not_mem_set_casLoop {cs : List DisconnectPc} {i : Nat} (st : ConnectState)
    (h : .cas .closed ∉ cs) : .cas .closed ∉ cs.set i (casLoop st) := by
  intro hmem
  rcases List.mem_or_eq_of_mem_set hmem with hold | hnew
  · exact h hold
  · cases st <;> cases hnew

theorem not_mem_set_afterCas {cs : List DisconnectPc} {i : Nat} (old : ConnectState)
    (h : .cas .closed ∉ cs) : .cas .closed ∉ cs.set i (afterCas old) := by
  intro hmem
  rcases List.mem_or_eq_of_mem_set hmem with hold | hnew
  · exact h hold
  · cases old <;> cases hnew

theorem not_mem_set_afterCancel {cs : List DisconnectPc} {i : Nat} (old : ConnectState)
    (h : .cas .closed ∉ cs) : .cas .closed ∉ cs.set i (afterCancel old) := by
  intro hmem
  rcases List.mem_or_eq_of_mem_set hmem with hold | hnew
  · exact h hold
  · cases old <;> cases hnew

/-- The steps of a `disconnect()` call. -/
theorem Implements.disconnects {i : Nat} {a : Answer} (h : Implements s p w)
    (hst : Disconnects s i a s') :
    waits.Follows (fun s w => ∃ p, Implements s p w) s' w (waitEvent s (.disconnectStep i a)) := by
  cases hst with
  | load hi =>
    have hev : waitEvent s (.disconnectStep i .run) = none := by simp [waitEvent, hi]
    rw [hev]
    exact ⟨p, h.setCallers (not_mem_set_casLoop s.connectState h.callers)⟩
  | won old hi hs =>
    have hev : waitEvent s (.disconnectStep i .run) = some .close := by simp [waitEvent, hi, hs]
    have hopen : s.connectState ≠ .closed := by
      rintro hc
      rw [← hs, hc] at hi
      exact h.callers (List.mem_of_getElem? hi)
    rw [hev]
    refine ⟨_, Waits.step_close (h.open_of hopen), p, ?_⟩
    exact { h with
      connectState := rfl
      callers := not_mem_set_afterCas old h.callers }
  | retry old a hi ha =>
    have hev : waitEvent s (.disconnectStep i a) = none := by
      obtain ⟨rfl, hs⟩ | rfl := ha
      · simp [waitEvent, hi, hs]
      · rfl
    rw [hev]
    exact ⟨p, h.setCallers (not_mem_set_casLoop s.connectState h.callers)⟩
  | cancel old hi hr =>
    have hev : waitEvent s (.disconnectStep i .run) = s.abortedBy fun _ => true := by
      simp [waitEvent, hi]
    have hset := h.setCallers (not_mem_set_afterCancel (i := i) old h.callers)
    rw [hev]
    have hcancel := hset.cancelWhere fun _ => true
    rw [← State.cancelOps_eq] at hcancel
    exact hcancel
  | native r hi =>
    have hev : waitEvent s (.disconnectStep i (.native r)) = none := rfl
    rw [hev]
    exact ⟨p, { h with
      callers := fun hmem => (List.mem_or_eq_of_mem_set hmem).elim h.callers DisconnectPc.noConfusion }⟩

/-! ## The simulation -/

/-- From its establishment on, the connector implements `waits`. -/
theorem waiting_simulates (cfg : Config) :
    (waiting cfg).Simulates waits waitEvent fun s w => ∃ p, Implements s p w := by
  rintro s l s' w ⟨p, h⟩ hst
  obtain ⟨hc, hstep⟩ := StepSystem.restrict_step.1 hst
  cases Step.of_step hstep with
  | event ev hl =>
    refine ⟨p, { h with channel := fun e he => ?_ }⟩
    rcases List.mem_append.1 he with hold | hnew
    · exact h.channel e hold
    · obtain rfl := List.mem_singleton.1 hnew
      simpa [inHistory] using hc
  | beginWait addr slot hi hl =>
    simp only [inHistory, Bool.and_eq_true, List.isEmpty_iff] at hc
    obtain rfl := h.eq_idle hi hc.1 hc.2
    exact ⟨.latch (.newWait addr slot), { h with
      kind := fun o ho => Option.some.inj ho ▸ rfl
      initiation := rfl }⟩
  | initiate a _ hi => exact h.initiates hi
  | performIo he hr hl => exact h.performIo hr
  | perform op pc a t r hr hp => exact h.performs hc hr hp
  | complete i op hop => exact h.completes hop
  | enterDisconnect hl => exact ⟨p, h.setCallers (by simpa using h.callers)⟩
  | disconnectStep i a _ hd => exact h.disconnects hd
  | emit key hk hr hl =>
    rw [State.cancelOpsByKey_eq]
    exact h.cancelWhere _
  | beginConnect | beginAccept | closeForDestruction | drainEstablished | drainOther | drainEnd
  | drainHardError => exact absurd hc Bool.false_ne_true

end RdmaOnAsio.Ibv
