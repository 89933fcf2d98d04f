import RdmaOnAsio.Waits
import RdmaOnAsio.Nd.Proofs.Places

/-!
# The waits of an established nd connector

From its establishment on, with one `async_wait_disconnect` at a time, the nd connector is an implementation
of `waits`, in which the store of `disconnect()` to `peer_closed_` is `latch`. It does not report the code
the wait ended with: a wait that was aborted is reported as `disconnected` if it finds `peer_closed_` set.
-/

namespace RdmaOnAsio.Nd

open ErrorCode

/-! ## The histories -/

/-- The steps of one established connector with one waiter at a time. No other operation is initiated, the
connector is not opened again, and no native call fails. -/
def inHistory (s : State) : Label → Bool
  | .asyncWaitDisconnect _ _ _ => s.ops.isEmpty
  | .initiate _ (.native hr) => hr == ndPending || hr == ndSuccess
  | .overlapped _ (.failed _) | .openConnector _ | .assign _ _ | .asyncConnect .. | .asyncAccept .. =>
    false
  | .useDevice | .initiate _ _ | .overlapped _ _ | .dispatch _ | .complete _ _ | .disconnect
  | .disconnectStep _ _ | .emit _ => true

/-- The code of a wait whose handler is invoked. -/
def Action.waitCode : Action → Option NdErrorCode
  | .invoked op => if op.kind = .wait then some op.ec else none
  | _ => none

/-- The code of a wait that is past the load of its `do_complete`, which settles it. -/
def settledCode (d : CmOp × CompletePc) : Option NdErrorCode :=
  if d.1.kind = .wait ∧ d.2 ≠ .loadPeerClosed then some d.1.ec else none

/-- The codes the waits were completed with, newest first. -/
def State.waitCodes (s : State) : List NdErrorCode :=
  s.dispatching.filterMap settledCode ++ s.trace.filterMap Action.waitCode

/-- The connector is established and has no wait yet, and no `disconnect()` has got past its exchange. -/
structure State.Established (s : State) : Prop where
  isOpen : s.isOpen = true
  connectState : s.connectState = .connected
  peerClosed : s.peerClosed = false
  initiation : s.initiation = .idle
  pending : s.pending = []
  scheduled : s.scheduled = []
  dispatching : s.dispatching = []
  callers : ∀ c ∈ s.callers, c = .load ∨ c.isReturned = true ∨ ∃ old, c = .cas old ∧ old ≠ .closed
  codes : s.waitCodes = []

/-- The event that a step of the connector is. -/
def waitEvent (s : State) : Label → Option WaitEvent
  | .initiate _ .run =>
    match s.initiation with
    | .waitLatch _ => if s.peerClosed then some .initiate else none
    | .waitState _ => some .initiate
    | _ => none
  | .initiate _ (.native hr) => if hr = ndPending then none else some .notified
  | .overlapped _ .ok => some .notified
  | .overlapped _ .aborted => some .aborted
  | .complete id .run =>
    match s.dispatching.find? fun d => d.1.id == id with
    | some (_, .loadPeerClosed) => some .complete
    | _ => none
  | .disconnectStep i .run =>
    match s.callers[i]? with
    | some (.cas old) => if s.connectState = old then some .close else none
    | some (.storePeerClosed _) => some .latch
    | _ => none
  | _ => none

/-- The connector as far as the histories go. -/
def waiting : StepSystem State Label := connector.restrict inHistory

/-- The history of a run. -/
def waitHistory (s : State) (ls : List Label) : List WaitEvent := waiting.visible waitEvent s ls

/-- The code that is reported for a wait that ended with `c.1`; `c.2` says whether the application's
`disconnect()` had set `peer_closed_` when the completion read it. -/
def reported (c : ErrorCode × Bool) : NdErrorCode :=
  if c.1 = operationAborted ∧ c.2 = true then .common (.rdma .disconnected) else .common c.1

/-! ## Where the wait is -/

/-- How a wait ends: by the peer's disconnect, at its initiation, or by being cancelled. -/
inductive Ending
  | notified
  | tornDown
  | aborted

/-- What `do_complete` is called with. -/
def Ending.result : Ending → ErrorCode
  | .notified => success
  | .tornDown => .rdma .disconnected
  | .aborted => operationAborted

/-- What the wait ends with. -/
def Ending.code : Ending → ErrorCode
  | .notified | .tornDown => .rdma .disconnected
  | .aborted => operationAborted

/-- The op with what `do_complete` is called with. -/
def Ending.apply (x : Ending) (op : CmOp) : CmOp := op.completeWith (.common x.result)

/-- Where the wait that is in progress is. -/
inductive WaitPlace
  | idle
  | latch (op : CmOp)
  | state (op : CmOp)
  | notify (op : CmOp)
  | pending (op : CmOp)
  | scheduled (op : CmOp) (x : Ending)
  | loading (op : CmOp) (x : Ending)
  | storing (op : CmOp)
  | invoking (op : CmOp)

namespace WaitPlace

def op? : WaitPlace → Option CmOp
  | .idle => none
  | .latch op | .state op | .notify op | .pending op | .scheduled op _ | .loading op _ | .storing op
  | .invoking op => some op

def initiation : WaitPlace → InitPc
  | .latch op => .waitLatch op
  | .state op => .waitState op
  | .notify op => .notify op
  | .idle | .pending _ | .scheduled _ _ | .loading _ _ | .storing _ | .invoking _ => .idle

def calls : WaitPlace → List CmOp
  | .pending op => [op]
  | .idle | .latch _ | .state _ | .notify _ | .scheduled _ _ | .loading _ _ | .storing _
  | .invoking _ => []

def completions : WaitPlace → List CmOp
  | .scheduled op x => [x.apply op]
  | .idle | .latch _ | .state _ | .notify _ | .pending _ | .loading _ _ | .storing _
  | .invoking _ => []

def dispatching : WaitPlace → List (CmOp × CompletePc)
  | .loading op x => [(x.apply op, .loadPeerClosed)]
  | .storing op => [(op, .storePeerClosed)]
  | .invoking op => [(op, .invoke)]
  | .idle | .latch _ | .state _ | .notify _ | .pending _ | .scheduled _ _ => []

/-- How far the wait has got. A wait that has been settled is over. -/
def wait : WaitPlace → Wait
  | .idle | .latch _ | .state _ | .storing _ | .invoking _ => .idle
  | .notify _ | .pending _ => .pending
  | .scheduled _ x | .loading _ x => .ended x.code

/-- `peer_closed_` says whether a `disconnect()` has stored it or a wait was notified, except while a
notified wait has not stored it yet. A wait in progress has found it clear of notifications. -/
def Latches (latched notified peerClosed : Bool) : WaitPlace → Prop
  | .state _ | .notify _ | .pending _ | .scheduled _ .aborted | .loading _ .aborted =>
    notified = false ∧ peerClosed = latched
  | .scheduled _ .notified | .loading _ .notified => notified = true ∧ peerClosed = latched
  | .storing _ => (latched || notified) = true
  | .idle | .latch _ | .scheduled _ .tornDown | .loading _ .tornDown | .invoking _ =>
    peerClosed = (latched || notified)

end WaitPlace

/-- A `disconnect()` call tries no exchange from `closed`, and stores to `peer_closed_` only after an
exchange has closed the connection. -/
def DisconnectPc.Sound (closed : Bool) : DisconnectPc → Prop
  | .cas old => old ≠ .closed
  | .storePeerClosed _ => closed = true
  | .load | .cancelIo _ | .native | .returned _ => True

/-- The connector with its wait at `p`, and the abstract connection it implements. -/
structure Implements (s : State) (p : WaitPlace) (w : Waits) : Prop where
  kind : ∀ op, p.op? = some op → op.kind = .wait
  isOpen : s.isOpen = true
  initiation : s.initiation = p.initiation
  pending : s.pending = p.calls
  scheduled : s.scheduled = p.completions
  dispatching : s.dispatching = p.dispatching
  wait : w.wait = p.wait
  latches : p.Latches w.latched w.notified s.peerClosed
  connectState : s.connectState = if w.closed then .closed else .connected
  latched : w.latched = true → w.closed = true
  callers : ∀ c ∈ s.callers, c.Sound w.closed
  codes : s.waitCodes = w.codes.map reported

variable {s s' : State} {p : WaitPlace} {w : Waits}

theorem State.Established.implements (h : s.Established) : Implements s .idle {} where
  kind op ho := by cases ho
  isOpen := h.isOpen
  initiation := h.initiation
  pending := h.pending
  scheduled := h.scheduled
  dispatching := h.dispatching
  wait := rfl
  latches := h.peerClosed
  connectState := h.connectState
  latched := id
  callers c hmem := by
    obtain rfl | hret | ⟨old, rfl, hne⟩ := h.callers c hmem
    · trivial
    · cases c with
      | returned ec => trivial
      | load | cas old | storePeerClosed old | cancelIo old | native => cases hret
    · exact hne
  codes := h.codes

namespace Implements

theorem initiation_eq (h : Implements s p w) {pc : InitPc} (hi : s.initiation = pc) :
    p.initiation = pc := h.initiation.symm.trans hi

theorem closed_of (h : Implements s p w) (hs : s.connectState = .closed) : w.closed = true := by
  by_contra hc
  rw [h.connectState, if_neg hc] at hs
  cases hs

theorem open_of (h : Implements s p w) (hs : s.connectState ≠ .closed) : w.closed = false := by
  by_contra hc
  rw [Bool.not_eq_false] at hc
  exact hs (h.connectState.trans (if_pos hc))

/-- No wait is in progress if there is no op. -/
theorem eq_idle (h : Implements s p w) (hops : s.ops = []) : p = .idle := by
  simp only [State.ops, List.append_eq_nil_iff, Option.toList_eq_nil_iff, List.map_eq_nil_iff] at hops
  obtain ⟨⟨⟨hi, hp⟩, hs⟩, hd⟩ := hops
  rw [h.initiation] at hi
  rw [h.pending] at hp
  rw [h.scheduled] at hs
  rw [h.dispatching] at hd
  cases p with
  | idle => rfl
  | latch op | state op | notify op => cases hi
  | pending op => cases hp
  | scheduled op x => cases hs
  | loading op x | storing op | invoking op => cases hd

end Implements

/-! ## The initiation -/

namespace WaitPlace

theorem eq_latch {op : CmOp} (h : p.initiation = .waitLatch op) : p = .latch op := by
  cases p <;> simp_all [initiation]

theorem eq_state {op : CmOp} (h : p.initiation = .waitState op) : p = .state op := by
  cases p <;> simp_all [initiation]

theorem eq_notify {op : CmOp} (h : p.initiation = .notify op) : p = .notify op := by
  cases p <;> simp_all [initiation]

end WaitPlace

/-- The steps of `async_wait_disconnect`. -/
theorem Implements.initiates {id : Nat} {a : Answer} (h : Implements s p w)
    (hc : inHistory s (.initiate id a) = true) (hst : Initiates s a s') :
    waits.Follows (fun s w => ∃ p, Implements s p w) s' w (waitEvent s (.initiate id a)) := by
  cases hst with
  | latchSet op hi hp =>
    obtain rfl := WaitPlace.eq_latch (h.initiation_eq hi)
    have hev : waitEvent s (.initiate id .run) = some .initiate := by simp [waitEvent, hi, hp]
    have hor : (w.latched || w.notified) = true := h.latches.symm.trans hp
    have hdown : (w.closed || w.notified) = true := by
      rcases Bool.or_eq_true_iff.1 hor with hl | hn
      · simp [h.latched hl]
      · simp [hn]
    rw [hev]
    refine ⟨_, Waits.step_initiate_ended h.wait hdown, .scheduled op .tornDown, ?_⟩
    exact { h with
      kind := fun o ho => Option.some.inj ho ▸ h.kind op rfl
      initiation := rfl
      scheduled := congrArg (· ++ [_]) h.scheduled
      wait := rfl }
  | latchClear op hi hp =>
    obtain rfl := WaitPlace.eq_latch (h.initiation_eq hi)
    have hev : waitEvent s (.initiate id .run) = none := by simp [waitEvent, hi, hp]
    have hor : w.latched = false ∧ w.notified = false :=
      Bool.or_eq_false_iff.1 (h.latches.symm.trans hp)
    rw [hev]
    exact ⟨.state op, { h with initiation := rfl, latches := ⟨hor.2, hp.trans hor.1.symm⟩ }⟩
  | waitClosed op hi hs =>
    obtain rfl := WaitPlace.eq_state (h.initiation_eq hi)
    have hev : waitEvent s (.initiate id .run) = some .initiate := by simp [waitEvent, hi]
    obtain ⟨hn, hp⟩ := h.latches
    rw [hev]
    refine ⟨_, Waits.step_initiate_ended h.wait (by simp [h.closed_of hs]),
      .scheduled op .tornDown, ?_⟩
    exact { h with
      kind := fun o ho => Option.some.inj ho ▸ h.kind op rfl
      initiation := rfl
      scheduled := congrArg (· ++ [_]) h.scheduled
      wait := rfl
      latches := by simp [WaitPlace.Latches, hn, hp, State.reject, State.onCompletion] }
  | waitNotOpen op hi hs ho => exact absurd (ho.symm.trans h.isOpen) Bool.false_ne_true
  | waitOpen op hi hs ho =>
    obtain rfl := WaitPlace.eq_state (h.initiation_eq hi)
    have hev : waitEvent s (.initiate id .run) = some .initiate := by simp [waitEvent, hi]
    rw [hev]
    refine ⟨_, Waits.step_initiate_pending h.wait (by simp [h.open_of hs, h.latches.1]),
      .notify op, ?_⟩
    exact { h with initiation := rfl, wait := rfl }
  | notifyPending op hi =>
    obtain rfl := WaitPlace.eq_notify (h.initiation_eq hi)
    have hev : waitEvent s (.initiate id (.native ndPending)) = none := rfl
    obtain ⟨sl, hsl⟩ := armNdCancellation_eq s op
    rw [hev, hsl]
    exact ⟨.pending op, { h with
      initiation := rfl
      pending := congrArg (· ++ [op]) h.pending }⟩
  | notifyEnded op hr hi hp =>
    obtain rfl := WaitPlace.eq_notify (h.initiation_eq hi)
    have hev : waitEvent s (.initiate id (.native hr)) = some .notified := if_neg hp
    obtain rfl : hr = ndSuccess := by simpa [inHistory, hp] using hc
    rw [hev]
    refine ⟨_, Waits.step_notified h.wait, .scheduled op .notified, ?_⟩
    exact { h with
      kind := fun o ho => Option.some.inj ho ▸ h.kind op rfl
      initiation := rfl
      scheduled := congrArg (· ++ [_]) h.scheduled
      wait := rfl
      latches := ⟨rfl, h.latches.2⟩ }
  | terminal op _ hi | nullQp op hi | admitted op hi | published op hi | publishLost op hi
  | bindFailed op _ hi | bound op _ hi | callPending op hi | accepted op hi | callEnded op _ hi
  | armed op hi => exact absurd (h.initiation_eq hi) (by cases p <;> simp [WaitPlace.initiation])

/-! ## The driver and the completion port -/

namespace WaitPlace

theorem eq_pending {op : CmOp} (h : op ∈ p.calls) : p = .pending op := by
  cases p <;> simp_all [calls]

theorem eq_scheduled {op : CmOp} (h : op ∈ p.completions) :
    ∃ op' x, p = .scheduled op' x ∧ op = x.apply op' := by
  cases p <;> simp_all [completions]

theorem eq_dispatching {op : CmOp} {pc : CompletePc} (h : (op, pc) ∈ p.dispatching) :
    (∃ op' x, p = .loading op' x ∧ op = x.apply op' ∧ pc = .loadPeerClosed) ∨
      p = .storing op ∧ pc = .storePeerClosed ∨ p = .invoking op ∧ pc = .invoke := by
  cases p <;> simp_all [dispatching]

end WaitPlace

/-- `NotifyDisconnect` has ended. -/
theorem Implements.overlapped {r : IoResult} {op : CmOp} (h : Implements s p w)
    (hc : inHistory s (.overlapped op.id r) = true)
    (hfind : s.pending.find? (fun o => o.id == op.id) = some op) :
    waits.Follows (fun s w => ∃ p, Implements s p w) (overlappedEnd s op r) w
      (waitEvent s (.overlapped op.id r)) := by
  obtain rfl := WaitPlace.eq_pending (h.pending ▸ List.mem_of_find?_eq_some hfind)
  have hk : op.kind = .wait := h.kind op rfl
  have hest : op.establishes r = false := by simp [CmOp.establishes, hk]
  have hpending : s.pending.eraseP (fun o => o.id == op.id) = [] := by
    simp [h.pending, WaitPlace.calls]
  have hend : overlappedEnd s op r =
      { s with pending := [], scheduled := s.scheduled ++ [op.completeWith r.ec] } := by
    simp only [overlappedEnd, hest, State.takePending, hpending]
    rfl
  rw [hend]
  cases r with
  | ok =>
    refine ⟨_, Waits.step_notified h.wait, .scheduled op .notified, ?_⟩
    exact { h with
      pending := rfl
      scheduled := congrArg (· ++ [_]) h.scheduled
      wait := rfl
      latches := ⟨rfl, h.latches.2⟩ }
  | aborted =>
    refine ⟨_, Waits.step_aborted h.wait, .scheduled op .aborted, ?_⟩
    exact { h with
      pending := rfl
      scheduled := congrArg (· ++ [_]) h.scheduled
      wait := rfl }
  | failed lastError => exact absurd hc Bool.false_ne_true

/-- A thread takes the completion from the port. -/
theorem Implements.dispatch {op : CmOp} (h : Implements s p w)
    (hfind : s.scheduled.find? (fun o => o.id == op.id) = some op) :
    ∃ p, Implements ((s.takeScheduled op.id).enter op.doComplete) p w := by
  obtain ⟨op, x, rfl, rfl⟩ := WaitPlace.eq_scheduled (h.scheduled ▸ List.mem_of_find?_eq_some hfind)
  have hdo : (x.apply op).doComplete = (x.apply op, .loadPeerClosed) := by
    have hk : (x.apply op).kind = .wait := h.kind op rfl
    rw [CmOp.doComplete, hk]
  have hstep : (s.takeScheduled (x.apply op).id).enter (x.apply op).doComplete =
      { s with scheduled := [], dispatching := [(x.apply op, .loadPeerClosed)] } := by
    simp [State.takeScheduled, State.enter, h.scheduled, h.dispatching, hdo, WaitPlace.completions,
      WaitPlace.dispatching]
  have hcodes : State.waitCodes
      { s with scheduled := [], dispatching := [(x.apply op, .loadPeerClosed)] } = s.waitCodes := by
    simp [State.waitCodes, h.dispatching, WaitPlace.dispatching, settledCode]
  rw [hstep]
  refine ⟨.loading op x, { h with
    scheduled := rfl
    dispatching := rfl
    latches := ?_
    codes := hcodes.trans h.codes }⟩
  have hl := h.latches
  cases x <;> exact hl

/-! ## The `do_complete` -/

/-- The only `do_complete` goes on. -/
theorem goto_eq {d d' : CmOp × CompletePc} (h : s.dispatching = [d]) (hid : d'.1.id = d.1.id) :
    s.goto d' = { s with dispatching := [d'] } := by
  simp [State.goto, State.takeDispatching, State.enter, h, hid]

theorem settledCode_load (op : CmOp) : settledCode (op, .loadPeerClosed) = none :=
  if_neg fun h => h.2 rfl

theorem settledCode_of_ne {op : CmOp} (pc : CompletePc) (hk : op.kind = .wait)
    (hpc : pc ≠ .loadPeerClosed) : settledCode (op, pc) = some op.ec := if_pos ⟨hk, hpc⟩

/-- The load of `peer_closed_` settles the code. -/
theorem Implements.settles {op op' : CmOp} {x : Ending} {q : WaitPlace} {pc : CompletePc}
    (h : Implements s (.loading op x) w) (hid : op'.id = op.id) (hk : op'.kind = .wait)
    (hq : q = .storing op' ∧ pc = .storePeerClosed ∨ q = .invoking op' ∧ pc = .invoke)
    (hl : q.Latches w.latched w.notified s.peerClosed) (hec : op'.ec = reported (x.code, w.latched)) :
    waits.Follows (fun s w => ∃ p, Implements s p w) (s.goto (op', pc)) w (some .complete) := by
  have hcodes : State.waitCodes { s with dispatching := [(op', pc)] } =
      ((x.code, w.latched) :: w.codes).map reported := by
    have hpc : pc ≠ .loadPeerClosed := by
      rintro rfl
      rcases hq with ⟨-, hpc⟩ | ⟨-, hpc⟩ <;> cases hpc
    have hbefore : s.trace.filterMap Action.waitCode = w.codes.map reported := by
      simpa [State.waitCodes, h.dispatching, WaitPlace.dispatching, settledCode_load] using h.codes
    simp only [State.waitCodes, List.filterMap_cons, settledCode_of_ne pc hk hpc, hec, List.filterMap_nil,
      hbefore, List.map_cons, List.cons_append, List.nil_append]
  rw [goto_eq h.dispatching hid]
  refine ⟨_, Waits.step_complete h.wait, q, ?_⟩
  rcases hq with ⟨rfl, rfl⟩ | ⟨rfl, rfl⟩
  · exact { h with
      kind := fun o ho => Option.some.inj ho ▸ hk
      dispatching := rfl
      wait := rfl
      latches := hl
      codes := hcodes }
  · exact { h with
      kind := fun o ho => Option.some.inj ho ▸ hk
      dispatching := rfl
      wait := rfl
      latches := hl
      codes := hcodes }

theorem waitComplete_notified (op : CmOp) (b : Bool) :
    (Ending.notified.apply op).waitComplete b =
      ({ op with ec := .common (.rdma .disconnected) }, .storePeerClosed) := rfl

theorem waitComplete_tornDown (op : CmOp) (b : Bool) :
    (Ending.tornDown.apply op).waitComplete b = (Ending.tornDown.apply op, .invoke) := by
  simp [CmOp.waitComplete, Ending.apply, CmOp.completeWith, Ending.result, operationAborted]

theorem waitComplete_aborted_true (op : CmOp) :
    (Ending.aborted.apply op).waitComplete true =
      ({ op with ec := .common (.rdma .disconnected) }, .storePeerClosed) := rfl

theorem waitComplete_aborted_false (op : CmOp) :
    (Ending.aborted.apply op).waitComplete false = (Ending.aborted.apply op, .invoke) := rfl

/-- The steps of `nd_wait_disconnect_op::do_complete`. -/
theorem Implements.completes {a : Answer} {op : CmOp} {pc : CompletePc} (h : Implements s p w)
    (hfind : s.dispatching.find? (fun d => d.1.id == op.id) = some (op, pc))
    (hst : Completes s op pc a s') :
    waits.Follows (fun s w => ∃ p, Implements s p w) s' w (waitEvent s (.complete op.id a)) := by
  obtain ⟨op, x, rfl, rfl, rfl⟩ | ⟨rfl, rfl⟩ | ⟨rfl, rfl⟩ :=
    WaitPlace.eq_dispatching (h.dispatching ▸ List.mem_of_find?_eq_some hfind)
  · cases hst with
    | loadPeerClosed =>
      have hev : waitEvent s (.complete (x.apply op).id .run) = some .complete := by
        simp [waitEvent, hfind]
      have hk : op.kind = .wait := h.kind op rfl
      rw [hev]
      cases x with
      | notified =>
        rw [waitComplete_notified]
        exact h.settles rfl hk (.inl ⟨rfl, rfl⟩) (by simp [WaitPlace.Latches, h.latches.1]) rfl
      | tornDown =>
        rw [waitComplete_tornDown]
        exact h.settles rfl hk (.inr ⟨rfl, rfl⟩) h.latches rfl
      | aborted =>
        obtain ⟨hn, hp⟩ := h.latches
        cases hl : s.peerClosed with
        | true =>
          have hlatched : w.latched = true := hp.symm.trans hl
          rw [waitComplete_aborted_true]
          refine h.settles rfl hk (.inl ⟨rfl, rfl⟩) (by simp [WaitPlace.Latches, hlatched]) ?_
          rw [hlatched]
          rfl
        | false =>
          have hlatched : w.latched = false := hp.symm.trans hl
          rw [waitComplete_aborted_false]
          refine h.settles rfl hk (.inr ⟨rfl, rfl⟩) (by simp [WaitPlace.Latches, hlatched, hn, hl]) ?_
          rw [hlatched]
          rfl
  · cases hst with
    | storePeerClosed =>
      have hev : waitEvent s (.complete op.id .run) = none := by simp [waitEvent, hfind]
      have hk : op.kind = .wait := h.kind op rfl
      have hstep : { s with peerClosed := true }.goto (op, .invoke) =
          { s with peerClosed := true, dispatching := [(op, .invoke)] } :=
        goto_eq (s := { s with peerClosed := true }) h.dispatching rfl
      have hcodes : State.waitCodes { s with peerClosed := true, dispatching := [(op, .invoke)] } =
          s.waitCodes := by
        have hstoring := settledCode_of_ne .storePeerClosed hk CompletePc.noConfusion
        have hinvoking := settledCode_of_ne .invoke hk CompletePc.noConfusion
        simp [State.waitCodes, h.dispatching, WaitPlace.dispatching, hstoring, hinvoking]
      rw [hev, hstep]
      exact ⟨.invoking op, { h with
        dispatching := rfl
        latches := h.latches.symm
        codes := hcodes.trans h.codes }⟩
  · cases hst with
    | invoke =>
      have hev : waitEvent s (.complete op.id .run) = none := by simp [waitEvent, hfind]
      have hk : op.kind = .wait := h.kind op rfl
      have hstep : (s.takeDispatching op.id).log (.invoked op) =
          { s.log (.invoked op) with dispatching := [] } := by
        simp [State.takeDispatching, State.log, h.dispatching, WaitPlace.dispatching]
      have hcodes : State.waitCodes { s.log (.invoked op) with dispatching := [] } =
          s.waitCodes := by
        have hinvoked : (Action.invoked op).waitCode = some op.ec := if_pos hk
        have hinvoking := settledCode_of_ne .invoke hk CompletePc.noConfusion
        simp [State.waitCodes, State.log, h.dispatching, WaitPlace.dispatching, hinvoked, hinvoking]
      rw [hev, hstep]
      exact ⟨.idle, { h with
        kind := fun _ ho => absurd ho.symm (Option.some_ne_none _)
        dispatching := rfl
        codes := hcodes.trans h.codes }⟩

/-! ## The callers and the cancellations -/

theorem sound_casLoop (closed : Bool) (st : ConnectState) : (casLoop st).Sound closed := by
  cases st <;> simp [casLoop, DisconnectPc.Sound]

theorem sound_afterStore (closed : Bool) (old : ConnectState) : (afterStore old).Sound closed := by
  cases old <;> trivial

theorem sound_afterCancel (closed : Bool) (old : ConnectState) : (afterCancel old).Sound closed := by
  cases old <;> trivial

theorem DisconnectPc.Sound.close {c : DisconnectPc} {closed : Bool} (h : c.Sound closed) :
    c.Sound true := by
  cases c with
  | cas old => exact h
  | storePeerClosed old => rfl
  | load | cancelIo old | native | returned ec => trivial

/-- One call goes on. -/
theorem Implements.callers_set (h : Implements s p w) (i : Nat) {c : DisconnectPc}
    (hc : c.Sound w.closed) : ∀ c' ∈ s.callers.set i c, c'.Sound w.closed := by
  intro c' hmem
  rcases List.mem_or_eq_of_mem_set hmem with hold | rfl
  · exact h.callers c' hold
  · exact hc

/-- A step of one call that touches nothing else. -/
theorem Implements.setCaller (h : Implements s p w) (i : Nat) {c : DisconnectPc}
    (hc : c.Sound w.closed) : Implements { s with callers := s.callers.set i c } p w :=
  { h with callers := h.callers_set i hc }

/-- `CancelIoEx` marks the call in flight. -/
theorem Implements.cancelIoEx (h : Implements s p w) (q : CmOp → Bool) :
    ∃ p, Implements (s.cancelIoEx q) p w := by
  have hp := h.pending
  cases p with
  | pending op =>
    refine ⟨.pending (if q op then { op with canceled := true } else op), { h with
      kind := fun o ho => ?_
      pending := by rw [State.cancelIoEx, hp]; rfl }⟩
    obtain rfl := Option.some.inj ho
    split_ifs
    · exact h.kind op rfl
    · exact h.kind op rfl
  | idle | latch op | state op | notify op | storing op | invoking op =>
    exact ⟨_, { h with pending := by rw [State.cancelIoEx, hp]; rfl }⟩
  | scheduled op x | loading op x =>
    exact ⟨_, { h with pending := by rw [State.cancelIoEx, hp]; rfl }⟩

/-- The store of a `disconnect()` to `peer_closed_`. -/
theorem WaitPlace.Latches.store {latched notified peerClosed : Bool}
    (h : p.Latches latched notified peerClosed) : p.Latches true notified true := by
  cases p with
  | state op | notify op | pending op => exact ⟨h.1, rfl⟩
  | scheduled op x | loading op x =>
    cases x with
    | notified | aborted => exact ⟨h.1, rfl⟩
    | tornDown => rfl
  | idle | latch op | storing op | invoking op => rfl

/-- The steps of a `disconnect()` call. -/
theorem Implements.disconnects {i : Nat} {a : Answer} (h : Implements s p w)
    (hst : Disconnects s i a s') :
    waits.Follows (fun s w => ∃ p, Implements s p w) s' w (waitEvent s (.disconnectStep i a)) := by
  cases hst with
  | load hi =>
    have hev : waitEvent s (.disconnectStep i .run) = none := by simp [waitEvent, hi]
    rw [hev]
    exact ⟨p, h.setCaller i (sound_casLoop w.closed s.connectState)⟩
  | closed old hi hs =>
    have hev : waitEvent s (.disconnectStep i .run) = some .close := by simp [waitEvent, hi, hs]
    have hne : old ≠ .closed := h.callers _ (List.mem_of_getElem? hi)
    rw [hev]
    refine ⟨_, Waits.step_close (h.open_of (hs ▸ hne)), p, ?_⟩
    exact { h with
      connectState := rfl
      latched := fun _ => rfl
      callers := fun c hmem => by
        rcases List.mem_or_eq_of_mem_set hmem with hold | rfl
        · exact (h.callers c hold).close
        · rfl }
  | retry old a hi ha =>
    have hev : waitEvent s (.disconnectStep i a) = none := by
      obtain ⟨rfl, hs⟩ | rfl := ha
      · simp [waitEvent, hi, hs]
      · rfl
    rw [hev]
    exact ⟨p, h.setCaller i (sound_casLoop w.closed s.connectState)⟩
  | latched old hi =>
    have hev : waitEvent s (.disconnectStep i .run) = some .latch := by simp [waitEvent, hi]
    have hclosed : w.closed = true := h.callers _ (List.mem_of_getElem? hi)
    rw [hev]
    refine ⟨_, Waits.step_latch hclosed, p, ?_⟩
    exact { h with
      latches := h.latches.store
      latched := fun _ => hclosed
      callers := h.callers_set i (sound_afterStore w.closed old) }
  | cancelled old hi =>
    have hev : waitEvent s (.disconnectStep i .run) = none := by simp [waitEvent, hi]
    rw [hev]
    exact (h.setCaller i (sound_afterCancel w.closed old)).cancelIoEx fun _ => true
  | native hr hi =>
    have hev : waitEvent s (.disconnectStep i (.native hr)) = none := rfl
    rw [hev]
    exact ⟨p, { h with callers := h.callers_set i trivial }⟩

/-! ## The simulation -/

/-- From its establishment on, the connector implements `waits`. -/
theorem waiting_simulates :
    waiting.Simulates waits waitEvent fun s w => ∃ p, Implements s p w := by
  rintro s l s' w ⟨p, h⟩ hst
  obtain ⟨hc, hstep⟩ := StepSystem.restrict_step.1 hst
  cases Step.of_step hstep with
  | useDevice => exact ⟨p, { h with }⟩
  | asyncWaitDisconnect id addr slot hi hf =>
    obtain rfl := h.eq_idle (List.isEmpty_iff.1 hc)
    exact ⟨.latch { id, addr, kind := .wait, slot }, { h with
      kind := fun o ho => Option.some.inj ho ▸ rfl
      initiation := rfl }⟩
  | initiate id a _ op ho hid hi => exact h.initiates hc hi
  | overlapped r op hp hm => exact h.overlapped hc hp
  | dispatch op hs => exact h.dispatch hs
  | complete a op pc _ hd hco => exact h.completes hd hco
  | disconnect =>
    refine ⟨p, { h with callers := fun c hmem => ?_ }⟩
    rcases List.mem_append.1 hmem with hold | hnew
    · exact h.callers c hold
    · obtain rfl := List.mem_singleton.1 hnew
      split_ifs <;> trivial
  | disconnectStep i a _ hd => exact h.disconnects hd
  | emit addr ha => exact h.cancelIoEx _
  | openConnector | assign | asyncConnect | asyncAccept => exact absurd hc Bool.false_ne_true

end RdmaOnAsio.Nd
