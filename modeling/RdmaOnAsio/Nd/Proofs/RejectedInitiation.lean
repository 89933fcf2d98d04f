import RdmaOnAsio.Lts.Erasure
import RdmaOnAsio.Nd.Proofs.ClosedAbsorbing

/-!
# Rejected initiations

An initiation that a guard turns away should leave the connector as it was. An accept op does: its
`do_complete` touches `connect_state_` only for a started op. A connect op does not: its `do_complete`
stores `closed` for every error, a guard's as well. The connector that was idle is spent then, and the
one that was connected is no longer torn down by `disconnect()`. Besides, a connector that
`async_connect` has opened stays open. `leavesAlone` says that neither happens.
-/

namespace RdmaOnAsio.Nd

open ErrorCode

/-- The label is a step of the op `k`. -/
def Label.concerns (k : Nat) : Label → Bool
  | .asyncConnect id .. | .asyncAccept id .. | .asyncWaitDisconnect id .. | .initiate id _
  | .overlapped id _ | .dispatch id | .complete id _ => id == k
  | .useDevice | .openConnector _ | .assign .. | .disconnect | .disconnectStep .. | .emit _ => false

/-- The action is one of the op `k`. -/
def Action.concerns (k : Nat) : Action → Bool
  | .connected id | .established id => id == k
  | .invoked op => op.id == k
  | .close _ | .disconnect _ => false

/-- The initiating thread without the op `k`. -/
def InitPc.without (pc : InitPc) (k : Nat) : InitPc :=
  if pc.op?.any fun op => op.id == k then .idle else pc

/-- The state without the op `k`. Everything the ops share stays: the native handles, `connect_state_`,
`peer_closed_`, the `disconnect()` calls and the slots. -/
def State.without (s : State) (k : Nat) : State :=
  { s with
    initiation := s.initiation.without k
    pending := s.pending.filter fun op => op.id != k
    scheduled := s.scheduled.filter fun op => op.id != k
    dispatching := s.dispatching.filter fun d => d.1.id != k
    used := s.used.filter fun id => id != k
    trace := s.trace.filter fun a => !a.concerns k }

/-- The op `k` is a connect or accept op, and its guards do not let it through. -/
def rejects (k : Nat) (s : State) : Label → Bool
  | .asyncWaitDisconnect id _ _ => id != k
  | .initiate id .run =>
    id != k ||
      match s.initiation with
      | .guardState _ hasQp => s.connectState != .idle || !hasQp
      | _ => true
  | _ => true

/-- The step is not an auto-open by the op `k`, nor its store of `closed` to a connector that was not. -/
def leavesAlone (k : Nat) (s : State) : Label → Bool
  | .asyncConnect id _ _ _ _ _ opened => id != k || s.isOpen || (doOpen s opened).2.isError
  | .complete id _ =>
    id != k ||
      match s.dispatching.find? fun d => d.1.id == id with
      | some (_, .storeClosed) => s.connectState == .closed
      | _ => true
  | _ => true

variable {s s' t : State} {op op' : CmOp} {pc : CompletePc} {k : Nat}

/-! ## What the op is while it is turned away -/

/-- Where an op that is turned away may be. -/
def Place.Rejected (op : CmOp) : Place → Prop
  | .initiating (.guardState _ _) => op.isConn = true ∧ op.started = false
  | .port => op.isConn = true ∧ op.started = false ∧ op.ec.isError = true
  | .thread .storeClosed | .thread .invoke => True
  | .initiating _ | .driver | .thread _ => False

/-- The op `k` has not got past the guards. -/
structure Rejected (k : Nat) (s : State) : Prop where
  places : ∀ e ∈ s.entries, e.1.id = k → e.2.Rejected e.1
  arm : ∀ op, s.initiation = .arm op → op.id ≠ k

/-! ## The others do not depend on the op -/

theorem InitPc.without_of_ne {pc : InitPc} (h : ∀ op, pc.op? = some op → op.id ≠ k) :
    pc.without k = pc := by
  refine if_neg fun hany => ?_
  obtain ⟨op, ho, hid⟩ := (Option.any_eq_true _ _).1 hany
  exact h op ho (by simpa using hid)

theorem InitPc.without_of_op {pc : InitPc} (ho : pc.op? = some op) (hk : op.id ≠ k) : pc.without k = pc :=
  without_of_ne fun op' ho' => by
    obtain rfl := Option.some.inj (ho.symm.trans ho')
    exact hk

theorem without_arm (hk : op.id ≠ k) : (InitPc.arm op).without k = .arm op :=
  InitPc.without_of_op rfl hk

theorem op_afterPublish (op : CmOp) : (InitPc.afterPublish op).op? = some op := by
  unfold InitPc.afterPublish
  split <;> rfl

@[simp] theorem InitPc.without_idle : InitPc.idle.without k = .idle := rfl

theorem reject_without (hk : op.id ≠ k) (ec : NdErrorCode) :
    (s.without k).reject op ec = (s.reject op ec).without k := by
  simp [State.reject, State.onCompletion, State.without, CmOp.completeWith, hk]

theorem complete_without (hk : op.id ≠ k) (ec : NdErrorCode) :
    (s.without k).complete op ec = (s.complete op ec).without k := by
  simp [State.complete, State.onCompletion, State.without, CmOp.completeWith,
    without_arm hk, hk]

theorem log_without {a : Action} (ha : a.concerns k = false) :
    (s.without k).log a = (s.log a).without k := by
  simp [State.log, State.without, ha]

theorem publish_without {id : Nat} (hk : id ≠ k) :
    { (s.without k).log (.connected id) with connectState := .connected } =
      { s.log (.connected id) with connectState := .connected }.without k := by
  simp [State.log, State.without, Action.concerns, hk]

theorem onPending_without (hk : op.id ≠ k) :
    (s.without k).onPending op = (s.onPending op).without k := by
  simp [State.onPending, State.without, hk]

theorem onCompletion_without (hk : op.id ≠ k) (ec : NdErrorCode) :
    (s.without k).onCompletion op ec = (s.onCompletion op ec).without k := by
  simp [State.onCompletion, State.without, CmOp.completeWith, hk]

theorem enter_without {d : CmOp × CompletePc} (hk : d.1.id ≠ k) :
    (s.without k).enter d = (s.enter d).without k := by
  simp [State.enter, State.without, hk]

theorem bne_of_beq {id : Nat} (hk : id ≠ k) : ∀ j, (j == id) = true → (j != k) = true := by
  intro j hj
  rw [beq_iff_eq] at hj
  rw [bne_iff_ne, hj]
  exact hk

theorem takePending_without {id : Nat} (hk : id ≠ k) :
    (s.without k).takePending id = (s.takePending id).without k := by
  simp only [State.takePending, State.without]
  rw [eraseP_filter_of_imp fun op : CmOp => bne_of_beq hk op.id]

theorem takeScheduled_without {id : Nat} (hk : id ≠ k) :
    (s.without k).takeScheduled id = (s.takeScheduled id).without k := by
  simp only [State.takeScheduled, State.without]
  rw [eraseP_filter_of_imp fun op : CmOp => bne_of_beq hk op.id]

theorem takeDispatching_without {id : Nat} (hk : id ≠ k) :
    (s.without k).takeDispatching id = (s.takeDispatching id).without k := by
  simp only [State.takeDispatching, State.without]
  rw [eraseP_filter_of_imp fun d : CmOp × CompletePc => bne_of_beq hk d.1.id]

theorem overlappedEnd_without {r : IoResult} (hk : op.id ≠ k) :
    overlappedEnd (s.without k) op r = (overlappedEnd s op r).without k := by
  unfold overlappedEnd
  simp only
  rw [takePending_without hk]
  split_ifs
  · rw [log_without (by simpa [Action.concerns] using hk), onCompletion_without hk]
  · rw [onCompletion_without hk]

theorem goto_without {d : CmOp × CompletePc} (hk : d.1.id ≠ k) :
    (s.without k).goto d = (s.goto d).without k := by
  rw [State.goto, takeDispatching_without hk, enter_without hk, State.goto]

theorem cancelIoEx_without (p : CmOp → Bool) :
    (s.without k).cancelIoEx p = (s.cancelIoEx p).without k := by
  simp only [State.cancelIoEx, State.without, List.filter_map]
  congr 2
  refine List.filter_congr fun op _ => ?_
  simp only [Function.comp_apply]
  split_ifs <;> rfl

theorem armNdCancellation_without :
    (s.without k).armNdCancellation op = (s.armNdCancellation op).without k := by
  unfold State.armNdCancellation
  split_ifs <;> rfl

/-- The initiating thread goes on with another op. -/
theorem init_without (s : State) (pc : InitPc) (ho : pc.op? = some op) (hk : op.id ≠ k) :
    { s.without k with initiation := pc } = { s with initiation := pc }.without k := by
  simp only [State.without, InitPc.without_of_op ho hk]

theorem Initiates.without {a : Answer} (h : Initiates s a s')
    (hk : ∀ op, s.initiation.op? = some op → op.id ≠ k) :
    Initiates (s.without k) a (s'.without k) := by
  have hi : (s.without k).initiation = s.initiation := InitPc.without_of_ne hk
  have hid : ∀ {pc : InitPc} {op : CmOp}, s.initiation = pc → pc.op? = some op → op.id ≠ k :=
    fun hpc ho => hk _ (hpc ▸ ho)
  cases h with
  | terminal op hasQp hpc hs =>
    rw [← reject_without (hid hpc rfl)]
    exact .terminal op hasQp (hi.trans hpc) hs
  | nullQp op hpc hs =>
    rw [← reject_without (hid hpc rfl)]
    exact .nullQp op (hi.trans hpc) hs
  | admitted op hpc hs =>
    have hop : op.id ≠ k := hid hpc rfl
    rw [← init_without s (.publish op.passGuards) rfl hop]
    exact .admitted op (hi.trans hpc) hs
  | published op hpc hs =>
    rw [← init_without { s with connectState := .connecting } _ (op_afterPublish op) (hid hpc rfl)]
    exact .published op (hi.trans hpc) hs
  | publishLost op hpc hs =>
    rw [← complete_without (hid hpc rfl)]
    exact .publishLost op (hi.trans hpc) hs
  | bindFailed op ec hpc he =>
    rw [← complete_without (hid hpc rfl)]
    exact .bindFailed op ec (hi.trans hpc) he
  | bound op ec hpc he =>
    rw [← init_without s (.native op) rfl (hid hpc rfl)]
    exact .bound op ec (hi.trans hpc) he
  | callPending op hpc =>
    rw [← init_without (s.onPending op) (.arm op) rfl (hid hpc rfl), ← onPending_without (hid hpc rfl)]
    exact .callPending op (hi.trans hpc)
  | accepted op hpc hkind =>
    rw [← complete_without (hid hpc rfl), ← log_without (by simpa [Action.concerns] using hid hpc rfl)]
    exact .accepted op (hi.trans hpc) hkind
  | callEnded op hr hpc hp hkind =>
    rw [← complete_without (hid hpc rfl)]
    exact .callEnded op hr (hi.trans hpc) hp hkind
  | armed op hpc =>
    have heq : { (s.without k).armNdCancellation op with initiation := .idle } =
        { s.armNdCancellation op with initiation := .idle }.without k := by
      rw [armNdCancellation_without]
      rfl
    rw [← heq]
    exact .armed op (hi.trans hpc)
  | latchSet op hpc hp =>
    rw [← reject_without (hid hpc rfl)]
    exact .latchSet op (hi.trans hpc) hp
  | latchClear op hpc hp =>
    rw [← init_without s (.waitState op) rfl (hid hpc rfl)]
    exact .latchClear op (hi.trans hpc) hp
  | waitClosed op hpc hs =>
    rw [← reject_without (hid hpc rfl)]
    exact .waitClosed op (hi.trans hpc) hs
  | waitNotOpen op hpc hs ho =>
    rw [← reject_without (hid hpc rfl)]
    exact .waitNotOpen op (hi.trans hpc) hs ho
  | waitOpen op hpc hs ho =>
    rw [← init_without s (.notify op) rfl (hid hpc rfl)]
    exact .waitOpen op (hi.trans hpc) hs ho
  | notifyPending op hpc =>
    have heq : { ((s.without k).armNdCancellation op).onPending op with initiation := .idle } =
        { (s.armNdCancellation op).onPending op with initiation := .idle }.without k := by
      rw [armNdCancellation_without, onPending_without (hid hpc rfl)]
      rfl
    rw [← heq]
    exact .notifyPending op (hi.trans hpc)
  | notifyEnded op hr hpc hp =>
    rw [← reject_without (hid hpc rfl)]
    exact .notifyEnded op hr (hi.trans hpc) hp

theorem Completes.without {a : Answer} (h : Completes s op pc a s') (hk : op.id ≠ k) :
    Completes (s.without k) op pc a (s'.without k) := by
  cases h with
  | connectFailed pd hr op' hc =>
    have hsame := same_connectCompleted op pd hr
    rw [hc] at hsame
    rw [← goto_without (d := (op', _)) (hsame.id ▸ hk)]
    exact .connectFailed pd hr op' hc
  | connectPending pd hr op' hc =>
    have hsame := same_connectCompleted op pd hr
    rw [hc] at hsame
    have hk' : op'.id ≠ k := hsame.id ▸ hk
    rw [← onPending_without hk', ← takeDispatching_without hk']
    exact .connectPending pd hr op' hc
  | connectEstablished pd hr op' hc =>
    have hsame := same_connectCompleted op pd hr
    rw [hc] at hsame
    have hk' : op'.id ≠ k := hsame.id ▸ hk
    rw [← goto_without (d := (op', _)) hk', ← log_without (by simpa [Action.concerns] using hk')]
    exact .connectEstablished pd hr op' hc
  | storeFailed =>
    rw [← goto_without (d := (op, _)) hk]
    exact .storeFailed
  | markWon hs =>
    rw [← goto_without (d := op.marked true) hk, ← publish_without hk]
    exact .markWon hs
  | markLost hs =>
    rw [← goto_without (d := op.marked false) hk]
    exact .markLost hs
  | storeConnected =>
    rw [← goto_without (d := (op, _)) hk, ← publish_without hk]
    exact .storeConnected
  | storeClosed =>
    rw [← goto_without (d := (op, _)) hk]
    exact .storeClosed
  | loadPeerClosed =>
    have hsame := same_waitComplete op s.peerClosed
    rw [← goto_without (hsame.id ▸ hk)]
    exact .loadPeerClosed
  | storePeerClosed =>
    rw [← goto_without (d := (op, _)) hk]
    exact .storePeerClosed
  | invoke =>
    rw [← log_without (by simpa [Action.concerns] using hk), ← takeDispatching_without hk]
    exact .invoke

theorem Disconnects.without {i : Nat} {a : Answer} (h : Disconnects s i a s') :
    Disconnects (s.without k) i a (s'.without k) := by
  cases h with
  | load hc => exact .load hc
  | closed old hc hs =>
    have heq : { (s.without k).log (.close old) with
        connectState := .closed, callers := s.callers.set i (.storePeerClosed old) } =
      { s.log (.close old) with
        connectState := .closed, callers := s.callers.set i (.storePeerClosed old) }.without k := by
      simp [State.log, State.without, Action.concerns]
    rw [← heq]
    exact .closed old hc hs
  | retry old a hc ha => exact .retry old a hc ha
  | latched old hc => exact .latched old hc
  | cancelled old hc =>
    have heq : { (s.without k).cancelIoEx fun _ => true with
        callers := s.callers.set i (afterCancel old) } =
      { s.cancelIoEx fun _ => true with callers := s.callers.set i (afterCancel old) }.without k := by
      rw [cancelIoEx_without]
      rfl
    rw [← heq]
    exact .cancelled old hc
  | native hr hc =>
    have heq : { (s.without k).log (.disconnect hr) with
        callers := s.callers.set i (.returned (callError hr)) } =
      { s.log (.disconnect hr) with callers := s.callers.set i (.returned (callError hr)) }.without k := by
      simp [State.log, State.without, Action.concerns]
    rw [← heq]
    exact .native hr hc

theorem doOpen_without (s : State) (ec : NdErrorCode) :
    doOpen (s.without k) ec = ((doOpen s ec).1.without k, (doOpen s ec).2) := by
  change (if s.isOpen then _ else if !s.deviceRegistered then _ else _) = _
  unfold doOpen
  split_ifs <;> rfl

theorem assign_without (s : State) (hasHandle : Bool) (ec : NdErrorCode) :
    assign (s.without k) hasHandle ec = (assign s hasHandle ec).without k := by
  change (if s.isOpen ∨ !hasHandle ∨ ec.isError then _ else _) = _
  unfold Nd.assign
  split_ifs <;> rfl

theorem asyncConnect_without {hasQp : Bool} {requestSize : Nat} {opened : NdErrorCode} (hk : op.id ≠ k) :
    asyncConnect (s.without k) op hasQp requestSize opened =
      (asyncConnect s op hasQp requestSize opened).without k := by
  have hopen : (if (s.without k).isOpen then (s.without k, NdErrorCode.common success)
      else doOpen (s.without k) opened) =
    ((if s.isOpen then (s, NdErrorCode.common success) else doOpen s opened).1.without k,
      (if s.isOpen then (s, NdErrorCode.common success) else doOpen s opened).2) := by
    rw [doOpen_without]
    change (if s.isOpen then _ else _) = _
    split_ifs <;> rfl
  unfold asyncConnect
  simp only [hopen]
  generalize (if s.isOpen then (s, NdErrorCode.common success) else doOpen s opened) = r
  obtain ⟨u, openEc⟩ := r
  simp only
  split_ifs
  · rw [reject_without hk]
  · rw [reject_without hk]
  · rw [init_without _ (.guardState op hasQp) rfl hk]

theorem asyncAccept_without {hasQp : Bool} {bindEc : NdErrorCode} {dataSize : Nat} (hk : op.id ≠ k) :
    asyncAccept (s.without k) op hasQp bindEc dataSize =
      (asyncAccept s op hasQp bindEc dataSize).without k := by
  change (if bindEc.isError then _ else if !s.deviceRegistered then _ else if !s.isOpen then _ else _) = _
  unfold asyncAccept
  split_ifs
  · rw [reject_without hk]
  · rw [reject_without hk]
  · rw [reject_without hk]
  · rw [reject_without hk]
  · rw [init_without _ (.guardState op hasQp) rfl hk]

theorem fresh_without {id addr : Nat} (hi : s.initiation = .idle) (h : s.fresh id addr = true) :
    (s.without k).fresh id addr = true := by
  simp only [State.fresh, State.ops, hi, State.without, Bool.and_eq_true, Bool.not_eq_true',
    List.contains_eq_mem, decide_eq_false_iff_not, List.all_eq_true, List.mem_append,
    List.mem_filter, List.mem_map] at h ⊢
  refine ⟨fun hmem => h.1 hmem.1, fun op hop => h.2 op ?_⟩
  rcases hop with ((hop | hop) | hop) | ⟨d, hd, rfl⟩
  · exact .inl (.inl (.inl hop))
  · exact .inl (.inl (.inr hop.1))
  · exact .inl (.inr hop.1)
  · exact .inr ⟨d, hd.1, rfl⟩

theorem used_without {id : Nat} (hk : id ≠ k) :
    { s.without k with used := id :: (t.without k).used } = { s with used := id :: t.used }.without k := by
  simp [State.without, hk]

/-- A step of the others is one without the op as well. -/
theorem Step.without {l : Label} (h : Step s l s') (hl : l.concerns k = false) :
    Step (s.without k) l (s'.without k) := by
  have hidle : s.initiation = .idle → (s.without k).initiation = .idle := fun hi => by
    rw [State.without, hi]
    rfl
  cases h with
  | useDevice => exact .useDevice
  | openConnector ec hi =>
    have heq := congrArg Prod.fst (doOpen_without (k := k) s ec)
    simp only at heq
    rw [← heq]
    exact .openConnector ec (hidle hi)
  | assign hasHandle ec hi =>
    rw [← assign_without]
    exact .assign hasHandle ec (hidle hi)
  | asyncConnect id addr slot hasQp requestSize replyCap opened hi hf =>
    have hk : id ≠ k := by simpa [Label.concerns] using hl
    rw [← used_without hk, ← asyncConnect_without hk]
    exact .asyncConnect id addr slot hasQp requestSize replyCap opened (hidle hi) (fresh_without hi hf)
  | asyncAccept id addr slot hasQp bindEc dataSize hi hf =>
    have hk : id ≠ k := by simpa [Label.concerns] using hl
    rw [← used_without hk, ← asyncAccept_without hk]
    exact .asyncAccept id addr slot hasQp bindEc dataSize (hidle hi) (fresh_without hi hf)
  | asyncWaitDisconnect id addr slot hi hf =>
    have hk : id ≠ k := by simpa [Label.concerns] using hl
    have heq := init_without s (.waitLatch { id, addr, kind := .wait, slot }) rfl hk
    have hused := used_without (s := { s with initiation := .waitLatch { id, addr, kind := .wait, slot } })
      (t := s) hk
    rw [← hused, ← heq]
    exact .asyncWaitDisconnect id addr slot (hidle hi) (fresh_without hi hf)
  | initiate id a _ op ho hid hst =>
    have hk : id ≠ k := by simpa [Label.concerns] using hl
    have hne : ∀ o, s.initiation.op? = some o → o.id ≠ k := fun o ho' => by
      obtain rfl := Option.some.inj (ho.symm.trans ho')
      exact hid ▸ hk
    refine .initiate id a _ op ?_ hid (hst.without hne)
    rw [State.without, InitPc.without_of_ne hne]
    exact ho
  | overlapped r op hfind hm =>
    have hk : op.id ≠ k := by simpa [Label.concerns] using hl
    rw [← overlappedEnd_without hk]
    exact .overlapped r op ((find?_filter_of_imp fun o : CmOp => bne_of_beq hk o.id).trans hfind) hm
  | dispatch op hfind =>
    have hk : op.id ≠ k := by simpa [Label.concerns] using hl
    have hk' : op.doComplete.1.id ≠ k := by
      rw [same_doComplete.id]
      exact hk
    rw [← enter_without hk', ← takeScheduled_without hk]
    refine .dispatch op ?_
    exact (find?_filter_of_imp fun o : CmOp => bne_of_beq hk o.id).trans hfind
  | complete a op pc _ hfind hst =>
    have hk : op.id ≠ k := by simpa [Label.concerns] using hl
    refine .complete a op pc _ ?_ (hst.without hk)
    exact (find?_filter_of_imp fun d : CmOp × CompletePc => bne_of_beq hk d.1.id).trans hfind
  | disconnect => exact .disconnect
  | disconnectStep i a _ hst => exact .disconnectStep i a _ hst.without
  | emit addr ha =>
    rw [← cancelIoEx_without]
    exact .emit addr ha

/-! ## The op stays turned away -/

theorem Rejected.shift {x y : List (CmOp × Place)} (h : Rejected k s) (hsh : Shifts s s' x y)
    (hy : ∀ e ∈ y, e.1.id = k → e.2.Rejected e.1)
    (ha : ∀ op, s'.initiation = .arm op → op.id ≠ k) : Rejected k s' :=
  ⟨hsh.forall h.places hy, ha⟩

/-- A step that leaves the initiating thread alone and moves one op of another identity, or this one
to where it may be. -/
theorem Rejected.move {x : List (CmOp × Place)} {p : Place} (h : Rejected k s)
    (hsh : Shifts s s' x [(op, p)]) (hi : s'.initiation = s.initiation)
    (hp : op.id = k → p.Rejected op) : Rejected k s' := by
  refine h.shift hsh (fun e he hid => ?_) fun o ho => h.arm o (hi ▸ ho)
  obtain rfl := List.mem_singleton.1 he
  exact hp hid

theorem Rejected.quiet (h : Rejected k s) (he : s'.entries = s.entries)
    (hi : s'.initiation = s.initiation) : Rejected k s' :=
  ⟨he ▸ h.places, fun o ho => h.arm o (hi ▸ ho)⟩

/-- `CancelIoEx` does not reach the op, which has no call in flight. -/
theorem Rejected.cancelled (h : Rejected k s) (p : CmOp → Bool) : Rejected k (s.cancelIoEx p) := by
  refine ⟨?_, h.arm⟩
  rw [State.entries_cancelIoEx]
  intro e he hid
  obtain ⟨e0, hmem, rfl⟩ := List.mem_map.1 he
  rw [cancelEntry_op] at hid
  have hold := h.places e0 hmem hid
  by_cases hc : e0.2 = .driver ∧ p e0.1 = true
  · rw [hc.1] at hold
    exact hold.elim
  · rwa [cancelEntry, if_neg hc]

/-- The initiating thread is at the last guards if it works on the op at all. -/
theorem Rejected.guardState (h : Rejected k s) (ho : s.initiation.op? = some op) (hid : op.id = k) :
    ∃ hasQp, s.initiation = .guardState op hasQp ∧ op.isConn = true ∧ op.started = false := by
  have hplace : ∀ {pc : InitPc}, s.initiation = pc → pc.owned? = some op →
      (Place.initiating pc).Rejected op := fun hpc hown =>
    hpc ▸ h.places _ (State.mem_entries_initiating (hpc ▸ hown)) hid
  cases hpc : s.initiation with
  | idle =>
    rw [hpc] at ho
    cases ho
  | arm o =>
    rw [hpc] at ho
    obtain rfl := Option.some.inj ho
    exact absurd hid (h.arm _ hpc)
  | guardState o hasQp =>
    rw [hpc] at ho
    obtain rfl := Option.some.inj ho
    exact ⟨hasQp, rfl, hplace hpc rfl⟩
  | publish o | bind o | native o | waitLatch o | waitState o | notify o =>
    rw [hpc] at ho
    obtain rfl := Option.some.inj ho
    exact (hplace hpc rfl).elim

theorem Initiates.arm {a : Answer} (h : Initiates s a s') {o : CmOp} (ho : s'.initiation = .arm o) :
    ∃ op, s.initiation.op? = some op ∧ o.id = op.id := by
  cases h with
  | publishLost op hi | bindFailed op _ hi | callPending op hi | accepted op hi | callEnded op _ hi =>
    obtain rfl := InitPc.arm.inj ho
    exact ⟨op, by rw [hi]; rfl, rfl⟩
  | published op hi =>
    have hown := owned_afterPublish op
    rw [show InitPc.afterPublish op = .arm o from ho] at hown
    cases hown
  | _ => cases ho

/-- A guard turns the op away. -/
theorem Initiates.rejects {a : Answer} {hasQp : Bool} (h : Initiates s a s')
    (hi : s.initiation = .guardState op hasQp) :
    (∃ ec, NdErrorCode.isError ec = true ∧ s' = s.reject op ec) ∨
      a = .run ∧ s.connectState = .idle ∧ hasQp = true := by
  have hpc : ∀ {pc : InitPc}, s.initiation = pc → pc = .guardState op hasQp := fun h => h.symm.trans hi
  cases h with
  | terminal o q ho hs =>
    cases hpc ho
    exact .inl ⟨_, rfl, rfl⟩
  | nullQp o ho hs =>
    cases hpc ho
    exact .inl ⟨_, rfl, rfl⟩
  | admitted o ho hs =>
    cases hpc ho
    exact .inr ⟨rfl, hs, rfl⟩
  | published o ho | publishLost o ho | bindFailed o _ ho | bound o _ ho | callPending o ho
  | accepted o ho | callEnded o _ ho | armed o ho | latchSet o ho | latchClear o ho | waitClosed o ho
  | waitNotOpen o ho | waitOpen o ho | notifyPending o ho | notifyEnded o _ ho => cases hpc ho

theorem Completes.shifts {a : Answer}
    (hfind : s.dispatching.find? (fun d => d.1.id == op.id) = some (op, pc))
    (h : Completes s op pc a s') :
    s'.initiation = s.initiation ∧
      ∃ y, Shifts s s' [(op, .thread pc)] y ∧ ∀ e ∈ y, e.1.id = op.id := by
  have hone : ∀ {o : CmOp} {p : Place}, o.id = op.id → ∀ e ∈ [(o, p)], e.1.id = op.id :=
    fun hid e he => List.mem_singleton.1 he ▸ hid
  cases h with
  | connectFailed pd hr op' hc =>
    have hid := (same_connectCompleted op pd hr).id
    rw [hc] at hid
    exact ⟨rfl, _, .goto hfind hid rfl rfl rfl rfl, hone hid⟩
  | connectPending pd hr op' hc =>
    have hid := (same_connectCompleted op pd hr).id
    rw [hc] at hid
    exact ⟨rfl, _, .continue hfind hid, hone hid⟩
  | connectEstablished pd hr op' hc =>
    have hid := (same_connectCompleted op pd hr).id
    rw [hc] at hid
    exact ⟨rfl, _, .goto hfind hid rfl rfl rfl rfl, hone hid⟩
  | loadPeerClosed =>
    have hid := (same_waitComplete op s.peerClosed).id
    exact ⟨rfl, _, .goto hfind hid rfl rfl rfl rfl, hone hid⟩
  | invoke => exact ⟨rfl, [], .finish hfind _, fun _ he => absurd he List.not_mem_nil⟩
  | _ => exact ⟨rfl, _, .goto hfind rfl rfl rfl rfl rfl, hone rfl⟩

theorem Rejected.begins {hasQp : Bool} {used : List Nat} (h : Rejected k s)
    (hb : Begins s op hasQp t) (hi : s.initiation = .idle)
    (hop : op.isConn = true ∧ op.started = false) : Rejected k { t with used := used } := by
  have hnil : s.initiating = [] := initiating_nil (by rw [hi]; rfl)
  cases hb with
  | rejected u ec hu he =>
    have hsh : Shifts s { u.reject op ec with used := used } [] [(op.completeWith ec, .port)] := by
      cases hu <;> exact .post hnil rfl rfl rfl rfl
    refine h.shift hsh (fun e hmem _ => ?_) fun o ho => by cases ho
    obtain rfl := List.mem_singleton.1 hmem
    exact ⟨hop.1, hop.2, he⟩
  | guarded u hu ho =>
    have hsh : Shifts s { u with initiation := .guardState op hasQp, used := used } []
        [(op, .initiating (.guardState op hasQp))] := by
      cases hu <;> exact .next hnil rfl rfl rfl rfl rfl
    refine h.shift hsh (fun e hmem _ => ?_) fun o ho => by cases ho
    obtain rfl := List.mem_singleton.1 hmem
    exact hop

/-- From the port the op goes to the store of `closed` or to its upcall. -/
theorem rejected_doComplete (h : Place.port.Rejected op) :
    (Place.thread op.doComplete.2).Rejected op.doComplete.1 := by
  obtain ⟨hconn, hstart, he⟩ := h
  unfold CmOp.doComplete
  split
  case h_1 hk =>
    rw [CmOp.connectComplete, if_pos he]
    trivial
  case h_2 hk =>
    rw [CmOp.acceptComplete, if_neg (by simp [hstart]), if_neg (by simp [hstart])]
    trivial
  case h_3 hk => simp [CmOp.isConn, hk] at hconn

/-- An op that the guards never let through stays turned away. -/
theorem Rejected.step {l : Label} (h : Rejected k s) (hr : rejects k s l = true)
    (hst : connector.step s l = some s') : Rejected k s' := by
  cases Step.of_step hst with
  | useDevice | disconnect => exact h.quiet rfl rfl
  | openConnector ec hi =>
    have ho := opens_doOpen s ec
    exact h.quiet ho.entries ho.initiation
  | assign hasHandle ec hi =>
    unfold Nd.assign
    split_ifs
    · exact h
    · exact h.quiet rfl rfl
  | asyncConnect id addr slot hasQp requestSize replyCap opened hi hf =>
    exact h.begins (begins_asyncConnect s _ hasQp requestSize opened) hi ⟨rfl, rfl⟩
  | asyncAccept id addr slot hasQp bindEc dataSize hi hf =>
    exact h.begins (begins_asyncAccept s _ hasQp bindEc dataSize) hi ⟨rfl, rfl⟩
  | asyncWaitDisconnect id addr slot hi hf =>
    have hnil : s.initiating = [] := initiating_nil (by rw [hi]; rfl)
    refine h.shift (.next hnil rfl rfl rfl rfl rfl) (fun e he hid => ?_) fun o ho => by cases ho
    obtain rfl := List.mem_singleton.1 he
    exact absurd hid (by simpa [Nd.rejects] using hr)
  | initiate id a _ op ho hid hst =>
    by_cases hk : op.id = k
    · obtain ⟨hasQp, hg, hop⟩ := h.guardState ho hk
      rcases hst.rejects hg with ⟨ec, he, rfl⟩ | ⟨rfl, hidle, rfl⟩
      · refine h.shift (.post rfl rfl rfl rfl rfl) (fun e hmem _ => ?_) fun o ho => by cases ho
        obtain rfl := List.mem_singleton.1 hmem
        exact ⟨hop.1, hop.2, he⟩
      · simp [Nd.rejects, hg, hidle, ← hid, hk] at hr
    · obtain ⟨x, y, hsh, hy⟩ := hst.shifts
      have hone : ∀ {o : CmOp}, (∃ op', s.initiation.op? = some op' ∧ o.id = op'.id) → o.id ≠ k := by
        rintro o ⟨op', ho', hid'⟩
        obtain rfl := Option.some.inj (ho.symm.trans ho')
        exact hid' ▸ hk
      exact h.shift hsh (fun e he hid' => absurd hid' (hone (hy e he).2)) fun o harm => hone (hst.arm harm)
  | overlapped r op hfind hm =>
    have hsh := Shifts.overlapped hfind r
    refine h.move hsh (by rw [overlappedEnd_eq]) fun hid => ?_
    exact (h.places _ (hsh.mem List.mem_cons_self) hid).elim
  | dispatch op hfind =>
    have hsh := Shifts.dispatch (d := op.doComplete) hfind
    refine h.move hsh rfl fun hid => rejected_doComplete (h.places _ (hsh.mem List.mem_cons_self) ?_)
    rw [same_doComplete.id] at hid
    exact hid
  | complete a op pc _ hfind hst =>
    obtain ⟨hi, y, hsh, hy⟩ := hst.shifts hfind
    by_cases hk : op.id = k
    · have hplace := h.places _ (hsh.mem List.mem_cons_self) hk
      cases hst with
      | storeClosed => exact h.move (.goto hfind rfl rfl rfl rfl rfl) rfl fun _ => trivial
      | invoke => exact h.shift (.finish hfind _) (fun _ he => absurd he List.not_mem_nil) h.arm
      | _ => exact hplace.elim
    · exact h.shift hsh (fun e he hid => absurd ((hy e he).symm.trans hid) hk) fun o ho => h.arm o (hi ▸ ho)
  | disconnectStep i a _ hst =>
    cases hst with
    | cancelled => exact (h.cancelled _).quiet rfl rfl
    | _ => exact h.quiet rfl rfl
  | emit addr ha => exact h.cancelled _

/-! ## What the op's own steps leave behind -/

theorem isOpen_asyncConnect (s : State) (op : CmOp) (hasQp : Bool) (requestSize : Nat)
    (opened : NdErrorCode) :
    (asyncConnect s op hasQp requestSize opened).isOpen = s.isOpen ↔
      (s.isOpen || (doOpen s opened).2.isError) = true := by
  unfold asyncConnect
  by_cases ho : s.isOpen = true
  · simp only [ho, if_true]
    split_ifs <;> simp [State.reject, State.onCompletion, ho]
  · rw [Bool.not_eq_true] at ho
    rw [isError_doOpen ho, ho, Bool.false_or, Bool.not_eq_true']
    simp only [Bool.false_eq_true, if_false]
    split_ifs <;> rfl

theorem isOpen_asyncAccept (s : State) (op : CmOp) (hasQp : Bool) (bindEc : NdErrorCode)
    (dataSize : Nat) : (asyncAccept s op hasQp bindEc dataSize).isOpen = s.isOpen := by
  unfold asyncAccept
  split_ifs <;> rfl

/-- An initiation that begins leaves the others alone exactly if it does not open the connector. -/
theorem Begins.without_eq_iff {hasQp : Bool} (hb : Begins s op hasQp t)
    (hi : s.initiation = .idle) :
    { t with used := op.id :: s.used }.without op.id = s.without op.id ↔ t.isOpen = s.isOpen := by
  have hne : s.isOpen = false → true ≠ s.isOpen := fun ho h => absurd (h.trans ho) Bool.noConfusion
  cases hb with
  | rejected u ec hu he =>
    cases hu with
    | same =>
      refine iff_of_true ?_ rfl
      simp [State.reject, State.onCompletion, State.without, CmOp.completeWith, hi]
    | opened ho => exact iff_of_false (fun h => hne ho (congrArg State.isOpen h)) (hne ho)
  | guarded u hu hopen =>
    cases hu with
    | same =>
      refine iff_of_true ?_ rfl
      simp [State.without, InitPc.without, InitPc.op?, hi]
    | opened ho => exact iff_of_false (fun h => hne ho (congrArg State.isOpen h)) (hne ho)

theorem dispatch_without_self :
    ((s.takeScheduled op.id).enter op.doComplete).without op.id = s.without op.id := by
  have hdrop : ∀ o : CmOp, (o.id == op.id) = true → (o.id != op.id) = false := fun o ho => by
    simpa using ho
  simp [State.takeScheduled, State.enter, State.without, same_doComplete.id,
    filter_eraseP_of_not hdrop]

/-- The op's own steps leave the others alone exactly if they neither open the connector nor close one that
was not closed. -/
theorem Rejected.without_eq_iff {l : Label} (h : Rejected k s) (hr : rejects k s l = true)
    (hl : l.concerns k = true) (hst : connector.step s l = some s') :
    s'.without k = s.without k ↔ leavesAlone k s l = true := by
  cases Step.of_step hst with
  | useDevice | disconnect | openConnector | assign | disconnectStep | emit => cases hl
  | asyncConnect id addr slot hasQp requestSize replyCap opened hi hf =>
    obtain rfl : id = k := by simpa [Label.concerns] using hl
    have hb := begins_asyncConnect s { id, addr, kind := .connect, slot, replyCap } hasQp requestSize opened
    rw [hb.without_eq_iff hi, isOpen_asyncConnect]
    simp [leavesAlone]
  | asyncAccept id addr slot hasQp bindEc dataSize hi hf =>
    obtain rfl : id = k := by simpa [Label.concerns] using hl
    have hb := begins_asyncAccept s { id, addr, kind := .accept, slot } hasQp bindEc dataSize
    exact (hb.without_eq_iff hi).trans (iff_of_true (isOpen_asyncAccept ..) rfl)
  | asyncWaitDisconnect id addr slot hi hf =>
    obtain rfl : id = k := by simpa [Label.concerns] using hl
    simp [Nd.rejects] at hr
  | initiate id a _ op ho hid hini =>
    subst hid
    obtain rfl : op.id = k := by simpa [Label.concerns] using hl
    obtain ⟨hasQp, hg, -⟩ := h.guardState ho rfl
    rcases hini.rejects hg with ⟨ec, he, rfl⟩ | ⟨rfl, hidle, rfl⟩
    · refine iff_of_true ?_ rfl
      simp [State.reject, State.onCompletion, State.without, CmOp.completeWith, InitPc.without,
        InitPc.op?, hg]
    · simp [Nd.rejects, hg, hidle] at hr
  | overlapped r op hfind hm =>
    obtain rfl : op.id = k := by simpa [Label.concerns] using hl
    exact (h.places _ ((Shifts.overlapped hfind r).mem List.mem_cons_self) rfl).elim
  | dispatch op hfind =>
    obtain rfl : op.id = k := by simpa [Label.concerns] using hl
    exact iff_of_true dispatch_without_self rfl
  | complete a op pc _ hfind hst =>
    obtain rfl : op.id = k := by simpa [Label.concerns] using hl
    have hplace := h.places _ ((State.entries_of_dispatching hfind).mem_iff.2 List.mem_cons_self) rfl
    have hdrop : ∀ d : CmOp × CompletePc, (d.1.id == op.id) = true → (d.1.id != op.id) = false :=
      fun d hd => by simpa using hd
    cases hst with
    | storeClosed =>
      simp only [leavesAlone, hfind, bne_self_eq_false, Bool.false_or, beq_iff_eq]
      constructor
      · intro heq
        exact (congrArg State.connectState heq).symm
      · intro hcl
        simp [State.goto, State.takeDispatching, State.enter, State.without, filter_eraseP_of_not hdrop, hcl]
    | invoke =>
      refine iff_of_true ?_ (by simp [leavesAlone, hfind])
      simp [State.log, State.takeDispatching, State.without, filter_eraseP_of_not hdrop, Action.concerns]
    | _ => exact hplace.elim

theorem Rejected.fresh : Rejected k {} where
  places := fun _ he => absurd he List.not_mem_nil
  arm := fun _ h => InitPc.noConfusion h

/-- An op that the guards turn away leaves the connector as it would be without it exactly if it does not
open it and its `do_complete` does not close it. -/
theorem rejected_undisturbed {ls : List Label} (hr : connector.run {} ls = some s)
    (hk : connector.Meets (fun s l => rejects k s l = true) {} ls) :
    connector.Undisturbed (Label.concerns k) (fun s => s.without k) {} ls ↔
      connector.Meets (fun s l => leavesAlone k s l = true) {} ls := by
  refine StepSystem.undisturbed_iff_meets (I := Rejected k) (fun _ _ _ h hd hst => h.step hd hst)
    (fun _ _ _ _ ho hst => ((Step.of_step hst).without ho).step_eq)
    (fun _ _ _ h hd ho hst => h.without_eq_iff hd ho hst) (fun s l ho => ?_) hr hk .fresh
  cases l with
  | asyncConnect id | complete id =>
    have hne : (id != k) = true := by simpa [Label.concerns] using ho
    simp [leavesAlone, hne]
  | _ => rfl

/-- An accept op without a queue pair, and a `disconnect()` after it. -/
def rejectedAccept : List Label :=
  [.useDevice, .openConnector (.common success), .asyncAccept 1 0 false false (.common success) 0,
    .initiate 1 .run, .dispatch 1, .complete 1 .run, .disconnect, .disconnectStep 0 .run,
    .disconnectStep 0 .run]

theorem rejected_undisturbed_rejectedAccept :
    connector.Undisturbed (Label.concerns 1) (fun s => s.without 1) {} rejectedAccept := by
  have hr : (connector.run {} rejectedAccept).isSome = true := by decide +kernel
  exact (rejected_undisturbed (StepSystem.run_after hr) (by decide +kernel)).2 (by decide +kernel)

/-- A connect op with too much private data, on a connector that is idle. -/
def rejectedConnect : List Label :=
  [.useDevice, .openConnector (.common success), .asyncConnect 1 0 false true 256 0 (.common success),
    .dispatch 1, .complete 1 .run, .complete 1 .run]

/-- The connector is closed after it. -/
theorem not_rejected_undisturbed :
    ¬ ∀ k ls s, connector.run {} ls = some s →
      connector.Meets (fun s l => rejects k s l = true) {} ls →
        connector.Undisturbed (Label.concerns k) (fun s => s.without k) {} ls := by
  intro h
  have hr : (connector.run {} rejectedConnect).isSome = true := by decide +kernel
  have := h 1 rejectedConnect _ (StepSystem.run_after hr) (by decide +kernel) rejectedConnect _
    (List.prefix_refl _) (StepSystem.run_after hr)
  revert this
  decide +kernel

end RdmaOnAsio.Nd
