import RdmaOnAsio.Ibv.Proofs.ConnectorStep
import RdmaOnAsio.Ibv.Proofs.ReactorQueue

/-!
# The lockstep invariant

A connect or accept attempt is owned by one op at a time: by the initiation from its publishing
exchange until `start_op`, then by the reactor until the op is retired. While it is owned,
`connect_state_` is the state the op's private stage corresponds to, or `closed`, and `closed` was
then written by a `disconnect()` call.
-/

namespace RdmaOnAsio.Ibv

open ErrorCode

/-- The `connect_state_` an armed op expects to find, given its private stage. -/
def CmOp.waitsIn (op : CmOp) : Option ConnectState :=
  match op.kind, op.stage with
  | .connect, .addrResolve => some .addrResolve
  | .connect, .addrRoute => some .addrRoute
  | .connect, .connect => some .connecting
  | .connect, .done | .connect, .error => none
  | .accept, _ => some .connecting
  | .wait, _ => none

/-- `connect_state_` is where the op's stage says, or closed. -/
def Awaits (c : ConnectState) (op : CmOp) : Prop :=
  op.isConn = true → c = .closed ∨ op.waitsIn = some c

/-- What holds at each access of a `do_perform`, of `connect_state_` and the actions so far. -/
def AtPc (c : ConnectState) (tr : List Action) (op : CmOp) : PerformPc → Prop
  | .getCmEvent => Awaits c op
  | .advance expected desired =>
    op.kind = .connect ∧ (c = expected ∨ c = .closed) ∧
      (expected = .addrResolve ∧ desired = .addrRoute ∨
        expected = .addrRoute ∧ desired = .connecting)
  | .createQp | .resolveRoute =>
    op.kind = .connect ∧ (c = .addrRoute ∨ c = .closed) ∧ .cas .connect .addrRoute ∈ tr
  | .connect =>
    op.kind = .connect ∧ (c = .connecting ∨ c = .closed) ∧ .cas .connect .connecting ∈ tr
  | .established _ => op.isConn = true ∧ (c = .connecting ∨ c = .closed)
  | .modifyQp => op.isConn = true ∧ (c = .connected ∨ c = .closed)
  | .disconnect => op.isConn = true ∧ c = .closed
  | .claimLoad | .claimCas _ => op.isConn = true ∧ (c.inFlight = true ∨ c = .closed)
  | .storePeerClosed => op.kind = .wait

/-- The initiation owns the attempt it has published. -/
def InitPc.owns : InitPc → Nat
  | .createQp _ | .accept _ => 1
  | .storeClosed op => if op.kind = .accept then 1 else 0
  | .startOp op => if op.isConn then 1 else 0
  | .idle | .guardState _ | .resolveAddr _ | .publish _ | .post _ | .waitLatch _ | .waitState _ => 0

namespace State

/-- The connect and accept ops the reactor holds. -/
def liveConn (s : State) : Nat := s.armed.countP CmOp.isConn

/-- The owners of a published attempt. -/
def owners (s : State) : Nat := s.initiation.owns + s.liveConn

/-- No attempt is running and none can be started any more. -/
def Over (s : State) : Prop :=
  s.connectState = .closed ∨ s.owners = 0 ∧ s.connectState ≠ .idle

end State

/-- A finished connect or accept op reports `operation_aborted` only once its attempt is over. -/
def Settled (cfg : Config) (s : State) (op : CmOp) : Prop :=
  op.isConn = true → op.ec.isAborted cfg.aliased = true → s.Over

/-- What holds at each step of an initiation. -/
def InitOk (cfg : Config) (s : State) : InitPc → Prop
  | .idle => True
  | .guardState op => op.isConn = true ∧ op.stage = .addrResolve ∧ op.ec = success
  | .resolveAddr op =>
    op.kind = .connect ∧ op.stage = .addrResolve ∧
      (s.connectState = .idle ∨ s.connectState = .closed) ∧ s.liveConn = 0
  | .publish op =>
    op.isConn = true ∧ op.stage = .addrResolve ∧
      (s.connectState = .idle ∨ s.connectState = .closed) ∧ s.liveConn = 0
  | .createQp op | .accept op =>
    op.kind = .accept ∧ (s.connectState = .connecting ∨ s.connectState = .closed) ∧
      s.liveConn = 0 ∧ .cas .accept .connecting ∈ s.trace
  | .storeClosed op =>
    op.isConn = true ∧ s.liveConn = 0 ∧
      (op.kind = .connect → s.connectState = .idle ∨ s.connectState = .closed) ∧
      (op.kind = .accept → s.connectState = .connecting ∨ s.connectState = .closed)
  | .startOp op => Awaits s.connectState op ∧ (op.isConn = true → s.liveConn = 0)
  | .post op => Settled cfg s op
  | .waitLatch op | .waitState op => op.kind = .wait

/-- A `disconnect()` call past its exchange loop has left `connect_state_` closed. -/
def CallerOk (c : ConnectState) : DisconnectPc → Prop
  | .load | .cas _ => True
  | .cancelOps _ | .native | .returned => c = .closed

/-- The lockstep invariant. -/
structure Lockstep (cfg : Config) (s : State) : Prop where
  init : InitOk cfg s s.initiation
  ops : OpsOk (AtPc s.connectState s.trace) (Settled cfg s) s
  live : s.liveConn ≤ 1
  callers : ∀ (i : Nat) (c : DisconnectPc), s.callers[i]? = some c → CallerOk s.connectState c
  claimed : 0 < s.owners → s.connectState = .closed → ∃ i, .close (.caller i) ∈ s.trace

variable {cfg : Config} {s t s' : State} {op : CmOp} {pc : PerformPc} {r : CmOp × Outcome}

/-! ## Small facts -/

theorem isConn_of_connect (h : op.kind = .connect) : op.isConn = true := by
  simp [CmOp.isConn, h]

theorem isConn_of_accept (h : op.kind = .accept) : op.isConn = true := by
  simp [CmOp.isConn, h]

theorem isConn_eq_false : op.isConn = false ↔ op.kind = .wait := by
  simp [CmOp.isConn]

theorem isConn_of_ne_wait (h : op.kind ≠ .wait) : op.isConn = true := by
  by_contra hconn
  exact h (isConn_eq_false.1 (by simpa using hconn))

theorem inFlight_of_waitsIn {c : ConnectState} (h : op.waitsIn = some c) : c.inFlight = true := by
  unfold CmOp.waitsIn at h
  split at h <;> cases h <;> rfl

theorem Awaits.of_wait {c : ConnectState} (h : op.kind = .wait) : Awaits c op := by
  intro hc
  simp [CmOp.isConn, h] at hc

theorem Awaits.close {c : ConnectState} (_ : Awaits c op) : Awaits .closed op := fun _ => .inl rfl

/-- Closing keeps what holds at each access. -/
theorem AtPc.close {c : ConnectState} {tr tr' : List Action} (htr : tr ⊆ tr') (h : AtPc c tr op pc) :
    AtPc .closed tr' op pc := by
  cases pc with
  | getCmEvent => exact Awaits.close h
  | advance expected desired => exact ⟨h.1, .inr rfl, h.2.2⟩
  | createQp => exact ⟨h.1, .inr rfl, htr h.2.2⟩
  | resolveRoute => exact ⟨h.1, .inr rfl, htr h.2.2⟩
  | connect => exact ⟨h.1, .inr rfl, htr h.2.2⟩
  | established ev => exact ⟨h.1, .inr rfl⟩
  | modifyQp => exact ⟨h.1, .inr rfl⟩
  | disconnect => exact ⟨h.1, rfl⟩
  | claimLoad => exact ⟨h.1, .inr rfl⟩
  | claimCas e => exact ⟨h.1, .inr rfl⟩
  | storePeerClosed => exact h

theorem AtPc.trace {c : ConnectState} {tr tr' : List Action} (htr : tr ⊆ tr') (h : AtPc c tr op pc) :
    AtPc c tr' op pc := by
  cases pc with
  | createQp => exact ⟨h.1, h.2.1, htr h.2.2⟩
  | resolveRoute => exact ⟨h.1, h.2.1, htr h.2.2⟩
  | connect => exact ⟨h.1, h.2.1, htr h.2.2⟩
  | _ => exact h

theorem callerOk_casLoop (c : ConnectState) : CallerOk c (casLoop c) := by
  unfold casLoop
  split_ifs with h
  · exact h
  · trivial

theorem callerOk_of_closed (p : DisconnectPc) : CallerOk .closed p := by
  cases p <;> trivial

/-- An initiation that owns an attempt has nothing armed for it yet. -/
theorem InitOk.liveConn {i : InitPc} (h : InitOk cfg s i) (ho : 0 < i.owns) : s.liveConn = 0 := by
  cases i with
  | createQp op => exact h.2.2.1
  | accept op => exact h.2.2.1
  | storeClosed op => exact h.2.1
  | startOp op =>
    refine h.2 ?_
    by_contra hc
    simp [InitPc.owns, hc] at ho
  | _ => simp [InitPc.owns] at ho

/-- What holds of the initiation survives other actors: they may only close while nothing is armed. -/
theorem InitOk.mono {i : InitPc} (h : InitOk cfg s i) (hover : s.Over → s'.Over)
    (hst : s.liveConn = 0 → s'.connectState = s.connectState ∨ s'.connectState = .closed)
    (hlive : s'.liveConn ≤ s.liveConn) (htr : s.trace ⊆ s'.trace) : InitOk cfg s' i := by
  have hidle : s.liveConn = 0 → s.connectState = .idle ∨ s.connectState = .closed →
      s'.connectState = .idle ∨ s'.connectState = .closed := by
    intro h0 hc
    rcases hst h0 with he | he
    · rwa [he]
    · exact .inr he
  have hconn : s.liveConn = 0 → s.connectState = .connecting ∨ s.connectState = .closed →
      s'.connectState = .connecting ∨ s'.connectState = .closed := by
    intro h0 hc
    rcases hst h0 with he | he
    · rwa [he]
    · exact .inr he
  cases i with
  | idle => trivial
  | guardState op => exact h
  | resolveAddr op =>
    obtain ⟨hk, hs, hc, h0⟩ := h
    exact ⟨hk, hs, hidle h0 hc, by omega⟩
  | publish op =>
    obtain ⟨hk, hs, hc, h0⟩ := h
    exact ⟨hk, hs, hidle h0 hc, by omega⟩
  | createQp op =>
    obtain ⟨hk, hc, h0, hmem⟩ := h
    exact ⟨hk, hconn h0 hc, by omega, htr hmem⟩
  | accept op =>
    obtain ⟨hk, hc, h0, hmem⟩ := h
    exact ⟨hk, hconn h0 hc, by omega, htr hmem⟩
  | storeClosed op =>
    obtain ⟨hk, h0, hc, ha⟩ := h
    exact ⟨hk, by omega, fun hkind => hidle h0 (hc hkind), fun hkind => hconn h0 (ha hkind)⟩
  | startOp op =>
    obtain ⟨ha, h0⟩ := h
    refine ⟨fun hconn => ?_, fun hconn => ?_⟩
    · rcases hst (h0 hconn) with he | he
      · rw [he]
        exact ha hconn
      · exact .inl he
    · have := h0 hconn
      omega
  | post op => exact fun hc hab => hover (h hc hab)
  | waitLatch op => exact h
  | waitState op => exact h

/-! ## Where connect ops can be -/

/-- A connect or accept op is armed only while `connect_state_` is off `idle`. -/
theorem AtPc.ne_idle {c : ConnectState} {tr : List Action} (h : AtPc c tr op pc)
    (hconn : op.isConn = true) : c ≠ .idle := by
  rintro rfl
  cases pc with
  | getCmEvent =>
    rcases h hconn with hc | hc
    · cases hc
    · have := inFlight_of_waitsIn hc
      cases this
  | advance expected desired =>
    obtain ⟨-, hc | hc, ⟨rfl, -⟩ | ⟨rfl, -⟩⟩ := h <;> cases hc
  | createQp => rcases h.2.1 with hc | hc <;> cases hc
  | resolveRoute => rcases h.2.1 with hc | hc <;> cases hc
  | connect => rcases h.2.1 with hc | hc <;> cases hc
  | established ev => rcases h.2 with hc | hc <;> cases hc
  | modifyQp => rcases h.2 with hc | hc <;> cases hc
  | disconnect => cases h.2
  | claimLoad => rcases h.2 with hc | hc <;> cases hc
  | claimCas e => rcases h.2 with hc | hc <;> cases hc
  | storePeerClosed => simp [CmOp.isConn, show op.kind = .wait from h] at hconn

/-- While `connect_state_` is idle, nothing that drives it is armed. -/
theorem Lockstep.liveConn_of_idle (h : Lockstep cfg s) (hs : s.connectState = .idle) :
    s.liveConn = 0 := by
  unfold State.liveConn
  rw [List.countP_eq_zero]
  intro op hop hconn
  rcases List.mem_append.1 hop with hop | hop
  · cases hr : s.reactor with
    | unlocked => simp [Reactor.ops, hr] at hop
    | performing o pc =>
      obtain rfl : op = o := by simpa [Reactor.ops, hr] using hop
      exact (h.ops.performing op pc hr).ne_idle hconn hs
  · exact AtPc.ne_idle (h.ops.queued op hop) hconn hs

theorem State.liveConn_performing (hr : s.reactor = .performing op pc) :
    s.liveConn = (if op.isConn then 1 else 0) + s.readQueue.countP CmOp.isConn := by
  simp only [State.liveConn, State.armed, hr, Reactor.ops, List.countP_append]
  simp [List.countP_cons]

theorem State.liveConn_proceed :
    (s.proceed r).liveConn = (kept r).countP CmOp.isConn + s.readQueue.countP CmOp.isConn := by
  rw [State.liveConn, State.armed_proceed, List.countP_append]

/-- While a connect or accept op is performed, it is the only one there is. -/
theorem Lockstep.alone (h : Lockstep cfg s) (hr : s.reactor = .performing op pc)
    (hconn : op.isConn = true) :
    s.readQueue.countP CmOp.isConn = 0 ∧ s.initiation.owns = 0 ∧ s.liveConn = 1 := by
  have hlive := h.live
  have heq := State.liveConn_performing hr
  simp only [hconn, if_true] at heq
  refine ⟨by omega, ?_, by omega⟩
  by_contra ho
  have := h.init.liveConn (by omega)
  omega

/-- What is queued behind a connect or accept op that is performed are watchers. -/
theorem Lockstep.wait_of_queued (h : Lockstep cfg s) (hr : s.reactor = .performing op pc)
    (hconn : op.isConn = true) {o : CmOp} (ho : o ∈ s.readQueue) : o.kind = .wait := by
  have hz := List.countP_eq_zero.1 (h.alone hr hconn).1 o ho
  exact isConn_eq_false.1 (by simpa using hz)

/-- The op that is performed is a watcher if no connect or accept op is live. -/
theorem Lockstep.isConn_of_liveConn (h : Lockstep cfg s) (hr : s.reactor = .performing op pc)
    (h0 : s.liveConn = 0) : op.isConn = false := by
  by_contra hconn
  have := (h.alone hr (by simpa using hconn)).2.2
  omega

/-- A connect or accept op that is performed owns the attempt. -/
theorem Lockstep.owners_pos (h : Lockstep cfg s) (hr : s.reactor = .performing op pc)
    (hconn : op.isConn = true) : 0 < s.owners := by
  have := (h.alone hr hconn).2.2
  unfold State.owners
  omega

/-- The op that is performed is a watcher if nothing owns the attempt. -/
theorem Lockstep.isConn_of_owners (h : Lockstep cfg s) (hr : s.reactor = .performing op pc)
    (h0 : s.owners = 0) : op.isConn = false := by
  by_contra hconn
  have := h.owners_pos hr (by simpa using hconn)
  omega

/-! ## Steps that leave the ops alone -/

/-- A step that neither moves an op nor writes `connect_state_` keeps the invariant if it leaves the
initiation in order. -/
theorem Lockstep.frame (h : Lockstep cfg s) (hc : s'.connectState = s.connectState)
    (hr : s'.reactor = s.reactor) (hq : s'.readQueue = s.readQueue) (hret : s'.retired = s.retired)
    (ho : s'.initiation.owns = s.initiation.owns) (htr : s.trace ⊆ s'.trace)
    (hcal : ∀ (i : Nat) (c : DisconnectPc), s'.callers[i]? = some c → CallerOk s.connectState c)
    (hi : InitOk cfg s' s'.initiation) : Lockstep cfg s' := by
  have harmed : s'.armed = s.armed := by rw [State.armed, hr, hq, State.armed]
  have hlive : s'.liveConn = s.liveConn := by rw [State.liveConn, harmed, State.liveConn]
  have howners : s'.owners = s.owners := by rw [State.owners, ho, hlive, State.owners]
  have hover : s.Over → s'.Over := by
    unfold State.Over
    rw [hc, howners]
    exact id
  refine ⟨hi, ⟨fun op pc hop => ?_, fun op hop => ?_, fun op hop hconn hab => ?_⟩, ?_, ?_, ?_⟩
  · rw [hc]
    exact (h.ops.performing op pc (hr ▸ hop)).trace htr
  · rw [hc]
    exact AtPc.trace htr (h.ops.queued op (hq ▸ hop))
  · exact hover (h.ops.retired op (hret ▸ hop) hconn hab)
  · rw [hlive]
    exact h.live
  · rw [hc]
    exact hcal
  · rw [howners, hc]
    intro hpos hcl
    obtain ⟨i, hmem⟩ := h.claimed hpos hcl
    exact ⟨i, htr hmem⟩

/-- The same for a step that leaves the initiation alone as well. -/
theorem Lockstep.quiet (h : Lockstep cfg s) (hc : s'.connectState = s.connectState)
    (hr : s'.reactor = s.reactor) (hq : s'.readQueue = s.readQueue) (hret : s'.retired = s.retired)
    (hi : s'.initiation = s.initiation) (htr : s.trace ⊆ s'.trace)
    (hcal : ∀ (i : Nat) (c : DisconnectPc), s'.callers[i]? = some c → CallerOk s.connectState c) :
    Lockstep cfg s' := by
  have harmed : s'.armed = s.armed := by rw [State.armed, hr, hq, State.armed]
  have hlive : s'.liveConn = s.liveConn := by rw [State.liveConn, harmed, State.liveConn]
  refine h.frame hc hr hq hret (by rw [hi]) htr hcal ?_
  rw [hi]
  refine h.init.mono ?_ (fun _ => .inl hc) (Nat.le_of_eq hlive) htr
  unfold State.Over State.owners
  rw [hc, hi, hlive]
  exact id

/-- Writing `closed` keeps the invariant if it is a `disconnect()` call that writes it, or nothing owns
the attempt. -/
theorem Lockstep.closing (h : Lockstep cfg s) (hc : s'.connectState = .closed)
    (hr : s'.reactor = s.reactor) (hq : s'.readQueue = s.readQueue)
    (hi : s'.initiation = s.initiation) (htr : s.trace ⊆ s'.trace)
    (hcl : 0 < s.owners → ∃ i, .close (.caller i) ∈ s'.trace) : Lockstep cfg s' := by
  have harmed : s'.armed = s.armed := by rw [State.armed, hr, hq, State.armed]
  have hlive : s'.liveConn = s.liveConn := by rw [State.liveConn, harmed, State.liveConn]
  have howners : s'.owners = s.owners := by rw [State.owners, hi, hlive, State.owners]
  refine ⟨?_, ⟨fun op pc hop => ?_, fun op hop => ?_, fun op hop hconn hab => .inl hc⟩, ?_, ?_, ?_⟩
  · rw [hi]
    exact h.init.mono (fun _ => .inl hc) (fun _ => .inr hc) (Nat.le_of_eq hlive) htr
  · rw [hc]
    exact (h.ops.performing op pc (hr ▸ hop)).close htr
  · rw [hc]
    exact AtPc.close htr (h.ops.queued op (hq ▸ hop))
  · rw [hlive]
    exact h.live
  · rw [hc]
    exact fun i c _ => callerOk_of_closed c
  · rw [howners]
    exact fun hpos _ => hcl hpos

/-! ## The initiation -/

theorem isAborted_guard {e : RdmaErrc} : (ErrorCode.rdma e).isAborted cfg.aliased ≠ true := by simp

theorem settled_of_not_aborted (h : op.ec.isAborted cfg.aliased ≠ true) : Settled cfg s op :=
  fun _ hab => absurd hab h

theorem connectGuards_not_aborted (n : Nat) :
    (connectGuards n).isAborted cfg.aliased ≠ true := by
  unfold connectGuards
  split_ifs <;> simp

theorem acceptGuards_not_aborted (b : Bool) (n : Nat) :
    (acceptGuards cfg b n).isAborted cfg.aliased ≠ true := by
  unfold acceptGuards
  split_ifs <;> simp

/-- An op leaves the guards rejected or admitted to the check of `connect_state_`. -/
theorem Lockstep.guarded (h : Lockstep cfg s) (hi : s.initiation = .idle) {ec : ErrorCode}
    (hconn : op.isConn = true) (hstage : op.stage = .addrResolve) (hec : op.ec = success)
    (hab : ec.isAborted cfg.aliased ≠ true) : Lockstep cfg (s.guarded op ec) := by
  refine h.frame rfl rfl rfl rfl ?_ (List.Subset.refl _) h.callers ?_
  · simp only [State.guarded, hi]
    split_ifs <;> rfl
  · simp only [State.guarded]
    split_ifs with he
    · exact settled_of_not_aborted hab
    · exact ⟨hconn, hstage, hec⟩

/-- Publishing the attempt hands it to the initiation. -/
theorem Lockstep.published (h : Lockstep cfg s) (hi : s.initiation = .publish op)
    (hs : s.connectState = .idle) :
    Lockstep cfg { s.log (.cas op.kind op.kind.initial) with
      connectState := op.kind.initial, initiation := .afterPublish op } := by
  have hinit : InitOk cfg s (.publish op) := hi ▸ h.init
  obtain ⟨hconn, hstage, -, hlive⟩ := hinit
  have hnone : ∀ o ∈ s.armed, o.isConn = false := by
    intro o ho
    have := List.countP_eq_zero.1 hlive o ho
    simpa using this
  have hquiet : ∀ o ∈ s.retired, o.isConn = true → o.ec.isAborted cfg.aliased = true → False := by
    intro o ho hc hab
    rcases h.ops.retired o ho hc hab with hcl | ⟨-, hne⟩
    · rw [hs] at hcl
      cases hcl
    · exact hne hs
  have hcallers : ∀ (i : Nat) (c : DisconnectPc), s.callers[i]? = some c →
      CallerOk op.kind.initial c := by
    intro i c hic
    have hok := h.callers i c hic
    rw [hs] at hok
    cases c <;> trivial
  refine ⟨?_, ⟨fun o pc hop => ?_, fun o hop => ?_, fun o hop hc hab => ?_⟩, ?_, hcallers, ?_⟩
  · cases hk : op.kind with
    | connect =>
      simp only [InitPc.afterPublish, hk, OpKind.initial]
      exact ⟨fun _ => .inr (by simp [CmOp.waitsIn, hstage]), fun _ => hlive⟩
    | accept =>
      simp only [InitPc.afterPublish, hk, OpKind.initial]
      split_ifs
      · exact ⟨hk, .inl rfl, hlive, List.mem_cons_self⟩
      · exact ⟨hk, .inl rfl, hlive, List.mem_cons_self⟩
    | wait => simp [CmOp.isConn, hk] at hconn
  · have hr : s.reactor = .performing o pc := hop
    have hwait : o.isConn = false := hnone o (by simp [State.armed, Reactor.ops, hr])
    have hpc := h.ops.performing o pc hr
    cases pc with
    | getCmEvent => exact Awaits.of_wait (isConn_eq_false.1 hwait)
    | storePeerClosed => exact hpc
    | advance expected desired => simp [isConn_of_connect hpc.1] at hwait
    | createQp => simp [isConn_of_connect hpc.1] at hwait
    | resolveRoute => simp [isConn_of_connect hpc.1] at hwait
    | connect => simp [isConn_of_connect hpc.1] at hwait
    | established ev => simp [hpc.1] at hwait
    | modifyQp => simp [hpc.1] at hwait
    | disconnect => simp [hpc.1] at hwait
    | claimLoad => simp [hpc.1] at hwait
    | claimCas e => simp [hpc.1] at hwait
  · have hwait : o.isConn = false := hnone o (by simp [State.armed, show o ∈ s.readQueue from hop])
    exact Awaits.of_wait (isConn_eq_false.1 hwait)
  · exact (hquiet o hop hc hab).elim
  · show s.liveConn ≤ 1
    omega
  · intro _ hcl
    cases hk : op.kind <;> rw [hk] at hcl <;> cases hcl

/-- `start_op` counts its op among the armed ones. -/
theorem State.liveConn_startOp (s : State) (op : CmOp) :
    (s.startOp op).liveConn = s.liveConn + op.isConn.toNat := by
  simp only [State.liveConn, State.armed, State.startOp, ← List.append_assoc,
    List.countP_append, List.countP_singleton]
  cases op.isConn <;> rfl

/-- Handing an op to the reactor hands its attempt on. -/
theorem State.owners_started (hi : s.initiation = .startOp op) :
    ({ s.startOp op with initiation := .idle } : State).owners = s.owners := by
  have hlive : ({ s.startOp op with initiation := .idle } : State).liveConn =
      s.liveConn + op.isConn.toNat := State.liveConn_startOp s op
  rw [State.owners, hlive, State.owners, hi]
  simp only [InitPc.owns]
  cases op.isConn <;> simp [Nat.add_comm]

/-- An op that is posted owns nothing. -/
theorem State.owners_posted (hi : s.initiation = .post op) :
    ({ s with initiation := .idle, scheduled := s.scheduled ++ [op] } : State).owners =
      s.owners := by
  rw [State.owners, State.owners, hi]
  rfl

theorem Settled.mono (h : Settled cfg s op) (hc : s'.connectState = s.connectState)
    (ho : s'.owners = s.owners) : Settled cfg s' op := by
  intro hconn hab
  rcases h hconn hab with hcl | ⟨hz, hne⟩
  · exact .inl (hc.trans hcl)
  · exact .inr ⟨ho.trans hz, hc ▸ hne⟩

/-- A step of the initiation keeps the invariant. -/
theorem Lockstep.initiates (h : Lockstep cfg s) {a : Answer} (hst : Initiates s a s') :
    Lockstep cfg s' := by
  have hinit := h.init
  cases hst with
  | guardRejected op hi hs =>
    refine h.frame rfl rfl rfl rfl (by rw [hi]; rfl) (List.Subset.refl _) h.callers ?_
    exact settled_of_not_aborted isAborted_guard
  | guardPassed op hi hs =>
    rw [hi] at hinit
    obtain ⟨hconn, hstage, -⟩ := hinit
    have hlive := h.liveConn_of_idle hs
    obtain ⟨sl, hsl⟩ := s.armCmCancellation_frame { op with admitted := true }
    rw [hsl]
    cases hk : op.kind with
    | connect =>
      refine h.frame rfl rfl rfl rfl (by rw [hi]; rfl) (List.Subset.refl _) h.callers ?_
      exact ⟨rfl, hstage, .inl hs, hlive⟩
    | accept =>
      refine h.frame rfl rfl rfl rfl (by rw [hi]; rfl) (List.Subset.refl _) h.callers ?_
      exact ⟨rfl, hstage, .inl hs, hlive⟩
    | wait => simp [CmOp.isConn, hk] at hconn
  | resolveAddrOk op hi =>
    rw [hi] at hinit
    obtain ⟨hk, hstage, hs, hlive⟩ := hinit
    refine h.frame rfl rfl rfl rfl (by rw [hi]; rfl) (List.subset_cons_self _ _) h.callers ?_
    exact ⟨isConn_of_connect hk, hstage, hs, hlive⟩
  | resolveAddrFailed op errno hi =>
    rw [hi] at hinit
    obtain ⟨hk, hstage, hs, hlive⟩ := hinit
    refine h.frame rfl rfl rfl rfl (by simp [hi, InitPc.owns, hk]) (List.subset_cons_self _ _)
      h.callers ?_
    refine ⟨isConn_of_connect hk, hlive, fun _ => hs, fun ha => ?_⟩
    cases hk.symm.trans ha
  | published op hi hs => exact h.published hi hs
  | publishLost op hi hs =>
    rw [hi] at hinit
    obtain ⟨-, -, hc, -⟩ := hinit
    refine h.frame rfl rfl rfl rfl (by rw [hi]; rfl) (List.Subset.refl _) h.callers ?_
    exact fun _ _ => .inl (hc.resolve_left hs)
  | createQpFailed op ec hi he =>
    rw [hi] at hinit
    obtain ⟨hk, hs, hlive, -⟩ := hinit
    refine h.frame rfl rfl rfl rfl (by simp [hi, InitPc.owns, hk]) (List.subset_cons_self _ _)
      h.callers ?_
    refine ⟨isConn_of_accept hk, hlive, fun hc => ?_, fun _ => hs⟩
    cases hk.symm.trans hc
  | createQpOk op ec hi he =>
    rw [hi] at hinit
    obtain ⟨hk, hs, hlive, hmem⟩ := hinit
    refine h.frame rfl rfl rfl rfl (by rw [hi]; rfl) (List.subset_cons_self _ _) h.callers ?_
    exact ⟨hk, hs, hlive, List.mem_cons_of_mem _ hmem⟩
  | acceptOk op hi =>
    rw [hi] at hinit
    obtain ⟨hk, hs, hlive, -⟩ := hinit
    refine h.frame rfl rfl rfl rfl ?_ (List.subset_cons_self _ _) h.callers ?_
    · simp [hi, InitPc.owns, CmOp.isConn, hk]
    · refine ⟨fun _ => ?_, fun _ => hlive⟩
      rcases hs with hs | hs
      · exact .inr (by simp [CmOp.waitsIn, hk, hs])
      · exact .inl hs
  | acceptFailed op errno hi =>
    rw [hi] at hinit
    obtain ⟨hk, hs, hlive, -⟩ := hinit
    refine h.frame rfl rfl rfl rfl (by simp [hi, InitPc.owns, hk]) (List.subset_cons_self _ _)
      h.callers ?_
    refine ⟨isConn_of_accept hk, hlive, fun hc => ?_, fun _ => hs⟩
    cases hk.symm.trans hc
  | storedClosed op hi =>
    rw [hi] at hinit
    obtain ⟨-, hlive, -⟩ := hinit
    refine ⟨fun _ _ => .inl rfl, ⟨fun o pc hop => ?_, fun o hop => ?_, fun o _ _ _ => .inl rfl⟩,
      h.live, fun i c _ => callerOk_of_closed c, fun hpos => ?_⟩
    · exact (h.ops.performing o pc hop).close (List.subset_cons_self _ _)
    · exact AtPc.close (List.subset_cons_self _ _) (h.ops.queued o hop)
    · have h0 : (0 : Nat) + s.liveConn = 0 := by omega
      exact absurd hpos (by rw [State.owners, InitPc.owns]; exact Nat.not_lt.2 (Nat.le_of_eq h0))
  | posted op hi =>
    rw [hi] at hinit
    have howners := State.owners_posted hi
    refine ⟨trivial, ⟨h.ops.performing, h.ops.queued, fun o hop => ?_⟩, h.live, h.callers, ?_⟩
    · simp only [State.retired, ← List.append_assoc] at hop
      rcases List.mem_append.1 hop with hop | hop
      · exact (h.ops.retired o hop).mono rfl howners
      · obtain rfl := List.mem_singleton.1 hop
        exact Settled.mono hinit rfl howners
    · rw [howners]
      exact h.claimed
  | started op hi hr =>
    rw [hi] at hinit
    obtain ⟨hawaits, hlive⟩ := hinit
    have howners := State.owners_started hi
    have hstart := h.ops.startOp hawaits
    refine ⟨trivial, ⟨hstart.performing, hstart.queued, fun o hop =>
      (h.ops.retired o hop).mono rfl howners⟩, ?_, h.callers, ?_⟩
    · show (s.startOp op).liveConn ≤ 1
      rw [State.liveConn_startOp]
      by_cases hconn : op.isConn = true
      · rw [hlive hconn, hconn]
        exact Nat.le_refl 1
      · rw [Bool.not_eq_true] at hconn
        rw [hconn]
        exact h.live
    · rw [howners]
      exact h.claimed
  | latchSet op hi hp =>
    refine h.frame rfl rfl rfl rfl (by rw [hi]; rfl) (List.Subset.refl _) h.callers ?_
    exact settled_of_not_aborted isAborted_guard
  | latchClear op hi hp =>
    rw [hi] at hinit
    exact h.frame rfl rfl rfl rfl (by rw [hi]; rfl) (List.Subset.refl _) h.callers hinit
  | waitClosed op hi hs =>
    refine h.frame rfl rfl rfl rfl (by rw [hi]; rfl) (List.Subset.refl _) h.callers ?_
    exact settled_of_not_aborted isAborted_guard
  | waitOpen op hi hs =>
    rw [hi] at hinit
    have hk : op.kind = .wait := hinit
    have hconn : op.isConn = false := isConn_eq_false.2 hk
    obtain ⟨sl, hsl⟩ := s.armCmCancellation_frame op
    rw [hsl]
    refine h.frame rfl rfl rfl rfl (by simp [hi, InitPc.owns, hconn]) (List.Subset.refl _)
      h.callers ?_
    exact ⟨Awaits.of_wait hk, fun hc => by simp [hconn] at hc⟩

/-! ## The reactor -/

theorem countP_kept_le (hkind : r.1.kind = op.kind) :
    (kept r).countP CmOp.isConn ≤ if op.isConn then 1 else 0 := by
  obtain ⟨o, out⟩ := r
  have hconn : o.isConn = op.isConn := by simp only [CmOp.isConn, show o.kind = op.kind from hkind]
  cases out with
  | goto pc => simp [kept, List.countP_cons, hconn]
  | ret st => cases st <;> simp [kept, List.countP_cons, hconn]

/-- A piece of `do_perform` keeps the invariant: besides its own op it may close the connector on the
way out, or move `connect_state_` forward if it is the owner. -/
theorem Lockstep.proceed (h : Lockstep cfg s) (hr : s.reactor = .performing op pc)
    (hi : t.initiation = s.initiation) (hq : t.readQueue = s.readQueue)
    (hret : t.retired = s.retired) (hcal : t.callers = s.callers) (htr : s.trace ⊆ t.trace)
    (hkind : r.1.kind = op.kind)
    (hc : t.connectState = s.connectState ∨ t.connectState = .closed ∨
      op.isConn = true ∧ s.connectState ≠ .closed ∧ t.connectState ≠ .idle)
    (hcl : t.connectState = .closed →
      s.connectState = .closed ∨ r.2 = .ret .done ∧ op.isConn = true)
    (hfit : Fits (AtPc t.connectState t.trace) (fun _ => True) r) :
    Lockstep cfg (t.proceed r) := by
  have hlive := State.liveConn_performing hr
  have hlive' : (t.proceed r).liveConn =
      (kept r).countP CmOp.isConn + s.readQueue.countP CmOp.isConn := by
    rw [State.liveConn_proceed, hq]
  have hkept := countP_kept_le (r := r) hkind
  have hle : (t.proceed r).liveConn ≤ s.liveConn := by omega
  have hown : (t.proceed r).owners ≤ s.owners := by
    simp only [State.owners, State.initiation_proceed, hi]
    omega
  have hne : op.isConn = true → t.connectState ≠ .idle := by
    intro hconn
    have hs := (h.ops.performing op pc hr).ne_idle hconn
    rcases hc with hc | hc | hc
    · rwa [hc]
    · rw [hc]
      exact ConnectState.noConfusion
    · exact hc.2.2
  have hdone : r.2 = .ret .done → op.isConn = true → (t.proceed r).owners = 0 := by
    intro hd hconn
    obtain ⟨hq0, hi0, -⟩ := h.alone hr hconn
    obtain ⟨o, out⟩ := r
    obtain rfl : out = .ret .done := hd
    simp only [State.owners, State.initiation_proceed, hi, hlive', hi0, hq0, kept, List.countP_nil]
  have hover : s.Over → (t.proceed r).Over := by
    rintro (hs | ⟨hz, hs⟩)
    · refine .inl ?_
      rw [State.connectState_proceed]
      rcases hc with hc | hc | hc
      · rw [hc, hs]
      · exact hc
      · exact absurd hs hc.2.1
    · have hnc : op.isConn = false := h.isConn_of_owners hr hz
      rcases hc with hc | hc | hc
      · exact .inr ⟨by omega, by rwa [State.connectState_proceed, hc]⟩
      · exact .inl (by rwa [State.connectState_proceed])
      · simp [hnc] at hc
  refine ⟨?_, OpsOk.proceed ?_ ?_ ?_, ?_, ?_, ?_⟩
  · rw [State.initiation_proceed, hi]
    refine h.init.mono hover (fun h0 => ?_) hle (by rwa [State.trace_proceed])
    rw [State.connectState_proceed]
    rcases hc with hc | hc | hc
    · exact .inl hc
    · exact .inr hc
    · have := (h.alone hr hc.1).2.2
      omega
  · intro o ho
    rw [hq] at ho
    have haw : Awaits s.connectState o := h.ops.queued o ho
    rw [State.connectState_proceed, State.trace_proceed]
    rcases hc with hc | hc | hc
    · rw [hc]
      exact haw
    · rw [hc]
      exact haw.close
    · exact Awaits.of_wait (h.wait_of_queued hr hc.1 ho)
  · intro o ho hconn hab
    rw [hret] at ho
    exact hover (h.ops.retired o ho hconn hab)
  · rw [State.connectState_proceed, State.trace_proceed]
    obtain ⟨o, out⟩ := r
    have hsame : o.isConn = op.isConn := by
      simp only [CmOp.isConn, show o.kind = op.kind from hkind]
    cases out with
    | goto pc' => exact hfit
    | ret st =>
      cases st with
      | notDone => exact hfit
      | done =>
        intro hconn _
        rw [hsame] at hconn
        exact .inr ⟨hdone rfl hconn, by rw [State.connectState_proceed]; exact hne hconn⟩
  · have := h.live
    omega
  · intro i c hic
    rw [State.callers_proceed, hcal] at hic
    have hok := h.callers i c hic
    rw [State.connectState_proceed]
    rcases hc with hc | hc | hc
    · rwa [hc]
    · rw [hc]
      exact callerOk_of_closed c
    · cases c <;> first | trivial | exact absurd hok hc.2.1
  · intro hpos hcl'
    rw [State.connectState_proceed] at hcl'
    rw [State.trace_proceed]
    rcases hcl hcl' with hs | ⟨hd, hconn⟩
    · obtain ⟨i, hmem⟩ := h.claimed (by omega) hs
      exact ⟨i, htr hmem⟩
    · have := hdone hd hconn
      omega

theorem fits_claimRead {c e : ConnectState} {tr : List Action} (hconn : op.isConn = true)
    (hc : c.inFlight = true ∨ c = .closed) :
    Fits (AtPc c tr) (fun _ => True) (op.claimRead e) := by
  unfold CmOp.claimRead
  split_ifs
  · trivial
  · exact ⟨hconn, hc⟩

theorem Handles.kind {ev : CmEvent} (h : Handles op ev r) : r.1.kind = op.kind := by
  cases h <;> rfl

/-- An armed op that has read an event is in order, whatever the event. -/
theorem Handles.fits {c : ConnectState} {tr : List Action} {ev : CmEvent} (hr : Handles op ev r)
    (h : Awaits c op) : Fits (AtPc c tr) (fun _ => True) r := by
  have hwaits : op.isConn = true → ∀ c', op.waitsIn = some c' → c = c' ∨ c = .closed := by
    intro hconn c' hc'
    rcases h hconn with hc | hc
    · exact .inr hc
    · rw [hc'] at hc
      exact .inl (Option.some.inj hc).symm
  cases hr with
  | addrResolved hk hs he =>
    refine ⟨hk, hwaits (isConn_of_connect hk) _ ?_, .inl ⟨rfl, rfl⟩⟩
    simp [CmOp.waitsIn, hk, hs]
  | routeResolved hk hs he =>
    refine ⟨hk, hwaits (isConn_of_connect hk) _ ?_, .inr ⟨rfl, rfl⟩⟩
    simp [CmOp.waitsIn, hk, hs]
  | established hconn hs he =>
    refine ⟨hconn, hwaits hconn _ ?_⟩
    cases hk : op.kind with
    | connect => simp [CmOp.waitsIn, hk, hs hk]
    | accept => simp [CmOp.waitsIn, hk]
    | wait => simp [CmOp.isConn, hk] at hconn
  | failed e hconn herr hne =>
    exact ⟨hconn, (h hconn).symm.imp inFlight_of_waitsIn id⟩
  | noStage hk hs => trivial
  | peerClosed e hk he => exact hk
  | ignored hk hne hne' => exact Awaits.of_wait hk

/-- A step of `do_perform` keeps the invariant. -/
theorem Lockstep.performs (h : Lockstep cfg s) (hr : s.reactor = .performing op pc) {a : Answer}
    (hst : Performs s op pc a t r) : Lockstep cfg (t.proceed r) := by
  have hpc := h.ops.performing op pc hr
  cases hst with
  | readEvent ev rest hc =>
    have hev := Handles.of_onEvent op ev
    exact h.proceed hr rfl rfl rfl rfl (List.subset_cons_self _ _) hev.kind (.inl rfl) .inl
      (hev.fits hpc)
  | readAgain hc =>
    exact h.proceed hr rfl rfl rfl rfl (List.Subset.refl _) rfl (.inl rfl) .inl hpc
  | readHardError errno hne =>
    exact h.proceed hr rfl rfl rfl rfl (List.Subset.refl _) rfl (.inl rfl) .inl trivial
  | advanceWon expected desired hs =>
    obtain ⟨hk, -, hd⟩ := hpc
    have hconn := isConn_of_connect hk
    rcases hd with ⟨rfl, rfl⟩ | ⟨rfl, rfl⟩
    · refine h.proceed hr rfl rfl rfl rfl (List.subset_cons_self _ _) rfl (.inr (.inr ?_)) ?_ ?_
      · exact ⟨hconn, by simp [hs], ConnectState.noConfusion⟩
      · exact ConnectState.noConfusion
      · have hmem : Action.cas .connect .addrRoute ∈ .cas op.kind .addrRoute :: s.trace := by
          simp [hk]
        unfold CmOp.advanced
        simp only [if_true]
        split_ifs
        · exact ⟨hk, .inl rfl, hmem⟩
        · exact ⟨hk, .inl rfl, hmem⟩
    · refine h.proceed hr rfl rfl rfl rfl (List.subset_cons_self _ _) rfl (.inr (.inr ?_)) ?_ ?_
      · exact ⟨hconn, by simp [hs], ConnectState.noConfusion⟩
      · exact ConnectState.noConfusion
      · have hmem : Action.cas .connect .connecting ∈ .cas op.kind .connecting :: s.trace := by
          simp [hk]
        exact ⟨hk, .inl rfl, hmem⟩
  | advanceLost expected desired hs =>
    exact h.proceed hr rfl rfl rfl rfl (List.Subset.refl _) rfl (.inl rfl) .inl trivial
  | createQp ec =>
    obtain ⟨hk, hs, hmem⟩ := hpc
    have hconn := isConn_of_connect hk
    refine h.proceed hr rfl rfl rfl rfl (List.subset_cons_self _ _) ?_ (.inl rfl) .inl ?_
    · unfold CmOp.createdQp
      split_ifs <;> rfl
    · unfold CmOp.createdQp
      split_ifs
      · exact ⟨hconn, hs.imp (by intro hs; rw [State.connectState_log, hs]; rfl) id⟩
      · exact ⟨hk, hs, List.mem_cons_of_mem _ hmem⟩
  | resolveRoute res =>
    obtain ⟨hk, hs, hmem⟩ := hpc
    have hconn := isConn_of_connect hk
    cases res with
    | ok =>
      refine h.proceed hr rfl rfl rfl rfl (List.subset_cons_self _ _) rfl (.inl rfl) .inl ?_
      intro _
      rcases hs with hs | hs
      · exact .inr (by simp [CmOp.waitsIn, hk, hs])
      · exact .inl hs
    | fail errno =>
      refine h.proceed hr rfl rfl rfl rfl (List.subset_cons_self _ _) rfl (.inl rfl) .inl ?_
      exact ⟨hconn, hs.imp (by intro hs; rw [State.connectState_log, hs]; rfl) id⟩
  | connect res =>
    obtain ⟨hk, hs, hmem⟩ := hpc
    have hconn := isConn_of_connect hk
    cases res with
    | ok =>
      refine h.proceed hr rfl rfl rfl rfl (List.subset_cons_self _ _) rfl (.inl rfl) .inl ?_
      intro _
      rcases hs with hs | hs
      · exact .inr (by simp [CmOp.waitsIn, hk, hs])
      · exact .inl hs
    | fail errno =>
      refine h.proceed hr rfl rfl rfl rfl (List.subset_cons_self _ _) rfl (.inl rfl) .inl ?_
      exact ⟨hconn, hs.imp (by intro hs; rw [State.connectState_log, hs]; rfl) id⟩
  | establishedWon ev hs =>
    obtain ⟨hconn, -⟩ := hpc
    refine h.proceed hr rfl rfl rfl rfl (List.subset_cons_self _ _) ?_ (.inr (.inr ?_)) ?_ ?_
    · exact (op.takeReply_fixed ev).1
    · exact ⟨hconn, by simp [hs], ConnectState.noConfusion⟩
    · exact ConnectState.noConfusion
    · refine ⟨?_, .inl rfl⟩
      rwa [CmOp.isConn, (op.takeReply_fixed ev).1]
  | establishedLost ev hs =>
    obtain ⟨hconn, hc⟩ := hpc
    exact h.proceed hr rfl rfl rfl rfl (List.Subset.refl _) rfl (.inl rfl) .inl
      ⟨hconn, hc.resolve_left hs⟩
  | modifyQp rc =>
    exact h.proceed hr rfl rfl rfl rfl (List.Subset.refl _) rfl (.inl rfl) .inl trivial
  | disconnect res =>
    exact h.proceed hr rfl rfl rfl rfl (List.subset_cons_self _ _) rfl (.inl rfl) .inl trivial
  | claimLoad =>
    exact h.proceed hr rfl rfl rfl rfl (List.Subset.refl _) (op.claimRead_fixed _).1 (.inl rfl) .inl
      (fits_claimRead hpc.1 hpc.2)
  | claimWon e hs =>
    exact h.proceed hr rfl rfl rfl rfl (List.subset_cons_self _ _) rfl (.inr (.inl rfl))
      (fun _ => .inr ⟨rfl, hpc.1⟩) trivial
  | claimRetry e a ha =>
    exact h.proceed hr rfl rfl rfl rfl (List.Subset.refl _) (op.claimRead_fixed _).1 (.inl rfl) .inl
      (fits_claimRead hpc.1 hpc.2)
  | peerClosed =>
    exact h.proceed hr rfl rfl rfl rfl (List.Subset.refl _) rfl (.inl rfl) .inl trivial

/-- The `perform_io` loop starts with the op at the front of the queue. -/
theorem Lockstep.nextOp (h : Lockstep cfg s) (hr : s.reactor = .unlocked) :
    Lockstep cfg s.nextOp := by
  have hlive : s.nextOp.liveConn = s.liveConn := by
    rw [State.liveConn, State.armed_nextOp hr, State.liveConn]
  have howners : s.nextOp.owners = s.owners := by
    rw [State.owners, hlive, State.initiation_nextOp, State.owners]
  have hover : s.Over → s.nextOp.Over := by
    unfold State.Over
    rw [howners, State.connectState_nextOp]
    exact id
  refine ⟨?_, OpsOk.nextOp ⟨?_, ?_, ?_⟩, ?_, ?_, ?_⟩
  · rw [State.initiation_nextOp]
    refine h.init.mono hover (fun _ => .inl State.connectState_nextOp) (Nat.le_of_eq hlive) ?_
    rw [State.trace_nextOp]
    exact List.Subset.refl _
  · rw [State.connectState_nextOp, State.trace_nextOp]
    exact h.ops.performing
  · rw [State.connectState_nextOp, State.trace_nextOp]
    exact h.ops.queued
  · exact fun op hop hconn hab => hover (h.ops.retired op hop hconn hab)
  · rw [hlive]
    exact h.live
  · rw [State.connectState_nextOp, State.callers_nextOp]
    exact h.callers
  · rw [howners, State.connectState_nextOp, State.trace_nextOp]
    exact h.claimed

/-! ## Cancellation -/

/-- Taking ops off the queue of the unlocked reactor retires the owner, if it was among them. -/
theorem Lockstep.cancelWhere (h : Lockstep cfg s) (hr : s.reactor = .unlocked) (p : CmOp → Bool) :
    Lockstep cfg (s.cancelWhere p) := by
  have hsplit : (s.readQueue.filter p).countP CmOp.isConn + (s.cancelWhere p).liveConn =
      s.liveConn := State.countP_cancelWhere hr CmOp.isConn
  have hown : (s.cancelWhere p).owners ≤ s.owners := by
    simp only [State.owners, State.initiation_cancelWhere]
    omega
  have hover : s.Over → (s.cancelWhere p).Over := by
    rintro (hc | ⟨hz, hc⟩)
    · exact .inl hc
    · exact .inr ⟨by omega, hc⟩
  have hops : OpsOk (AtPc s.connectState s.trace) (Settled cfg (s.cancelWhere p)) s :=
    h.ops.mono (fun _ _ => id) fun op ho hconn hab => hover (ho hconn hab)
  refine ⟨h.init.mono hover (fun _ => .inl rfl) (by omega) (List.Subset.refl _),
    hops.cancelWhere ?_, ?_, h.callers, ?_⟩
  · intro op hop hp haw hconn _
    -- the owner itself is taken off, and it was the only one
    have hmem : 0 < (s.readQueue.filter p).countP CmOp.isConn :=
      List.countP_pos_iff.2 ⟨op, List.mem_filter.2 ⟨hop, hp⟩, hconn⟩
    have hl := h.live
    have hi0 : s.initiation.owns = 0 := by
      by_contra ho
      have := h.init.liveConn (by omega)
      omega
    refine .inr ⟨?_, AtPc.ne_idle haw hconn⟩
    simp only [State.owners, State.initiation_cancelWhere]
    omega
  · have := h.live
    omega
  · intro hpos hc
    exact h.claimed (by omega) hc

theorem Lockstep.cancelOps (h : Lockstep cfg s) (hr : s.reactor = .unlocked) :
    Lockstep cfg s.cancelOps := by
  rw [State.cancelOps_eq]
  exact h.cancelWhere hr _

/-! ## Every step -/

theorem callers_set {c : ConnectState} {ps : List DisconnectPc} {i : Nat} {p : DisconnectPc}
    (h : ∀ (j : Nat) (q : DisconnectPc), ps[j]? = some q → CallerOk c q) (hp : CallerOk c p) :
    ∀ (j : Nat) (q : DisconnectPc), (ps.set i p)[j]? = some q → CallerOk c q := by
  intro j q hq
  rw [List.getElem?_set] at hq
  split_ifs at hq
  · obtain rfl := Option.some.inj hq
    exact hp
  · exact h j q hq

/-- A step of a `disconnect()` call keeps the invariant. -/
theorem Lockstep.disconnects (h : Lockstep cfg s) {i : Nat} {a : Answer}
    (hst : Disconnects s i a s') : Lockstep cfg s' := by
  cases hst with
  | load hi =>
    exact h.quiet rfl rfl rfl rfl rfl (List.Subset.refl _)
      (callers_set h.callers (callerOk_casLoop _))
  | won old hi hs =>
    exact h.closing rfl rfl rfl rfl (List.subset_cons_self _ _) fun _ =>
      ⟨i, List.mem_cons_self⟩
  | retry old a hi ha =>
    exact h.quiet rfl rfl rfl rfl rfl (List.Subset.refl _)
      (callers_set h.callers (callerOk_casLoop _))
  | cancel old hi hr =>
    have hc : s.connectState = .closed := h.callers i _ hi
    refine (h.cancelOps hr).quiet rfl rfl rfl rfl rfl (List.Subset.refl _) ?_
    refine callers_set h.callers ?_
    rw [show s.cancelOps.connectState = .closed from hc]
    exact callerOk_of_closed _
  | native res hi =>
    have hc : s.connectState = .closed := h.callers i _ hi
    refine h.quiet rfl rfl rfl rfl rfl (List.subset_cons_self _ _) ?_
    exact callers_set h.callers (by rw [hc]; exact callerOk_of_closed _)

/-- Running a completion keeps the invariant: an aborted op closes an attempt that is over. -/
theorem Lockstep.complete (h : Lockstep cfg s) {i : Nat} (hop : s.scheduled[i]? = some op) :
    Lockstep cfg (completeOp cfg { s with scheduled := s.scheduled.eraseIdx i } op) := by
  have hmem : op ∈ s.retired := List.mem_append_right _ (List.mem_of_getElem? hop)
  have herase : Lockstep cfg { s with scheduled := s.scheduled.eraseIdx i } := by
    refine ⟨h.init.mono id (fun _ => .inl rfl) (Nat.le_refl _) (List.Subset.refl _),
      ⟨h.ops.performing, h.ops.queued, fun o ho => ?_⟩, h.live, h.callers, h.claimed⟩
    refine h.ops.retired o ?_
    rcases List.mem_append.1 ho with ho | ho
    · exact List.mem_append_left _ ho
    · exact List.mem_append_right _ (List.mem_of_mem_eraseIdx ho)
  unfold completeOp
  split_ifs with hab
  · have hcl : Lockstep cfg { ({ s with scheduled := s.scheduled.eraseIdx i } : State).log
        (.close .completion) with connectState := .closed } := by
      refine herase.closing rfl rfl rfl rfl (List.subset_cons_self _ _) fun hpos => ?_
      rcases h.ops.retired op hmem hab.1 hab.2 with hc | ⟨hz, -⟩
      · obtain ⟨j, hj⟩ := h.claimed hpos hc
        exact ⟨j, List.mem_cons_of_mem _ hj⟩
      · have : 0 < s.owners := hpos
        omega
    exact hcl.quiet rfl rfl rfl rfl rfl (List.subset_cons_self _ _) hcl.callers
  · exact herase.quiet rfl rfl rfl rfl rfl (List.subset_cons_self _ _) herase.callers

/-- Every step keeps the lockstep invariant. -/
theorem Lockstep.step {l : Label} (h : Lockstep cfg s) (hst : (connector cfg).step s l = some s') :
    Lockstep cfg s' := by
  cases Step.of_step hst with
  | event ev hl =>
    exact h.quiet rfl rfl rfl rfl rfl (List.subset_cons_self _ _) h.callers
  | beginConnect addr slot hasCreateQp requestSize replyCap hi hl =>
    exact h.guarded hi rfl rfl rfl (connectGuards_not_aborted _)
  | beginAccept addr slot hasCreateQp bindFails dataSize hi hl =>
    exact h.guarded hi rfl rfl rfl (acceptGuards_not_aborted _ _)
  | beginWait addr slot hi hl =>
    exact h.frame rfl rfl rfl rfl (by rw [hi]; rfl) (List.Subset.refl _) h.callers rfl
  | initiate a _ hin => exact h.initiates hin
  | performIo he hr hl =>
    have hedge : Lockstep cfg s.takeEdge :=
      h.quiet rfl rfl rfl rfl rfl (List.Subset.refl _) h.callers
    exact hedge.nextOp hr
  | perform op pc a t r hr hp => exact h.performs hr hp
  | complete i op hop => exact h.complete hop
  | enterDisconnect hl =>
    refine h.quiet rfl rfl rfl rfl rfl (List.Subset.refl _) fun i c hic => ?_
    rw [List.getElem?_append] at hic
    split_ifs at hic
    · exact h.callers i c hic
    · obtain rfl := List.mem_singleton.1 (List.mem_of_getElem? hic)
      trivial
  | disconnectStep i a _ hd => exact h.disconnects hd
  | emit key hk hr hl => exact h.cancelWhere hr _
  | closeForDestruction hl hi hr hc =>
    exact (h.cancelOps hr).quiet rfl rfl rfl rfl rfl (List.Subset.refl _) h.callers
  | drainEstablished ev rest hl hc he =>
    refine h.quiet rfl rfl rfl rfl rfl ?_ h.callers
    exact List.Subset.trans (List.subset_cons_self _ _) (List.subset_cons_self _ _)
  | drainOther ev rest hl hc he =>
    exact h.quiet rfl rfl rfl rfl rfl (List.subset_cons_self _ _) h.callers
  | drainEnd hl hc => exact h.quiet rfl rfl rfl rfl rfl (List.Subset.refl _) h.callers
  | drainHardError errno hl => exact h.quiet rfl rfl rfl rfl rfl (List.Subset.refl _) h.callers

/-- A fresh connector satisfies the invariant. -/
theorem Lockstep.fresh : Lockstep cfg {} := by
  refine ⟨trivial, ⟨fun op pc hop => ?_, fun op hop => ?_, fun op hop => ?_⟩, ?_, ?_, ?_⟩
  · cases hop
  · cases hop
  · cases hop
  · exact Nat.zero_le 1
  · intro i c hic
    cases hic
  · intro hpos
    cases hpos

/-- The lockstep invariant holds after every run. -/
theorem Lockstep.run {ls : List Label} (hr : (connector cfg).run {} ls = some s) : Lockstep cfg s :=
  StepSystem.invariant (fun _ _ _ h hst => h.step hst) hr .fresh

end RdmaOnAsio.Ibv
