import RdmaOnAsio.Ibv.Proofs.Teardown

/-!
# The disconnect watcher and the local teardown

Once a connector is connected, the guard of `connect_state_` rejects every further connect or accept,
so only watchers are armed, besides the op that established and has its `modify_qp` left. None of them
writes `connect_state_`, however they end. The next `disconnect()` call finds `connected` and tears the
connection down, once.
-/

namespace RdmaOnAsio.Ibv

open ErrorCode

/-- Armed are watchers, and the connect or accept op whose `modify_qp` is left. -/
def OnlookerAt (op : CmOp) (pc : PerformPc) : Prop :=
  op.kind = .wait ∧ (pc = .getCmEvent ∨ pc = .storePeerClosed) ∨ op.isConn = true ∧ pc = .modifyQp

/-- The completion of `op` does not store `closed`. -/
def Harmless (cfg : Config) (op : CmOp) : Prop := op.abortedConn cfg = false

/-- The initiating thread arms at most a watcher. -/
def InitPc.Onlooks (cfg : Config) : InitPc → Prop
  | .idle | .guardState _ => True
  | .waitLatch op | .waitState op | .startOp op => op.kind = .wait
  | .post op => Harmless cfg op
  | .resolveAddr _ | .publish _ | .createQp _ | .accept _ | .storeClosed _ => False

/-- The attempt is decided, and nothing is armed that drives `connect_state_`; finished ops satisfy
`R`. -/
structure Onlooking (cfg : Config) (R : CmOp → Prop) (s : State) : Prop where
  left : s.connectState ≠ .idle
  init : s.initiation.Onlooks cfg
  ops : OpsOk OnlookerAt R s

/-- A step that leaves `connect_state_`, the `disconnect()` calls and the lifetime alone and calls no
`rdma_disconnect`. -/
structure Aside (s s' : State) : Prop where
  connectState : s'.connectState = s.connectState
  lifetime : s'.lifetime = s.lifetime
  callers : s'.callers = s.callers
  trace : ∃ w, s'.trace = w ++ s.trace ∧ ∀ a ∈ w, a.isDisconnect = false

/-- An established connector: open and connected, no `disconnect()` call has been made, and no finished
op is about to store `closed`. Watchers may be anywhere. -/
structure Established (cfg : Config) (s : State) : Prop where
  alive : s.lifetime = .alive
  connected : s.connectState = .connected
  callers : s.callers = []
  harmless : ∀ op ∈ s.retired, Harmless cfg op

/-- An open connector that was established, with any number of `disconnect()` calls. `n` counts what the
calls and `connect_state_` are worth, `base` is a state the run came through. -/
structure Watching (cfg : Config) (n : Nat) (base s : State) : Prop where
  alive : s.lifetime = .alive
  onlooking : Onlooking cfg (Harmless cfg) s
  callers : ∀ (i : Nat) (c : DisconnectPc), s.callers[i]? = some c → CallerOk s.connectState c
  tokens : s.connectState.token + s.tearing + s.disconnects = n
  actors : ∃ w, s.trace = w ++ base.trace ∧
    ∀ a ∈ w, a.isDisconnect = true → ∃ i < s.callers.length, a = .rdmaDisconnect (.caller i)
  quiet : s.callers = [] → s.connectState = .connected

/-- The step neither destroys the connector nor fails the op that is establishing with a code that
compares equal to `operation_aborted`; when that op has finished, `modify_qp` is not called any more. -/
def staysOpen : Label → Bool
  | .closeForDestruction => false
  | .perform (.modified rc) => rc != ecanceled
  | _ => true

variable {cfg : Config} {n : Nat} {base s t s' : State} {op : CmOp} {pc : PerformPc}
  {r : CmOp × Outcome} {R : CmOp → Prop}

/-! ## What is armed while connected -/

theorem harmless_of_guard {e : RdmaErrc} : Harmless cfg { op with ec := .rdma e } := by
  simp [Harmless, CmOp.abortedConn]

theorem harmless_of_wait (hk : op.kind = .wait) : Harmless cfg op := by
  simp [Harmless, CmOp.abortedConn, CmOp.isConn, hk]

theorem harmless_of_modified {rc : Int} (hrc : rc ≠ ecanceled) :
    Harmless cfg (op.modifiedQp rc).1 := by
  have hec : (op.modifiedQp rc).1.ec.isAborted cfg.aliased = false := by
    show (if rc ≠ 0 then makeSystemErrorCode rc else success).isAborted cfg.aliased = false
    split_ifs with h0
    · cases hal : cfg.aliased <;>
        simp [isAborted, makeSystemErrorCode, operationAborted, hrc]
    · exact isAborted_success _
  rw [Harmless, CmOp.abortedConn, hec, Bool.and_false]

theorem OnlookerAt.wait (h : OnlookerAt op .getCmEvent) : op.kind = .wait := by
  rcases h with ⟨hk, -⟩ | ⟨-, hpc⟩
  · exact hk
  · cases hpc

/-- A step aside keeps the decided attempt, given what it makes of the ops. -/
theorem Onlooking.aside (h : Onlooking cfg R s) (ha : Aside s s') (hi : s'.initiation.Onlooks cfg)
    (hops : OpsOk OnlookerAt R s') : Onlooking cfg R s' ∧ Aside s s' :=
  ⟨⟨by rw [ha.connectState]; exact h.left, hi, hops⟩, ha⟩

/-- The initiating thread steps aside. -/
theorem Onlooking.initiates (h : Onlooking cfg R s) (hR : ∀ op, Harmless cfg op → R op) {a : Answer}
    (hst : Initiates s a s') : Onlooking cfg R s' ∧ Aside s s' := by
  have hinit := h.init
  have hsame : OpsOk OnlookerAt R s := h.ops
  have hmove : ∀ (i : InitPc) (sl : List Nat), i.Onlooks cfg →
      Onlooking cfg R { s with initiation := i, slots := sl } ∧
        Aside s { s with initiation := i, slots := sl } := by
    intro i sl hi
    exact h.aside ⟨rfl, rfl, rfl, [], rfl, by simp⟩ hi
      ⟨hsame.performing, hsame.queued, hsame.retired⟩
  cases hst with
  | guardRejected op hi hs => exact hmove _ _ harmless_of_guard
  | guardPassed op hi hs => exact absurd hs h.left
  | posted op hi =>
    rw [hi] at hinit
    refine h.aside ⟨rfl, rfl, rfl, [], rfl, by simp⟩ trivial
      ⟨hsame.performing, hsame.queued, fun o ho => ?_⟩
    simp only [State.retired, ← List.append_assoc] at ho
    rcases List.mem_append.1 ho with ho | ho
    · exact hsame.retired o ho
    · obtain rfl := List.mem_singleton.1 ho
      exact hR o hinit
  | started op hi hr =>
    rw [hi] at hinit
    have hops := hsame.startOp (.inl ⟨hinit, .inl rfl⟩)
    exact h.aside ⟨rfl, rfl, rfl, [], rfl, by simp⟩ trivial
      ⟨hops.performing, hops.queued, hops.retired⟩
  | latchSet op hi hp => exact hmove _ _ harmless_of_guard
  | latchClear op hi hp =>
    rw [hi] at hinit
    exact hmove _ _ hinit
  | waitClosed op hi hs => exact hmove _ _ harmless_of_guard
  | waitOpen op hi hs =>
    rw [hi] at hinit
    obtain ⟨sl, hsl⟩ := s.armCmCancellation_frame op
    rw [hsl]
    exact hmove _ sl hinit
  | resolveAddrOk op hi => rw [hi] at hinit; exact hinit.elim
  | resolveAddrFailed op errno hi => rw [hi] at hinit; exact hinit.elim
  | published op hi hs => exact absurd hs h.left
  | publishLost op hi hs => rw [hi] at hinit; exact hinit.elim
  | createQpFailed op ec hi he => rw [hi] at hinit; exact hinit.elim
  | createQpOk op ec hi he => rw [hi] at hinit; exact hinit.elim
  | acceptOk op hi => rw [hi] at hinit; exact hinit.elim
  | acceptFailed op errno hi => rw [hi] at hinit; exact hinit.elim
  | storedClosed op hi => rw [hi] at hinit; exact hinit.elim

/-- A watcher that has read an event stays armed, or goes on to set the peer-closed latch. -/
theorem Handles.onlooker {ev : CmEvent} (h : Handles op ev r) (hk : op.kind = .wait) :
    Fits OnlookerAt R r := by
  cases h with
  | peerClosed e hk' he => exact .inl ⟨hk, .inr rfl⟩
  | ignored hk' hne hne' => exact .inl ⟨hk, .inl rfl⟩
  | addrResolved hk' hs he => cases hk.symm.trans hk'
  | routeResolved hk' hs he => cases hk.symm.trans hk'
  | established hconn hs he => exact absurd hk (kind_ne_wait_of_isConn hconn)
  | failed e hconn herr hne => exact absurd hk (kind_ne_wait_of_isConn hconn)
  | noStage hk' hs => cases hk.symm.trans hk'

/-- A `do_perform` steps aside, a hard error of `get_cm_event` included. -/
theorem Onlooking.performs (h : Onlooking cfg R s) (hR : ∀ op, Harmless cfg op → R op)
    (hr : s.reactor = .performing op pc) {a : Answer}
    (hmod : ∀ rc, a = .modified rc → R (op.modifiedQp rc).1) (hst : Performs s op pc a t r) :
    Onlooking cfg R (t.proceed r) ∧ Aside s (t.proceed r) := by
  have hpc := h.ops.performing op pc hr
  have hgo : ∀ {ch : List CmEvent} {b : Nat} {p : Bool} {w : List Action},
      t = { s with channel := ch, backlog := b, peerClosed := p, trace := w ++ s.trace } →
      (∀ a ∈ w, a.isDisconnect = false) → Fits OnlookerAt R r →
      Onlooking cfg R (t.proceed r) ∧ Aside s (t.proceed r) := by
    rintro ch b p w rfl hw hfit
    refine h.aside ⟨?_, ?_, ?_, w, ?_, hw⟩ ?_ (OpsOk.proceed h.ops.queued h.ops.retired hfit)
    · rw [State.connectState_proceed]
    · rw [State.lifetime_proceed]
    · rw [State.callers_proceed]
    · rw [State.trace_proceed]
    · rw [State.initiation_proceed]
      exact h.init
  have hread : pc = .getCmEvent → op.kind = .wait := by
    rintro rfl
    exact OnlookerAt.wait hpc
  have hnot : pc ≠ .getCmEvent → pc ≠ .storePeerClosed → pc ≠ .modifyQp → False := by
    rintro h1 h2 h3
    rcases hpc with ⟨-, hpc | hpc⟩ | ⟨-, hpc⟩
    · exact h1 hpc
    · exact h2 hpc
    · exact h3 hpc
  cases hst with
  | readEvent ev rest hc =>
    exact hgo (w := [.read (.op op.kind) ev]) rfl (by simp [Action.isDisconnect])
      ((Handles.of_onEvent op ev).onlooker (hread rfl))
  | readAgain hc => exact hgo (w := []) rfl (by simp) (.inl ⟨hread rfl, .inl rfl⟩)
  | readHardError errno hne =>
    exact hgo (w := []) rfl (by simp) (hR _ (harmless_of_wait (hread rfl)))
  | peerClosed =>
    refine hgo (w := []) rfl (by simp) (hR _ (harmless_of_wait ?_))
    rcases hpc with ⟨hk, -⟩ | ⟨-, hpc⟩
    · exact hk
    · cases hpc
  | modifyQp rc => exact hgo (w := []) rfl (by simp) (hmod rc rfl)
  | _ => exact (hnot PerformPc.noConfusion PerformPc.noConfusion PerformPc.noConfusion).elim

theorem Onlooking.cancelWhere (h : Onlooking cfg R s) (hR : ∀ op, Harmless cfg op → R op)
    (p : CmOp → Bool) : Onlooking cfg R (s.cancelWhere p) ∧ Aside s (s.cancelWhere p) :=
  h.aside ⟨rfl, rfl, rfl, [], rfl, by simp⟩ h.init <|
    h.ops.cancelWhere fun o _ _ ha => hR _ (harmless_of_wait (OnlookerAt.wait ha))

/-- Once the attempt is decided it stays so. Only `disconnect()` calls, completions of aborted ops and
the destruction do not step aside. -/
theorem Onlooking.step {l : Label} (h : Onlooking cfg R s) (hR : ∀ op, Harmless cfg op → R op)
    (hmod : ∀ (op : CmOp) (rc : Int), l = .perform (.modified rc) → R (op.modifiedQp rc).1)
    (hst : (connector cfg).step s l = some s') :
    Onlooking cfg R s' ∧
      (Aside s s' ∨ l = .disconnect ∨ (∃ i a, l = .disconnectStep i a) ∨
        (∃ op ∈ s.retired, op.abortedConn cfg = true) ∨ s.lifetime = .draining ∨
        l = .closeForDestruction) := by
  have hsame : OpsOk OnlookerAt R s := h.ops
  have hside : ∀ {P : Prop}, Onlooking cfg R s' ∧ Aside s s' →
      Onlooking cfg R s' ∧ (Aside s s' ∨ P) := And.imp id .inl
  cases Step.of_step hst with
  | event ev hlt =>
    exact hside (h.aside ⟨rfl, rfl, rfl, [.delivered ev], rfl, by simp [Action.isDisconnect]⟩ h.init
      ⟨hsame.performing, hsame.queued, hsame.retired⟩)
  | beginConnect addr slot hasCreateQp requestSize replyCap hi hlt =>
    refine hside (h.aside ⟨rfl, rfl, rfl, [], rfl, by simp⟩ ?_
      ⟨hsame.performing, hsame.queued, hsame.retired⟩)
    simp only [State.guarded, connectGuards]
    split_ifs <;> first | trivial | exact harmless_of_guard
  | beginAccept addr slot hasCreateQp bindFails dataSize hi hlt =>
    refine hside (h.aside ⟨rfl, rfl, rfl, [], rfl, by simp⟩ ?_
      ⟨hsame.performing, hsame.queued, hsame.retired⟩)
    simp only [State.guarded, acceptGuards]
    split_ifs <;> first | trivial | exact harmless_of_guard
  | beginWait addr slot hi hlt =>
    exact hside (h.aside ⟨rfl, rfl, rfl, [], rfl, by simp⟩ rfl
      ⟨hsame.performing, hsame.queued, hsame.retired⟩)
  | initiate a _ hin => exact hside (h.initiates hR hin)
  | performIo he hr hlt =>
    have hedge : OpsOk OnlookerAt R s.takeEdge :=
      ⟨hsame.performing, hsame.queued, hsame.retired⟩
    refine hside (h.aside ⟨State.connectState_nextOp, State.lifetime_nextOp, State.callers_nextOp, [],
      State.trace_nextOp, by simp⟩ ?_ hedge.nextOp)
    rw [State.initiation_nextOp]
    exact h.init
  | perform op pc a t r hr hp =>
    exact hside (h.performs hR hr (fun rc ha => hmod op rc (by rw [ha])) hp)
  | complete i op hop =>
    have hmem : op ∈ s.retired := List.mem_append_right _ (List.mem_of_getElem? hop)
    have hops : OpsOk OnlookerAt R { s with scheduled := s.scheduled.eraseIdx i } := by
      refine ⟨hsame.performing, hsame.queued, fun o ho => hsame.retired o ?_⟩
      rcases List.mem_append.1 ho with ho | ho
      · exact List.mem_append_left _ ho
      · exact List.mem_append_right _ (List.mem_of_mem_eraseIdx ho)
    unfold completeOp
    split_ifs with hab
    · refine ⟨⟨ConnectState.noConfusion, h.init, ⟨hops.performing, hops.queued, hops.retired⟩⟩, ?_⟩
      exact .inr (.inr (.inr (.inl ⟨op, hmem, by simpa [CmOp.abortedConn] using hab⟩)))
    · refine And.imp id .inl ?_
      exact h.aside ⟨rfl, rfl, rfl, [.invoked op s.connectState], rfl,
        by simp [Action.isDisconnect]⟩ h.init ⟨hops.performing, hops.queued, hops.retired⟩
  | enterDisconnect hlt =>
    exact ⟨⟨h.left, h.init, ⟨hsame.performing, hsame.queued, hsame.retired⟩⟩, .inr (.inl rfl)⟩
  | disconnectStep i a _ hd =>
    refine ⟨?_, .inr (.inr (.inl ⟨i, a, rfl⟩))⟩
    have hcancel : Onlooking cfg R s.cancelOps := by
      rw [State.cancelOps_eq]
      exact (h.cancelWhere hR _).1
    cases hd with
    | load hi => exact ⟨h.left, h.init, ⟨hsame.performing, hsame.queued, hsame.retired⟩⟩
    | retry c a hi ha => exact ⟨h.left, h.init, ⟨hsame.performing, hsame.queued, hsame.retired⟩⟩
    | won c hi hs =>
      exact ⟨ConnectState.noConfusion, h.init, ⟨hsame.performing, hsame.queued, hsame.retired⟩⟩
    | cancel c hi hr =>
      exact ⟨h.left, h.init,
        ⟨hcancel.ops.performing, hcancel.ops.queued, hcancel.ops.retired⟩⟩
    | native res hi => exact ⟨h.left, h.init, ⟨hsame.performing, hsame.queued, hsame.retired⟩⟩
  | emit key hk hr hlt => exact hside (h.cancelWhere hR _)
  | closeForDestruction hlt hi hr hc =>
    have hcancel : Onlooking cfg R s.cancelOps := by
      rw [State.cancelOps_eq]
      exact (h.cancelWhere hR _).1
    exact ⟨⟨h.left, h.init, ⟨hcancel.ops.performing, hcancel.ops.queued, hcancel.ops.retired⟩⟩,
      .inr (.inr (.inr (.inr (.inr rfl))))⟩
  | drainEstablished ev rest hlt hc he =>
    exact ⟨⟨h.left, h.init, ⟨hsame.performing, hsame.queued, hsame.retired⟩⟩,
      .inr (.inr (.inr (.inr (.inl hlt))))⟩
  | drainOther ev rest hlt hc he =>
    exact ⟨⟨h.left, h.init, ⟨hsame.performing, hsame.queued, hsame.retired⟩⟩,
      .inr (.inr (.inr (.inr (.inl hlt))))⟩
  | drainEnd hlt hc =>
    exact ⟨⟨h.left, h.init, ⟨hsame.performing, hsame.queued, hsame.retired⟩⟩,
      .inr (.inr (.inr (.inr (.inl hlt))))⟩
  | drainHardError errno hlt =>
    exact ⟨⟨h.left, h.init, ⟨hsame.performing, hsame.queued, hsame.retired⟩⟩,
      .inr (.inr (.inr (.inr (.inl hlt))))⟩

/-! ## How the attempt gets decided -/

/-- The exchange that establishes leaves nothing armed that drives `connect_state_` besides the op that
made it. -/
theorem Onlooking.of_established (hl : Lockstep cfg s) {ev : CmEvent}
    (hr : s.reactor = .performing op (.established ev)) (hs : s.connectState = .connecting) :
    Onlooking cfg (fun _ => True)
      ({ s.log (.cas op.kind .connected) with connectState := .connected }.proceed
        (op.arbitrated ev true)) := by
  have hconn : op.isConn = true := (hl.ops.performing op _ hr).1
  obtain ⟨hq, hown, hlive⟩ := hl.alone hr hconn
  have hne : s.connectState ≠ .idle ∧ s.connectState ≠ .closed := by
    rw [hs]
    exact ⟨ConnectState.noConfusion, ConnectState.noConfusion⟩
  have howners : 0 < s.owners := hl.owners_pos hr hconn
  refine ⟨?_, ?_, OpsOk.proceed (fun o ho => ?_) (fun _ _ => trivial) (.inr ⟨?_, rfl⟩)⟩
  · rw [State.connectState_proceed]
    exact ConnectState.noConfusion
  · rw [State.initiation_proceed]
    have hinit := hl.init
    show s.initiation.Onlooks cfg
    cases hi : s.initiation with
    | idle => trivial
    | guardState o => trivial
    | resolveAddr o =>
      rw [hi] at hinit
      exact hinit.2.2.1.elim hne.1 hne.2
    | publish o =>
      rw [hi] at hinit
      exact hinit.2.2.1.elim hne.1 hne.2
    | createQp o => rw [hi] at hown; cases hown
    | accept o => rw [hi] at hown; cases hown
    | storeClosed o =>
      rw [hi] at hinit
      have := hinit.2.1
      omega
    | startOp o =>
      rw [hi] at hinit
      show o.kind = .wait
      by_contra hk
      have := hinit.2 (by simpa [CmOp.isConn] using hk)
      omega
    | post o =>
      rw [hi] at hinit
      exact Settled.not_aborted hinit howners hne.2
    | waitLatch o => rw [hi] at hinit; exact hinit
    | waitState o => rw [hi] at hinit; exact hinit
  · refine .inl ⟨isConn_eq_false.1 ?_, .inl rfl⟩
    have := List.countP_eq_zero.1 hq o ho
    simpa using this
  · show (op.takeReply ev).isConn = true
    rwa [CmOp.isConn, (op.takeReply_fixed ev).1]

/-- Only the exchange of an op that has read `ESTABLISHED` leads to `connected`. -/
theorem Lockstep.connected_of_step {l : Label} (hl : Lockstep cfg s)
    (hst : (connector cfg).step s l = some s') (hc : s'.connectState = .connected) :
    s.connectState = .connected ∨ ∃ op ev, s.reactor = .performing op (.established ev) ∧
      s.connectState = .connecting ∧
      s' = ({ s.log (.cas op.kind .connected) with connectState := .connected }.proceed
        (op.arbitrated ev true)) := by
  cases Step.of_step hst with
  | initiate a _ hin =>
    cases hin with
    | guardPassed op hi hs =>
      obtain ⟨sl, hsl⟩ := s.armCmCancellation_frame { op with admitted := true }
      rw [hsl] at hc
      exact .inl hc
    | waitOpen op hi hs =>
      obtain ⟨sl, hsl⟩ := s.armCmCancellation_frame op
      rw [hsl] at hc
      exact .inl hc
    | published op hi hs =>
      have hkind : op.kind.initial = .connected := hc
      cases hk : op.kind <;> rw [hk] at hkind <;> cases hkind
    | storedClosed op hi => cases hc
    | _ => exact .inl hc
  | performIo he hr hlt =>
    rw [State.connectState_nextOp] at hc
    exact .inl hc
  | perform op pc a t r hr hp =>
    rw [State.connectState_proceed] at hc
    cases hp with
    | advanceWon e d hs =>
      obtain ⟨-, -, ⟨-, hd⟩ | ⟨-, hd⟩⟩ := hl.ops.performing op _ hr
      · cases hd.symm.trans hc
      · cases hd.symm.trans hc
    | establishedWon ev hs => exact .inr ⟨op, ev, hr, hs, rfl⟩
    | claimWon e hs => cases hc
    | _ => exact .inl hc
  | complete i op hop =>
    unfold completeOp at hc
    split_ifs at hc
    · cases hc
    · exact .inl hc
  | disconnectStep i a _ hd =>
    cases hd with
    | won c hi hs => cases hc
    | _ => exact .inl hc
  | _ => exact .inl hc

/-- In every reachable state the attempt is decided once `connect_state_` is connected. -/
theorem Onlooking.of_run {ls : List Label} (hr : (connector cfg).run {} ls = some s)
    (hc : s.connectState = .connected) : Onlooking cfg (fun _ => True) s := by
  have hinv := StepSystem.invariant (M := connector cfg)
    (I := fun t =>
      Lockstep cfg t ∧ (t.connectState = .connected → Onlooking cfg (fun _ => True) t)) ?_ hr
    ⟨.fresh, fun hc => by cases hc⟩
  · exact hinv.2 hc
  · rintro t l t' ⟨hl, ho⟩ hst
    refine ⟨hl.step hst, fun hc' => ?_⟩
    rcases hl.connected_of_step hst hc' with hc | ⟨op, ev, hr, hs, rfl⟩
    · exact ((ho hc).step (fun _ _ => trivial) (fun _ _ _ => trivial) hst).1
    · exact Onlooking.of_established hl hr hs

/-! ## The local teardown -/

theorem Established.watching {ls : List Label} (h : Established cfg s)
    (hr : (connector cfg).run {} ls = some s) :
    Watching cfg (s.disconnects + 1) s s := by
  have ho := Onlooking.of_run hr h.connected
  refine ⟨h.alive, ⟨ho.left, ho.init, ⟨ho.ops.performing, ho.ops.queued, h.harmless⟩⟩, ?_, ?_,
    ⟨[], rfl, by simp⟩, fun _ => h.connected⟩
  · intro i c hic
    rw [h.callers] at hic
    cases hic
  · rw [h.connected, State.tearing, h.callers]
    show 1 + 0 + s.disconnects = s.disconnects + 1
    omega

/-- The count restarts wherever the run has got to. -/
theorem Watching.rebase (h : Watching cfg n base s) : Watching cfg n s s :=
  ⟨h.alive, h.onlooking, h.callers, h.tokens, ⟨[], rfl, by simp⟩, h.quiet⟩

theorem State.disconnects_append {w : List Action} (htr : s'.trace = w ++ s.trace)
    (hw : ∀ a ∈ w, a.isDisconnect = false) : s'.disconnects = s.disconnects := by
  have hz : w.countP Action.isDisconnect = 0 := by
    rw [List.countP_eq_zero]
    intro a ha
    simp [hw a ha]
  rw [State.disconnects, htr, List.countP_append, hz, Nat.zero_add, State.disconnects]

/-- A step aside keeps the count. -/
theorem Watching.aside (h : Watching cfg n base s) (ha : Aside s s')
    (ho : Onlooking cfg (Harmless cfg) s') : Watching cfg n base s' := by
  obtain ⟨hc, hlt, hcal, w, htr, hw⟩ := ha
  obtain ⟨old, hold, hact⟩ := h.actors
  refine ⟨hlt.trans h.alive, ho, by rw [hc, hcal]; exact h.callers, ?_,
    ⟨w ++ old, by rw [htr, hold, List.append_assoc], fun a ha hd => ?_⟩, ?_⟩
  · rw [hc, State.disconnects_append htr hw, State.tearing, hcal]
    exact h.tokens
  · rcases List.mem_append.1 ha with ha | ha
    · rw [hw a ha] at hd
      cases hd
    · rw [hcal]
      exact hact a ha hd
  · rw [hc, hcal]
    exact h.quiet

/-- A call that has been entered counts for nothing yet. -/
theorem Watching.enters (h : Watching cfg n base s)
    (ho : Onlooking cfg (Harmless cfg) { s with callers := s.callers ++ [.load] }) :
    Watching cfg n base { s with callers := s.callers ++ [.load] } := by
  obtain ⟨old, hold, hact⟩ := h.actors
  refine ⟨h.alive, ho, fun i c hic => ?_, ?_, ⟨old, hold, fun a ha hd => ?_⟩, fun hnil => ?_⟩
  · rw [List.getElem?_append] at hic
    split_ifs at hic
    · exact h.callers i c hic
    · obtain rfl := List.mem_singleton.1 (List.mem_of_getElem? hic)
      trivial
  · have hten : (s.callers ++ [DisconnectPc.load]).countP DisconnectPc.tearing = s.tearing := by
      rw [List.countP_append]
      rfl
    rw [State.tearing, hten]
    exact h.tokens
  · obtain ⟨i, hi, rfl⟩ := hact a ha hd
    exact ⟨i, by rw [List.length_append]; omega, rfl⟩
  · simp at hnil

/-- A step of a `disconnect()` call hands the count on, and is the only one that tears down. -/
theorem Watching.disconnects (h : Watching cfg n base s) {i : Nat} {a : Answer}
    (hst : Disconnects s i a s') (ho : Onlooking cfg (Harmless cfg) s') :
    Watching cfg n base s' := by
  have htok := hst.tokens.trans h.tokens
  have hlen : s'.callers.length = s.callers.length := by
    cases hst <;> exact List.length_set
  have hcal : s'.callers ≠ [] := by
    cases hst <;> exact set_ne_nil ‹_›
  obtain ⟨old, hold, hact⟩ := h.actors
  have hactors : ∀ {w : List Action}, s'.trace = w ++ s.trace →
      (∀ a ∈ w, a.isDisconnect = true → a = .rdmaDisconnect (.caller i)) →
      i < s.callers.length → ∃ w, s'.trace = w ++ base.trace ∧
        ∀ a ∈ w, a.isDisconnect = true → ∃ i < s'.callers.length, a = .rdmaDisconnect (.caller i) := by
    intro w htr hw hi
    refine ⟨w ++ old, by rw [htr, hold, List.append_assoc], fun a ha hd => ?_⟩
    rw [hlen]
    rcases List.mem_append.1 ha with ha | ha
    · exact ⟨i, hi, hw a ha hd⟩
    · exact hact a ha hd
  have hclosed : ∀ {c : DisconnectPc}, s.callers[i]? = some c → CallerOk s.connectState c :=
    fun hi => h.callers i _ hi
  have hlt : ∀ {c : DisconnectPc}, s.callers[i]? = some c → i < s.callers.length :=
    fun hi => (List.getElem?_eq_some_iff.1 hi).1
  cases hst with
  | load hi =>
    exact ⟨h.alive, ho, callers_set h.callers (callerOk_casLoop _), htok,
      hactors (w := []) rfl (by simp) (hlt hi), fun hnil => (hcal hnil).elim⟩
  | retry c a hi ha =>
    exact ⟨h.alive, ho, callers_set h.callers (callerOk_casLoop _), htok,
      hactors (w := []) rfl (by simp) (hlt hi), fun hnil => (hcal hnil).elim⟩
  | won c hi hs =>
    exact ⟨h.alive, ho, fun i c _ => callerOk_of_closed c, htok,
      hactors (w := [.close (.caller i)]) rfl (by simp [Action.isDisconnect]) (hlt hi),
      fun hnil => (hcal hnil).elim⟩
  | cancel c hi hr =>
    have hc : s.connectState = .closed := hclosed hi
    refine ⟨h.alive, ho, callers_set h.callers ?_, htok, hactors (w := []) rfl (by simp) (hlt hi),
      fun hnil => (hcal hnil).elim⟩
    show CallerOk s.connectState _
    rw [hc]
    exact callerOk_of_closed _
  | native res hi =>
    have hc : s.connectState = .closed := hclosed hi
    refine ⟨h.alive, ho, callers_set h.callers ?_, htok,
      hactors (w := [.rdmaDisconnect (.caller i)]) rfl (by simp) (hlt hi),
      fun hnil => (hcal hnil).elim⟩
    show CallerOk s.connectState _
    rw [hc]
    exact callerOk_of_closed _

/-- Every step that leaves the connector open keeps the count, and only a step of a `disconnect()` call
changes `connect_state_`. -/
theorem Watching.step {l : Label} (h : Watching cfg n base s) (hopen : staysOpen l = true)
    (hst : (connector cfg).step s l = some s') :
    Watching cfg n base s' ∧
      ((∃ i a, l = .disconnectStep i a) ∨ s'.connectState = s.connectState) := by
  have hmod : ∀ (op : CmOp) (rc : Int), l = .perform (.modified rc) →
      Harmless cfg (op.modifiedQp rc).1 := by
    rintro op rc rfl
    exact harmless_of_modified (by simpa [staysOpen] using hopen)
  obtain ⟨ho, hside⟩ := h.onlooking.step (fun _ => id) hmod hst
  rcases hside with ha | rfl | ⟨i, a, rfl⟩ | ⟨op, hop, hab⟩ | hlt | rfl
  · exact ⟨h.aside ha ho, .inr ha.connectState⟩
  · cases Step.of_step hst with
    | enterDisconnect hlt => exact ⟨h.enters ho, .inr rfl⟩
  · cases Step.of_step hst with
    | disconnectStep i a _ hd => exact ⟨h.disconnects hd ho, .inl ⟨i, a, rfl⟩⟩
  · have hharm : op.abortedConn cfg = false := h.onlooking.ops.retired op hop
    rw [hab] at hharm
    cases hharm
  · rw [h.alive] at hlt
    cases hlt
  · cases hopen

/-! ## Whole runs -/

theorem Watching.run {ls : List Label} (h : Watching cfg n base s)
    (hr : (connector cfg).run s ls = some s') (hopen : ∀ l ∈ ls, staysOpen l = true) :
    Watching cfg n base s' := by
  induction ls generalizing s with
  | nil =>
    obtain rfl : s = s' := by simpa using hr
    exact h
  | cons l ls ih =>
    obtain ⟨t, ht, hrest⟩ := StepSystem.run_cons.1 hr
    exact ih (h.step (hopen l List.mem_cons_self) ht).1 hrest
      fun l' hl' => hopen l' (List.mem_cons_of_mem _ hl')

/-- The number of `disconnect()` calls is the number of times the label was taken. -/
theorem callers_length_run {ls : List Label} (hr : (connector cfg).run s ls = some s') :
    s'.callers.length = s.callers.length + ls.count .disconnect := by
  induction ls generalizing s with
  | nil =>
    obtain rfl : s = s' := by simpa using hr
    rfl
  | cons l ls ih =>
    obtain ⟨t, ht, hrest⟩ := StepSystem.run_cons.1 hr
    rw [ih hrest]
    cases Step.of_step ht with
    | event ev hlt => simp
    | beginConnect addr slot hasCreateQp requestSize replyCap hi hlt => simp [State.guarded]
    | beginAccept addr slot hasCreateQp bindFails dataSize hi hlt => simp [State.guarded]
    | beginWait addr slot hi hlt => simp
    | initiate a _ hin =>
      cases hin with
      | guardPassed op hi hs =>
        obtain ⟨sl, hsl⟩ := s.armCmCancellation_frame { op with admitted := true }
        rw [hsl]
        simp
      | waitOpen op hi hs =>
        obtain ⟨sl, hsl⟩ := s.armCmCancellation_frame op
        rw [hsl]
        simp
      | started op hi hr => simp [State.startOp]
      | _ => simp
    | performIo he hr hlt => simp
    | perform op pc a t r hr hp => cases hp <;> simp
    | complete i op hop =>
      unfold completeOp
      split_ifs <;> simp
    | enterDisconnect hlt => simp; omega
    | disconnectStep i a _ hd => cases hd <;> simp
    | emit key hk hr hlt => simp [State.cancelOpsByKey]
    | closeForDestruction hlt hi hr hc => simp [State.cancelOps]
    | drainEstablished ev rest hlt hc he => simp
    | drainOther ev rest hlt hc he => simp
    | drainEnd hlt hc => simp
    | drainHardError errno hlt => simp

/-- Once some call has been made and all have returned, the count is spent on one `rdma_disconnect`. -/
theorem Watching.spent (h : Watching cfg n base s) (hcal : s.callers ≠ [])
    (hret : ∀ c ∈ s.callers, c = .returned) : s.disconnects = n := by
  obtain ⟨c, rest, hcs⟩ := List.exists_cons_of_ne_nil hcal
  have hclosed := h.callers 0 c (by rw [hcs]; rfl)
  rw [hret c (by rw [hcs]; exact List.mem_cons_self)] at hclosed
  have hten : s.tearing = 0 := by
    refine List.countP_eq_zero.2 fun c hc htc => ?_
    rw [hret c hc] at htc
    cases htc
  have htok := h.tokens
  rw [hten, show s.connectState = .closed from hclosed] at htok
  simpa [ConnectState.token] using htok

/-- The disconnect watcher never suppresses the local teardown: in every run from an established
connector that stays open, only steps of `disconnect()` calls change `connect_state_`, and once such
calls have been made and have returned, `rdma_disconnect` has been called once. If the first call
returns before any other is entered, it is the one that called it; the later ones do not. -/
theorem watcher_keeps_teardown {ls₀ : List Label} (hr₀ : (connector cfg).run {} ls₀ = some base)
    (hest : Established cfg base) :
    (∀ ls l s s', (connector cfg).run base ls = some s → (∀ l' ∈ ls ++ [l], staysOpen l' = true) →
      (connector cfg).step s l = some s' → (∀ i a, l ≠ .disconnectStep i a) →
      s'.connectState = s.connectState) ∧
    (∀ ls s, (connector cfg).run base ls = some s → (∀ l ∈ ls, staysOpen l = true) →
      s.callers ≠ [] → (∀ c ∈ s.callers, c = .returned) → s.disconnects = base.disconnects + 1) ∧
    (∀ ls₁ ls₂ ls₃ s₁ s₂ s₃, (connector cfg).run base ls₁ = some s₁ →
      (connector cfg).run s₁ (.disconnect :: ls₂) = some s₂ →
      (connector cfg).run s₂ ls₃ = some s₃ →
      (∀ l ∈ ls₁ ++ ls₂ ++ ls₃, staysOpen l = true) → .disconnect ∉ ls₁ → .disconnect ∉ ls₂ →
      (∀ c ∈ s₂.callers, c = .returned) →
      s₁.connectState = .connected ∧ s₁.disconnects = base.disconnects ∧
        (∃ w, s₂.trace = w ++ s₁.trace ∧
          w.filter Action.isDisconnect = [.rdmaDisconnect (.caller 0)]) ∧
        s₃.disconnects = s₂.disconnects) := by
  have hbase := hest.watching hr₀
  refine ⟨fun ls l s s' hr hopen hst hne => ?_, fun ls s hr hopen hcal hret => ?_, ?_⟩
  · have hs := hbase.run hr fun l' hl' => hopen l' (List.mem_append_left _ hl')
    rcases (hs.step (hopen l (by simp)) hst).2 with ⟨i, a, hl⟩ | hc
    · exact absurd hl (hne i a)
    · exact hc
  · exact (hbase.run hr hopen).spent hcal hret
  · intro ls₁ ls₂ ls₃ s₁ s₂ s₃ hr₁ hr₂ hr₃ hopen hnot₁ hnot₂ hret
    have h₁ := hbase.run hr₁ fun l hl => hopen l (by simp [hl])
    have h₂ := h₁.rebase.run hr₂ fun l hl => by
      rcases List.mem_cons.1 hl with rfl | hl
      · rfl
      · exact hopen l (by simp [hl])
    have h₃ := h₂.rebase.run hr₃ fun l hl => hopen l (by simp [hl])
    have hlen₁ := callers_length_run hr₁
    have hlen₂ := callers_length_run hr₂
    rw [List.count_eq_zero.2 hnot₁, hest.callers] at hlen₁
    rw [List.count_cons_self, List.count_eq_zero.2 hnot₂, hlen₁] at hlen₂
    have hone : s₂.callers.length = 1 := hlen₂
    have hnil : s₁.callers = [] := List.eq_nil_of_length_eq_zero hlen₁
    have hcon : s₁.connectState = .connected := h₁.quiet hnil
    have hdis₁ : s₁.disconnects = base.disconnects := by
      have htok := h₁.tokens
      rw [hcon, State.tearing, hnil] at htok
      simp only [ConnectState.token, List.countP_nil] at htok
      omega
    have hdis₂ := h₂.spent (by rw [← List.length_pos_iff]; omega) hret
    refine ⟨hcon, hdis₁, ?_, ?_⟩
    · obtain ⟨w, htr, hact⟩ := h₂.actors
      refine ⟨w, htr, ?_⟩
      have hcount : w.countP Action.isDisconnect = 1 := by
        rw [State.disconnects, htr, List.countP_append] at hdis₂
        rw [State.disconnects] at hdis₁
        omega
      rw [List.countP_eq_length_filter] at hcount
      obtain ⟨a, ha⟩ := List.length_eq_one_iff.1 hcount
      have hmem : a ∈ w.filter Action.isDisconnect := by rw [ha]; exact List.mem_singleton_self a
      obtain ⟨i, hi, rfl⟩ := hact a (List.mem_filter.1 hmem).1 (List.mem_filter.1 hmem).2
      obtain rfl : i = 0 := by
        omega
      exact ha
    · obtain ⟨w, htr, -⟩ := h₃.actors
      have hge : s₂.disconnects ≤ s₃.disconnects := by
        rw [State.disconnects, State.disconnects, htr, List.countP_append]
        omega
      have htok := h₃.tokens
      omega

/-- A watcher that the peer's `DISCONNECTED` completes, after an ignored event and a cancelled one. -/
def watchDisconnect : List Label :=
  [.asyncWaitDisconnect 2 true, .initiate .run, .initiate .run, .initiate .run, .emit 2, .complete 0,
    .asyncWaitDisconnect 3 true, .initiate .run, .initiate .run, .initiate .run,
    .event ⟨.addrChange, 0, []⟩, .performIo, .perform .event,
    .event ⟨.disconnected, 0, []⟩, .performIo, .perform .event, .perform .run, .complete 0]

/-- A `disconnect()` call that runs to its end. -/
def callDisconnect : List Label :=
  [.disconnectStep 0 .run, .disconnectStep 0 .run, .disconnectStep 0 .run,
    .disconnectStep 0 (.native .ok)]

/-- The first `disconnect()` call after them tears down, the second one finds `closed`. -/
theorem watcher_keeps_teardown_watchDisconnect :
    let base := (connector {}).after {} (armConnect ++ establishConnect)
    let s₁ := (connector {}).after base watchDisconnect
    let s₂ := (connector {}).after s₁ (.disconnect :: callDisconnect)
    let s₃ := (connector {}).after s₂ [.disconnect, .disconnectStep 1 .run]
    s₁.peerClosed = true ∧ s₁.connectState = .connected ∧ s₂.disconnects = base.disconnects + 1 ∧
      s₃.disconnects = s₂.disconnects := by
  intro base s₁ s₂ s₃
  have hr : ((connector {}).run {} (armConnect ++ establishConnect)).isSome = true := by
    decide +kernel
  have h := watcher_keeps_teardown (StepSystem.run_after hr)
    ⟨by decide +kernel, by decide +kernel, by decide +kernel,
      by unfold Harmless; decide +kernel⟩
  have hseq := h.2.2 watchDisconnect callDisconnect [.disconnect, .disconnectStep 1 .run] s₁ s₂ s₃
    (StepSystem.run_after (by decide +kernel)) (StepSystem.run_after (by decide +kernel))
    (StepSystem.run_after (by decide +kernel)) (by decide) (by decide) (by decide)
    (by decide +kernel)
  have hcon := h.2.1 (watchDisconnect ++ .disconnect :: callDisconnect) s₂
    (StepSystem.run_append.2 ⟨s₁, StepSystem.run_after (by decide +kernel),
      StepSystem.run_after (by decide +kernel)⟩) (by decide) (by decide +kernel) (by decide +kernel)
  exact ⟨by decide +kernel, hseq.1, hcon, hseq.2.2.2⟩

end RdmaOnAsio.Ibv
