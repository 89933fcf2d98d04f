import RdmaOnAsio.Ibv.Proofs.SingleShot

/-!
# An in-flight state is backed by an op

How a `do_perform` ends for a connect or accept op, and what follows for the connector: while
`connect_state_` shows an attempt in flight, an op owns the attempt, or one that was aborted is on its
way to store `closed`.
-/

namespace RdmaOnAsio.Ibv

open ErrorCode

namespace State

/-- The reactor is performing a connect or accept op. -/
def performsConn (s : State) : Bool :=
  match s.reactor with
  | .performing op _ => op.isConn
  | .unlocked => false

end State

/-- The code `modify_qp` returns for `rc`. -/
def modifyQpCode (rc : Int) : ErrorCode := if rc ≠ 0 then makeSystemErrorCode rc else success

/-- A hard error of `get_cm_event` hits a connect or accept op only with a code that compares equal to
`operation_aborted`, or when `connect_state_` is closed already. -/
def hardErrorCloses (cfg : Config) (s : State) : Label → Bool
  | .perform (.hardError errno) =>
    !s.performsConn || (makeSystemErrorCode errno).isAborted cfg.aliased ||
      s.connectState == .closed
  | _ => true

/-- `op` is a connect or accept op that reports `operation_aborted`. -/
def CmOp.abortedConn (cfg : Config) (op : CmOp) : Bool := op.isConn && op.ec.isAborted cfg.aliased

/-- An in-flight state has its op behind it: an owner, or a finished op whose completion will close. -/
def Backed (cfg : Config) (s : State) : Prop :=
  s.connectState.inFlight = true →
    0 < s.owners ∨ ∃ op ∈ s.retired, op.abortedConn cfg = true

variable {cfg : Config} {s t s' : State} {op : CmOp} {pc : PerformPc} {r : CmOp × Outcome}

/-! ## How a `do_perform` ends -/

theorem claimRead_done {e : ConnectState} (hd : (op.claimRead e).2 = .ret .done) :
    (op.claimRead e).1.ec.isAborted cfg.aliased = true := by
  unfold CmOp.claimRead at hd ⊢
  split_ifs at hd ⊢
  simp [CmOp.abort]

/-- A connect or accept op is done after `closed` was written, or with `operation_aborted`, or after
the exchange that establishes the connection, with the code of `modify_qp`. -/
theorem Performs.finish (h : Lockstep cfg s) (hr : s.reactor = .performing op pc) {a : Answer}
    (hst : Performs s op pc a t r) (hok : hardErrorCloses cfg s (.perform a) = true)
    (hd : r.2 = .ret .done) (hconn : op.isConn = true) :
    t.connectState = .closed ∨ r.1.ec.isAborted cfg.aliased = true ∨
      ∃ rc, a = .modified rc ∧ r.1.ec = modifyQpCode rc ∧ t.connectState = s.connectState ∧
        t.connectState = .connected := by
  have hpc := h.ops.performing op pc hr
  cases hst with
  | readEvent ev rest hc =>
    have hh := Handles.of_onEvent op ev
    revert hh hd
    generalize op.onEvent ev = r
    rintro hd (_ | _ | _ | _ | ⟨hk, hs⟩ | _ | _)
    case noStage =>
      refine .inl ?_
      rcases hpc hconn with hcl | hw
      · exact hcl
      · rcases hs with hs | hs <;> simp [CmOp.waitsIn, hk, hs] at hw
    all_goals cases hd
  | readAgain hc => cases hd
  | readHardError errno hne =>
    have hperf : s.performsConn = true := by simp [State.performsConn, hr, hconn]
    simp only [hardErrorCloses, hperf, Bool.not_true, Bool.false_or, Bool.or_eq_true,
      beq_iff_eq] at hok
    rcases hok with hab | hcl
    · exact .inr (.inl hab)
    · exact .inl hcl
  | advanceWon expected desired hs =>
    unfold CmOp.advanced at hd
    split_ifs at hd
  | advanceLost expected desired hs =>
    exact .inr (.inl (by simp [CmOp.abortedByDisconnect, CmOp.abort]))
  | createQp ec =>
    unfold CmOp.createdQp at hd
    split_ifs at hd
    cases hd
  | resolveRoute res => cases res <;> cases hd
  | connect res => cases res <;> cases hd
  | establishedWon ev hs => cases hd
  | establishedLost ev hs => cases hd
  | modifyQp rc =>
    rcases hpc.2 with hs | hs
    · exact .inr (.inr ⟨rc, rfl, rfl, rfl, hs⟩)
    · exact .inl hs
  | disconnect res => exact .inr (.inl (by simp [CmOp.tornDown, CmOp.abort]))
  | claimLoad => exact .inr (.inl (claimRead_done hd))
  | claimWon e hs => exact .inl rfl
  | claimRetry e a ha => exact .inr (.inl (claimRead_done hd))
  | peerClosed => simp [CmOp.isConn, show op.kind = .wait from hpc] at hconn

/-- A piece of `do_perform` only ever closes `connect_state_` or moves it on, keeps the kind of the
op, and records no invocation. -/
theorem Performs.frame (h : Lockstep cfg s) (hr : s.reactor = .performing op pc) {a : Answer}
    (hst : Performs s op pc a t r) :
    t.retired = s.retired ∧ t.initiation = s.initiation ∧ t.readQueue = s.readQueue ∧
      r.1.kind = op.kind ∧ (op.isConn = false → t.connectState = s.connectState) ∧
      (s.connectState = .closed → t.connectState = .closed) ∧
      ∀ o st, .invoked o st ∈ t.trace → .invoked o st ∈ s.trace := by
  have hrank := Performs.rank_le h hr hst
  have hclosed : s.connectState = .closed → t.connectState = .closed :=
    fun hc => eq_closed_of_rank (hc ▸ hrank)
  have hpc := h.ops.performing op pc hr
  have hnot : ∀ {P : Prop}, op.isConn = true → op.isConn = false → P := by
    intro P h1 h2
    rw [h1] at h2
    cases h2
  refine ⟨?_, ?_, ?_, ?_, ?_, hclosed, ?_⟩
  · cases hst <;> rfl
  · cases hst <;> rfl
  · cases hst <;> rfl
  · exact hst.same.1
  · intro hw
    cases hst with
    | advanceWon expected desired hs => exact hnot (isConn_of_connect hpc.1) hw
    | establishedWon ev hs => exact hnot hpc.1 hw
    | claimWon e hs => exact hnot hpc.1 hw
    | _ => rfl
  · intro o st hmem
    cases hst <;> simpa using hmem

/-! ## Steps -/

theorem finished_done (hd : r.2 = .ret .done) : finished r = [r.1] := by
  obtain ⟨o, out⟩ := r
  obtain rfl : out = .ret .done := hd
  rfl

theorem eq_of_mem_finished {o : CmOp} (h : o ∈ finished r) : o = r.1 ∧ r.2 = .ret .done := by
  obtain ⟨o', out⟩ := r
  cases out with
  | goto pc' => cases h
  | ret st =>
    cases st with
    | notDone => cases h
    | done => exact ⟨List.mem_singleton.1 h, rfl⟩

theorem kept_not_done (hd : r.2 ≠ .ret .done) : kept r = [r.1] := by
  obtain ⟨o, out⟩ := r
  cases out with
  | goto pc' => rfl
  | ret st =>
    cases st with
    | notDone => rfl
    | done => exact absurd rfl hd

theorem State.mem_retired_proceed {o : CmOp} :
    o ∈ (t.proceed r).retired ↔ o ∈ t.retired ∨ o ∈ finished r := by
  rw [State.retired_proceed.mem_iff, List.mem_append]

/-- A step that leaves `connect_state_` alone keeps what backs it, if it keeps the owners and the
finished ops. -/
theorem Backed.quiet (h : Backed cfg s) (hc : s'.connectState = s.connectState)
    (ho : s'.owners = s.owners) (hret : s.retired ⊆ s'.retired) : Backed cfg s' := by
  intro hin
  rw [hc] at hin
  rcases h hin with hpos | ⟨o, hmem, hab⟩
  · exact .inl (by omega)
  · exact .inr ⟨o, hret hmem, hab⟩

theorem Backed.of_closed (hc : s.connectState = .closed) : Backed cfg s := by
  intro hin
  rw [hc] at hin
  cases hin

/-- A step of the initiation keeps the owners, closes the connector, or owns what it has published. -/
theorem Initiates.owners (hl : Lockstep cfg s) {a : Answer} (hst : Initiates s a s') :
    (s'.connectState = s.connectState ∧ s'.owners = s.owners ∧ s.retired ⊆ s'.retired) ∨
      s'.connectState = .closed ∨ s.connectState = .idle ∧ 0 < s'.owners := by
  have hlock := hl.init
  have hmove : ∀ {i : InitPc} {sl : List Nat} {tr : List Action}, i.owns = s.initiation.owns →
      ({ s with initiation := i, slots := sl, trace := tr } : State).owners = s.owners := by
    intro i sl tr ho
    rw [State.owners, ho]
    rfl
  cases hst with
  | guardRejected op hi hs => exact .inl ⟨rfl, hmove (by rw [hi]; rfl), List.Subset.refl _⟩
  | guardPassed op hi hs =>
    obtain ⟨sl, hsl⟩ := s.armCmCancellation_frame { op with admitted := true }
    rw [hsl]
    refine .inl ⟨rfl, hmove ?_, List.Subset.refl _⟩
    rw [hi]
    cases op.kind <;> simp [InitPc.afterGuard, InitPc.owns]
  | resolveAddrOk op hi => exact .inl ⟨rfl, hmove (by rw [hi]; rfl), List.Subset.refl _⟩
  | resolveAddrFailed op errno hi =>
    rw [hi] at hlock
    exact .inl ⟨rfl, hmove (by simp [hi, InitPc.owns, hlock.1]), List.Subset.refl _⟩
  | published op hi hs =>
    rw [hi] at hlock
    obtain ⟨hconn, -⟩ := hlock
    refine .inr (.inr ⟨hs, ?_⟩)
    have howns : (InitPc.afterPublish op).owns = 1 := by
      cases hk : op.kind with
      | connect => simp [InitPc.afterPublish, hk, InitPc.owns, CmOp.isConn]
      | accept =>
        simp only [InitPc.afterPublish, hk]
        split_ifs <;> rfl
      | wait => simp [CmOp.isConn, hk] at hconn
    rw [State.owners, howns]
    omega
  | publishLost op hi hs => exact .inl ⟨rfl, hmove (by rw [hi]; rfl), List.Subset.refl _⟩
  | createQpFailed op ec hi he =>
    rw [hi] at hlock
    exact .inl ⟨rfl, hmove (by simp [hi, InitPc.owns, hlock.1]), List.Subset.refl _⟩
  | createQpOk op ec hi he => exact .inl ⟨rfl, hmove (by rw [hi]; rfl), List.Subset.refl _⟩
  | acceptOk op hi =>
    rw [hi] at hlock
    refine .inl ⟨rfl, hmove ?_, List.Subset.refl _⟩
    simp [hi, InitPc.owns, CmOp.isConn, hlock.1]
  | acceptFailed op errno hi =>
    rw [hi] at hlock
    exact .inl ⟨rfl, hmove (by simp [hi, InitPc.owns, hlock.1]), List.Subset.refl _⟩
  | storedClosed op hi => exact .inr (.inl rfl)
  | posted op hi =>
    refine .inl ⟨rfl, State.owners_posted hi, ?_⟩
    simp only [State.retired, ← List.append_assoc]
    exact List.subset_append_left _ _
  | started op hi hr => exact .inl ⟨rfl, State.owners_started hi, List.Subset.refl _⟩
  | latchSet op hi hp => exact .inl ⟨rfl, hmove (by rw [hi]; rfl), List.Subset.refl _⟩
  | latchClear op hi hp => exact .inl ⟨rfl, hmove (by rw [hi]; rfl), List.Subset.refl _⟩
  | waitClosed op hi hs => exact .inl ⟨rfl, hmove (by rw [hi]; rfl), List.Subset.refl _⟩
  | waitOpen op hi hs =>
    rw [hi] at hlock
    obtain ⟨sl, hsl⟩ := s.armCmCancellation_frame op
    rw [hsl]
    refine .inl ⟨rfl, hmove ?_, List.Subset.refl _⟩
    simp [hi, InitPc.owns, CmOp.isConn, show op.kind = .wait from hlock]

/-- A step of the initiation keeps what backs the state. -/
theorem Backed.initiates (h : Backed cfg s) (hl : Lockstep cfg s) {a : Answer}
    (hst : Initiates s a s') : Backed cfg s' := by
  rcases hst.owners hl with ⟨hc, ho, hret⟩ | hc | ⟨-, hpos⟩
  · exact h.quiet hc ho hret
  · exact .of_closed hc
  · exact fun _ => .inl hpos

/-- A step of `do_perform` keeps what backs the state. -/
theorem Backed.performs (h : Backed cfg s) (hl : Lockstep cfg s)
    (hr : s.reactor = .performing op pc) {a : Answer} (hst : Performs s op pc a t r)
    (hok : hardErrorCloses cfg s (.perform a) = true) : Backed cfg (t.proceed r) := by
  obtain ⟨hret, hi, hq, hkind, hwait, -, -⟩ := Performs.frame hl hr hst
  have hsame : r.1.isConn = op.isConn := by simp only [CmOp.isConn, hkind]
  intro hin
  rw [State.connectState_proceed] at hin
  by_cases hconn : op.isConn = true
  · by_cases hd : r.2 = .ret .done
    · rcases Performs.finish hl hr hst hok hd hconn with hc | hab | ⟨rc, -, -, -, hc⟩
      · rw [hc] at hin
        cases hin
      · refine .inr ⟨r.1, State.mem_retired_proceed.2 (.inr ?_), ?_⟩
        · rw [finished_done hd]
          exact List.mem_singleton_self _
        · rw [CmOp.abortedConn, hsame, hconn, hab, Bool.and_self]
      · rw [hc] at hin
        cases hin
    · -- the owner stays armed
      refine .inl ?_
      rw [State.owners, State.liveConn_proceed, kept_not_done hd]
      simp only [List.countP_singleton, hsame, hconn, if_true]
      omega
  · -- a watcher leaves `connect_state_` and the owner alone
    have hnc : op.isConn = false := by simpa using hconn
    rw [hwait hnc] at hin
    rcases h hin with hpos | ⟨o, ho, hab⟩
    · refine .inl ?_
      rw [State.owners, State.liveConn_performing hr, hnc] at hpos
      rw [State.owners, State.liveConn_proceed, State.initiation_proceed, hi, hq]
      simp only [Bool.false_eq_true, if_false] at hpos
      omega
    · exact .inr ⟨o, State.mem_retired_proceed.2 (.inl (hret ▸ ho)), hab⟩

/-- Cancelled ops are finished with `operation_aborted`, the owner among them backs its state. -/
theorem Backed.cancelWhere (h : Backed cfg s) (hr : s.reactor = .unlocked) (p : CmOp → Bool) :
    Backed cfg (s.cancelWhere p) := by
  intro hin
  rcases h hin with hpos | ⟨o, ho, hab⟩
  · by_cases hmem : ∃ o ∈ s.readQueue.filter p, o.isConn = true
    · obtain ⟨o, ho, hconn⟩ := hmem
      obtain ⟨ho, hp⟩ := List.mem_filter.1 ho
      refine .inr ⟨o.abort, State.mem_retired_cancelWhere.2 (.inr ⟨o, ho, hp, rfl⟩), ?_⟩
      have hab : o.abort.ec.isAborted cfg.aliased = true := by simp [CmOp.abort]
      rw [CmOp.abortedConn, hab, Bool.and_true]
      exact hconn
    · refine .inl ?_
      have hz : (s.readQueue.filter p).countP CmOp.isConn = 0 := by
        rw [List.countP_eq_zero]
        exact fun o ho hconn => hmem ⟨o, ho, hconn⟩
      have hsplit := State.countP_cancelWhere hr CmOp.isConn (p := p)
      simp only [State.owners, State.liveConn] at hpos
      simp only [State.owners, State.liveConn, State.initiation_cancelWhere]
      omega
  · exact .inr ⟨o, State.mem_retired_cancelWhere.2 (.inl ho), hab⟩

/-- A completion keeps what backs the state: an aborted op stores `closed` before it is gone. -/
theorem Backed.complete (h : Backed cfg s) {i : Nat} (hop : s.scheduled[i]? = some op) :
    Backed cfg (completeOp cfg { s with scheduled := s.scheduled.eraseIdx i } op) := by
  unfold completeOp
  split_ifs with hab
  · exact .of_closed rfl
  · intro hin
    rcases h hin with hpos | ⟨o, ho, hba⟩
    · exact .inl hpos
    · -- the op that backs the state is not the one that has run
      refine .inr ⟨o, ?_, hba⟩
      rcases List.mem_append.1 ho with ho | ho
      · exact List.mem_append_left _ ho
      · refine List.mem_append_right _ ?_
        obtain ⟨j, hj⟩ := List.mem_iff_getElem?.1 ho
        refine List.mem_eraseIdx_iff_getElem?.2 ⟨j, ?_, hj⟩
        rintro rfl
        obtain rfl : o = op := by simpa [hj] using hop
        exact hab (by simpa [CmOp.abortedConn] using hba)

theorem State.owners_guarded (hi : s.initiation = .idle) (op : CmOp) (ec : ErrorCode) :
    (s.guarded op ec).owners = s.owners := by
  have howns : (s.guarded op ec).initiation.owns = s.initiation.owns := by
    simp only [State.guarded, hi]
    split_ifs <;> rfl
  rw [State.owners, howns]
  rfl

theorem State.owners_nextOp (hr : s.reactor = .unlocked) : s.nextOp.owners = s.owners := by
  rw [State.owners, State.liveConn, State.armed_nextOp hr, State.initiation_nextOp]
  rfl

/-- Every step that meets the condition keeps what backs the state. -/
theorem Backed.step {l : Label} (h : Backed cfg s) (hl : Lockstep cfg s)
    (hok : hardErrorCloses cfg s l = true) (hst : (connector cfg).step s l = some s') :
    Backed cfg s' := by
  cases Step.of_step hst with
  | event ev hlt => exact h.quiet rfl rfl (List.Subset.refl _)
  | beginConnect addr slot hasCreateQp requestSize replyCap hi hlt =>
    exact h.quiet rfl (State.owners_guarded hi _ _) (List.Subset.refl _)
  | beginAccept addr slot hasCreateQp bindFails dataSize hi hlt =>
    exact h.quiet rfl (State.owners_guarded hi _ _) (List.Subset.refl _)
  | beginWait addr slot hi hlt =>
    refine h.quiet rfl ?_ (List.Subset.refl _)
    rw [State.owners, State.owners, hi]
    rfl
  | initiate a _ hin => exact h.initiates hl hin
  | performIo he hr hlt =>
    refine h.quiet State.connectState_nextOp (State.owners_nextOp (s := s.takeEdge) hr) ?_
    exact fun o ho => (State.retired_nextOp (s := s.takeEdge)).mem_iff.2 ho
  | perform op pc a t r hr hp => exact h.performs hl hr hp hok
  | complete i op hop => exact h.complete hop
  | enterDisconnect hlt => exact h.quiet rfl rfl (List.Subset.refl _)
  | disconnectStep i a _ hd =>
    cases hd with
    | load hi => exact h.quiet rfl rfl (List.Subset.refl _)
    | won old hi hs => exact .of_closed rfl
    | retry old a hi ha => exact h.quiet rfl rfl (List.Subset.refl _)
    | cancel old hi hr => exact .of_closed (hl.callers i _ hi)
    | native res hi => exact h.quiet rfl rfl (List.Subset.refl _)
  | emit key hk hr hlt => exact h.cancelWhere hr _
  | closeForDestruction hlt hi hr hc =>
    have hb := h.cancelWhere hr fun _ => true
    rw [← State.cancelOps_eq] at hb
    exact hb
  | drainEstablished ev rest hlt hc he => exact h.quiet rfl rfl (List.Subset.refl _)
  | drainOther ev rest hlt hc he => exact h.quiet rfl rfl (List.Subset.refl _)
  | drainEnd hlt hc => exact h.quiet rfl rfl (List.Subset.refl _)
  | drainHardError errno hlt => exact h.quiet rfl rfl (List.Subset.refl _)

theorem Backed.fresh : Backed cfg {} := by
  intro hin
  cases hin

end RdmaOnAsio.Ibv
