import RdmaOnAsio.Ibv.Proofs.Accounting

/-!
# A `disconnect()` call aborts the op it finds

`disconnect()` closes the connector first and cancels the queued ops afterwards, so an armed connect or
accept op behind a closed connector is about to be cancelled. The initiation publishes its state before
it arms the op: a call that closes and cancels in between finds an empty queue, and the op is armed
later with nobody left to abort it. `startsInTime` excludes that one step.
-/

namespace RdmaOnAsio.Ibv

open ErrorCode

/-- A `disconnect()` call that has closed the connector and not cancelled the queued ops yet. -/
def DisconnectPc.cancels : DisconnectPc → Bool
  | .cancelOps _ => true
  | .load | .cas _ | .native | .returned => false

/-- A connect or accept op is armed while the connector is not closed, or before the `disconnect()` call
that closed it runs its `cancel_ops`. -/
def startsInTime (s : State) : Label → Bool
  | .initiate _ =>
    match s.initiation with
    | .startOp op =>
      !op.isConn || s.connectState != .closed || s.callers.any DisconnectPc.cancels
    | _ => true
  | _ => true

/-- An armed connect or accept op behind a closed connector is about to be cancelled. -/
def Cancellable (s : State) : Prop :=
  s.connectState = .closed → 0 < s.liveConn → s.callers.any DisconnectPc.cancels = true

/-- `op` is a connect or accept op with this address. -/
def CmOp.is (a : Nat) (op : CmOp) : Bool := op.isConn && op.addr == a

/-- The handler of a connect or accept op with this address is invoked. -/
def Action.invokes (a : Nat) : Action → Bool
  | .invoked op _ => op.is a
  | _ => false

/-- A connect or accept op with this address is initiated. -/
def Label.starts (a : Nat) : Label → Bool
  | .asyncConnect addr _ _ _ _ => addr == a
  | .asyncAccept addr _ _ _ _ => addr == a
  | _ => false

/-- The connect and accept ops with this address: being initiated, armed, finished, and reported. -/
def State.accounted (s : State) (a : Nat) : Nat :=
  s.initiation.ops.countP (CmOp.is a) + s.armed.countP (CmOp.is a) + s.retired.countP (CmOp.is a) +
    s.trace.countP (Action.invokes a)

variable {cfg : Config} {s t s' : State} {op : CmOp} {pc : PerformPc} {r : CmOp × Outcome}

/-! ## Armed behind a closed connector -/

/-- A step that closes nothing, arms nothing and takes no pending cancellation keeps the condition. -/
theorem Cancellable.mono (h : Cancellable s) (hc : s'.connectState = .closed → s.connectState = .closed)
    (hlive : s'.liveConn ≤ s.liveConn)
    (hcal : s.callers.any DisconnectPc.cancels = true → s'.callers.any DisconnectPc.cancels = true) :
    Cancellable s' :=
  fun hcl hpos => hcal (h (hc hcl) (by omega))

theorem Cancellable.of_liveConn (h : s.liveConn = 0) : Cancellable s := by
  intro _ hpos
  omega

/-- A step of the initiation arms an op in time, or keeps the condition. -/
theorem Cancellable.initiates (h : Cancellable s) (hl : Lockstep cfg s) {a : Answer}
    (hst : Initiates s a s') : Cancellable s' ↔ startsInTime s (.initiate a) = true := by
  have hinit := hl.init
  have hkeep : (∀ op, s.initiation ≠ .startOp op) → Cancellable s' →
      (Cancellable s' ↔ startsInTime s (.initiate a) = true) := by
    intro hne hs'
    refine iff_of_true hs' ?_
    unfold startsInTime
    cases hi : s.initiation with
    | startOp op => exact absurd hi (hne op)
    | _ => rfl
  cases hst with
  | started op hi hr =>
    rw [hi] at hinit
    have hlive := State.liveConn_startOp s op
    simp only [startsInTime, hi]
    cases hconn : op.isConn with
    | false =>
      refine iff_of_true (h.mono id (Nat.le_of_eq ?_) id) (by simp)
      rw [hconn] at hlive
      exact hlive
    | true =>
      rw [hconn] at hlive
      have hpos : 0 < (s.startOp op).liveConn := by
        rw [hlive, Bool.toNat_true]
        exact Nat.succ_pos _
      simp only [Bool.not_true, Bool.false_or, Bool.or_eq_true, bne_iff_ne, ne_eq]
      constructor
      · intro hs'
        by_cases hc : s.connectState = .closed
        · exact .inr (hs' hc hpos)
        · exact .inl hc
      · rintro (hne | hcal) hc -
        · exact absurd hc hne
        · exact hcal
  | storedClosed op hi =>
    rw [hi] at hinit
    exact hkeep (by simp [hi]) (.of_liveConn hinit.2.1)
  | published op hi hs =>
    refine hkeep (by simp [hi]) fun hc _ => ?_
    have hk : op.kind.initial = .closed := hc
    cases hkind : op.kind <;> rw [hkind] at hk <;> cases hk
  | guardPassed op hi hs =>
    obtain ⟨sl, hsl⟩ := s.armCmCancellation_frame { op with admitted := true }
    rw [hsl] at hkeep ⊢
    exact hkeep (by simp [hi]) (h.mono id (Nat.le_refl _) id)
  | waitOpen op hi hs =>
    obtain ⟨sl, hsl⟩ := s.armCmCancellation_frame op
    rw [hsl] at hkeep ⊢
    exact hkeep (by simp [hi]) (h.mono id (Nat.le_refl _) id)
  | guardRejected op hi hs => exact hkeep (by simp [hi]) (h.mono id (Nat.le_refl _) id)
  | resolveAddrOk op hi => exact hkeep (by simp [hi]) (h.mono id (Nat.le_refl _) id)
  | resolveAddrFailed op errno hi => exact hkeep (by simp [hi]) (h.mono id (Nat.le_refl _) id)
  | publishLost op hi hs => exact hkeep (by simp [hi]) (h.mono id (Nat.le_refl _) id)
  | createQpFailed op ec hi he => exact hkeep (by simp [hi]) (h.mono id (Nat.le_refl _) id)
  | createQpOk op ec hi he => exact hkeep (by simp [hi]) (h.mono id (Nat.le_refl _) id)
  | acceptOk op hi => exact hkeep (by simp [hi]) (h.mono id (Nat.le_refl _) id)
  | acceptFailed op errno hi => exact hkeep (by simp [hi]) (h.mono id (Nat.le_refl _) id)
  | posted op hi => exact hkeep (by simp [hi]) (h.mono id (Nat.le_refl _) id)
  | latchSet op hi hp => exact hkeep (by simp [hi]) (h.mono id (Nat.le_refl _) id)
  | latchClear op hi hp => exact hkeep (by simp [hi]) (h.mono id (Nat.le_refl _) id)
  | waitClosed op hi hs => exact hkeep (by simp [hi]) (h.mono id (Nat.le_refl _) id)

/-- A step of `do_perform` keeps the condition: an op that closes the connector is finished. -/
theorem Cancellable.performs (h : Cancellable s) (hl : Lockstep cfg s)
    (hr : s.reactor = .performing op pc) {a : Answer} (hst : Performs s op pc a t r) :
    Cancellable (t.proceed r) := by
  obtain ⟨-, -, hq, hkind, -, -, -⟩ := Performs.frame hl hr hst
  have hcal : t.callers = s.callers := by cases hst <;> rfl
  have hlive : (t.proceed r).liveConn ≤ s.liveConn := by
    have hkept := countP_kept_le (r := r) hkind
    rw [State.liveConn_proceed, hq, State.liveConn_performing hr]
    omega
  by_cases hcl : t.connectState = .closed → s.connectState = .closed
  · refine h.mono ?_ hlive ?_
    · rw [State.connectState_proceed]
      exact hcl
    · rw [State.callers_proceed, hcal]
      exact id
  · -- only `claim_closed` closes, and it ends the op
    refine .of_liveConn ?_
    have hpc := hl.ops.performing op pc hr
    obtain ⟨ht, hs⟩ := Classical.not_imp.1 hcl
    cases hst with
    | claimWon e he =>
      obtain ⟨hz, -⟩ := hl.alone hr hpc.1
      rw [State.liveConn_proceed]
      show 0 + s.readQueue.countP CmOp.isConn = 0
      omega
    | advanceWon e d he =>
      obtain ⟨-, -, ⟨-, hd⟩ | ⟨-, hd⟩⟩ := hpc
      · cases hd.symm.trans ht
      · cases hd.symm.trans ht
    | establishedWon ev he => cases ht
    | _ => exact absurd ht hs

theorem Cancellable.cancelOps (hr : s.reactor = .unlocked) {cs : List DisconnectPc}
    {lt : Lifetime} : Cancellable { s.cancelOps with callers := cs, lifetime := lt } := by
  refine .of_liveConn ?_
  simp [State.liveConn, State.armed, State.cancelOps, hr, Reactor.ops]

/-- The `i`-th call moves on; the others stay, whatever they were about to do. -/
theorem any_cancels_set {ps : List DisconnectPc} {i : Nat} {p q : DisconnectPc}
    (hi : ps[i]? = some p) (hp : p.cancels = false) (h : ps.any DisconnectPc.cancels = true) :
    (ps.set i q).any DisconnectPc.cancels = true := by
  obtain ⟨c, hc, hcan⟩ := List.any_eq_true.1 h
  obtain ⟨j, hj⟩ := List.mem_iff_getElem?.1 hc
  have hne : i ≠ j := by
    rintro rfl
    obtain rfl : p = c := by simpa [hi] using hj
    rw [hp] at hcan
    cases hcan
  refine List.any_eq_true.2 ⟨c, List.mem_of_getElem? (i := j) ?_, hcan⟩
  rw [List.getElem?_set_ne hne]
  exact hj

/-- A `disconnect()` call that closes the connector goes on to cancel. -/
theorem Cancellable.disconnects (h : Cancellable s) (hl : Lockstep cfg s) {i : Nat} {a : Answer}
    (hst : Disconnects s i a s') : Cancellable s' := by
  cases hst with
  | load hi => exact h.mono id (Nat.le_refl _) (any_cancels_set hi rfl)
  | retry old a hi ha => exact h.mono id (Nat.le_refl _) (any_cancels_set hi rfl)
  | native res hi => exact h.mono id (Nat.le_refl _) (any_cancels_set hi rfl)
  | cancel old hi hr => exact .cancelOps hr
  | won old hi hs =>
    intro _ hpos
    have hidle : s.connectState ≠ .idle := by
      intro hc
      have := hl.liveConn_of_idle hc
      have : 0 < s.liveConn := hpos
      omega
    by_cases hcl : s.connectState = .closed
    · exact any_cancels_set hi rfl (h hcl hpos)
    · refine List.any_eq_true.2 ⟨afterCas old, List.mem_set (List.getElem?_eq_some_iff.1 hi).1 _, ?_⟩
      rw [hs] at hidle hcl
      cases old with
      | idle => exact absurd rfl hidle
      | closed => exact absurd rfl hcl
      | _ => rfl

/-- A completion that closes the connector finds nothing armed. -/
theorem Cancellable.complete (h : Cancellable s) (hl : Lockstep cfg s) {i : Nat}
    (hop : s.scheduled[i]? = some op) :
    Cancellable (completeOp cfg { s with scheduled := s.scheduled.eraseIdx i } op) := by
  unfold completeOp
  split_ifs with hab
  · have hmem : op ∈ s.retired := List.mem_append_right _ (List.mem_of_getElem? hop)
    rcases hl.ops.retired op hmem hab.1 hab.2 with hc | ⟨hz, -⟩
    · exact fun _ hpos => h hc hpos
    · refine .of_liveConn ?_
      rw [State.owners] at hz
      show s.liveConn = 0
      omega
  · exact h.mono id (Nat.le_refl _) id

/-- Every step keeps the condition exactly if it does not arm an op too late. -/
theorem Cancellable.step {l : Label} (h : Cancellable s) (hl : Lockstep cfg s)
    (hst : (connector cfg).step s l = some s') :
    Cancellable s' ↔ startsInTime s l = true := by
  cases Step.of_step hst with
  | initiate a _ hin => exact h.initiates hl hin
  | event ev hlt => exact iff_of_true (h.mono id (Nat.le_refl _) id) rfl
  | beginConnect addr slot hasCreateQp requestSize replyCap hi hlt =>
    exact iff_of_true (h.mono id (Nat.le_refl _) id) rfl
  | beginAccept addr slot hasCreateQp bindFails dataSize hi hlt =>
    exact iff_of_true (h.mono id (Nat.le_refl _) id) rfl
  | beginWait addr slot hi hlt => exact iff_of_true (h.mono id (Nat.le_refl _) id) rfl
  | performIo he hr hlt =>
    refine iff_of_true (h.mono ?_ (Nat.le_of_eq ?_) ?_) rfl
    · rw [State.connectState_nextOp]
      exact id
    · rw [State.liveConn, State.armed_nextOp (s := s.takeEdge) hr]
      rfl
    · rw [State.callers_nextOp]
      exact id
  | perform op pc a t r hr hp => exact iff_of_true (h.performs hl hr hp) rfl
  | complete i op hop => exact iff_of_true (h.complete hl hop) rfl
  | enterDisconnect hlt =>
    refine iff_of_true (h.mono id (Nat.le_refl _) fun hany => ?_) rfl
    rw [List.any_append, hany, Bool.true_or]
  | disconnectStep i a _ hd => exact iff_of_true (h.disconnects hl hd) rfl
  | emit key hk hr hlt =>
    refine iff_of_true (h.mono id ?_ id) rfl
    have := State.countP_cancelWhere hr CmOp.isConn
      (p := fun op => op.cancellationKey == some key)
    rw [State.cancelOpsByKey_eq, State.liveConn, State.liveConn]
    omega
  | closeForDestruction hlt hi hr hc => exact iff_of_true (.cancelOps hr) rfl
  | drainEstablished ev rest hlt hc he => exact iff_of_true (h.mono id (Nat.le_refl _) id) rfl
  | drainOther ev rest hlt hc he => exact iff_of_true (h.mono id (Nat.le_refl _) id) rfl
  | drainEnd hlt hc => exact iff_of_true (h.mono id (Nat.le_refl _) id) rfl
  | drainHardError errno hlt => exact iff_of_true (h.mono id (Nat.le_refl _) id) rfl

/-! ## Whole runs -/

/-- The connect and accept ops with this address are the selected ones. -/
theorem State.accounted_eq_held (s : State) (a : Nat) :
    s.accounted a = s.held fun k x => k != .wait && x == a := by
  have hinv : Action.invokes a = Action.reports fun k x => k != .wait && x == a := by
    funext act
    cases act <;> rfl
  rw [State.accounted, hinv]
  rfl

/-- No connect or accept op is lost: what was initiated is in the hands of the initiating thread, armed,
finished or reported. -/
theorem State.accounted_run {ls : List Label} {a : Nat} (hr : (connector cfg).run s ls = some s') :
    s'.accounted a = s.accounted a + ls.countP (Label.starts a) := by
  have hstarts : Label.starts a = Label.begins fun k x => k != .wait && x == a := by
    funext l
    cases l <;> rfl
  rw [State.accounted_eq_held, State.accounted_eq_held, hstarts]
  exact State.held_run hr

/-- Along a run every armed op behind a closed connector is about to be cancelled, exactly if no op is
armed too late. -/
theorem cancellable_iff {ls : List Label} (hr : (connector cfg).run {} ls = some s) :
    (∀ pre t, pre <+: ls → (connector cfg).run {} pre = some t → Cancellable t) ↔
      (connector cfg).Meets (fun s l => startsInTime s l = true) {} ls :=
  StepSystem.always_iff_meets (M := connector cfg) (I := Lockstep cfg)
    (fun _ _ _ hl _ hst => hl.step hst) (fun _ _ _ hl h hst => h.step hl hst) hr .fresh
    (.of_liveConn rfl)

/-- No abort is lost: in every run that arms no connect or accept op too late, once the initiation and
the `disconnect()` calls have returned and the connector is closed, none is armed, and each one that was
initiated is finished or has been reported. -/
theorem no_lost_abort {ls : List Label} (hr : (connector cfg).run {} ls = some s)
    (hm : (connector cfg).Meets (fun s l => startsInTime s l = true) {} ls)
    (hi : s.initiation = .idle) (hret : ∀ c ∈ s.callers, c = .returned)
    (hc : s.connectState = .closed) :
    s.liveConn = 0 ∧ ∀ a, ls.countP (Label.starts a) =
      s.retired.countP (CmOp.is a) + s.trace.countP (Action.invokes a) := by
  have hcan : Cancellable s := (cancellable_iff hr).2 hm ls s (List.prefix_refl ls) hr
  have hlive : s.liveConn = 0 := by
    by_contra hpos
    obtain ⟨c, hcal, hcanc⟩ := List.any_eq_true.1 (hcan hc (by omega))
    rw [hret c hcal] at hcanc
    cases hcanc
  refine ⟨hlive, fun a => ?_⟩
  have hacc := State.accounted_run (a := a) hr
  have harmed : s.armed.countP (CmOp.is a) = 0 := by
    refine List.countP_eq_zero.2 fun op hop his => ?_
    have hnot := List.countP_eq_zero.1 hlive op hop
    exact hnot (Bool.and_eq_true_iff.1 his).1
  rw [State.accounted, hi, harmed] at hacc
  simpa [InitPc.ops, State.accounted, State.armed, State.retired, Reactor.ops] using hacc.symm

/-- A `disconnect()` call that comes while the connect op is armed. -/
def abortArmed : List Label :=
  [.disconnect, .disconnectStep 0 .run, .disconnectStep 0 .run, .disconnectStep 0 .run]

/-- The armed op is aborted. -/
theorem no_lost_abort_abortArmed :
    let s := (connector {}).after {} (armConnect ++ abortArmed)
    s.liveConn = 0 ∧ s.retired.countP (CmOp.is 1) + s.trace.countP (Action.invokes 1) = 1 := by
  have hr : ((connector {}).run {} (armConnect ++ abortArmed)).isSome = true := rfl
  have h := no_lost_abort (StepSystem.run_after hr) (by decide) rfl (by decide) rfl
  exact ⟨h.1, (h.2 1).symm⟩

/-- A `disconnect()` call that runs between the publishing exchange and `start_op`. -/
def lostAbort : List Label :=
  [.asyncConnect 1 true true 0 0, .initiate .run, .initiate (.native .ok), .initiate .run,
    .disconnect, .disconnectStep 0 .run, .disconnectStep 0 .run, .disconnectStep 0 .run,
    .initiate .run]

/-- Without the condition an op can stay armed behind a closed connector after everyone has
returned. -/
theorem not_no_lost_abort :
    ¬ ∀ ls s, (connector {}).run {} ls = some s → s.initiation = .idle →
      (∀ c ∈ s.callers, c = .returned) → s.connectState = .closed → s.liveConn = 0 := by
  intro h
  have := h lostAbort ((connector {}).after {} lostAbort) rfl rfl (by decide) rfl
  revert this
  decide

end RdmaOnAsio.Ibv
