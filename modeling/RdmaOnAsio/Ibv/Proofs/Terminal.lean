import RdmaOnAsio.Ibv.Proofs.Backed

/-!
# A failed connect or accept is terminal

Every error exit of an admitted connect or accept op leaves `connect_state_` closed by the time its
handler runs: the op claims `closed`, or the initiation stores it, or the op ends with
`operation_aborted` and its completion stores it. Two exits do neither, a hard error of
`get_cm_event` and a failing `modify_qp`; `failsClosed` is the condition under which they are
harmless.
-/

namespace RdmaOnAsio.Ibv

open ErrorCode

/-- So do both exits that do not claim `closed`: the hard error and a failing `modify_qp`. -/
def failsClosed (cfg : Config) (s : State) : Label → Bool
  | .perform (.modified rc) =>
    !(modifyQpCode rc).isError || (modifyQpCode rc).isAborted cfg.aliased ||
      s.connectState == .closed
  | l => hardErrorCloses cfg s l

/-- A finished connect or accept op that got past the guards and failed closes on completion, or is
closed already. -/
def FailedClosed (cfg : Config) (s : State) (op : CmOp) : Prop :=
  op.isConn = true → op.admitted = true → op.ec.isError = true →
    s.connectState = .closed ∨ op.ec.isAborted cfg.aliased = true

/-- An op at the guards is not admitted yet, one about to be posted is finished. -/
def InitPc.FailedClosed (cfg : Config) (s : State) : InitPc → Prop
  | .guardState op => op.admitted = false
  | .post op => Ibv.FailedClosed cfg s op
  | _ => True

/-- Failed ops are terminal: those that have been reported left `connect_state_` closed, and those
that have not will. -/
structure Terminal (cfg : Config) (s : State) : Prop where
  init : s.initiation.FailedClosed cfg s
  retired : ∀ op ∈ s.retired, FailedClosed cfg s op
  invoked : ∀ op st, .invoked op st ∈ s.trace → op.isConn = true → op.admitted = true →
    op.ec.isError = true → st = .closed ∧ s.connectState = .closed

variable {cfg : Config} {s t s' : State} {op : CmOp} {pc : PerformPc} {r : CmOp × Outcome}

theorem FailedClosed.mono (h : FailedClosed cfg s op)
    (hc : s.connectState = .closed → s'.connectState = .closed) : FailedClosed cfg s' op :=
  fun hconn had herr => (h hconn had herr).imp hc id

theorem FailedClosed.of_aborted (h : op.ec.isAborted cfg.aliased = true) :
    FailedClosed cfg s op := fun _ _ _ => .inr h

theorem FailedClosed.of_closed (h : s.connectState = .closed) : FailedClosed cfg s op :=
  fun _ _ _ => .inl h

theorem hardErrorCloses_of_failsClosed {l : Label} (h : failsClosed cfg s l = true) :
    hardErrorCloses cfg s l = true := by
  unfold failsClosed at h
  split at h
  · rfl
  · exact h

/-! ## Steps -/

theorem InitPc.FailedClosed.mono {i : InitPc} (h : i.FailedClosed cfg s)
    (hc : s.connectState = .closed → s'.connectState = .closed) : i.FailedClosed cfg s' := by
  cases i with
  | post op => exact Ibv.FailedClosed.mono h hc
  | _ => exact h

/-- A step keeps the invariant if it keeps `closed`, and what it retires has failed properly. -/
theorem Terminal.quiet (h : Terminal cfg s)
    (hcl : s.connectState = .closed → s'.connectState = .closed)
    (hret : ∀ op ∈ s'.retired, op ∈ s.retired ∨ FailedClosed cfg s' op)
    (htr : ∀ op st, .invoked op st ∈ s'.trace → .invoked op st ∈ s.trace)
    (hi : s'.initiation.FailedClosed cfg s') : Terminal cfg s' := by
  refine ⟨hi, fun op hop => ?_, fun op st hmem hconn had herr => ?_⟩
  · rcases hret op hop with hop | hop
    · exact (h.retired op hop).mono hcl
    · exact hop
  · obtain ⟨hst, hs⟩ := h.invoked op st (htr op st hmem) hconn had herr
    exact ⟨hst, hcl hs⟩

/-- Writing `closed` keeps the invariant. -/
theorem Terminal.closing (h : Terminal cfg s) (hc : s'.connectState = .closed)
    (htr : ∀ op st, .invoked op st ∈ s'.trace → .invoked op st ∈ s.trace ∨ st = .closed)
    (hi : s'.initiation.FailedClosed cfg s') : Terminal cfg s' := by
  refine ⟨hi, fun op _ => .of_closed hc, fun op st hmem hconn had herr => ?_⟩
  rcases htr op st hmem with hmem | hst
  · exact ⟨(h.invoked op st hmem hconn had herr).1, hc⟩
  · exact ⟨hst, hc⟩

theorem Terminal.guarded (h : Terminal cfg s) {ec : ErrorCode} (had : op.admitted = false) :
    Terminal cfg (s.guarded op ec) := by
  refine h.quiet id (fun o ho => .inl ho) (fun _ _ hmem => hmem) ?_
  simp only [State.guarded]
  split_ifs
  · intro _ hadm
    simp [had] at hadm
  · exact had

/-- A step of the initiation keeps the invariant. -/
theorem Terminal.initiates (h : Terminal cfg s) (hl : Lockstep cfg s) {a : Answer}
    (hst : Initiates s a s') : Terminal cfg s' := by
  have hinit := h.init
  have hlock := hl.init
  -- a step that only moves the initiation
  have hmove : ∀ {i : InitPc} {sl : List Nat} {tr : List Action},
      (∀ op st, .invoked op st ∈ tr → .invoked op st ∈ s.trace) →
      i.FailedClosed cfg s → Terminal cfg { s with initiation := i, slots := sl, trace := tr } :=
    fun htr hi => h.quiet id (fun o ho => .inl ho) htr (hi.mono id)
  cases hst with
  | guardRejected op hi hs =>
    rw [hi] at hinit
    refine hmove (fun _ _ hm => hm) fun _ hadm => ?_
    simp [show op.admitted = false from hinit] at hadm
  | guardPassed op hi hs =>
    obtain ⟨sl, hsl⟩ := s.armCmCancellation_frame { op with admitted := true }
    rw [hsl]
    refine hmove (fun _ _ hm => hm) ?_
    cases op.kind <;> simp [InitPc.afterGuard, InitPc.FailedClosed]
  | resolveAddrOk op hi => exact hmove (fun _ _ hm => by simpa using hm) trivial
  | resolveAddrFailed op errno hi => exact hmove (fun _ _ hm => by simpa using hm) trivial
  | published op hi hs =>
    refine h.quiet (fun hc => ?_) (fun o ho => .inl ho) (fun _ _ hm => by simpa using hm) ?_
    · rw [hs] at hc
      cases hc
    · show (InitPc.afterPublish op).FailedClosed cfg _
      unfold InitPc.afterPublish
      split
      · trivial
      · split_ifs <;> trivial
      · split_ifs <;> trivial
  | publishLost op hi hs => exact hmove (fun _ _ hm => hm) (.of_aborted (by simp [CmOp.abort]))
  | createQpFailed op ec hi he => exact hmove (fun _ _ hm => by simpa using hm) trivial
  | createQpOk op ec hi he => exact hmove (fun _ _ hm => by simpa using hm) trivial
  | acceptOk op hi => exact hmove (fun _ _ hm => by simpa using hm) trivial
  | acceptFailed op errno hi => exact hmove (fun _ _ hm => by simpa using hm) trivial
  | storedClosed op hi =>
    exact h.closing rfl (fun _ _ hm => .inl (by simpa using hm)) (.of_closed rfl)
  | posted op hi =>
    rw [hi] at hinit
    refine h.quiet id (fun o ho => ?_) (fun _ _ hm => hm) trivial
    simp only [State.retired, ← List.append_assoc] at ho
    rcases List.mem_append.1 ho with ho | ho
    · exact .inl ho
    · obtain rfl := List.mem_singleton.1 ho
      exact .inr hinit
  | started op hi hr => exact h.quiet id (fun o ho => .inl ho) (fun _ _ hm => hm) trivial
  | latchSet op hi hp =>
    rw [hi] at hlock
    refine hmove (fun _ _ hm => hm) fun hconn => ?_
    simp [CmOp.isConn, show op.kind = .wait from hlock] at hconn
  | latchClear op hi hp => exact hmove (fun _ _ hm => hm) trivial
  | waitClosed op hi hs =>
    rw [hi] at hlock
    refine hmove (fun _ _ hm => hm) fun hconn => ?_
    simp [CmOp.isConn, show op.kind = .wait from hlock] at hconn
  | waitOpen op hi hs =>
    obtain ⟨sl, hsl⟩ := s.armCmCancellation_frame op
    rw [hsl]
    exact hmove (fun _ _ hm => hm) trivial

/-- A step of `do_perform` keeps the invariant. -/
theorem Terminal.performs (h : Terminal cfg s) (hl : Lockstep cfg s)
    (hr : s.reactor = .performing op pc) {a : Answer} (hst : Performs s op pc a t r)
    (hok : failsClosed cfg s (.perform a) = true) : Terminal cfg (t.proceed r) := by
  obtain ⟨hret, hi, -, hkind, -, hclosed, htr⟩ := Performs.frame hl hr hst
  have hsame : r.1.isConn = op.isConn := by simp only [CmOp.isConn, hkind]
  have hcl : s.connectState = .closed → (t.proceed r).connectState = .closed := by
    rw [State.connectState_proceed]
    exact hclosed
  refine h.quiet hcl (fun o ho => ?_) (by rwa [State.trace_proceed]) ?_
  · rcases State.mem_retired_proceed.1 ho with ho | ho
    · exact .inl (hret ▸ ho)
    · obtain ⟨rfl, hd⟩ := eq_of_mem_finished ho
      refine .inr fun hconn _ herr => ?_
      rw [hsame] at hconn
      rw [State.connectState_proceed]
      rcases Performs.finish hl hr hst (hardErrorCloses_of_failsClosed hok) hd hconn with
        hc | hab | ⟨rc, rfl, hrc, hsc, hc⟩
      · exact .inl hc
      · exact .inr hab
      · rw [hrc] at herr ⊢
        simp only [failsClosed, herr, Bool.not_true, Bool.false_or, Bool.or_eq_true,
          beq_iff_eq] at hok
        rcases hok with hab | hs
        · exact .inr hab
        · exact .inl (hsc.trans hs)
  · rw [State.initiation_proceed, hi]
    exact h.init.mono hcl

theorem Terminal.cancelWhere (h : Terminal cfg s) (p : CmOp → Bool) :
    Terminal cfg (s.cancelWhere p) := by
  refine h.quiet id (fun o ho => ?_) (fun _ _ hm => hm) (h.init.mono id)
  rcases State.mem_retired_cancelWhere.1 ho with ho | ⟨o', -, -, rfl⟩
  · exact .inl ho
  · exact .inr (.of_aborted (by simp [CmOp.abort]))

theorem Terminal.cancelOps (h : Terminal cfg s) : Terminal cfg s.cancelOps := by
  rw [State.cancelOps_eq]
  exact h.cancelWhere _

/-- Running a completion keeps the invariant: `do_complete` stores `closed` for an aborted op before
it invokes the handler. -/
theorem Terminal.complete (h : Terminal cfg s) {i : Nat} (hop : s.scheduled[i]? = some op) :
    Terminal cfg (completeOp cfg { s with scheduled := s.scheduled.eraseIdx i } op) := by
  have hmem : op ∈ s.retired := List.mem_append_right _ (List.mem_of_getElem? hop)
  unfold completeOp
  split_ifs with hab
  · refine h.closing rfl (fun o st ho => ?_) (h.init.mono fun _ => rfl)
    rcases List.mem_cons.1 ho with heq | ho
    · exact .inr (Action.invoked.inj heq).2
    · exact .inl (by simpa using ho)
  · refine ⟨h.init.mono id, fun o ho => (h.retired o ?_).mono id, fun o st ho hconn had herr => ?_⟩
    · rcases List.mem_append.1 ho with ho | ho
      · exact List.mem_append_left _ ho
      · exact List.mem_append_right _ (List.mem_of_mem_eraseIdx ho)
    · rcases List.mem_cons.1 ho with heq | ho
      · obtain ⟨rfl, rfl⟩ := Action.invoked.inj heq
        have hcl : s.connectState = .closed := by
          rcases h.retired o hmem hconn had herr with hc | ha
          · exact hc
          · exact absurd ⟨hconn, ha⟩ hab
        exact ⟨hcl, hcl⟩
      · exact h.invoked o st ho hconn had herr

/-- Every step that meets the condition keeps the invariant. -/
theorem Terminal.step {l : Label} (h : Terminal cfg s) (hl : Lockstep cfg s)
    (hok : failsClosed cfg s l = true) (hst : (connector cfg).step s l = some s') :
    Terminal cfg s' := by
  -- a step that neither moves an op nor writes `connect_state_`
  have hquiet : s'.connectState = s.connectState → s'.retired = s.retired →
      s'.initiation = s.initiation →
      (∀ op st, .invoked op st ∈ s'.trace → .invoked op st ∈ s.trace) → Terminal cfg s' := by
    intro hc hret hi htr
    refine h.quiet (fun hs => hc.trans hs) (fun o hmem => .inl (hret ▸ hmem)) htr ?_
    rw [hi]
    exact h.init.mono fun hs => hc.trans hs
  cases Step.of_step hst with
  | event ev hlt => exact hquiet rfl rfl rfl fun _ _ hm => by simpa using hm
  | beginConnect addr slot hasCreateQp requestSize replyCap hi hlt => exact h.guarded rfl
  | beginAccept addr slot hasCreateQp bindFails dataSize hi hlt => exact h.guarded rfl
  | beginWait addr slot hi hlt =>
    exact h.quiet id (fun o ho => .inl ho) (fun _ _ hm => hm) trivial
  | initiate a _ hin => exact h.initiates hl hin
  | performIo he hr hlt =>
    refine h.quiet (fun hs => State.connectState_nextOp.trans hs) (fun o ho => .inl ?_) ?_ ?_
    · exact (State.retired_nextOp (s := s.takeEdge)).mem_iff.1 ho
    · rw [State.trace_nextOp]
      exact fun _ _ hm => hm
    · rw [State.initiation_nextOp]
      exact h.init.mono fun hs => State.connectState_nextOp.trans hs
  | perform op pc a t r hr hp => exact h.performs hl hr hp hok
  | complete i op hop => exact h.complete hop
  | enterDisconnect hlt => exact hquiet rfl rfl rfl fun _ _ hm => hm
  | disconnectStep i a _ hd =>
    cases hd with
    | load hi => exact hquiet rfl rfl rfl fun _ _ hm => hm
    | won old hi hs =>
      exact h.closing rfl (fun o st ho => .inl (by simpa using ho)) (h.init.mono fun _ => rfl)
    | retry old a hi ha => exact hquiet rfl rfl rfl fun _ _ hm => hm
    | cancel old hi hr =>
      have hc := h.cancelOps
      exact ⟨hc.init.mono id, hc.retired, hc.invoked⟩
    | native res hi => exact hquiet rfl rfl rfl fun _ _ hm => by simpa using hm
  | emit key hk hr hlt => exact h.cancelWhere _
  | closeForDestruction hlt hi hr hc =>
    have hc := h.cancelOps
    exact ⟨hc.init.mono id, hc.retired, hc.invoked⟩
  | drainEstablished ev rest hlt hc he => exact hquiet rfl rfl rfl fun _ _ hm => by simpa using hm
  | drainOther ev rest hlt hc he => exact hquiet rfl rfl rfl fun _ _ hm => by simpa using hm
  | drainEnd hlt hc => exact hquiet rfl rfl rfl fun _ _ hm => hm
  | drainHardError errno hlt => exact hquiet rfl rfl rfl fun _ _ hm => hm

theorem Terminal.fresh : Terminal cfg {} where
  init := trivial
  retired := by
    intro op hop
    cases hop
  invoked := by
    intro op st hmem
    cases hmem

/-! ## Whole runs -/

/-- Failed ops are terminal, and in-flight states backed, after every run that meets the condition. -/
theorem Terminal.run {ls : List Label} (hr : (connector cfg).run {} ls = some s)
    (hm : (connector cfg).Meets (fun s l => failsClosed cfg s l = true) {} ls) :
    Terminal cfg s ∧ Backed cfg s := by
  have hinv := StepSystem.invariant_of_meets (M := connector cfg)
    (I := fun t => Lockstep cfg t ∧ Terminal cfg t ∧ Backed cfg t) ?_ hr hm
    ⟨.fresh, .fresh, .fresh⟩
  · exact hinv.2
  · rintro t l t' ⟨hl, ht, hb⟩ hok hst
    exact ⟨hl.step hst, ht.step hl hok hst, hb.step hl (hardErrorCloses_of_failsClosed hok) hst⟩

/-- A failed connect or accept is terminal: in every run that meets the condition, a connect or accept
handler invoked with an error finds `connect_state_` closed, it stays closed, and an in-flight state
always has its op behind it. -/
theorem failed_terminal {ls : List Label} (hr : (connector cfg).run {} ls = some s)
    (hm : (connector cfg).Meets (fun s l => failsClosed cfg s l = true) {} ls) :
    (∀ op st, .invoked op st ∈ s.trace → op.isConn = true → op.admitted = true →
      op.ec.isError = true → st = .closed ∧ s.connectState = .closed) ∧
    (s.connectState.inFlight = true →
      0 < s.owners ∨ ∃ op ∈ s.retired, op.abortedConn cfg = true) :=
  ⟨(Terminal.run hr hm).1.invoked, (Terminal.run hr hm).2⟩

/-- The events on which the armed connect op is rejected by the peer, and its completion. -/
def rejectConnect : List Label :=
  [.event ⟨.addrResolved, 0, []⟩, .performIo, .perform .event, .perform .run,
    .perform (.created success), .perform (.native .ok),
    .event ⟨.routeResolved, 0, []⟩, .performIo, .perform .event, .perform .run,
    .perform (.native .ok),
    .event ⟨.rejected, 0, []⟩, .performIo, .perform .event, .perform .run, .perform .run,
    .complete 0]

/-- A rejected connect is reported with `connection_refused`, and `closed`. -/
theorem failed_terminal_rejectConnect :
    let s := (connector {}).after {} (armConnect ++ rejectConnect)
    (∃ op, .invoked op .closed ∈ s.trace ∧ op.ec = .basic .connectionRefused) ∧
      s.connectState = .closed ∧ ¬ s.connectState.inFlight = true := by
  have hr : ((connector {}).run {} (armConnect ++ rejectConnect)).isSome = true := rfl
  have h := failed_terminal (StepSystem.run_after hr) (by decide)
  refine ⟨⟨_, List.mem_cons_self, rfl⟩, ?_, by decide⟩
  exact (h.1 _ _ List.mem_cons_self rfl rfl rfl).2

/-- A hard error of `get_cm_event` while the address is being resolved. -/
def hardErrorConnect : List Label :=
  [.event ⟨.addrResolved, 0, []⟩, .performIo, .perform (.hardError 5), .complete 0]

/-- Without the condition the handler can be invoked with an error while `connect_state_` shows an
attempt in flight. -/
theorem not_failed_terminal :
    ¬ ∀ (cfg : Config) (ls : List Label) (s : State), (connector cfg).run {} ls = some s →
      ∀ op st, .invoked op st ∈ s.trace → op.isConn = true → op.admitted = true →
        op.ec.isError = true → st = .closed := by
  intro h
  have hbad := h {} (armConnect ++ hardErrorConnect) _ rfl _ _ List.mem_cons_self rfl rfl rfl
  cases hbad

end RdmaOnAsio.Ibv
