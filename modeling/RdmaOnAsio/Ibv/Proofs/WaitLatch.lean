import RdmaOnAsio.Ibv.Proofs.Accounting

/-!
# The level-triggered disconnect notification

A peer disconnect produces one event, and one wait op reads it and sets `peer_closed_`. The latch is
looked at when a wait is initiated and never again: a wait op that is armed beside the reader, or that
is between its look at the latch and `start_op`, stays armed. `wakesAll` excludes these two steps.
-/

namespace RdmaOnAsio.Ibv

open ErrorCode

/-- The wait op that sets `peer_closed_` is the only one armed, and no wait op is armed once the latch
is set. -/
def wakesAll (s : State) : Label → Bool
  | .perform _ =>
    match s.reactor with
    | .performing _ .storePeerClosed => s.readQueue.all CmOp.isConn
    | _ => true
  | .initiate _ =>
    match s.initiation with
    | .startOp op => op.isConn || !s.peerClosed
    | _ => true
  | _ => true

/-- Behind the latch no wait op is armed. -/
def NoWaiter (s : State) : Prop := s.peerClosed = true → ∀ op ∈ s.armed, op.isConn = true

/-- A wait op with this address. -/
def CmOp.waitsAt (a : Nat) (op : CmOp) : Bool := op.kind == .wait && op.addr == a

/-- A wait with this address is initiated. -/
def Label.startsWait (a : Nat) : Label → Bool
  | .asyncWaitDisconnect addr _ => addr == a
  | _ => false

/-- The handler of a wait op with this address is invoked. -/
def Action.invokesWait (a : Nat) : Action → Bool
  | .invoked op _ => op.waitsAt a
  | _ => false

/-- The wait initiated with `op` is before its look at the latch, about to be posted with
`rdma_errc::disconnected`, posted with it, or reported with it. -/
def State.Completes (s : State) (op : CmOp) : Prop :=
  s.initiation = .waitLatch op ∨ s.initiation = .post { op with ec := .rdma .disconnected } ∨
    { op with ec := .rdma .disconnected } ∈ s.retired ∨
    ∃ c, .invoked { op with ec := .rdma .disconnected } c ∈ s.trace

variable {cfg : Config} {s t s' : State} {op : CmOp} {pc : PerformPc} {r : CmOp × Outcome}

@[simp] theorem State.peerClosed_log (a : Action) : (s.log a).peerClosed = s.peerClosed := rfl

@[simp] theorem State.peerClosed_nextOp : s.nextOp.peerClosed = s.peerClosed := by
  obtain ⟨_, _, _, _, _, h⟩ := s.nextOp_frame
  rw [h]

@[simp] theorem State.peerClosed_proceed : (s.proceed r).peerClosed = s.peerClosed := by
  obtain ⟨_, _, _, _, _, h⟩ := s.proceed_frame (r := r)
  rw [h]

/-! ## Nobody waits behind the latch -/

/-- A step that leaves the latch alone and arms no wait op keeps the condition. -/
theorem NoWaiter.mono (h : NoWaiter s) (hp : s'.peerClosed = s.peerClosed)
    (harmed : ∀ op ∈ s'.armed, op.isConn = true ∨ ∃ o ∈ s.armed, o.kind = op.kind) :
    NoWaiter s' := by
  intro hset op hop
  rcases harmed op hop with hconn | ⟨o, ho, hk⟩
  · exact hconn
  · have := h (hp ▸ hset) o ho
    rwa [CmOp.isConn, hk] at this

theorem NoWaiter.of_armed (h : NoWaiter s) (hp : s'.peerClosed = s.peerClosed)
    (harmed : s'.armed ⊆ s.armed) : NoWaiter s' :=
  h.mono hp fun op hop => .inr ⟨op, harmed hop, rfl⟩

/-- The initiation arms a wait op before the latch is set, or keeps the condition. -/
theorem NoWaiter.initiates (h : NoWaiter s) {a : Answer} (hst : Initiates s a s') :
    NoWaiter s' ↔ wakesAll s (.initiate a) = true := by
  have hkeep : (∀ op, s.initiation ≠ .startOp op) → NoWaiter s' →
      (NoWaiter s' ↔ wakesAll s (.initiate a) = true) := by
    intro hne hs'
    refine iff_of_true hs' ?_
    unfold wakesAll
    cases hi : s.initiation with
    | startOp op => exact absurd hi (hne op)
    | _ => rfl
  cases hst with
  | started op hi hr =>
    have harmed : (s.startOp op).armed = s.armed ++ [op] := (List.append_assoc ..).symm
    simp only [wakesAll, hi, Bool.or_eq_true, Bool.not_eq_true']
    constructor
    · intro hs'
      by_cases hp : s.peerClosed = true
      · refine .inl (hs' hp op ?_)
        show op ∈ (s.startOp op).armed
        rw [harmed]
        exact List.mem_append_right _ (List.mem_singleton_self op)
      · exact .inr (by simpa using hp)
    · rintro hor hp o ho
      replace ho : o ∈ s.armed ++ [op] := harmed ▸ ho
      rcases List.mem_append.1 ho with ho | ho
      · exact h hp o ho
      · obtain rfl := List.mem_singleton.1 ho
        rcases hor with hconn | hclear
        · exact hconn
        · exact absurd (hclear.symm.trans hp) Bool.false_ne_true
  | guardPassed op hi hs =>
    obtain ⟨sl, hsl⟩ := s.armCmCancellation_frame { op with admitted := true }
    rw [hsl] at hkeep ⊢
    exact hkeep (by simp [hi]) (h.of_armed rfl (List.Subset.refl _))
  | waitOpen op hi hs =>
    obtain ⟨sl, hsl⟩ := s.armCmCancellation_frame op
    rw [hsl] at hkeep ⊢
    exact hkeep (by simp [hi]) (h.of_armed rfl (List.Subset.refl _))
  | guardRejected op hi hs => exact hkeep (by simp [hi]) (h.of_armed rfl (List.Subset.refl _))
  | resolveAddrOk op hi => exact hkeep (by simp [hi]) (h.of_armed rfl (List.Subset.refl _))
  | resolveAddrFailed op errno hi => exact hkeep (by simp [hi]) (h.of_armed rfl (List.Subset.refl _))
  | published op hi hs => exact hkeep (by simp [hi]) (h.of_armed rfl (List.Subset.refl _))
  | publishLost op hi hs => exact hkeep (by simp [hi]) (h.of_armed rfl (List.Subset.refl _))
  | createQpFailed op ec hi he => exact hkeep (by simp [hi]) (h.of_armed rfl (List.Subset.refl _))
  | createQpOk op ec hi he => exact hkeep (by simp [hi]) (h.of_armed rfl (List.Subset.refl _))
  | acceptOk op hi => exact hkeep (by simp [hi]) (h.of_armed rfl (List.Subset.refl _))
  | acceptFailed op errno hi => exact hkeep (by simp [hi]) (h.of_armed rfl (List.Subset.refl _))
  | storedClosed op hi => exact hkeep (by simp [hi]) (h.of_armed rfl (List.Subset.refl _))
  | posted op hi => exact hkeep (by simp [hi]) (h.of_armed rfl (List.Subset.refl _))
  | latchSet op hi hp => exact hkeep (by simp [hi]) (h.of_armed rfl (List.Subset.refl _))
  | latchClear op hi hp => exact hkeep (by simp [hi]) (h.of_armed rfl (List.Subset.refl _))
  | waitClosed op hi hs => exact hkeep (by simp [hi]) (h.of_armed rfl (List.Subset.refl _))

/-- The performed op sets the latch with no wait op behind it, or the condition is kept. -/
theorem NoWaiter.performs (h : NoWaiter s) (hr : s.reactor = .performing op pc) {a : Answer}
    (hst : Performs s op pc a t r) :
    NoWaiter (t.proceed r) ↔ wakesAll s (.perform a) = true := by
  have hkind : r.1.kind = op.kind := hst.same.1
  have hq : t.readQueue = s.readQueue := by cases hst <;> rfl
  by_cases hpc : pc = .storePeerClosed
  · subst hpc
    cases hst with
    | peerClosed =>
      simp only [wakesAll, hr, List.all_eq_true]
      constructor
      · intro hs' o ho
        refine hs' State.peerClosed_proceed o ?_
        rw [State.armed_proceed]
        exact ho
      · intro hall _ o ho
        rw [State.armed_proceed] at ho
        exact hall o ho
  · refine iff_of_true (h.mono ?_ ?_) ?_
    · rw [State.peerClosed_proceed]
      cases hst with
      | peerClosed => exact absurd rfl hpc
      | _ => rfl
    · -- the performed op may stay armed, in another stage
      intro o ho
      rw [State.armed_proceed, hq] at ho
      rcases List.mem_append.1 ho with ho | ho
      · refine .inr ⟨op, by simp [State.armed, hr, Reactor.ops], ?_⟩
        obtain ⟨o', out⟩ := r
        obtain rfl : o = o' := by
          cases out with
          | goto pc' => exact List.mem_singleton.1 ho
          | ret st =>
            cases st with
            | notDone => exact List.mem_singleton.1 ho
            | done => cases ho
        exact hkind.symm
      · exact .inr ⟨o, List.mem_append_right _ ho, rfl⟩
    · unfold wakesAll
      rw [hr]
      cases pc with
      | storePeerClosed => exact absurd rfl hpc
      | _ => rfl

theorem NoWaiter.cancelWhere (h : NoWaiter s) {p : CmOp → Bool} {cs : List DisconnectPc}
    {lt : Lifetime} :
    NoWaiter { s.cancelWhere p with callers := cs, lifetime := lt } := by
  refine h.of_armed rfl fun o ho => ?_
  rcases List.mem_append.1 ho with ho | ho
  · exact List.mem_append_left _ ho
  · exact List.mem_append_right _ (List.mem_filter.1 ho).1

/-- Every step keeps the condition exactly if it leaves no wait op behind the latch. -/
theorem NoWaiter.step {l : Label} (h : NoWaiter s) (hst : (connector cfg).step s l = some s') :
    NoWaiter s' ↔ wakesAll s l = true := by
  cases Step.of_step hst with
  | initiate a _ hin => exact h.initiates hin
  | perform op pc a t r hr hp => exact h.performs hr hp
  | event ev hlt => exact iff_of_true (h.of_armed rfl (List.Subset.refl _)) rfl
  | beginConnect addr slot hasCreateQp requestSize replyCap hi hlt =>
    exact iff_of_true (h.of_armed rfl (List.Subset.refl _)) rfl
  | beginAccept addr slot hasCreateQp bindFails dataSize hi hlt =>
    exact iff_of_true (h.of_armed rfl (List.Subset.refl _)) rfl
  | beginWait addr slot hi hlt => exact iff_of_true (h.of_armed rfl (List.Subset.refl _)) rfl
  | performIo he hr hlt =>
    refine iff_of_true (h.of_armed State.peerClosed_nextOp fun o ho => ?_) rfl
    rwa [State.armed_nextOp (s := s.takeEdge) hr] at ho
  | complete i op hop =>
    refine iff_of_true ?_ rfl
    unfold completeOp
    split_ifs
    · exact h.of_armed rfl (List.Subset.refl _)
    · exact h.of_armed rfl (List.Subset.refl _)
  | enterDisconnect hlt => exact iff_of_true (h.of_armed rfl (List.Subset.refl _)) rfl
  | disconnectStep i a _ hd =>
    refine iff_of_true ?_ rfl
    cases hd with
    | cancel old hi hr =>
      rw [State.cancelOps_eq]
      exact h.cancelWhere
    | _ => exact h.of_armed rfl (List.Subset.refl _)
  | emit key hk hr hlt =>
    refine iff_of_true ?_ rfl
    rw [State.cancelOpsByKey_eq]
    exact h.cancelWhere
  | closeForDestruction hlt hi hr hc =>
    refine iff_of_true ?_ rfl
    rw [State.cancelOps_eq]
    exact h.cancelWhere
  | drainEstablished ev rest hlt hc he => exact iff_of_true (h.of_armed rfl (List.Subset.refl _)) rfl
  | drainOther ev rest hlt hc he => exact iff_of_true (h.of_armed rfl (List.Subset.refl _)) rfl
  | drainEnd hlt hc => exact iff_of_true (h.of_armed rfl (List.Subset.refl _)) rfl
  | drainHardError errno hlt => exact iff_of_true (h.of_armed rfl (List.Subset.refl _)) rfl

/-! ## A wait initiated behind the latch -/

/-- The latch is never cleared. -/
theorem peerClosed_step {l : Label} (hst : (connector cfg).step s l = some s')
    (h : s.peerClosed = true) : s'.peerClosed = true := by
  cases Step.of_step hst with
  | initiate a _ hin =>
    cases hin with
    | guardPassed op hi hs =>
      obtain ⟨sl, hsl⟩ := s.armCmCancellation_frame { op with admitted := true }
      rw [hsl]
      exact h
    | waitOpen op hi hs =>
      obtain ⟨sl, hsl⟩ := s.armCmCancellation_frame op
      rw [hsl]
      exact h
    | _ => exact h
  | perform op pc a t r hr hp =>
    rw [State.peerClosed_proceed]
    cases hp with
    | peerClosed => rfl
    | _ => exact h
  | performIo he hr hlt =>
    rw [State.peerClosed_nextOp]
    exact h
  | complete i op hop =>
    unfold completeOp
    split_ifs
    · exact h
    · exact h
  | disconnectStep i a _ hd => cases hd <;> exact h
  | _ => exact h

/-- A step that leaves the initiation alone and only adds to what is finished or reported keeps the
wait on its way. -/
theorem State.Completes.mono (h : s.Completes op) (hi : s'.initiation = s.initiation)
    (hret : s.retired ⊆ s'.retired) (htr : s.trace ⊆ s'.trace) : s'.Completes op := by
  unfold State.Completes
  rw [hi]
  rcases h with h | h | h | ⟨c, h⟩
  · exact .inl h
  · exact .inr (.inl h)
  · exact .inr (.inr (.inl (hret h)))
  · exact .inr (.inr (.inr ⟨c, htr h⟩))

/-- A step of the initiation of another op. -/
theorem State.Completes.other (h : s.Completes op) (hne : s.initiation ≠ .waitLatch op)
    (hne' : s.initiation ≠ .post { op with ec := .rdma .disconnected })
    (hret : s.retired ⊆ s'.retired) (htr : s.trace ⊆ s'.trace) : s'.Completes op := by
  rcases h with h | h | h | ⟨c, h⟩
  · exact absurd h hne
  · exact absurd h hne'
  · exact .inr (.inr (.inl (hret h)))
  · exact .inr (.inr (.inr ⟨c, htr h⟩))

theorem State.Completes.initiates (h : s.Completes op) (hp : s.peerClosed = true) {a : Answer}
    (hst : Initiates s a s') : s'.Completes op := by
  cases hst with
  | latchSet o hi hp' =>
    by_cases hop : o = op
    · obtain rfl := hop
      exact .inr (.inl rfl)
    · exact h.other (by simp [hi, hop]) (by simp [hi]) (List.Subset.refl _) (List.Subset.refl _)
  | latchClear o hi hp' => exact absurd (hp'.symm.trans hp) Bool.false_ne_true
  | posted o hi =>
    have hret : s.retired ⊆ s.ioCleanup ++ (s.scheduled ++ [o]) := by
      rw [← List.append_assoc]
      exact List.subset_append_left _ _
    by_cases hop : o = { op with ec := .rdma .disconnected }
    · refine .inr (.inr (.inl (List.mem_append_right _ (List.mem_append_right _ ?_))))
      exact List.mem_singleton.2 hop.symm
    · exact h.other (by simp [hi]) (by simp [hi, hop]) hret (List.Subset.refl _)
  | guardPassed o hi hs =>
    obtain ⟨sl, hsl⟩ := s.armCmCancellation_frame { o with admitted := true }
    rw [hsl]
    exact h.other (by simp [hi]) (by simp [hi]) (List.Subset.refl _) (List.Subset.refl _)
  | waitOpen o hi hs =>
    obtain ⟨sl, hsl⟩ := s.armCmCancellation_frame o
    rw [hsl]
    exact h.other (by simp [hi]) (by simp [hi]) (List.Subset.refl _) (List.Subset.refl _)
  | resolveAddrOk o hi =>
    exact h.other (by simp [hi]) (by simp [hi]) (List.Subset.refl _) (List.subset_cons_self _ _)
  | resolveAddrFailed o errno hi =>
    exact h.other (by simp [hi]) (by simp [hi]) (List.Subset.refl _) (List.subset_cons_self _ _)
  | published o hi hs =>
    exact h.other (by simp [hi]) (by simp [hi]) (List.Subset.refl _) (List.subset_cons_self _ _)
  | createQpFailed o ec hi he =>
    exact h.other (by simp [hi]) (by simp [hi]) (List.Subset.refl _) (List.subset_cons_self _ _)
  | createQpOk o ec hi he =>
    exact h.other (by simp [hi]) (by simp [hi]) (List.Subset.refl _) (List.subset_cons_self _ _)
  | acceptOk o hi =>
    exact h.other (by simp [hi]) (by simp [hi]) (List.Subset.refl _) (List.subset_cons_self _ _)
  | acceptFailed o errno hi =>
    exact h.other (by simp [hi]) (by simp [hi]) (List.Subset.refl _) (List.subset_cons_self _ _)
  | storedClosed o hi =>
    exact h.other (by simp [hi]) (by simp [hi]) (List.Subset.refl _) (List.subset_cons_self _ _)
  | guardRejected o hi hs =>
    exact h.other (by simp [hi]) (by simp [hi]) (List.Subset.refl _) (List.Subset.refl _)
  | publishLost o hi hs =>
    exact h.other (by simp [hi]) (by simp [hi]) (List.Subset.refl _) (List.Subset.refl _)
  | started o hi hr =>
    exact h.other (by simp [hi]) (by simp [hi]) (List.Subset.refl _) (List.Subset.refl _)
  | waitClosed o hi hs =>
    exact h.other (by simp [hi]) (by simp [hi]) (List.Subset.refl _) (List.Subset.refl _)

theorem State.Completes.performs (h : s.Completes op) {o : CmOp}
    (hr : s.reactor = .performing o pc) {a : Answer} (hst : Performs s o pc a t r) :
    (t.proceed r).Completes op := by
  refine h.mono ?_ (fun o' ho' => State.retired_proceed.mem_iff.2 (List.mem_append_left _ ?_)) ?_
  · rw [State.initiation_proceed]
    cases hst <;> rfl
  · cases hst <;> exact ho'
  · rw [State.trace_proceed]
    cases hst <;> first | exact List.Subset.refl _ | exact List.subset_cons_self _ _

/-- Running a completion reports the op, and keeps the others finished. -/
theorem State.Completes.complete (h : s.Completes op) {i : Nat} {o : CmOp}
    (ho : s.scheduled[i]? = some o) :
    (completeOp cfg { s with scheduled := s.scheduled.eraseIdx i } o).Completes op := by
  obtain ⟨hi, rfl⟩ := List.getElem?_eq_some_iff.1 ho
  have hperm := List.getElem_cons_eraseIdx_perm hi
  rcases h with h | h | h | ⟨c, h⟩
  · refine .inl ?_
    unfold completeOp
    split_ifs <;> exact h
  · refine .inr (.inl ?_)
    unfold completeOp
    split_ifs <;> exact h
  · rcases List.mem_append.1 h with h | h
    · refine .inr (.inr (.inl (List.mem_append_left _ ?_)))
      unfold completeOp
      split_ifs <;> exact h
    · rcases List.mem_cons.1 (hperm.mem_iff.2 h) with heq | h
      · rw [State.Completes, heq]
        exact .inr (.inr (.inr ⟨_, List.mem_cons_self⟩))
      · refine .inr (.inr (.inl (List.mem_append_right _ ?_)))
        unfold completeOp
        split_ifs <;> exact h
  · refine .inr (.inr (.inr ⟨c, List.mem_cons_of_mem _ ?_⟩))
    split_ifs
    · exact List.mem_cons_of_mem _ h
    · exact h

theorem State.Completes.cancelWhere (h : s.Completes op) {p : CmOp → Bool}
    {cs : List DisconnectPc} {lt : Lifetime} :
    State.Completes { s.cancelWhere p with callers := cs, lifetime := lt } op :=
  h.mono rfl (fun _ ho => State.mem_retired_cancelWhere.2 (.inl ho)) (List.Subset.refl _)

/-- Behind the latch a wait on its way to `rdma_errc::disconnected` stays on it. -/
theorem State.Completes.step {l : Label} (h : s.Completes op) (hp : s.peerClosed = true)
    (hst : (connector cfg).step s l = some s') : s'.Completes op := by
  cases Step.of_step hst with
  | initiate a _ hin => exact h.initiates hp hin
  | perform o pc a t r hr hp' => exact h.performs hr hp'
  | complete i o ho => exact h.complete ho
  | event ev hlt => exact h.mono rfl (List.Subset.refl _) (List.subset_cons_self _ _)
  | beginConnect addr slot hasCreateQp requestSize replyCap hi hlt =>
    exact h.other (by simp [hi]) (by simp [hi]) (List.Subset.refl _) (List.Subset.refl _)
  | beginAccept addr slot hasCreateQp bindFails dataSize hi hlt =>
    exact h.other (by simp [hi]) (by simp [hi]) (List.Subset.refl _) (List.Subset.refl _)
  | beginWait addr slot hi hlt =>
    exact h.other (by simp [hi]) (by simp [hi]) (List.Subset.refl _) (List.Subset.refl _)
  | performIo he hr hlt =>
    refine h.mono State.initiation_nextOp (fun o ho => ?_) ?_
    · exact (State.retired_nextOp (s := s.takeEdge)).mem_iff.2 ho
    · rw [State.trace_nextOp]
      exact List.Subset.refl _
  | enterDisconnect hlt => exact h.mono rfl (List.Subset.refl _) (List.Subset.refl _)
  | disconnectStep i a _ hd =>
    cases hd with
    | load hi => exact h.mono rfl (List.Subset.refl _) (List.Subset.refl _)
    | retry old a hi ha => exact h.mono rfl (List.Subset.refl _) (List.Subset.refl _)
    | won old hi hs => exact h.mono rfl (List.Subset.refl _) (List.subset_cons_self _ _)
    | native res hi => exact h.mono rfl (List.Subset.refl _) (List.subset_cons_self _ _)
    | cancel old hi hr =>
      rw [State.cancelOps_eq]
      exact h.cancelWhere
  | emit key hk hr hlt =>
    rw [State.cancelOpsByKey_eq]
    exact h.cancelWhere
  | closeForDestruction hlt hi hr hc =>
    rw [State.cancelOps_eq]
    exact h.cancelWhere
  | drainEstablished ev rest hlt hc he =>
    refine h.mono rfl (List.Subset.refl _) ?_
    exact List.Subset.trans (List.subset_cons_self _ _) (List.subset_cons_self _ _)
  | drainOther ev rest hlt hc he =>
    exact h.mono rfl (List.Subset.refl _) (List.subset_cons_self _ _)
  | drainEnd hlt hc => exact h.mono rfl (List.Subset.refl _) (List.Subset.refl _)
  | drainHardError errno hlt => exact h.mono rfl (List.Subset.refl _) (List.Subset.refl _)

/-- A wait initiated behind the latch is never armed: along every run it completes with
`rdma_errc::disconnected`. -/
theorem completes_of_peerClosed {addr : Nat} {slot : Bool} {ls : List Label}
    (hp : s.peerClosed = true)
    (hr : (connector cfg).run s (.asyncWaitDisconnect addr slot :: ls) = some s') :
    s'.Completes (.newWait addr slot) := by
  obtain ⟨t, ht, hrest⟩ := StepSystem.run_cons.1 hr
  have hpt : t.peerClosed = true := peerClosed_step ht hp
  have h0 : t.Completes (.newWait addr slot) := by
    cases Step.of_step ht
    exact .inl rfl
  have hinv := StepSystem.invariant (M := connector cfg)
    (I := fun s => s.peerClosed = true ∧ s.Completes (.newWait addr slot))
    (fun _ _ _ h hst => ⟨peerClosed_step hst h.1, h.2.step h.1 hst⟩) hrest ⟨hpt, h0⟩
  exact hinv.2

/-! ## Whole runs -/

/-- The wait ops initiated so far are in the hands of the initiating thread, armed, finished or
reported. -/
theorem waits_accounted {ls : List Label} {a : Nat} (hr : (connector cfg).run {} ls = some s) :
    ls.countP (Label.startsWait a) =
      s.initiation.ops.countP (CmOp.waitsAt a) + s.armed.countP (CmOp.waitsAt a) +
        s.retired.countP (CmOp.waitsAt a) + s.trace.countP (Action.invokesWait a) := by
  have hinv : Action.invokesWait a = Action.reports fun k x => k == .wait && x == a := by
    funext act
    cases act <;> rfl
  have hstarts : Label.startsWait a = Label.begins fun k x => k == .wait && x == a := by
    funext l
    cases l <;> rfl
  have hrun := State.held_run (f := fun k x => k == .wait && x == a) hr
  have hnil : ({} : State).held (fun k x => k == .wait && x == a) = 0 := rfl
  rw [hnil, Nat.zero_add] at hrun
  rw [hinv, hstarts]
  exact hrun.symm

/-- Behind the latch, every wait op initiated so far is finished or reported, unless the initiating
thread still has it, and every later one completes with `rdma_errc::disconnected` without being armed.
`pre` is the run that led to `s`. -/
structure State.LevelTriggered (cfg : Config) (pre : List Label) (s : State) : Prop where
  armed : ∀ op ∈ s.armed, op.isConn = true
  earlier : ∀ a, pre.countP (Label.startsWait a) =
    s.initiation.ops.countP (CmOp.waitsAt a) + s.retired.countP (CmOp.waitsAt a) +
      s.trace.countP (Action.invokesWait a)
  later : ∀ addr slot post u,
    (connector cfg).run s (.asyncWaitDisconnect addr slot :: post) = some u →
      u.Completes (.newWait addr slot)

theorem State.LevelTriggered.of_armed {pre : List Label}
    (hr : (connector cfg).run {} pre = some s) (hp : s.peerClosed = true)
    (h : ∀ op ∈ s.armed, op.isConn = true) : s.LevelTriggered cfg pre where
  armed := h
  earlier a := by
    have hnil : s.armed.countP (CmOp.waitsAt a) = 0 := by
      refine List.countP_eq_zero.2 fun op hop hat => ?_
      have hk : op.kind = .wait := by simpa using (Bool.and_eq_true_iff.1 hat).1
      have hconn := h op hop
      rw [CmOp.isConn, hk] at hconn
      cases hconn
    have hacc := waits_accounted (a := a) hr
    rw [hnil] at hacc
    omega
  later addr slot post u hu := completes_of_peerClosed hp hu

/-- The notification is level-triggered in every state of a run exactly if the wait op that sets the
latch is always the only one armed and no wait op is armed behind the latch. -/
theorem level_triggered_iff {ls : List Label} (hr : (connector cfg).run {} ls = some s) :
    (∀ pre t, pre <+: ls → (connector cfg).run {} pre = some t → t.peerClosed = true →
      t.LevelTriggered cfg pre) ↔
      (connector cfg).Meets (fun s l => wakesAll s l = true) {} ls := by
  have hiff := StepSystem.always_iff_meets (M := connector cfg) (I := fun _ => True)
    (P := NoWaiter) (C := fun s l => wakesAll s l = true) (fun _ _ _ hi _ _ => hi)
    (fun _ _ _ _ h hst => h.step hst) hr trivial (fun hp => nomatch hp)
  rw [← hiff]
  constructor
  · intro h pre t hpre ht hp
    exact (h pre t hpre ht hp).armed
  · intro h pre t hpre ht hp
    exact .of_armed ht hp (h pre t hpre ht hp)

/-- One wait, and the peer's `DISCONNECTED` event. -/
def waitOnce : List Label :=
  [.asyncWaitDisconnect 1 true, .initiate .run, .initiate .run, .initiate .run,
    .event ⟨.disconnected, 0, []⟩, .performIo, .perform .event, .perform .run]

/-- The waiter is woken. -/
theorem level_triggered_waitOnce :
    ((connector {}).after {} waitOnce).LevelTriggered {} waitOnce := by
  have hr := StepSystem.run_after
    (show ((connector {}).run {} waitOnce).isSome = true by decide +kernel)
  exact (level_triggered_iff hr).2 (by decide +kernel) waitOnce _ (List.prefix_refl _) hr
    (by decide +kernel)

/-- Two waits, and the peer's one `DISCONNECTED` event; the reactor goes through both ops. -/
def waitTwice : List Label :=
  [.asyncWaitDisconnect 1 true, .initiate .run, .initiate .run, .initiate .run,
    .asyncWaitDisconnect 2 true, .initiate .run, .initiate .run, .initiate .run,
    .event ⟨.disconnected, 0, []⟩, .performIo, .perform .event, .perform .run, .perform .again]

/-- The second waiter stays armed behind the latch after the reactor has finished with the edge and
released the descriptor. -/
theorem not_level_triggered :
    ¬ ∀ ls s, (connector {}).run {} ls = some s → s.peerClosed = true → s.reactor = .unlocked →
      ∀ op ∈ s.armed, op.isConn = true := by
  intro h
  have hr : ((connector {}).run {} waitTwice).isSome = true := by decide +kernel
  have := h waitTwice _ (StepSystem.run_after hr) (by decide +kernel) (by decide +kernel)
  revert this
  decide +kernel

end RdmaOnAsio.Ibv
