import RdmaOnAsio.Ibv.Proofs.Lockstep

/-!
# The connection state machine moves forward, and calls each native once

`connect_state_` only increases. A native call of the connection setup is made by the owner of the
attempt right after the exchange into the call's stage, and the state never returns to before that
stage, so no call is made twice.
-/

namespace RdmaOnAsio.Ibv

open ErrorCode

/-- The native calls of a connection setup that must happen once per `cm_id`; `rdma_connect` and
`rdma_accept` count together. -/
inductive NativeCall
  | createQp
  | resolveRoute
  | connect
deriving DecidableEq, Repr

/-- The setup call an action records. -/
def Action.native? : Action → Option NativeCall
  | .createQp _ => some .createQp
  | .resolveRoute _ => some .resolveRoute
  | .connect _ | .accept _ => some .connect
  | _ => none

/-- The exchange that must have succeeded before a setup call. -/
def Action.needs : Action → Option Action
  | .createQp .connect => some (.cas .connect .addrRoute)
  | .createQp k => some (.cas k .connecting)
  | .resolveRoute _ => some (.cas .connect .addrRoute)
  | .connect _ => some (.cas .connect .connecting)
  | .accept _ => some (.cas .accept .connecting)
  | _ => none

/-- The state from which on a setup call can have been made. -/
def NativeCall.stage : NativeCall → ConnectState
  | .createQp => .addrRoute
  | .resolveRoute => .addrRoute
  | .connect => .connecting

/-- The setup calls a `do_perform` can make from here on without another event or exchange. -/
def PerformPc.mayCall : PerformPc → NativeCall → Bool
  | .createQp, .createQp | .createQp, .resolveRoute => true
  | .resolveRoute, .resolveRoute => true
  | .connect, .connect => true
  | _, _ => false

/-- The setup calls an initiation can make from here on without another exchange. -/
def InitPc.mayCall : InitPc → NativeCall → Bool
  | .createQp _, .createQp | .createQp _, .connect => true
  | .accept _, .connect => true
  | _, _ => false

def Reactor.mayCall : Reactor → NativeCall → Bool
  | .unlocked, _ => false
  | .performing _ pc, n => pc.mayCall n

namespace State

/-- How often a setup call has been made. -/
def calls (s : State) (n : NativeCall) : Nat := s.trace.countP fun a => a.native? == some n

/-- The setup calls that are about to be made. -/
def mayCall (s : State) (n : NativeCall) : Bool := s.reactor.mayCall n || s.initiation.mayCall n

end State

/-- Every setup call comes after the exchange into its stage (the trace is newest first). -/
def Preceded (tr : List Action) : Prop :=
  ∀ newer a older, tr = newer ++ a :: older → ∀ b, a.needs = some b → b ∈ older

/-- The pairs of a pending connect op's `stage_` and `connect_state_`. -/
def lockstepPairs : List (Stage × ConnectState) :=
  [(.addrResolve, .addrResolve), (.addrRoute, .addrRoute), (.connect, .connecting)]

/-- The single-shot invariant. -/
structure SingleShot (s : State) : Prop where
  once : ∀ n, s.calls n ≤ 1
  early : ∀ n, s.connectState.rank < n.stage.rank → s.calls n = 0
  pending : ∀ n, s.mayCall n = true → s.calls n = 0
  preceded : Preceded s.trace

variable {cfg : Config} {s t s' : State} {op : CmOp} {pc : PerformPc} {r : CmOp × Outcome}

/-! ## The order of the states -/

theorem rank_le_closed (c : ConnectState) : c.rank ≤ ConnectState.closed.rank := by
  cases c <;> decide

/-- What is at `e`, or has been torn down since, has reached `e`. -/
theorem rank_le_of_or_closed {c e : ConnectState} (h : c = e ∨ c = .closed) : e.rank ≤ c.rank := by
  rcases h with rfl | rfl
  · exact Nat.le_refl _
  · exact rank_le_closed e

/-- Nothing lies beyond `closed`. -/
theorem eq_closed_of_rank {c : ConnectState} (h : ConnectState.closed.rank ≤ c.rank) :
    c = .closed := by
  cases c <;> first | rfl | (revert h; decide)

/-- A step of `do_perform` moves `connect_state_` forward. -/
theorem Performs.rank_le (h : Lockstep cfg s) (hr : s.reactor = .performing op pc) {a : Answer}
    (hst : Performs s op pc a t r) : s.connectState.rank ≤ t.connectState.rank := by
  have hpc := h.ops.performing op pc hr
  cases hst with
  | advanceWon expected desired hs =>
    obtain ⟨-, -, hd⟩ := hpc
    rcases hd with ⟨rfl, rfl⟩ | ⟨rfl, rfl⟩
    · rw [hs]
      show 1 ≤ 2
      omega
    · rw [hs]
      show 2 ≤ 3
      omega
  | establishedWon ev hs =>
    rw [hs]
    show 3 ≤ 4
    omega
  | claimWon e hs => exact rank_le_closed _
  | _ => exact Nat.le_refl _

/-- A step of the initiation moves `connect_state_` forward. -/
theorem Initiates.rank_le {a : Answer} (hst : Initiates s a s') :
    s.connectState.rank ≤ s'.connectState.rank := by
  cases hst with
  | guardPassed op hi hs =>
    obtain ⟨sl, hsl⟩ := s.armCmCancellation_frame { op with admitted := true }
    exact Nat.le_of_eq (by rw [hsl])
  | published op hi hs =>
    rw [hs]
    exact Nat.zero_le _
  | storedClosed op hi => exact rank_le_closed _
  | waitOpen op hi hs =>
    obtain ⟨sl, hsl⟩ := s.armCmCancellation_frame op
    exact Nat.le_of_eq (by rw [hsl])
  | _ => exact Nat.le_refl _

theorem Disconnects.rank_le {i : Nat} {a : Answer} (hst : Disconnects s i a s') :
    s.connectState.rank ≤ s'.connectState.rank := by
  cases hst with
  | won old hi hs => exact rank_le_closed _
  | _ => exact Nat.le_refl _

theorem completeOp_rank_le : s.connectState.rank ≤ (completeOp cfg s op).connectState.rank := by
  unfold completeOp
  split_ifs
  · exact rank_le_closed _
  · exact Nat.le_refl _

/-- Every step moves `connect_state_` forward. -/
theorem Lockstep.rank_le {l : Label} (h : Lockstep cfg s)
    (hst : (connector cfg).step s l = some s') : s.connectState.rank ≤ s'.connectState.rank := by
  cases Step.of_step hst with
  | initiate a _ hin => exact hin.rank_le
  | performIo he hr hl =>
    exact Nat.le_of_eq (by rw [State.connectState_nextOp, State.connectState_takeEdge])
  | perform op pc a t r hr hp =>
    rw [State.connectState_proceed]
    exact Performs.rank_le h hr hp
  | complete i op hop =>
    exact completeOp_rank_le (s := { s with scheduled := s.scheduled.eraseIdx i })
  | disconnectStep i a _ hd => exact hd.rank_le
  | _ => exact Nat.le_refl _

/-! ## The calls -/

theorem Preceded.cons {a : Action} {tr : List Action} (h : Preceded tr)
    (ha : ∀ b, a.needs = some b → b ∈ tr) : Preceded (a :: tr) := by
  intro newer x older heq b hb
  cases newer with
  | nil =>
    obtain ⟨rfl, rfl⟩ := List.cons.inj heq
    exact ha b hb
  | cons y newer =>
    obtain ⟨-, rfl⟩ := List.cons.inj heq
    exact h newer x older rfl b hb

theorem needs_of_native? {a : Action} (h : a.native? = none) : a.needs = none := by
  cases a <;> first | rfl | cases h

/-- A step that makes no setup call keeps the invariant, if no call becomes imminent that was made
before. -/
theorem SingleShot.quiet (h : SingleShot s) {w : List Action} (htr : s'.trace = w ++ s.trace)
    (hw : ∀ a ∈ w, a.native? = none) (hrank : s.connectState.rank ≤ s'.connectState.rank)
    (hp : ∀ n, s'.mayCall n = true → s.calls n = 0) : SingleShot s' := by
  have hcalls : ∀ n, s'.calls n = s.calls n := by
    intro n
    have hz : w.countP (fun a => a.native? == some n) = 0 := by
      rw [List.countP_eq_zero]
      intro a ha
      simp [hw a ha]
    rw [State.calls, htr, List.countP_append, hz, Nat.zero_add, State.calls]
  refine ⟨fun n => ?_, fun n hn => ?_, fun n hn => ?_, ?_⟩
  · rw [hcalls]
    exact h.once n
  · rw [hcalls]
    exact h.early n (by omega)
  · rw [hcalls]
    exact hp n hn
  · rw [htr]
    clear htr hcalls
    induction w with
    | nil => exact h.preceded
    | cons a w ih =>
      have hrest := ih fun b hb => hw b (List.mem_cons_of_mem _ hb)
      refine hrest.cons fun b hb => ?_
      rw [needs_of_native? (hw a List.mem_cons_self)] at hb
      cases hb

/-- A setup call that was imminent keeps the invariant. -/
theorem SingleShot.call (h : SingleShot s) {a : Action} {n : NativeCall}
    (ha : a.native? = some n) (hz : s.mayCall n = true) (htr : s'.trace = a :: s.trace)
    (hneeds : ∀ b, a.needs = some b → b ∈ s.trace) (hc : s'.connectState = s.connectState)
    (hrank : n.stage.rank ≤ s.connectState.rank)
    (hp : ∀ m, s'.mayCall m = true → m ≠ n ∧ s.mayCall m = true) : SingleShot s' := by
  have hcalls : ∀ m, s'.calls m = s.calls m + if m = n then 1 else 0 := by
    intro m
    rw [State.calls, htr, List.countP_cons, ha, State.calls]
    by_cases hm : m = n
    · simp [hm]
    · simp [hm, Ne.symm hm]
  have hzero := h.pending n hz
  refine ⟨fun m => ?_, fun m hm => ?_, fun m hm => ?_, ?_⟩
  · rw [hcalls]
    by_cases hmn : m = n
    · simp [hmn, hzero]
    · simpa [hmn] using h.once m
  · rw [hc] at hm
    have hmn : m ≠ n := by
      rintro rfl
      omega
    rw [hcalls, h.early m hm, if_neg hmn]
  · obtain ⟨hmn, hold⟩ := hp m hm
    rw [hcalls, h.pending m hold, if_neg hmn]
  · rw [htr]
    exact h.preceded.cons hneeds

/-- What is imminent after a piece of `do_perform`. -/
theorem mayCall_proceed {n : NativeCall} (h : (t.proceed r).mayCall n = true) :
    (∃ pc', r.2 = .goto pc' ∧ pc'.mayCall n = true) ∨ t.initiation.mayCall n = true := by
  rw [State.mayCall, Bool.or_eq_true, State.initiation_proceed] at h
  rcases h with h | h
  · cases hr : (t.proceed r).reactor with
    | unlocked => simp [hr, Reactor.mayCall] at h
    | performing o pc' =>
      rw [hr] at h
      rcases State.performing_proceed hr with rfl | ⟨-, rfl⟩
      · exact .inl ⟨pc', rfl, h⟩
      · cases n <;> cases h
  · exact .inr h

theorem InitPc.mayCall_eq_false {i : InitPc} (h : i.owns = 0) (n : NativeCall) :
    i.mayCall n = false := by
  cases i <;> first | rfl | cases h

/-- An op that goes on to a step that makes no setup call leaves none imminent. -/
theorem SingleShot.proceed (h : SingleShot s) {w : List Action} (hi : t.initiation = s.initiation)
    (htr : t.trace = w ++ s.trace) (hw : ∀ a ∈ w, a.native? = none)
    (hrank : s.connectState.rank ≤ t.connectState.rank)
    (hp : ∀ pc' n, r.2 = .goto pc' → pc'.mayCall n = true → s.calls n = 0) :
    SingleShot (t.proceed r) := by
  refine h.quiet (by rw [State.trace_proceed, htr]) hw (by rwa [State.connectState_proceed]) ?_
  intro n hn
  rcases mayCall_proceed hn with ⟨pc', hpc', hn⟩ | hn
  · exact hp pc' n hpc' hn
  · rw [hi] at hn
    exact h.pending n (by rw [State.mayCall, hn, Bool.or_true])

theorem Handles.mayCall {ev : CmEvent} (h : Handles op ev r) {pc' : PerformPc} {n : NativeCall}
    (hpc : r.2 = .goto pc') (hn : pc'.mayCall n = true) : False := by
  cases h <;> cases hpc <;> cases hn

theorem claimRead_mayCall {e : ConnectState} {pc' : PerformPc} {n : NativeCall}
    (hpc : (op.claimRead e).2 = .goto pc') (hn : pc'.mayCall n = true) : False := by
  unfold CmOp.claimRead at hpc
  split_ifs at hpc
  cases hpc
  cases n <;> cases hn

/-- A setup call of the op: the initiation owns nothing, so only the op's own next step counts. -/
theorem SingleShot.performsCall (h : SingleShot s) (hl : Lockstep cfg s)
    (hr : s.reactor = .performing op pc) (hconn : op.isConn = true) {x : Action} {n : NativeCall}
    (hx : x.native? = some n) (hn : pc.mayCall n = true)
    (hneeds : ∀ b, x.needs = some b → b ∈ s.trace) (hstage : n.stage.rank ≤ s.connectState.rank)
    (hnext : ∀ pc' m, r.2 = .goto pc' → pc'.mayCall m = true → m ≠ n ∧ pc.mayCall m = true) :
    SingleShot ((s.log x).proceed r) := by
  have hown := (hl.alone hr hconn).2.1
  have hmay : ∀ m, pc.mayCall m = true → s.mayCall m = true := by
    intro m hm
    rw [State.mayCall, hr, Reactor.mayCall, hm, Bool.true_or]
  refine h.call hx (hmay n hn) (by rw [State.trace_proceed, State.trace_log]) hneeds
    (by rw [State.connectState_proceed, State.connectState_log]) hstage fun m hm => ?_
  rcases mayCall_proceed hm with ⟨pc', hpc', hm⟩ | hm
  · obtain ⟨hne, hm⟩ := hnext pc' m hpc' hm
    exact ⟨hne, hmay m hm⟩
  · rw [State.initiation_log, InitPc.mayCall_eq_false hown] at hm
    cases hm

/-- A step of `do_perform` keeps the invariant. -/
theorem SingleShot.performs (h : SingleShot s) (hl : Lockstep cfg s)
    (hr : s.reactor = .performing op pc) {a : Answer} (hst : Performs s op pc a t r) :
    SingleShot (t.proceed r) := by
  have hrank := Performs.rank_le hl hr hst
  have hpc := hl.ops.performing op pc hr
  cases hst with
  | readEvent ev rest hc =>
    refine h.proceed (w := [.read (.op op.kind) ev]) rfl rfl (by simp [Action.native?]) hrank ?_
    intro pc' n hgo hn
    exact ((Handles.of_onEvent op ev).mayCall hgo hn).elim
  | readAgain hc =>
    exact h.proceed (w := []) rfl rfl (by simp) hrank (fun _ _ hgo => by cases hgo)
  | readHardError errno hne =>
    exact h.proceed (w := []) rfl rfl (by simp) hrank (fun _ _ hgo => by cases hgo)
  | advanceWon expected desired hs =>
    obtain ⟨hk, -, hd⟩ := hpc
    refine h.proceed (w := [.cas op.kind desired]) rfl rfl (by simp [Action.native?]) hrank ?_
    intro pc' n hgo hn
    refine h.early n ?_
    rw [hs]
    rcases hd with ⟨rfl, rfl⟩ | ⟨rfl, rfl⟩
    · cases n <;> decide
    · obtain rfl : PerformPc.connect = pc' := by simpa [CmOp.advanced] using hgo
      cases n with
      | createQp => cases hn
      | resolveRoute => cases hn
      | connect => decide
  | advanceLost expected desired hs =>
    exact h.proceed (w := []) rfl rfl (by simp) hrank (fun _ _ hgo => by cases hgo)
  | createQp ec =>
    obtain ⟨hk, hs, hmem⟩ := hpc
    refine h.performsCall hl hr (isConn_of_connect hk) (x := .createQp op.kind) rfl rfl ?_
      (rank_le_of_or_closed hs) ?_
    · intro b hb
      rw [hk] at hb
      cases hb
      exact hmem
    · intro pc' m hgo hm
      unfold CmOp.createdQp at hgo
      split_ifs at hgo
      · cases hgo
        cases hm
      · cases hgo
        cases m with
        | createQp => cases hm
        | resolveRoute => exact ⟨NativeCall.noConfusion, rfl⟩
        | connect => cases hm
  | resolveRoute res =>
    obtain ⟨hk, hs, hmem⟩ := hpc
    refine h.performsCall hl hr (isConn_of_connect hk) (x := .resolveRoute res) rfl rfl ?_
      (rank_le_of_or_closed hs) ?_
    · intro b hb
      cases hb
      exact hmem
    · intro pc' m hgo hm
      cases res <;> cases hgo
      cases hm
  | connect res =>
    obtain ⟨hk, hs, hmem⟩ := hpc
    refine h.performsCall hl hr (isConn_of_connect hk) (x := .connect res) rfl rfl ?_
      (rank_le_of_or_closed hs) ?_
    · intro b hb
      cases hb
      exact hmem
    · intro pc' m hgo hm
      cases res <;> cases hgo
      cases hm
  | establishedWon ev hs =>
    refine h.proceed (w := [.cas op.kind .connected]) rfl rfl (by simp [Action.native?]) hrank ?_
    intro pc' n hgo hn
    cases hgo
    cases hn
  | establishedLost ev hs =>
    refine h.proceed (w := []) rfl rfl (by simp) hrank ?_
    intro pc' n hgo hn
    cases hgo
    cases hn
  | modifyQp rc =>
    exact h.proceed (w := []) rfl rfl (by simp) hrank (fun _ _ hgo => by cases hgo)
  | disconnect res =>
    exact h.proceed (w := [.rdmaDisconnect .op]) rfl rfl (by simp [Action.native?]) hrank
      (fun _ _ hgo => by cases hgo)
  | claimLoad =>
    exact h.proceed (w := []) rfl rfl (by simp) hrank
      fun _ _ hgo hn => (claimRead_mayCall hgo hn).elim
  | claimWon e hs =>
    exact h.proceed (w := [.close .op]) rfl rfl (by simp [Action.native?]) hrank
      (fun _ _ hgo => by cases hgo)
  | claimRetry e a ha =>
    exact h.proceed (w := []) rfl rfl (by simp) hrank
      fun _ _ hgo hn => (claimRead_mayCall hgo hn).elim
  | peerClosed =>
    exact h.proceed (w := []) rfl rfl (by simp) hrank (fun _ _ hgo => by cases hgo)

/-- A step of the initiation that makes no setup call keeps the invariant. -/
theorem SingleShot.initMove (h : SingleShot s) {w : List Action} (hr : s'.reactor = s.reactor)
    (htr : s'.trace = w ++ s.trace) (hw : ∀ a ∈ w, a.native? = none)
    (hrank : s.connectState.rank ≤ s'.connectState.rank)
    (hp : ∀ n, s'.initiation.mayCall n = true → s.calls n = 0) : SingleShot s' := by
  refine h.quiet htr hw hrank fun n hn => ?_
  rw [State.mayCall, Bool.or_eq_true, hr] at hn
  rcases hn with hn | hn
  · exact h.pending n (by rw [State.mayCall, hn, Bool.true_or])
  · exact hp n hn

/-- While the initiation owns the attempt, no `do_perform` is about to make a setup call. -/
theorem Lockstep.reactor_mayCall (hl : Lockstep cfg s) (ho : 0 < s.initiation.owns)
    (n : NativeCall) : s.reactor.mayCall n = false := by
  have hlive := hl.init.liveConn ho
  cases hr : s.reactor with
  | unlocked => rfl
  | performing op pc =>
    have hpc := hl.ops.performing op pc hr
    rw [State.liveConn_performing hr] at hlive
    have hconn : op.isConn = false := by
      by_contra hc
      rw [if_pos (by simpa using hc)] at hlive
      omega
    cases pc with
    | createQp => simp [isConn_of_connect hpc.1] at hconn
    | resolveRoute => simp [isConn_of_connect hpc.1] at hconn
    | connect => simp [isConn_of_connect hpc.1] at hconn
    | _ => cases n <;> rfl

/-- A setup call of the initiation, which then goes on to `next`. -/
theorem SingleShot.initCall (h : SingleShot s) (hl : Lockstep cfg s) (ho : 0 < s.initiation.owns)
    {x : Action} {n : NativeCall} {next : InitPc} (hx : x.native? = some n)
    (hn : s.initiation.mayCall n = true) (hneeds : ∀ b, x.needs = some b → b ∈ s.trace)
    (hstage : n.stage.rank ≤ s.connectState.rank)
    (hnext : ∀ m, next.mayCall m = true → m ≠ n ∧ s.initiation.mayCall m = true) :
    SingleShot { s.log x with initiation := next } := by
  refine h.call hx (by rw [State.mayCall, hn, Bool.or_true]) rfl hneeds rfl hstage fun m hm => ?_
  rw [State.mayCall, Bool.or_eq_true] at hm
  rcases hm with hm | hm
  · have hquiet : ({ s.log x with initiation := next } : State).reactor.mayCall m = false :=
      hl.reactor_mayCall ho m
    rw [hquiet] at hm
    cases hm
  · obtain ⟨hne, hm⟩ := hnext m hm
    exact ⟨hne, by rw [State.mayCall, hm, Bool.or_true]⟩

/-- A step of the initiation keeps the invariant. -/
theorem SingleShot.initiates (h : SingleShot s) (hl : Lockstep cfg s) {a : Answer}
    (hst : Initiates s a s') : SingleShot s' := by
  have hrank := hst.rank_le
  have hinit := hl.init
  have hstage : ∀ n : NativeCall, s.connectState = .connecting ∨ s.connectState = .closed →
      n.stage.rank ≤ s.connectState.rank := by
    rintro n (hs | hs) <;> rw [hs] <;> cases n <;> decide
  cases hst with
  | guardRejected op hi hs =>
    exact h.initMove (w := []) rfl rfl (by simp) hrank fun n hn => by cases n <;> cases hn
  | guardPassed op hi hs =>
    rw [hi] at hinit
    obtain ⟨sl, hsl⟩ := s.armCmCancellation_frame { op with admitted := true }
    rw [hsl] at hrank ⊢
    refine h.initMove (w := []) rfl rfl (by simp) hrank fun n _ => h.early n ?_
    rw [hs]
    cases n <;> decide
  | resolveAddrOk op hi =>
    exact h.initMove (w := [.resolveAddr .ok]) rfl rfl (by simp [Action.native?]) hrank
      fun n hn => by cases n <;> cases hn
  | resolveAddrFailed op errno hi =>
    exact h.initMove (w := [.resolveAddr (.fail errno)]) rfl rfl (by simp [Action.native?]) hrank
      fun n hn => by cases n <;> cases hn
  | published op hi hs =>
    refine h.initMove (w := [.cas op.kind op.kind.initial]) rfl rfl (by simp [Action.native?])
      hrank fun n _ => h.early n ?_
    rw [hs]
    cases n <;> decide
  | publishLost op hi hs =>
    exact h.initMove (w := []) rfl rfl (by simp) hrank fun n hn => by cases n <;> cases hn
  | createQpFailed op ec hi he =>
    rw [hi] at hinit
    obtain ⟨hk, hs, -, hmem⟩ := hinit
    refine h.initCall hl (n := .createQp) (by rw [hi]; exact Nat.one_pos) rfl (by rw [hi]; rfl) ?_
      (hstage _ hs) fun m hm => by cases m <;> cases hm
    intro b hb
    rw [hk] at hb
    cases hb
    exact hmem
  | createQpOk op ec hi he =>
    rw [hi] at hinit
    obtain ⟨hk, hs, -, hmem⟩ := hinit
    refine h.initCall hl (n := .createQp) (by rw [hi]; exact Nat.one_pos) rfl (by rw [hi]; rfl) ?_
      (hstage _ hs) fun m hm => ?_
    · intro b hb
      rw [hk] at hb
      cases hb
      exact hmem
    · cases m with
      | createQp => cases hm
      | resolveRoute => cases hm
      | connect => exact ⟨NativeCall.noConfusion, by rw [hi]; rfl⟩
  | acceptOk op hi =>
    rw [hi] at hinit
    obtain ⟨hk, hs, -, hmem⟩ := hinit
    refine h.initCall hl (n := .connect) (by rw [hi]; exact Nat.one_pos) rfl (by rw [hi]; rfl) ?_
      (hstage _ hs) fun m hm => by cases m <;> cases hm
    intro b hb
    cases hb
    exact hmem
  | acceptFailed op errno hi =>
    rw [hi] at hinit
    obtain ⟨hk, hs, -, hmem⟩ := hinit
    refine h.initCall hl (n := .connect) (by rw [hi]; exact Nat.one_pos) rfl (by rw [hi]; rfl) ?_
      (hstage _ hs) fun m hm => by cases m <;> cases hm
    intro b hb
    cases hb
    exact hmem
  | storedClosed op hi =>
    exact h.initMove (w := [.close .initiation]) rfl rfl (by simp [Action.native?]) hrank
      fun n hn => by cases n <;> cases hn
  | waitOpen op hi hs =>
    obtain ⟨sl, hsl⟩ := s.armCmCancellation_frame op
    rw [hsl] at hrank ⊢
    exact h.initMove (w := []) rfl rfl (by simp) hrank fun n hn => by cases n <;> cases hn
  | _ => exact h.initMove (w := []) rfl rfl (by simp) hrank fun n hn => by cases n <;> cases hn

theorem completeOp_frame : ∃ w : List Action, (∀ a ∈ w, a.native? = none) ∧
    (completeOp cfg s op).trace = w ++ s.trace ∧
    (completeOp cfg s op).reactor = s.reactor ∧
    (completeOp cfg s op).initiation = s.initiation := by
  unfold completeOp
  split_ifs
  · exact ⟨[_, _], by simp [Action.native?], rfl, rfl, rfl⟩
  · exact ⟨[_], by simp [Action.native?], rfl, rfl, rfl⟩

/-- Every step keeps the invariant. -/
theorem SingleShot.step {l : Label} (h : SingleShot s) (hl : Lockstep cfg s)
    (hst : (connector cfg).step s l = some s') : SingleShot s' := by
  have hrank := hl.rank_le hst
  -- a step outside the initiation and the reactor
  have hquiet : ∀ w : List Action, s'.reactor = s.reactor → s'.initiation = s.initiation →
      s'.trace = w ++ s.trace → (∀ a ∈ w, a.native? = none) → SingleShot s' := by
    intro w hr hi htr hw
    refine h.initMove hr htr hw hrank fun n hn => ?_
    rw [hi] at hn
    exact h.pending n (by rw [State.mayCall, hn, Bool.or_true])
  cases Step.of_step hst with
  | event ev hl => exact hquiet [_] rfl rfl rfl (by simp [Action.native?])
  | beginConnect addr slot hasCreateQp requestSize replyCap hi hl =>
    refine h.initMove (w := []) rfl rfl (by simp) hrank fun n hn => ?_
    simp only [State.guarded] at hn
    split_ifs at hn <;> cases n <;> cases hn
  | beginAccept addr slot hasCreateQp bindFails dataSize hi hl =>
    refine h.initMove (w := []) rfl rfl (by simp) hrank fun n hn => ?_
    simp only [State.guarded] at hn
    split_ifs at hn <;> cases n <;> cases hn
  | beginWait addr slot hi hl =>
    exact h.initMove (w := []) rfl rfl (by simp) hrank fun n hn => by cases n <;> cases hn
  | initiate a _ hin => exact h.initiates hl hin
  | performIo he hr hlt =>
    refine h.quiet (w := []) State.trace_nextOp (by simp) hrank fun n hn => h.pending n ?_
    rw [State.mayCall, Bool.or_eq_true] at hn ⊢
    rcases hn with hn | hn
    · generalize hrc : State.reactor _ = rc at hn
      cases rc with
      | unlocked => cases hn
      | performing o pc' =>
        obtain ⟨-, rfl⟩ := State.performing_nextOp hrc
        cases n <;> cases hn
    · rw [State.initiation_nextOp] at hn
      exact .inr hn
  | perform op pc a t r hr hp => exact h.performs hl hr hp
  | complete i op hop =>
    obtain ⟨w, hw, htr, hr, hi⟩ :=
      completeOp_frame
    exact hquiet w hr hi htr hw
  | enterDisconnect hlt => exact hquiet [] rfl rfl rfl (by simp)
  | disconnectStep i a _ hd =>
    cases hd with
    | load hi => exact hquiet [] rfl rfl rfl (by simp)
    | won old hi hs => exact hquiet [_] rfl rfl rfl (by simp [Action.native?])
    | retry old a hi ha => exact hquiet [] rfl rfl rfl (by simp)
    | cancel old hi hr => exact hquiet [] rfl rfl rfl (by simp)
    | native res hi => exact hquiet [_] rfl rfl rfl (by simp [Action.native?])
  | emit key hk hr hlt => exact hquiet [] rfl rfl rfl (by simp)
  | closeForDestruction hlt hi hr hc => exact hquiet [] rfl rfl rfl (by simp)
  | drainEstablished ev rest hlt hc he =>
    exact hquiet [_, _] rfl rfl rfl (by simp [Action.native?])
  | drainOther ev rest hlt hc he => exact hquiet [_] rfl rfl rfl (by simp [Action.native?])
  | drainEnd hlt hc => exact hquiet [] rfl rfl rfl (by simp)
  | drainHardError errno hlt => exact hquiet [] rfl rfl rfl (by simp)

theorem SingleShot.fresh : SingleShot {} where
  once _ := Nat.zero_le 1
  early _ _ := rfl
  pending _ _ := rfl
  preceded := by
    intro newer a older heq
    simp at heq

/-! ## Whole runs -/

/-- `connect_state_` moves forward over every run that keeps the lockstep invariant. -/
theorem Lockstep.rank_le_run {ls : List Label} (h : Lockstep cfg s)
    (hr : (connector cfg).run s ls = some s') : s.connectState.rank ≤ s'.connectState.rank := by
  have hinv := StepSystem.invariant (M := connector cfg)
    (I := fun t => Lockstep cfg t ∧ s.connectState.rank ≤ t.connectState.rank)
    (fun t l t' ht hst => ⟨ht.1.step hst, Nat.le_trans ht.2 (ht.1.rank_le hst)⟩) hr
    ⟨h, Nat.le_refl _⟩
  exact hinv.2

theorem SingleShot.run {ls : List Label} (hr : (connector cfg).run {} ls = some s) :
    SingleShot s := by
  have hinv := StepSystem.invariant (M := connector cfg)
    (I := fun t => Lockstep cfg t ∧ SingleShot t)
    (fun t l t' ht hst => ⟨ht.1.step hst, ht.2.step ht.1 hst⟩) hr ⟨.fresh, .fresh⟩
  exact hinv.2

/-- A pending connect op is in lockstep with `connect_state_`. -/
theorem Lockstep.pair (h : Lockstep cfg s) (hop : op ∈ s.readQueue) (hk : op.kind = .connect) :
    (op.stage, s.connectState) ∈ lockstepPairs ∨ s.connectState = .closed := by
  rcases h.ops.queued op hop (isConn_of_connect hk) with hc | hc
  · exact .inr hc
  · refine .inl ?_
    unfold CmOp.waitsIn at hc
    rw [hk] at hc
    cases hs : op.stage <;> rw [hs] at hc
    · obtain hc := Option.some.inj hc
      rw [← hc]
      decide
    · obtain hc := Option.some.inj hc
      rw [← hc]
      decide
    · obtain hc := Option.some.inj hc
      rw [← hc]
      decide
    · cases hc
    · cases hc

/-- `advance` fails only because a `disconnect()` call closed the connector. -/
theorem Lockstep.advance_fails (h : Lockstep cfg s) {e d : ConnectState}
    (hr : s.reactor = .performing op (.advance e d)) (hne : s.connectState ≠ e) :
    s.connectState = .closed ∧ ∃ i, .close (.caller i) ∈ s.trace := by
  obtain ⟨hk, hc, -⟩ := h.ops.performing op _ hr
  have hcl := hc.resolve_left hne
  have hlive := (h.alone hr (isConn_of_connect hk)).2.2
  refine ⟨hcl, h.claimed ?_ hcl⟩
  unfold State.owners
  omega

/-- The connection state machine is monotone and single-shot: over every run `connect_state_` only
moves forward and never leaves `closed`, a pending connect op stays in lockstep with it, `advance`
fails only against a `disconnect()` call, and each setup call is made at most once and only after the
exchange into its stage. -/
theorem monotone_singleShot {pre post : List Label} (hpre : (connector cfg).run {} pre = some s)
    (hpost : (connector cfg).run s post = some s') :
    s.connectState.rank ≤ s'.connectState.rank ∧
      (s.connectState = .closed → s'.connectState = .closed) ∧
      (∀ op ∈ s'.readQueue, op.kind = .connect →
        (op.stage, s'.connectState) ∈ lockstepPairs ∨ s'.connectState = .closed) ∧
      (∀ op e d, s'.reactor = .performing op (.advance e d) → s'.connectState ≠ e →
        s'.connectState = .closed ∧ ∃ i, .close (.caller i) ∈ s'.trace) ∧
      (∀ n, s'.calls n ≤ 1) ∧ Preceded s'.trace := by
  have hs : Lockstep cfg s := .run hpre
  have hrun : (connector cfg).run {} (pre ++ post) = some s' :=
    StepSystem.run_append.2 ⟨s, hpre, hpost⟩
  have hl : Lockstep cfg s' := .run hrun
  have hss : SingleShot s' := .run hrun
  have hrank := hs.rank_le_run hpost
  refine ⟨hrank, fun hc => ?_, fun op hop hk => hl.pair hop hk,
    fun op e d hr hne => hl.advance_fails hr hne, hss.once, hss.preceded⟩
  exact eq_closed_of_rank (hc ▸ hrank)

/-- An `async_connect` up to its op being armed, with a create-qp callback. -/
def armConnect : List Label :=
  [.asyncConnect 1 true true 0 0, .initiate .run, .initiate (.native .ok), .initiate .run,
    .initiate .run]

/-- The events that establish the armed connect op, and its completion. -/
def establishConnect : List Label :=
  [.event ⟨.addrResolved, 0, []⟩, .performIo, .perform .event, .perform .run,
    .perform (.created success), .perform (.native .ok),
    .event ⟨.routeResolved, 0, []⟩, .performIo, .perform .event, .perform .run,
    .perform (.native .ok),
    .event ⟨.established, 0, []⟩, .performIo, .perform .event, .perform .run,
    .perform (.modified 0), .complete 0]

/-- The law at a connect that establishes: the three setup calls are made, each once. -/
theorem monotone_singleShot_establishConnect :
    let s := (connector {}).after {} armConnect
    let s' := (connector {}).after s establishConnect
    s'.connectState = .connected ∧ (∀ n, s'.calls n = 1) ∧
      s.connectState.rank ≤ s'.connectState.rank ∧ Preceded s'.trace := by
  have hpre : ((connector {}).run {} armConnect).isSome = true := rfl
  have hpost : ((connector {}).run ((connector {}).after {} armConnect) establishConnect).isSome =
      true := rfl
  have h := monotone_singleShot (StepSystem.run_after hpre) (StepSystem.run_after hpost)
  refine ⟨rfl, fun n => ?_, h.1, h.2.2.2.2.2⟩
  cases n <;> rfl

end RdmaOnAsio.Ibv
