import RdmaOnAsio.Lts.Lists
import RdmaOnAsio.Ibv.Proofs.Backed

/-!
# Teardown arbitration

An `ESTABLISHED` event obliges exactly one actor to call `rdma_disconnect`, unless the connector ends
its life connected. The obligation is a token. It starts in the channel, and every step hands it on: the
op reads it, and wins it into `connected` or has to disconnect itself; a `disconnect()` call takes it
from `connected`; the drain of `close_for_destruction` takes it from the channel. Counting the tokens
gives both that the call is not made twice and that it is not forgotten.
-/

namespace RdmaOnAsio.Ibv

open ErrorCode

/-! ## Tokens -/

def CmEvent.isEstablished (ev : CmEvent) : Bool := ev.event == .established

/-- `ESTABLISHED` put on the channel. -/
def Action.isDelivered : Action → Bool
  | .delivered ev => ev.isEstablished
  | _ => false

/-- A call of `rdma_disconnect`. -/
def Action.isDisconnect : Action → Bool
  | .rdmaDisconnect _ => true
  | _ => false

/-- A successful `rdma_connect` or `rdma_accept`. -/
def Action.isIssued : Action → Bool
  | .connect .ok | .accept .ok => true
  | _ => false

/-- The exchange `connecting -> connected`. -/
def Action.isWon : Action → Bool
  | .cas _ .connected => true
  | _ => false

/-- An action that moves no token. -/
def Action.neutral (a : Action) : Bool :=
  !a.isDelivered && !a.isDisconnect && !a.isIssued && !a.isWon

/-- The op has read `ESTABLISHED` and not decided, or has lost and must disconnect. -/
def PerformPc.token : PerformPc → Nat
  | .established _ | .disconnect => 1
  | _ => 0

def Outcome.token : Outcome → Nat
  | .goto pc => pc.token
  | .ret _ => 0

def Reactor.token : Reactor → Nat
  | .unlocked => 0
  | .performing _ pc => pc.token

def ConnectState.token : ConnectState → Nat
  | .connected => 1
  | _ => 0

/-- A `disconnect()` call that has taken the connection from `connected` and not torn it down yet. -/
def DisconnectPc.tearing : DisconnectPc → Bool
  | .cancelOps .connected | .native => true
  | _ => false

/-- The initiation can still publish an attempt, or has. -/
def InitPc.conn : InitPc → Bool
  | .guardState _ | .resolveAddr _ | .publish _ | .createQp _ | .accept _ | .storeClosed _ => true
  | .startOp op => op.isConn
  | .idle | .post _ | .waitLatch _ | .waitState _ => false

/-- Accesses between an event that drives the connect op on and the native call it leads to. -/
def PerformPc.beforeIssue : PerformPc → Bool
  | .advance _ _ | .createQp | .resolveRoute | .connect => true
  | _ => false

namespace State

/-- The `ESTABLISHED` events delivered so far. -/
def delivered (s : State) : Nat := s.trace.countP Action.isDelivered

/-- The calls of `rdma_disconnect` so far. -/
def disconnects (s : State) : Nat := s.trace.countP Action.isDisconnect

/-- `rdma_connect` or `rdma_accept` has succeeded. -/
def issued (s : State) : Bool := s.trace.any Action.isIssued

/-- The op has won the exchange `connecting -> connected`. -/
def won (s : State) : Bool := s.trace.any Action.isWon

/-- The `ESTABLISHED` events in the channel. -/
def unread (s : State) : Nat := s.channel.countP CmEvent.isEstablished

/-- The `disconnect()` calls that hold a token. -/
def tearing (s : State) : Nat := s.callers.countP DisconnectPc.tearing

/-- Where the tokens are. -/
def tokens (s : State) : Nat :=
  s.unread + s.reactor.token + s.connectState.token + s.tearing + s.disconnects

/-- A watcher can read the channel without finding an `ESTABLISHED`, now and later. -/
def Quiet (s : State) : Prop :=
  s.unread = 0 ∧
    (s.delivered = 1 ∨ s.issued = false ∧ s.owners = 0 ∧ s.initiation.conn = false)

end State

/-- What the environment is assumed to do: `ESTABLISHED` comes at most once and only after the connect
or accept was issued, `get_cm_event` has no hard errors, `modify_qp` does not return `ECANCELED`, and no
watcher is armed while a connect or accept op is pending, nor the other way round. -/
def teardownEnv (s : State) : Label → Bool
  | .event ev => !ev.isEstablished || (s.delivered == 0 && s.issued)
  | .perform (.hardError _) | .drain (.hardError _) => false
  | .perform (.modified rc) => rc != ecanceled
  | .asyncWaitDisconnect _ _ => (s.armed ++ s.retired).all fun op => !op.isConn
  | .asyncConnect _ _ _ _ _ | .asyncAccept _ _ _ _ _ => s.armed.all CmOp.isConn
  | _ => true

/-- An armed connect or accept op has not won yet, except for its last step; a connect op that has not
reached its last stage has issued nothing; a watcher meets no `ESTABLISHED`. -/
structure TearingAt (s : State) (op : CmOp) (pc : PerformPc) : Prop where
  lost : op.isConn = true → pc ≠ .modifyQp → s.won = false
  early : op.kind = .connect → op.stage ≠ .connect ∨ pc.beforeIssue = true → s.issued = false
  quiet : op.kind = .wait → s.Quiet

/-- An op that reports `operation_aborted` has not won. -/
def TearingDone (cfg : Config) (s : State) (op : CmOp) : Prop :=
  op.abortedConn cfg = true → s.won = false

def InitPc.Tearing (cfg : Config) (s : State) : InitPc → Prop
  | .idle | .guardState _ => True
  | .resolveAddr _ | .publish _ | .createQp _ | .accept _ | .storeClosed _ => s.won = false
  | .startOp op => TearingAt s op .getCmEvent
  | .post op => TearingDone cfg s op
  | .waitLatch _ | .waitState _ =>
    s.liveConn = 0 ∧ ∀ op ∈ s.retired, op.isConn = false

/-- The teardown invariant. -/
structure Teardown (cfg : Config) (s : State) : Prop where
  tokens : s.tokens = s.delivered
  once : s.delivered ≤ 1
  issued : 0 < s.delivered → s.issued = true
  won : s.connectState = .connected → s.won = true
  wonBy : s.won = true →
    s.connectState = .connected ∨ s.connectState = .closed ∧ s.callers ≠ []
  ops : OpsOk (TearingAt s) (TearingDone cfg s) s
  init : s.initiation.Tearing cfg s
  invoked : ∀ op st, .invoked op st ∈ s.trace → op.abortedConn cfg = true →
    s.won = false ∧ s.connectState = .closed

variable {cfg : Config} {s t s' : State} {op : CmOp} {pc : PerformPc} {r : CmOp × Outcome}

/-! ## Small facts -/

theorem State.Quiet.mono (h : s.Quiet) (hu : s'.unread ≤ s.unread)
    (hd : s.delivered ≤ s'.delivered) (hd' : s'.delivered ≤ 1)
    (hrest : s.issued = false → s.owners = 0 → s.initiation.conn = false →
      s'.issued = false ∧ s'.owners = 0 ∧ s'.initiation.conn = false) : s'.Quiet := by
  obtain ⟨hz, h1 | ⟨hi, ho, hc⟩⟩ := h
  · exact ⟨by omega, .inl (by omega)⟩
  · exact ⟨by omega, .inr (hrest hi ho hc)⟩

theorem TearingAt.mono (h : TearingAt s op pc) (hw : s'.won = s.won) (hi : s'.issued = s.issued)
    (hq : op.kind = .wait → s.Quiet → s'.Quiet) : TearingAt s' op pc where
  lost hconn hpc := hw.trans (h.lost hconn hpc)
  early hk hs := hi.trans (h.early hk hs)
  quiet hk := hq hk (h.quiet hk)

theorem kind_ne_wait_of_isConn (h : op.isConn = true) : op.kind ≠ .wait := by
  rw [CmOp.isConn] at h
  simpa using h

/-- Neutral actions change nothing the invariant counts. -/
theorem State.counts_of_neutral {w : List Action} (htr : s'.trace = w ++ s.trace)
    (hw : ∀ a ∈ w, a.neutral = true) :
    s'.delivered = s.delivered ∧ s'.disconnects = s.disconnects ∧ s'.issued = s.issued ∧
      s'.won = s.won := by
  have hcount : ∀ f : Action → Bool, (∀ a, a.neutral = true → f a = false) →
      w.countP f = 0 := by
    intro f hf
    rw [List.countP_eq_zero]
    intro a ha
    simp [hf a (hw a ha)]
  have hany : ∀ f : Action → Bool, (∀ a, a.neutral = true → f a = false) →
      w.any f = false := by
    intro f hf
    rw [List.any_eq_false]
    intro a ha
    simp [hf a (hw a ha)]
  have hsplit : ∀ a : Action, a.neutral = true →
      a.isDelivered = false ∧ a.isDisconnect = false ∧ a.isIssued = false ∧ a.isWon = false := by
    intro a ha
    simpa [Action.neutral, and_assoc] using ha
  refine ⟨?_, ?_, ?_, ?_⟩
  · rw [State.delivered, htr, List.countP_append, hcount _ fun a ha => (hsplit a ha).1]
    exact Nat.zero_add _
  · rw [State.disconnects, htr, List.countP_append, hcount _ fun a ha => (hsplit a ha).2.1]
    exact Nat.zero_add _
  · rw [State.issued, htr, List.any_append, hany _ fun a ha => (hsplit a ha).2.2.1]
    exact Bool.false_or _
  · rw [State.won, htr, List.any_append, hany _ fun a ha => (hsplit a ha).2.2.2]
    exact Bool.false_or _

/-- While the initiation holds an attempt, a watcher is quiet because `ESTABLISHED` has come. -/
theorem State.Quiet.delivered_of_conn (h : s.Quiet) (hc : s.initiation.conn = true) :
    s.delivered = 1 := by
  obtain ⟨-, hd | ⟨-, -, hcn⟩⟩ := h
  · exact hd
  · rw [hc] at hcn
    cases hcn

theorem State.Quiet.of_conn (h : s.Quiet) (hc : s.initiation.conn = true)
    (hu : s'.unread = s.unread) (hd : s'.delivered = s.delivered) : s'.Quiet :=
  ⟨hu.trans h.1, .inl (hd.trans (h.delivered_of_conn hc))⟩

theorem token_of_ne {c : ConnectState} (h : c ≠ .connected) : c.token = 0 := by
  cases c <;> first | rfl | exact absurd rfl h

/-- Nothing has been delivered before the connect or accept was issued. -/
theorem Teardown.not_delivered (h : Teardown cfg s) (hi : s.issued = false) : s.delivered = 0 := by
  by_contra hd
  have hissued := h.issued (by omega)
  rw [hi] at hissued
  cases hissued

/-- Nobody is connected before the exchange is won. -/
theorem Teardown.not_connected (h : Teardown cfg s) (hw : s.won = false) :
    s.connectState ≠ .connected := by
  intro hc
  have hwon := h.won hc
  rw [hw] at hwon
  cases hwon

/-- Nothing has been issued while `connect_state_` is before `connecting`. -/
theorem SingleShot.not_issued (h : SingleShot s)
    (hc : s.connectState.rank < ConnectState.connecting.rank) : s.issued = false := by
  have hz := h.early .connect hc
  rw [State.calls, List.countP_eq_zero] at hz
  rw [State.issued, List.any_eq_false]
  intro a ha hi
  refine hz a ha ?_
  cases a with
  | connect res => rfl
  | accept res => rfl
  | _ => cases hi

/-- While an attempt is owned and not closed, no connect or accept op has been aborted. -/
theorem Settled.not_aborted (hop : Settled cfg s op) (ho : 0 < s.owners)
    (hc : s.connectState ≠ .closed) : op.abortedConn cfg = false := by
  by_contra hab
  have hab' : op.isConn = true ∧ op.ec.isAborted cfg.aliased = true := by
    simpa [CmOp.abortedConn] using hab
  rcases hop hab'.1 hab'.2 with hcl | ⟨hz, -⟩
  · exact hc hcl
  · omega

theorem reactor_token_proceed : (t.proceed r).reactor.token = r.2.token := by
  obtain ⟨o, out⟩ := r
  cases out with
  | goto pc' => rfl
  | ret st =>
    cases st with
    | notDone => rfl
    | done =>
      simp only [State.proceed, State.nextOp]
      split <;> rfl

theorem reactor_token_nextOp : s.nextOp.reactor.token = 0 := by
  unfold State.nextOp
  split <;> rfl

/-! ## Steps outside the reactor -/

/-- A step that moves no token and writes no exchange keeps the invariant, given what it makes of the
ops and the initiation. -/
theorem Teardown.frame (h : Teardown cfg s) (hc : s'.connectState = s.connectState)
    (hT : s'.tokens = s.tokens) (hd : s'.delivered = s.delivered) (hi : s'.issued = s.issued)
    (hw : s'.won = s.won) (hcal : s.callers ≠ [] → s'.callers ≠ [])
    (hops : OpsOk (TearingAt s') (TearingDone cfg s') s') (hinit : s'.initiation.Tearing cfg s')
    (hinv : ∀ op st, .invoked op st ∈ s'.trace → op.abortedConn cfg = true →
      .invoked op st ∈ s.trace) : Teardown cfg s' := by
  refine ⟨?_, ?_, ?_, ?_, ?_, hops, hinit, ?_⟩
  · rw [hT, hd]
    exact h.tokens
  · rw [hd]
    exact h.once
  · rw [hd, hi]
    exact h.issued
  · rw [hc, hw]
    exact h.won
  · rw [hc, hw]
    intro hwon
    exact (h.wonBy hwon).imp id fun hcl => ⟨hcl.1, hcal hcl.2⟩
  · rw [hc, hw]
    exact fun o st hmem hab => h.invoked o st (hinv o st hmem hab) hab

/-- A neutral step of the initiation keeps the invariant. -/
theorem Teardown.initMove (h : Teardown cfg s) {i : InitPc} {sl : List Nat} {w : List Action}
    (hs' : s' = { s with initiation := i, slots := sl, trace := w ++ s.trace })
    (hw : ∀ a ∈ w, a.neutral = true) (hinv : ∀ op st, .invoked op st ∉ w)
    (ho : i.owns = s.initiation.owns) (hconn : s.initiation.conn = false → i.conn = false)
    (hi : s'.won = s.won → s'.issued = s.issued → (s.Quiet → s'.Quiet) → i.Tearing cfg s') :
    Teardown cfg s' := by
  have htr : s'.trace = w ++ s.trace := by rw [hs']
  obtain ⟨hd, hdis, his, hw⟩ := State.counts_of_neutral htr hw
  have howners : s'.owners = s.owners := by
    rw [hs', State.owners, ho]
    rfl
  have hunread : s'.unread = s.unread := by rw [hs']; rfl
  have hq : s.Quiet → s'.Quiet := by
    intro hq
    refine hq.mono (Nat.le_of_eq hunread) (Nat.le_of_eq hd.symm) (by rw [hd]; exact h.once) ?_
    intro h1 h2 h3
    refine ⟨his.trans h1, howners.trans h2, ?_⟩
    rw [hs']
    exact hconn h3
  have hops : OpsOk (TearingAt s') (TearingDone cfg s') s :=
    h.ops.mono (fun _ _ ha => ha.mono hw his fun _ => hq) fun _ hr hab => hw.trans (hr hab)
  refine h.frame (by rw [hs']) ?_ hd his hw (by rw [hs']; exact id) ?_ ?_ ?_
  · rw [State.tokens, hunread, hdis, hs']
    rfl
  · rw [hs'] at hops ⊢
    exact ⟨hops.performing, hops.queued, hops.retired⟩
  · have hi' := hi hw his hq
    rw [hs'] at hi' ⊢
    exact hi'
  · intro o st hmem _
    rw [hs'] at hmem
    exact (List.mem_append.1 hmem).resolve_left (hinv o st)

theorem Teardown.guarded (h : Teardown cfg s) {ec : ErrorCode}
    (hab : ec.isAborted cfg.aliased ≠ true) (hw : ∀ o ∈ s.armed, o.kind ≠ .wait) :
    Teardown cfg (s.guarded op ec) := by
  have hops : OpsOk (TearingAt (s.guarded op ec)) (TearingDone cfg (s.guarded op ec)) s := by
    refine ⟨fun o pc ho => ?_, fun o ho => ?_, h.ops.retired⟩
    · refine (h.ops.performing o pc ho).mono rfl rfl fun hk => absurd hk (hw o ?_)
      simp [State.armed, ho, Reactor.ops]
    · refine (h.ops.queued o ho).mono rfl rfl fun hk => absurd hk (hw o ?_)
      simp [State.armed, ho]
  refine h.frame rfl rfl rfl rfl rfl id ⟨hops.performing, hops.queued, hops.retired⟩ ?_
    fun _ _ hm _ => hm
  simp only [State.guarded]
  split_ifs
  · intro ha
    have ha' : (op.isConn && ec.isAborted cfg.aliased) = true := ha
    rw [Bool.and_eq_true] at ha'
    exact absurd ha'.2 hab
  · trivial

/-- The tokens are all accounted for when `connect_state_` is connected: none is unread. -/
theorem Teardown.quiet_of_connected (h : Teardown cfg s) (hc : s.connectState = .connected) :
    s.unread = 0 ∧ s.delivered = 1 := by
  have htok := h.tokens
  have honce := h.once
  rw [State.tokens, hc, ConnectState.token] at htok
  omega

/-- A watcher that gets past the check of `connect_state_` meets no `ESTABLISHED`. -/
theorem Teardown.quiet_of_wait (h : Teardown cfg s) (hs : SingleShot s)
    (hb : Backed cfg s) (hi : s.initiation = .waitState op) (hc : s.connectState ≠ .closed) :
    s.Quiet := by
  have hinit := h.init
  rw [hi] at hinit
  obtain ⟨hlive, hret⟩ := hinit
  have howners : s.owners = 0 := by rw [State.owners, hi, hlive]; rfl
  have hnin : s.connectState.inFlight ≠ true := by
    intro hin
    rcases hb hin with hpos | ⟨o, ho, hab⟩
    · omega
    · simp [CmOp.abortedConn, hret o ho] at hab
  cases hcs : s.connectState with
  | connected =>
    obtain ⟨hu, hd⟩ := h.quiet_of_connected hcs
    exact ⟨hu, .inl hd⟩
  | idle =>
    have hni : s.issued = false := hs.not_issued (by rw [hcs]; decide)
    have hd := h.not_delivered hni
    have htok := h.tokens
    rw [State.tokens] at htok
    refine ⟨by omega, .inr ⟨hni, howners, by rw [hi]; rfl⟩⟩
  | closed => exact absurd hcs hc
  | addrResolve => simp [hcs, ConnectState.inFlight] at hnin
  | addrRoute => simp [hcs, ConnectState.inFlight] at hnin
  | connecting => simp [hcs, ConnectState.inFlight] at hnin

/-- A call of the initiation that fails, or succeeds without an obligation, moves no token. -/
theorem Teardown.logs (h : Teardown cfg s) {i : InitPc} {n : Action} (hn : n.neutral = true)
    (hinv : ∀ o st, n ≠ .invoked o st) (ho : i.owns = s.initiation.owns)
    (hconn : s.initiation.conn = true) (hwon : s.won = false)
    (hi : ∀ t : State, t.won = false → i.Tearing cfg t) :
    Teardown cfg { s.log n with initiation := i } := by
  refine h.initMove (w := [n]) rfl (by simpa using hn) ?_ ho ?_ fun hw _ _ => hi _ (hw.trans hwon)
  · intro o st hmem
    exact hinv o st (List.mem_singleton.1 hmem).symm
  · rw [hconn]
    exact fun hc => by cases hc

/-- The publication of an attempt: nothing has been issued, so no `ESTABLISHED` is about. -/
theorem Teardown.publishes (h : Teardown cfg s) (hs : SingleShot s)
    (hi : s.initiation = .publish op) (hc : s.connectState = .idle) :
    Teardown cfg { s.log (.cas op.kind op.kind.initial) with
      connectState := op.kind.initial, initiation := InitPc.afterPublish op } := by
  have hwonf : s.won = false := by
    have hinit := h.init
    rwa [hi] at hinit
  have hissued : s.issued = false := hs.not_issued (by rw [hc]; decide)
  have hdel := h.not_delivered hissued
  have hne : op.kind.initial ≠ .connected := by
    cases op.kind <;> exact ConnectState.noConfusion
  have hneutral : (Action.cas op.kind op.kind.initial).neutral = true := by
    cases op.kind <;> rfl
  set s' : State := { s.log (.cas op.kind op.kind.initial) with
    connectState := op.kind.initial, initiation := InitPc.afterPublish op } with hs'
  have htr : s'.trace = [Action.cas op.kind op.kind.initial] ++ s.trace := rfl
  obtain ⟨hd, hdis, his, hw⟩ := State.counts_of_neutral htr (by simpa using hneutral)
  -- a watcher would be quiet, which the running initiation excludes
  have hat : ∀ o pc, TearingAt s o pc → TearingAt s' o pc := by
    intro o pc ha
    refine ha.mono hw his fun _ hq => ?_
    have := hq.delivered_of_conn (by rw [hi]; rfl)
    omega
  refine ⟨?_, ?_, ?_, ?_, ?_, ⟨fun o pc ho => hat o pc (h.ops.performing o pc ho),
    fun o ho => hat o _ (h.ops.queued o ho), fun o ho _ => hw.trans hwonf⟩, ?_, ?_⟩
  · have htok := h.tokens
    rw [State.tokens, hc] at htok
    rw [State.tokens, hd, hdis, token_of_ne (show s'.connectState ≠ .connected from hne)]
    exact htok
  · rw [hd]
    exact h.once
  · rw [hd, his]
    exact h.issued
  · exact fun hcc => absurd hcc hne
  · intro hwon
    rw [hw, hwonf] at hwon
    cases hwon
  · show (InitPc.afterPublish op).Tearing cfg s'
    unfold InitPc.afterPublish
    split
    · next hk =>
      refine ⟨fun _ _ => hw.trans hwonf, fun _ _ => his.trans hissued, fun hk' => ?_⟩
      cases hk.symm.trans hk'
    · split_ifs <;> exact hw.trans hwonf
    · split_ifs <;> exact hw.trans hwonf
  · intro o st hmem hab
    have hcl := (h.invoked o st (by simpa [hs'] using hmem) hab).2
    rw [hc] at hcl
    cases hcl

/-- The call of `rdma_accept` that issues the attempt. Only watchers are armed while the initiation
owns it. -/
theorem Teardown.accepts (h : Teardown cfg s) (hi : s.initiation = .accept op)
    (hk : op.kind = .accept) (hlive : s.liveConn = 0) :
    Teardown cfg { s.log (.accept .ok) with
      initiation := .startOp { op with ec := success } } := by
  have hwonf : s.won = false := by
    have hinit := h.init
    rwa [hi] at hinit
  set s' : State := { s.log (.accept .ok) with initiation := .startOp { op with ec := success } }
    with hs'
  have hd : s'.delivered = s.delivered := List.countP_cons_of_neg (by simp [Action.isDelivered])
  have hw : s'.won = s.won := rfl
  have hat : ∀ o pc, o ∈ s.armed → TearingAt s o pc → TearingAt s' o pc := by
    intro o pc ho ha
    have hkw : o.kind = .wait := isConn_eq_false.1 (by
      simpa using List.countP_eq_zero.1 hlive o ho)
    refine ⟨fun _ hpc => hw.trans hwonf, fun hkc => ?_, fun hkw =>
      (ha.quiet hkw).of_conn (by rw [hi]; rfl) rfl hd⟩
    cases hkw.symm.trans hkc
  refine ⟨?_, ?_, fun _ => rfl, h.won, h.wonBy, ⟨fun o pc ho => hat o pc ?_ ?_,
    fun o ho => hat o _ ?_ (h.ops.queued o ho), fun o ho _ => hw.trans hwonf⟩, ?_, ?_⟩
  · rw [hd, ← h.tokens]
    rfl
  · rw [hd]
    exact h.once
  · simp [State.armed, show s.reactor = .performing o pc from ho, Reactor.ops]
  · exact h.ops.performing o pc ho
  · simp [State.armed, show o ∈ s.readQueue from ho]
  · refine ⟨fun _ _ => hw.trans hwonf, fun hk' => ?_, fun hk' => ?_⟩
    · cases hk.symm.trans hk'
    · cases hk.symm.trans hk'
  · exact fun o st hmem => h.invoked o st (by simpa [hs'] using hmem)

/-- The initiation stores `closed`: its attempt was never won, so no token is lost. -/
theorem Teardown.storesClosed (h : Teardown cfg s) (hi : s.initiation = .storeClosed op) :
    Teardown cfg { s.log (.close .initiation) with
      connectState := .closed, initiation := .post op } := by
  have hwonf : s.won = false := by
    have hinit := h.init
    rwa [hi] at hinit
  set s' : State := { s.log (.close .initiation) with
    connectState := .closed, initiation := .post op } with hs'
  have hat : ∀ o pc, TearingAt s o pc → TearingAt s' o pc := fun o pc ha =>
    ha.mono rfl rfl fun _ hq => hq.of_conn (by rw [hi]; rfl) rfl rfl
  refine ⟨?_, h.once, h.issued, fun hcc => ?_, fun hwon => ?_,
    ⟨fun o pc ho => hat o pc (h.ops.performing o pc ho),
      fun o ho => hat o _ (h.ops.queued o ho), h.ops.retired⟩, fun _ => hwonf, ?_⟩
  · have htok := h.tokens
    rw [State.tokens, token_of_ne (h.not_connected hwonf)] at htok
    exact htok
  · cases hcc
  · rw [show s'.won = s.won from rfl, hwonf] at hwon
    cases hwon
  · exact fun o st hmem hab => ⟨hwonf, rfl⟩

/-- The initiation hands its op to the scheduler or to the reactor. -/
theorem Teardown.handsOver (h : Teardown cfg s) (htr : s'.trace = s.trace)
    (hc : s'.connectState = s.connectState) (hch : s'.channel = s.channel)
    (hcal : s'.callers = s.callers) (hr : s'.reactor = s.reactor) (hi : s'.initiation = .idle)
    (ho : s'.owners = s.owners)
    (hq : ∀ o ∈ s'.readQueue, o ∈ s.readQueue ∨ TearingAt s o .getCmEvent)
    (hret : ∀ o ∈ s'.retired, o ∈ s.retired ∨ TearingDone cfg s o) : Teardown cfg s' := by
  have hd : s'.delivered = s.delivered := by rw [State.delivered, htr]; rfl
  have hdis : s'.disconnects = s.disconnects := by rw [State.disconnects, htr]; rfl
  have his : s'.issued = s.issued := by rw [State.issued, htr]; rfl
  have hw : s'.won = s.won := by rw [State.won, htr]; rfl
  have hu : s'.unread = s.unread := by rw [State.unread, hch]; rfl
  have hquiet : s.Quiet → s'.Quiet := fun hq =>
    hq.mono (Nat.le_of_eq hu) (Nat.le_of_eq hd.symm) (by rw [hd]; exact h.once)
      fun h1 h2 _ => ⟨his.trans h1, ho.trans h2, by rw [hi]; rfl⟩
  have hat : ∀ o pc, TearingAt s o pc → TearingAt s' o pc := fun o pc ha =>
    ha.mono hw his fun _ => hquiet
  refine h.frame hc ?_ hd his hw (by rw [hcal]; exact id)
    ⟨fun o pc hp => hat o pc (h.ops.performing o pc (hr ▸ hp)), fun o hm => ?_, fun o hm hab => ?_⟩
    (by rw [hi]; trivial) fun o st hm _ => by rwa [htr] at hm
  · rw [State.tokens, hu, hr, hc, State.tearing, hcal, hdis]
    rfl
  · exact hat o _ ((hq o hm).elim (h.ops.queued o) id)
  · exact hw.trans ((hret o hm).elim (h.ops.retired o) id hab)

/-- A step of the initiation keeps the invariant. -/
theorem Teardown.initiates (h : Teardown cfg s) (hl : Lockstep cfg s) (hs : SingleShot s)
    (hb : Backed cfg s) {a : Answer} (hst : Initiates s a s') : Teardown cfg s' := by
  have hlock := hl.init
  have hinit := h.init
  -- `won` is false as long as the initiation has something to publish
  have hidle : s.connectState = .idle → s.won = false := by
    intro hc
    by_contra hw
    rcases h.wonBy (by simpa using hw) with hcc | ⟨hcc, -⟩
    · rw [hc] at hcc
      cases hcc
    · rw [hc] at hcc
      cases hcc
  cases hst with
  | guardRejected op hi hs =>
    refine h.initMove (w := []) rfl (by simp) (by simp) (by rw [hi]; rfl) (fun _ => rfl) ?_
    intro _ _ _ hab
    simp [CmOp.abortedConn] at hab
  | guardPassed op hi hs =>
    obtain ⟨sl, hsl⟩ := s.armCmCancellation_frame { op with admitted := true }
    rw [hsl]
    refine h.initMove (w := []) rfl (by simp) (by simp) ?_ ?_ ?_
    · rw [hi]
      cases op.kind <;> simp [InitPc.afterGuard, InitPc.owns]
    · rw [hi]
      intro hc
      cases hc
    · intro hw _ _
      unfold InitPc.afterGuard
      split <;> exact hw.trans (hidle hs)
  | resolveAddrOk op hi =>
    rw [hi] at hinit
    exact h.logs rfl (fun _ _ => Action.noConfusion) (by rw [hi]; rfl) (by rw [hi]; rfl) hinit
      fun _ => id
  | resolveAddrFailed op errno hi =>
    rw [hi] at hinit hlock
    exact h.logs rfl (fun _ _ => Action.noConfusion) (by simp [hi, InitPc.owns, hlock.1])
      (by rw [hi]; rfl) hinit fun _ => id
  | published op hi hc => exact h.publishes hs hi hc
  | publishLost op hi hs =>
    rw [hi] at hinit
    exact h.initMove (w := []) rfl (by simp) (by simp) (by rw [hi]; rfl) (fun _ => rfl)
      fun hw _ _ _ => hw.trans hinit
  | createQpFailed op ec hi he =>
    rw [hi] at hinit hlock
    exact h.logs rfl (fun _ _ => Action.noConfusion) (by simp [hi, InitPc.owns, hlock.1])
      (by rw [hi]; rfl) hinit fun _ => id
  | createQpOk op ec hi he =>
    rw [hi] at hinit
    exact h.logs rfl (fun _ _ => Action.noConfusion) (by rw [hi]; rfl) (by rw [hi]; rfl) hinit
      fun _ => id
  | acceptOk op hi =>
    rw [hi] at hlock
    exact h.accepts hi hlock.1 hlock.2.2.1
  | acceptFailed op errno hi =>
    rw [hi] at hinit hlock
    exact h.logs rfl (fun _ _ => Action.noConfusion) (by simp [hi, InitPc.owns, hlock.1])
      (by rw [hi]; rfl) hinit fun _ => id
  | storedClosed op hi => exact h.storesClosed hi
  | posted op hi =>
    rw [hi] at hinit
    refine h.handsOver rfl rfl rfl rfl rfl rfl (State.owners_posted hi) (fun o ho => .inl ho)
      fun o ho => ?_
    simp only [State.retired, ← List.append_assoc] at ho
    rcases List.mem_append.1 ho with ho | ho
    · exact .inl ho
    · obtain rfl := List.mem_singleton.1 ho
      exact .inr hinit
  | started op hi hr =>
    rw [hi] at hinit
    refine h.handsOver rfl rfl rfl rfl rfl rfl (State.owners_started hi) (fun o ho => ?_)
      fun o ho => .inl ho
    rcases List.mem_append.1 ho with ho | ho
    · exact .inl ho
    · obtain rfl := List.mem_singleton.1 ho
      exact .inr hinit
  | latchSet op hi hp =>
    refine h.initMove (w := []) rfl (by simp) (by simp) (by rw [hi]; rfl) (fun _ => rfl) ?_
    intro _ _ _ hab
    simp [CmOp.abortedConn] at hab
  | latchClear op hi hp =>
    rw [hi] at hinit
    exact h.initMove (w := []) rfl (by simp) (by simp) (by rw [hi]; rfl) (fun _ => rfl)
      fun _ _ _ => hinit
  | waitClosed op hi hs =>
    refine h.initMove (w := []) rfl (by simp) (by simp) (by rw [hi]; rfl) (fun _ => rfl) ?_
    intro _ _ _ hab
    simp [CmOp.abortedConn] at hab
  | waitOpen op hi hc =>
    rw [hi] at hlock
    have hk : op.kind = .wait := hlock
    have hconn := isConn_eq_false.2 hk
    have hquiet := h.quiet_of_wait hs hb hi hc
    obtain ⟨sl, hsl⟩ := s.armCmCancellation_frame op
    rw [hsl]
    refine h.initMove (w := []) rfl (by simp) (by simp) (by simp [hi, InitPc.owns, hconn])
      (fun _ => hconn) fun hw his hq => ⟨fun hc' => ?_, fun hk' => ?_, fun _ => hq hquiet⟩
    · rw [hconn] at hc'
      cases hc'
    · cases hk.symm.trans hk'

/-! ## The reactor -/

def Outcome.beforeIssue : Outcome → Bool
  | .goto pc => pc.beforeIssue
  | .ret _ => false

/-- A connect or accept op that has not won goes on in order. -/
theorem fits_conn (hconn : r.1.isConn = true) (hw : s.won = false)
    (hearly : r.1.kind = .connect → r.1.stage ≠ .connect ∨ r.2.beforeIssue = true →
      s.issued = false) : Fits (TearingAt s) (TearingDone cfg s) r := by
  obtain ⟨o, out⟩ := r
  have hk : o.kind ≠ .wait := kind_ne_wait_of_isConn hconn
  cases out with
  | goto pc => exact ⟨fun _ _ => hw, hearly, fun hk' => absurd hk' hk⟩
  | ret st =>
    cases st with
    | notDone =>
      refine ⟨fun _ _ => hw, fun hkc hs => hearly hkc ?_, fun hk' => absurd hk' hk⟩
      exact .inl (hs.resolve_right (by simp [PerformPc.beforeIssue]))
    | done => exact fun _ => hw

/-- A watcher goes on in order as long as no `ESTABLISHED` can reach it. -/
theorem fits_wait (hk : r.1.kind = .wait) (hq : s.Quiet) :
    Fits (TearingAt s) (TearingDone cfg s) r := by
  obtain ⟨o, out⟩ := r
  have hk' : o.kind = .wait := hk
  have hnc : o.isConn = false := isConn_eq_false.2 hk'
  have hat : ∀ pc, TearingAt s o pc := by
    intro pc
    refine ⟨fun hc => ?_, fun hc => ?_, fun _ => hq⟩
    · rw [hnc] at hc
      cases hc
    · cases hk'.symm.trans hc
  cases out with
  | goto pc => exact hat pc
  | ret st =>
    cases st with
    | notDone => exact hat _
    | done =>
      intro hab
      simp [CmOp.abortedConn, hnc] at hab

theorem State.owners_proceed_le (hr : s.reactor = .performing op pc)
    (hi : t.initiation = s.initiation) (hq : t.readQueue = s.readQueue)
    (hkind : r.1.kind = op.kind) : (t.proceed r).owners ≤ s.owners := by
  have hkept := countP_kept_le (r := r) hkind
  rw [State.owners, State.liveConn_proceed, State.initiation_proceed, hi, hq, State.owners,
    State.liveConn_performing hr]
  omega

/-- What holds of the initiation survives a step of the reactor: an initiation that holds an attempt
relies on no connect or accept op being live. -/
theorem InitPc.Tearing.aside {i : InitPc} (h : i.Tearing cfg s) (hok : InitOk cfg s i)
    (hwon : s.liveConn = 0 → s.won = false → s'.won = false)
    (hat : ∀ o, TearingAt s o .getCmEvent → (o.isConn = true → s.liveConn = 0) →
      TearingAt s' o .getCmEvent)
    (hdone : ∀ o, Settled cfg s o → TearingDone cfg s o → TearingDone cfg s' o)
    (hwatch : i.owns = 0 → s.liveConn = 0 → (∀ o ∈ s.retired, o.isConn = false) →
      s'.liveConn = 0 ∧ ∀ o ∈ s'.retired, o.isConn = false) : i.Tearing cfg s' := by
  cases i with
  | idle => trivial
  | guardState o => trivial
  | resolveAddr o => exact hwon hok.2.2.2 h
  | publish o => exact hwon hok.2.2.2 h
  | createQp o => exact hwon hok.2.2.1 h
  | accept o => exact hwon hok.2.2.1 h
  | storeClosed o => exact hwon hok.2.1 h
  | startOp o => exact hat o h hok.2
  | post o => exact hdone o hok h
  | waitLatch o => exact hwatch rfl h.1 h.2
  | waitState o => exact hwatch rfl h.1 h.2

/-- A piece of `do_perform` keeps the invariant if it hands its token on: only the op that owns the
attempt may record that it issued or won. -/
theorem Teardown.proceed (h : Teardown cfg s) (hl : Lockstep cfg s)
    (hr : s.reactor = .performing op pc) {a : Answer} (hst : Performs s op pc a t r)
    (hcal : t.callers = s.callers)
    (hT : t.unread + r.2.token + t.connectState.token + t.disconnects =
      s.unread + pc.token + s.connectState.token + s.disconnects)
    (hu : t.unread ≤ s.unread) (hd : t.delivered = s.delivered)
    (hi : t.issued = s.issued ∨ op.isConn = true ∧ t.issued = true)
    (hw : t.won = s.won ∨
      op.isConn = true ∧ s.connectState ≠ .closed ∧ t.connectState = .connected)
    (hwon : t.connectState = .connected → t.won = true)
    (hback : s.connectState = .connected → t.connectState = .connected)
    (hfit : (s.Quiet → op.kind = .wait → (t.proceed r).Quiet) →
      Fits (TearingAt (t.proceed r)) (TearingDone cfg (t.proceed r)) r) :
    Teardown cfg (t.proceed r) := by
  obtain ⟨hret, hinit, hq, hkind, hwait, hclosed, hinv⟩ := Performs.frame hl hr hst
  set s' := t.proceed r with hs'
  have hc' : s'.connectState = t.connectState := State.connectState_proceed
  have hd' : s'.delivered = s.delivered := by rw [hs', State.delivered, State.trace_proceed]; exact hd
  have hi' : s'.issued = t.issued := by rw [hs', State.issued, State.trace_proceed]; rfl
  have hw' : s'.won = t.won := by rw [hs', State.won, State.trace_proceed]; rfl
  have hdis' : s'.disconnects = t.disconnects := by
    rw [hs', State.disconnects, State.trace_proceed]; rfl
  have hu' : s'.unread = t.unread := by rw [hs', State.unread, State.channel_proceed]; rfl
  have hcal' : s'.callers = s.callers := State.callers_proceed.trans hcal
  have hinit' : s'.initiation = s.initiation := State.initiation_proceed.trans hinit
  have hown : s'.owners ≤ s.owners := State.owners_proceed_le hr hinit hq hkind
  -- what the step of a watcher leaves the same
  have hsame : op.isConn = false → s'.issued = s.issued ∧ s'.won = s.won := by
    intro hnc
    refine ⟨hi'.trans (hi.resolve_right ?_), hw'.trans (hw.resolve_right ?_)⟩ <;> simp [hnc]
  have hquiet : s.Quiet → s'.Quiet := by
    intro hqs
    refine hqs.mono (by omega) (Nat.le_of_eq hd'.symm) (by rw [hd']; exact h.once) ?_
    intro h1 h2 h3
    have hnc : op.isConn = false := hl.isConn_of_owners hr h2
    exact ⟨(hsame hnc).1.trans h1, by omega, by rw [hinit']; exact h3⟩
  have hdone : ∀ o, Settled cfg s o → TearingDone cfg s o → TearingDone cfg s' o := by
    intro o hset ho hab
    rcases hw with hw | ⟨hconn, hne, -⟩
    · exact (hw'.trans hw).trans (ho hab)
    · rw [hset.not_aborted (hl.owners_pos hr hconn) hne] at hab
      cases hab
  have hat : ∀ o, TearingAt s o .getCmEvent → (op.isConn = true → o.kind = .wait) →
      TearingAt s' o .getCmEvent := by
    intro o ho hkw
    cases hconn : op.isConn with
    | true =>
      have hk := hkw hconn
      refine ⟨fun hc => ?_, fun hc => ?_, fun _ => hquiet (ho.quiet hk)⟩
      · rw [isConn_eq_false.2 hk] at hc
        cases hc
      · cases hk.symm.trans hc
    | false => exact ho.mono (hsame hconn).2 (hsame hconn).1 fun _ => hquiet
  refine ⟨?_, ?_, ?_, ?_, ?_, ?_, ?_, ?_⟩
  · have htok := h.tokens
    have hten : s'.tearing = s.tearing := by rw [State.tearing, hcal']; rfl
    rw [State.tokens, hr] at htok
    have hrt : s'.reactor.token = r.2.token := reactor_token_proceed
    rw [State.tokens, hu', hrt, hc', hten, hdis', hd', ← htok]
    show _ = s.unread + pc.token + s.connectState.token + s.tearing + s.disconnects
    omega
  · rw [hd']
    exact h.once
  · rw [hd', hi']
    intro hpos
    rcases hi with hi | ⟨-, hi⟩
    · exact hi.trans (h.issued hpos)
    · exact hi
  · rw [hc', hw']
    exact hwon
  · rw [hw', hc', hcal']
    intro hwt
    rcases hw with hw | ⟨-, -, hcc⟩
    · exact (h.wonBy (hw ▸ hwt)).imp hback fun hcl => ⟨hclosed hcl.1, hcl.2⟩
    · exact .inl hcc
  · refine OpsOk.proceed (fun o ho => ?_) (fun o ho => ?_) (hfit fun hqs _ => hquiet hqs)
    · rw [hq] at ho
      exact hat o (h.ops.queued o ho) fun hconn => hl.wait_of_queued hr hconn ho
    · rw [hret] at ho
      exact hdone o (hl.ops.retired o ho) (h.ops.retired o ho)
  · rw [hinit']
    -- the op that is performed is then a watcher
    have hrival : s.liveConn = 0 → op.isConn = false := hl.isConn_of_liveConn hr
    refine h.init.aside hl.init (fun h0 hwf => ?_) (fun o ho h0 => ?_) hdone fun hown0 h0 hnone => ?_
    · exact (hsame (hrival h0)).2.trans hwf
    · refine hat o ho fun hconn => ?_
      by_contra hk
      rw [hrival (h0 (isConn_of_ne_wait hk))] at hconn
      cases hconn
    · rw [State.owners, State.owners, hinit', hown0, h0] at hown
      refine ⟨by omega, fun o' ho' => ?_⟩
      rcases State.mem_retired_proceed.1 ho' with ho' | ho'
      · exact hnone o' (hret ▸ ho')
      · obtain ⟨rfl, -⟩ := eq_of_mem_finished ho'
        have hnc := hrival h0
        rwa [CmOp.isConn, ← hkind] at hnc
  · intro o st hmem hab
    rw [State.trace_proceed] at hmem
    obtain ⟨hwf, hcl⟩ := h.invoked o st (hinv o st hmem) hab
    refine ⟨?_, hc'.trans (hclosed hcl)⟩
    rcases hw with hw | ⟨-, hne, -⟩
    · exact (hw'.trans hw).trans hwf
    · exact absurd hcl hne

theorem State.won_proceed : (t.proceed r).won = t.won := by
  rw [State.won, State.trace_proceed]
  rfl

theorem State.issued_proceed : (t.proceed r).issued = t.issued := by
  rw [State.issued, State.trace_proceed]
  rfl

/-- `ESTABLISHED` is read only by an op whose stage waits for it. -/
theorem Teardown.reads (h : Teardown cfg s) (hat : TearingAt s op .getCmEvent) {ev : CmEvent}
    {rest : List CmEvent} (hc : s.channel = ev :: rest) (hev : Handles op ev r) :
    r.2.token = if ev.isEstablished then 1 else 0 := by
  -- an `ESTABLISHED` in the channel was issued by this op
  have hissued : ev.event = .established → s.issued = true := by
    intro he
    refine h.issued ?_
    have htok := h.tokens
    have hun : 0 < s.unread := by
      rw [State.unread, hc, List.countP_cons_of_pos (by simp [CmEvent.isEstablished, he])]
      omega
    rw [State.tokens] at htok
    omega
  have hnot : ev.event ≠ .established → (if ev.isEstablished then 1 else 0) = 0 := by
    intro hne
    simp [CmEvent.isEstablished, hne]
  cases hev with
  | addrResolved hk hs he => exact (hnot (by simp [he])).symm
  | routeResolved hk hs he => exact (hnot (by simp [he])).symm
  | established hconn hs he => simp [CmEvent.isEstablished, he, Outcome.token, PerformPc.token]
  | failed e hconn herr hne =>
    refine (hnot fun he => ?_).symm
    obtain ⟨hk, hs⟩ := hne he
    have := hat.early hk (.inl hs)
    rw [hissued he] at this
    cases this
  | noStage hk hs =>
    refine (hnot fun he => ?_).symm
    have := hat.early hk (.inl (by rcases hs with hs | hs <;> simp [hs]))
    rw [hissued he] at this
    cases this
  | peerClosed e hk he =>
    refine (hnot fun he' => ?_).symm
    rcases he with he | he <;> rw [he] at he' <;> cases he'
  | ignored hk hne hne' =>
    refine (hnot fun he => ?_).symm
    have hz := (hat.quiet hk).1
    rw [State.unread, hc, List.countP_cons_of_pos (by simp [CmEvent.isEstablished, he])] at hz
    omega

/-- An event leads on to a native call only at an earlier stage than the last. -/
theorem Handles.early {ev : CmEvent} (hev : Handles op ev r) (hk : op.kind = .connect)
    (hs : r.1.stage ≠ .connect ∨ r.2.beforeIssue = true) : op.stage ≠ .connect := by
  cases hev with
  | addrResolved hk' hst he => simp [hst]
  | routeResolved hk' hst he => simp [hst]
  | established hconn hst he =>
    exact hs.resolve_right (by simp [Outcome.beforeIssue, PerformPc.beforeIssue])
  | failed e hconn herr hne =>
    exact hs.resolve_right (by simp [Outcome.beforeIssue, PerformPc.beforeIssue])
  | noStage hk' hst => rcases hst with hst | hst <;> simp [hst]
  | peerClosed e hk' he => cases hk.symm.trans hk'
  | ignored hk' hne hne' => cases hk.symm.trans hk'

/-- An op that has to claim `closed` issues nothing and holds no token. -/
theorem claimRead_order {e : ConnectState} :
    (op.claimRead e).2.token = 0 ∧ (op.claimRead e).2.beforeIssue = false := by
  unfold CmOp.claimRead
  split_ifs <;> exact ⟨rfl, rfl⟩

/-- The op goes on in order after a step that records neither that it issued nor that it won. -/
theorem Teardown.fits_next (h : Teardown cfg s) (hl : Lockstep cfg s)
    (hr : s.reactor = .performing op pc) {a : Answer} (hst : Performs s op pc a t r)
    (hne : pc ≠ .modifyQp) (hw : t.won = s.won) (hi : t.issued = s.issued)
    (hs : op.kind = .connect → r.1.stage ≠ .connect ∨ r.2.beforeIssue = true →
      op.stage ≠ .connect ∨ pc.beforeIssue = true)
    (hq : s.Quiet → op.kind = .wait → (t.proceed r).Quiet) :
    Fits (TearingAt (t.proceed r)) (TearingDone cfg (t.proceed r)) r := by
  have hat := h.ops.performing op pc hr
  have hkind : r.1.kind = op.kind := (Performs.frame hl hr hst).2.2.2.1
  by_cases hk : op.kind = .wait
  · exact fits_wait (hkind.trans hk) (hq (hat.quiet hk) hk)
  · have hconn : op.isConn = true := isConn_of_ne_wait hk
    refine fits_conn (by rw [← hconn, CmOp.isConn, CmOp.isConn, hkind]) ?_ fun hkc hst => ?_
    · rw [State.won_proceed, hw]
      exact hat.lost hconn hne
    · rw [State.issued_proceed, hi]
      exact hat.early (hkind ▸ hkc) (hs (hkind ▸ hkc) hst)

/-- A step that leaves `connect_state_` and the channel alone and logs neutral actions. -/
theorem Teardown.performsNeutral (h : Teardown cfg s) (hl : Lockstep cfg s)
    (hr : s.reactor = .performing op pc) {a : Answer} (hst : Performs s op pc a t r)
    {w : List Action} (htr : t.trace = w ++ s.trace) (hw : ∀ x ∈ w, x.neutral = true)
    (hch : t.channel = s.channel) (hcal : t.callers = s.callers)
    (hc : t.connectState = s.connectState) (htok : r.2.token = pc.token) (hne : pc ≠ .modifyQp)
    (hs : op.kind = .connect → r.1.stage ≠ .connect ∨ r.2.beforeIssue = true →
      op.stage ≠ .connect ∨ pc.beforeIssue = true) : Teardown cfg (t.proceed r) := by
  obtain ⟨hd, hdis, hi, hwon⟩ := State.counts_of_neutral htr hw
  have hu : t.unread = s.unread := by rw [State.unread, hch]; rfl
  refine h.proceed hl hr hst hcal (by rw [hu, htok, hc, hdis]) (Nat.le_of_eq hu) hd (.inl hi)
    (.inl hwon) ?_ (fun hs => hc.trans hs) (h.fits_next hl hr hst hne hwon hi hs)
  rw [hc, hwon]
  exact h.won

/-- A step of `do_perform` keeps the invariant. -/
theorem Teardown.performs (h : Teardown cfg s) (hl : Lockstep cfg s)
    (hr : s.reactor = .performing op pc) {a : Answer} (hst : Performs s op pc a t r)
    (henv : teardownEnv s (.perform a) = true) : Teardown cfg (t.proceed r) := by
  have hpc := hl.ops.performing op pc hr
  have hat := h.ops.performing op pc hr
  cases hst with
  | readEvent ev rest hc =>
    have hev := Handles.of_onEvent op ev
    have hread := h.reads hat hc hev
    have hun : s.unread = rest.countP CmEvent.isEstablished + if ev.isEstablished then 1 else 0 := by
      rw [State.unread, hc, List.countP_cons]
    refine h.proceed hl hr (.readEvent ev rest hc) rfl ?_ ?_ ?_ (.inl rfl) (.inl rfl) h.won id
      (h.fits_next hl hr (.readEvent ev rest hc) PerformPc.noConfusion rfl rfl fun hk hs => ?_)
    · show rest.countP CmEvent.isEstablished + _ + s.connectState.token + s.disconnects =
        s.unread + 0 + s.connectState.token + s.disconnects
      rw [hread, hun, Nat.add_zero]
    · show rest.countP CmEvent.isEstablished ≤ s.unread
      omega
    · exact List.countP_cons_of_neg (by simp [Action.isDelivered])
    · exact .inl (hev.early hk hs)
  | readAgain hc =>
    exact h.performsNeutral hl hr (.readAgain hc) (w := [])
      rfl (by simp) rfl rfl rfl rfl PerformPc.noConfusion
      fun _ hs => .inl (hs.resolve_right (by simp [CmOp.onAgain, Outcome.beforeIssue]))
  | readHardError errno hne => simp [teardownEnv] at henv
  | advanceWon expected desired hs =>
    obtain ⟨hk, -, hd⟩ := hpc
    have htok : s.connectState.token = 0 ∧ desired.token = 0 ∧ desired ≠ .connected ∧
        s.connectState ≠ .connected := by
      rcases hd with ⟨rfl, rfl⟩ | ⟨rfl, rfl⟩ <;> rw [hs] <;>
        exact ⟨rfl, rfl, ConnectState.noConfusion, ConnectState.noConfusion⟩
    have hneu : (Action.cas op.kind desired).neutral = true := by
      rcases hd with ⟨rfl, rfl⟩ | ⟨rfl, rfl⟩ <;> rfl
    have htr : ({ s.log (.cas op.kind desired) with connectState := desired } : State).trace =
        [Action.cas op.kind desired] ++ s.trace := rfl
    obtain ⟨hd', hdis, hi, hw⟩ := State.counts_of_neutral htr (by simpa using hneu)
    refine h.proceed hl hr (.advanceWon expected desired hs) rfl ?_ (Nat.le_refl _) hd' (.inl hi)
      (.inl hw) (fun hc => absurd hc htok.2.2.1) (fun hc => absurd hc htok.2.2.2)
      (h.fits_next hl hr (.advanceWon expected desired hs)
        PerformPc.noConfusion hw hi fun _ _ => .inr rfl)
    have hout : (op.advanced desired).2.token = 0 := by
      unfold CmOp.advanced
      split_ifs <;> rfl
    rw [hout, hdis, htok.1]
    show s.unread + 0 + desired.token + s.disconnects = s.unread + 0 + 0 + s.disconnects
    rw [htok.2.1]
  | advanceLost expected desired hs =>
    exact h.performsNeutral hl hr (.advanceLost expected desired hs) (w := [])
      rfl (by simp) rfl rfl rfl rfl PerformPc.noConfusion fun _ _ => .inr rfl
  | createQp ec =>
    refine h.performsNeutral hl hr (.createQp ec) (w := [.createQp op.kind])
      rfl (by simp; rfl) rfl rfl rfl ?_ PerformPc.noConfusion fun _ _ => .inr rfl
    unfold CmOp.createdQp
    split_ifs <;> rfl
  | resolveRoute res =>
    refine h.performsNeutral hl hr (.resolveRoute res) (w := [.resolveRoute res])
      rfl (by simp; rfl) rfl rfl rfl ?_ PerformPc.noConfusion fun _ _ => .inr rfl
    cases res <;> rfl
  | connect res =>
    obtain ⟨hk, hcs, -⟩ := hpc
    have hconn := isConn_of_connect hk
    cases res with
    | fail errno =>
      exact h.performsNeutral hl hr (.connect (.fail errno)) (w := [.connect (.fail errno)])
        rfl (by simp; rfl) rfl rfl rfl rfl PerformPc.noConfusion fun _ _ => .inr rfl
    | ok =>
      have hw : (s.log (.connect .ok)).won = s.won := rfl
      refine h.proceed hl hr (.connect .ok) rfl rfl (Nat.le_refl _) ?_ (.inr ⟨hconn, rfl⟩)
        (.inl hw) h.won id fun _ => ?_
      · exact List.countP_cons_of_neg (by simp [Action.isDelivered])
      · refine fits_conn hconn ?_ fun _ hst => ?_
        · rw [State.won_proceed, hw]
          exact hat.lost hconn PerformPc.noConfusion
        · rcases hst with hst | hst
          · exact absurd rfl hst
          · cases hst
  | establishedWon ev hs =>
    obtain ⟨hconn, -⟩ := hpc
    have hwon : ({ s.log (.cas op.kind .connected) with connectState := .connected } :
        State).won = true := rfl
    have hi : ({ s.log (.cas op.kind .connected) with connectState := .connected } :
        State).issued = s.issued := rfl
    refine h.proceed hl hr (.establishedWon ev hs) rfl ?_ (Nat.le_refl _) ?_ (.inl hi)
      (.inr ⟨hconn, by simp [hs], rfl⟩) (fun _ => hwon) (fun _ => rfl) fun _ => ?_
    · rw [hs]
      show s.unread + 0 + 1 + s.disconnects = s.unread + 1 + 0 + s.disconnects
      omega
    · exact List.countP_cons_of_neg (by simp [Action.isDelivered])
    · obtain ⟨hk, -, -, hst⟩ := op.takeReply_fixed ev
      refine ⟨fun _ hne => absurd rfl hne, fun hkc hs' => ?_, fun hkw => ?_⟩
      · rw [State.issued_proceed, hi]
        rw [hst] at hs'
        exact hat.early (hk ▸ hkc) (.inl (hs'.resolve_right (by simp [PerformPc.beforeIssue])))
      · exact absurd (hk ▸ hkw) (kind_ne_wait_of_isConn hconn)
  | establishedLost ev hs =>
    exact h.performsNeutral hl hr (.establishedLost ev hs) (w := [])
      rfl (by simp) rfl rfl rfl rfl PerformPc.noConfusion fun _ hst => .inl (hst.resolve_right (by
        simp [CmOp.arbitrated, Outcome.beforeIssue, PerformPc.beforeIssue]))
  | modifyQp rc =>
    obtain ⟨hconn, -⟩ := hpc
    refine h.proceed hl hr (.modifyQp rc) rfl rfl (Nat.le_refl _) rfl (.inl rfl) (.inl rfl) h.won id
      fun _ hab => ?_
    -- `modify_qp` does not return `ECANCELED`, so the op does not report `operation_aborted`
    have hrc : rc ≠ ecanceled := by simpa [teardownEnv] using henv
    have hab' : (modifyQpCode rc).isAborted cfg.aliased = true := by
      rw [CmOp.abortedConn, Bool.and_eq_true] at hab
      exact hab.2
    unfold modifyQpCode at hab'
    split_ifs at hab'
    · simp [isAborted, operationAborted, makeSystemErrorCode, hrc] at hab'
    · simp at hab'
  | disconnect res =>
    obtain ⟨hconn, hcl⟩ := hpc
    have hw : (s.log (.rdmaDisconnect .op)).won = s.won := rfl
    refine h.proceed hl hr (.disconnect res) rfl ?_ (Nat.le_refl _) ?_ (.inl rfl) (.inl hw) h.won id
      (h.fits_next hl hr (.disconnect res) PerformPc.noConfusion hw rfl fun _ hst => ?_)
    · have hdis : (s.log (.rdmaDisconnect .op)).disconnects = s.disconnects + 1 :=
        List.countP_cons_of_pos rfl
      rw [hdis]
      show s.unread + 0 + s.connectState.token + (s.disconnects + 1) =
        s.unread + 1 + s.connectState.token + s.disconnects
      omega
    · exact List.countP_cons_of_neg (by simp [Action.isDelivered])
    · exact .inl (hst.resolve_right (by simp [CmOp.tornDown, Outcome.beforeIssue]))
  | claimLoad =>
    obtain ⟨htok, hbefore⟩ := claimRead_order
    exact h.performsNeutral hl hr .claimLoad (w := [])
      rfl (by simp) rfl rfl rfl htok PerformPc.noConfusion
      fun _ hst => .inl ((op.claimRead_fixed _).2.2.2 ▸ hst.resolve_right (by simp [hbefore]))
  | claimWon e hs =>
    obtain ⟨hconn, hc⟩ := hpc
    have hne : s.connectState ≠ .connected := by
      intro hcc
      rcases hc with hc | hc <;> rw [hcc] at hc <;> cases hc
    have hw : ({ s.log (.close .op) with connectState := .closed } : State).won = s.won := rfl
    refine h.proceed hl hr (.claimWon e hs) rfl ?_ (Nat.le_refl _) ?_ (.inl rfl) (.inl hw)
      (fun hcc => by cases hcc) (fun hcc => absurd hcc hne)
      (h.fits_next hl hr (.claimWon e hs) PerformPc.noConfusion hw rfl fun _ hst => ?_)
    · rw [token_of_ne hne]
      rfl
    · exact List.countP_cons_of_neg (by simp [Action.isDelivered])
    · exact .inl (hst.resolve_right (by simp [Outcome.beforeIssue]))
  | claimRetry e a ha =>
    obtain ⟨htok, hbefore⟩ := claimRead_order
    exact h.performsNeutral hl hr (.claimRetry e a ha) (w := [])
      rfl (by simp) rfl rfl rfl htok PerformPc.noConfusion
      fun _ hst => .inl ((op.claimRead_fixed _).2.2.2 ▸ hst.resolve_right (by simp [hbefore]))
  | peerClosed =>
    exact h.performsNeutral hl hr .peerClosed (w := [])
      rfl (by simp) rfl rfl rfl rfl PerformPc.noConfusion
      fun hk _ => by cases hk.symm.trans (show op.kind = .wait from hpc)

/-! ## Cancellation, completion, `disconnect()` -/

/-- What holds of the initiation survives a step of another actor that issues and wins nothing. -/
theorem InitPc.Tearing.mono {i : InitPc} (h : i.Tearing cfg s) (hw : s'.won = s.won)
    (hi : s'.issued = s.issued) (hq : s.Quiet → s'.Quiet) (hlive : s'.liveConn ≤ s.liveConn)
    (hret : s.liveConn = 0 → (∀ o ∈ s.retired, o.isConn = false) →
      ∀ o ∈ s'.retired, o.isConn = false) : i.Tearing cfg s' := by
  have hnone : s.liveConn = 0 ∧ (∀ o ∈ s.retired, o.isConn = false) →
      s'.liveConn = 0 ∧ ∀ o ∈ s'.retired, o.isConn = false :=
    fun ⟨h0, hr⟩ => ⟨by omega, hret h0 hr⟩
  cases i with
  | idle => trivial
  | guardState o => trivial
  | startOp o => exact TearingAt.mono h hw hi fun _ => hq
  | post o => exact fun hab => hw.trans (h hab)
  | waitLatch o => exact hnone h
  | waitState o => exact hnone h
  | resolveAddr o => exact hw.trans h
  | publish o => exact hw.trans h
  | createQp o => exact hw.trans h
  | accept o => exact hw.trans h
  | storeClosed o => exact hw.trans h

theorem State.Quiet.congr (h : s.Quiet) (hch : s'.channel = s.channel)
    (hd : s'.delivered = s.delivered) (hi : s'.issued = s.issued) (ho : s'.owners = s.owners)
    (hin : s'.initiation = s.initiation) : s'.Quiet := by
  obtain ⟨hz, hrest⟩ := h
  refine ⟨?_, hrest.imp hd.trans fun hr => ⟨hi.trans hr.1, ho.trans hr.2.1, ?_⟩⟩
  · rw [State.unread, hch]
    exact hz
  · rw [hin]
    exact hr.2.2

/-- A step outside the initiation and the reactor keeps the invariant if it hands its tokens on. -/
theorem Teardown.outside (h : Teardown cfg s) (hT : s'.tokens = s.tokens)
    (hd : s'.delivered = s.delivered) (his : s'.issued = s.issued) (hw : s'.won = s.won)
    (hwon : s'.connectState = .connected → s.connectState = .connected)
    (hwonBy : s.won = true → s.connectState = .connected ∨ s.connectState = .closed ∧ s.callers ≠ [] →
      s'.connectState = .connected ∨ s'.connectState = .closed ∧ s'.callers ≠ [])
    (hcl : s.connectState = .closed → s'.connectState = .closed) (hch : s'.channel = s.channel)
    (hr : s'.reactor = s.reactor) (hrq : s'.readQueue = s.readQueue)
    (hret : ∀ o ∈ s'.retired, o ∈ s.retired) (hi : s'.initiation = s.initiation)
    (hinv : ∀ op st, .invoked op st ∈ s'.trace → op.abortedConn cfg = true →
      .invoked op st ∈ s.trace ∨ s.won = false ∧ s'.connectState = .closed) : Teardown cfg s' := by
  have harmed : s'.armed = s.armed := by rw [State.armed, hr, hrq, State.armed]
  have hlive : s'.liveConn = s.liveConn := by rw [State.liveConn, harmed, State.liveConn]
  have hown : s'.owners = s.owners := by rw [State.owners, hi, hlive, State.owners]
  have hq : s.Quiet → s'.Quiet := fun hqs => hqs.congr hch hd his hown hi
  have hat : ∀ o pc, TearingAt s o pc → TearingAt s' o pc := fun o pc ha =>
    ha.mono hw his fun _ => hq
  refine ⟨?_, ?_, ?_, fun hc => ?_, fun hwt => ?_,
    ⟨fun o pc ho => hat o pc (h.ops.performing o pc (hr ▸ ho)),
      fun o ho => hat o _ (h.ops.queued o (hrq ▸ ho)),
      fun o ho hab => hw.trans (h.ops.retired o (hret o ho) hab)⟩, ?_, fun o st hm hab => ?_⟩
  · rw [hT, hd]
    exact h.tokens
  · rw [hd]
    exact h.once
  · rw [hd, his]
    exact h.issued
  · rw [hw]
    exact h.won (hwon hc)
  · rw [hw] at hwt
    exact hwonBy hwt (h.wonBy hwt)
  · rw [hi]
    exact h.init.mono hw his hq (Nat.le_of_eq hlive) fun _ hn o ho => hn o (hret o ho)
  · rcases hinv o st hm hab with hm | ⟨hwf, hc⟩
    · obtain ⟨hwf, hc⟩ := h.invoked o st hm hab
      exact ⟨hw.trans hwf, hcl hc⟩
    · exact ⟨hw.trans hwf, hc⟩

theorem Teardown.cancelWhere (h : Teardown cfg s) (hr : s.reactor = .unlocked) (p : CmOp → Bool) :
    Teardown cfg (s.cancelWhere p) := by
  have hlive : (s.cancelWhere p).liveConn ≤ s.liveConn := by
    have hsplit := State.countP_cancelWhere hr CmOp.isConn (p := p)
    unfold State.liveConn
    omega
  have hown : (s.cancelWhere p).owners ≤ s.owners := by
    simp only [State.owners, State.initiation_cancelWhere]
    omega
  have hq : s.Quiet → (s.cancelWhere p).Quiet := fun hq =>
    hq.mono (Nat.le_refl _) (Nat.le_refl _) h.once fun h1 h2 h3 => ⟨h1, by omega, h3⟩
  have hops : OpsOk (TearingAt (s.cancelWhere p)) (TearingDone cfg (s.cancelWhere p)) s :=
    h.ops.mono (fun o pc ha => ha.mono rfl rfl fun _ => hq) fun _ hd => hd
  refine h.frame rfl rfl rfl rfl rfl id (hops.cancelWhere fun o ho _ ha hab => ?_)
    (h.init.mono rfl rfl hq hlive fun h0 hnone o ho => ?_) fun _ _ hm _ => hm
  · refine ha.lost ?_ PerformPc.noConfusion
    rw [CmOp.abortedConn, Bool.and_eq_true] at hab
    exact hab.1
  · rcases State.mem_retired_cancelWhere.1 ho with ho | ⟨o', ho', -, rfl⟩
    · exact hnone o ho
    · have hz := List.countP_eq_zero.1 h0 o' (by simp [State.armed, ho'])
      simpa [CmOp.abort, CmOp.isConn] using hz

/-- A completion that closes takes no token: an aborted op has not won. -/
theorem Teardown.complete (h : Teardown cfg s) {i : Nat} (hop : s.scheduled[i]? = some op) :
    Teardown cfg (completeOp cfg { s with scheduled := s.scheduled.eraseIdx i } op) := by
  have hmem : op ∈ s.retired := List.mem_append_right _ (List.mem_of_getElem? hop)
  have hsub : ∀ o ∈ s.ioCleanup ++ s.scheduled.eraseIdx i, o ∈ s.retired := by
    intro o ho
    rcases List.mem_append.1 ho with ho | ho
    · exact List.mem_append_left _ ho
    · exact List.mem_append_right _ (List.mem_of_mem_eraseIdx ho)
  unfold completeOp
  split_ifs with hab
  · have hwf : s.won = false := h.ops.retired op hmem (by simpa [CmOp.abortedConn] using hab)
    have hne : s.connectState ≠ .connected := by
      intro hc
      have := h.won hc
      simp [hwf] at this
    refine h.outside ?_ rfl rfl rfl ConnectState.noConfusion (fun hw => ?_) (fun _ => rfl) rfl rfl
      rfl hsub rfl fun _ _ _ _ => .inr ⟨hwf, rfl⟩
    · rw [State.tokens, State.tokens, token_of_ne hne]
      rfl
    · rw [hwf] at hw
      cases hw
  · refine h.outside rfl rfl rfl rfl id (fun _ => id) id rfl rfl rfl hsub rfl fun o st ho hba => ?_
    rcases List.mem_cons.1 ho with heq | ho
    · obtain ⟨rfl, -⟩ := Action.invoked.inj heq
      rw [CmOp.abortedConn, Bool.and_eq_true] at hba
      exact absurd hba hab
    · exact .inl ho

/-- A step of a `disconnect()` call hands tokens on. -/
theorem Disconnects.tokens {i : Nat} {a : Answer} (hst : Disconnects s i a s') :
    s'.connectState.token + s'.tearing + s'.disconnects =
      s.connectState.token + s.tearing + s.disconnects := by
  have hloop : ∀ c, (casLoop c).tearing = false := by
    intro c
    unfold casLoop
    split_ifs <;> rfl
  cases hst with
  | load hi =>
    have hset := countP_set_of_getElem? (f := DisconnectPc.tearing) (b := casLoop s.connectState) hi
    rw [hloop] at hset
    have : (s.callers.set i (casLoop s.connectState)).countP DisconnectPc.tearing = s.tearing := by
      simpa [DisconnectPc.tearing, State.tearing] using hset
    exact congrArg (fun n => s.connectState.token + n + s.disconnects) this
  | won old hi hs =>
    have hset := countP_set_of_getElem? (f := DisconnectPc.tearing) (b := afterCas old) hi
    have htok : (if (afterCas old).tearing then 1 else 0) = old.token := by cases old <;> rfl
    have hdis : (s.log (.close (.caller i))).disconnects = s.disconnects :=
      List.countP_cons_of_neg (by simp [Action.isDisconnect])
    rw [htok] at hset
    show 0 + (s.callers.set i (afterCas old)).countP DisconnectPc.tearing +
      (s.log (.close (.caller i))).disconnects = _
    rw [hdis, hs]
    simp only [DisconnectPc.tearing, Bool.false_eq_true, if_false, Nat.add_zero] at hset
    rw [hset, State.tearing]
    omega
  | retry old a hi ha =>
    have hset := countP_set_of_getElem? (f := DisconnectPc.tearing) (b := casLoop s.connectState) hi
    rw [hloop] at hset
    have : (s.callers.set i (casLoop s.connectState)).countP DisconnectPc.tearing = s.tearing := by
      simpa [DisconnectPc.tearing, State.tearing] using hset
    exact congrArg (fun n => s.connectState.token + n + s.disconnects) this
  | cancel old hi hr =>
    have hset := countP_set_of_getElem? (f := DisconnectPc.tearing) (b := afterCancel old) hi
    have hsame : (afterCancel old).tearing = (DisconnectPc.cancelOps old).tearing := by
      cases old <;> rfl
    rw [hsame] at hset
    have : (s.callers.set i (afterCancel old)).countP DisconnectPc.tearing = s.tearing := by
      simpa [State.tearing] using hset
    exact congrArg (fun n => s.connectState.token + n + s.disconnects) this
  | native res hi =>
    have hset := countP_set_of_getElem? (f := DisconnectPc.tearing) (b := .returned) hi
    have hdis : (s.log (.rdmaDisconnect (.caller i))).disconnects = s.disconnects + 1 :=
      List.countP_cons_of_pos rfl
    simp only [DisconnectPc.tearing, if_true, Bool.false_eq_true, if_false, Nat.add_zero] at hset
    show s.connectState.token + (s.callers.set i .returned).countP DisconnectPc.tearing +
      (s.log (.rdmaDisconnect (.caller i))).disconnects = _
    rw [hdis, State.tearing, ← hset]
    show _ = s.connectState.token + (_ + 1) + s.disconnects
    omega

theorem set_ne_nil {ps : List DisconnectPc} {i : Nat} {p q : DisconnectPc} (h : ps[i]? = some p) :
    ps.set i q ≠ [] := by
  intro hnil
  rw [List.set_eq_nil_iff] at hnil
  simp [hnil] at h

/-- A step of a `disconnect()` call keeps the invariant. -/
theorem Teardown.disconnects (h : Teardown cfg s) {i : Nat} {a : Answer}
    (hst : Disconnects s i a s') : Teardown cfg s' := by
  have htok := hst.tokens
  have hcount : ∀ {a : Action} {tr : List Action}, a.isDelivered = false →
      (a :: tr).countP Action.isDelivered = tr.countP Action.isDelivered :=
    fun ha => List.countP_cons_of_neg (by simp [ha])
  have htokens : s'.channel = s.channel → s'.reactor = s.reactor → s'.tokens = s.tokens := by
    intro hch hr
    rw [State.tokens, State.tokens, State.unread, State.unread, hch, hr]
    omega
  cases hst with
  | load hi =>
    exact h.outside (htokens rfl rfl) rfl rfl rfl id
      (fun _ => Or.imp id fun hc => ⟨hc.1, set_ne_nil hi⟩) id rfl rfl rfl (fun _ ho => ho) rfl
      fun _ _ hm _ => .inl hm
  | retry old a hi ha =>
    exact h.outside (htokens rfl rfl) rfl rfl rfl id
      (fun _ => Or.imp id fun hc => ⟨hc.1, set_ne_nil hi⟩) id rfl rfl rfl (fun _ ho => ho) rfl
      fun _ _ hm _ => .inl hm
  | native res hi =>
    exact h.outside (htokens rfl rfl) (hcount rfl) rfl rfl id
      (fun _ => Or.imp id fun hc => ⟨hc.1, set_ne_nil hi⟩) id rfl rfl rfl (fun _ ho => ho) rfl
      fun _ _ hm _ => .inl (by simpa using hm)
  | won old hi hs =>
    exact h.outside (htokens rfl rfl) (hcount rfl) rfl rfl ConnectState.noConfusion
      (fun _ _ => .inr ⟨rfl, set_ne_nil hi⟩) (fun _ => rfl) rfl rfl rfl (fun _ ho => ho) rfl
      fun _ _ hm _ => .inl (by simpa using hm)
  | cancel old hi hr =>
    have hc : Teardown cfg s.cancelOps := by
      rw [State.cancelOps_eq]
      exact h.cancelWhere hr _
    refine hc.outside (htokens rfl rfl) rfl rfl rfl id
      (fun _ => Or.imp id fun hc => ⟨hc.1, set_ne_nil hi⟩) id rfl rfl rfl (fun _ ho => ho) rfl
      fun _ _ hm _ => .inl hm

/-! ## Every step -/

/-- Reading an event off the channel in the drain hands its token to the `rdma_disconnect` call that
follows. -/
theorem Teardown.drain (h : Teardown cfg s) {rest : List CmEvent} {w : List Action}
    (hs' : s' = { s with channel := rest, trace := w ++ s.trace })
    (hT : rest.countP CmEvent.isEstablished + w.countP Action.isDisconnect = s.unread)
    (hd : w.countP Action.isDelivered = 0) (hi : w.any Action.isIssued = false)
    (hw : w.any Action.isWon = false) (hinv : ∀ o st, .invoked o st ∉ w) :
    Teardown cfg s' := by
  have hd' : s'.delivered = s.delivered := by
    rw [hs', State.delivered, List.countP_append, hd, Nat.zero_add, State.delivered]
  have hi' : s'.issued = s.issued := by
    rw [hs', State.issued, List.any_append, hi, Bool.false_or, State.issued]
  have hw' : s'.won = s.won := by
    rw [hs', State.won, List.any_append, hw, Bool.false_or, State.won]
  have hu' : s'.unread = rest.countP CmEvent.isEstablished := by rw [hs']; rfl
  have hq : s.Quiet → s'.Quiet := fun hqs => hqs.mono (by omega) (Nat.le_of_eq hd'.symm)
    (by rw [hd']; exact h.once) fun h1 h2 h3 => ⟨hi'.trans h1, by rw [hs']; exact h2, by rw [hs']; exact h3⟩
  have hops : OpsOk (TearingAt s') (TearingDone cfg s') s :=
    h.ops.mono (fun o pc ha => ha.mono hw' hi' fun _ => hq) fun _ hr hab => hw'.trans (hr hab)
  refine h.frame (by rw [hs']) ?_ hd' hi' hw' (by rw [hs']; exact id) ?_ ?_ fun o st hm _ => ?_
  · have hdis : s'.disconnects = w.countP Action.isDisconnect + s.disconnects := by
      rw [hs', State.disconnects, List.countP_append, State.disconnects]
    rw [State.tokens, hu', hdis, State.tokens, ← hT, hs']
    show _ + s.reactor.token + s.connectState.token + s.tearing + _ = _
    omega
  · rw [hs'] at hops ⊢
    exact ⟨hops.performing, hops.queued, hops.retired⟩
  · have hlive : s'.liveConn = s.liveConn := by rw [hs']; rfl
    have hret : s'.retired = s.retired := by rw [hs']; rfl
    have hin : s'.initiation = s.initiation := by rw [hs']
    rw [hin]
    exact h.init.mono hw' hi' hq (Nat.le_of_eq hlive) fun _ hn o ho => hn o (hret ▸ ho)
  · rw [hs'] at hm
    exact (List.mem_append.1 hm).resolve_left (hinv o st)

/-- The CM delivers an event. -/
theorem Teardown.event (h : Teardown cfg s) {ev : CmEvent}
    (henv : teardownEnv s (.event ev) = true) :
    Teardown cfg { s.log (.delivered ev) with channel := s.channel ++ [ev], edge := true } := by
  set s' : State := { s.log (.delivered ev) with channel := s.channel ++ [ev], edge := true }
    with hs'
  set n := if ev.isEstablished then 1 else 0 with hn
  have hd : s'.delivered = s.delivered + n := by
    rw [hs', State.delivered, State.trace_log, List.countP_cons]
    rfl
  have hu : s'.unread = s.unread + n := by
    rw [hs', State.unread, List.countP_append, List.countP_singleton]
    rfl
  have hdis : s'.disconnects = s.disconnects :=
    List.countP_cons_of_neg (by simp [Action.isDisconnect])
  have hw : n = 0 ∨ n = 1 ∧ s.delivered = 0 ∧ s.issued = true := by
    simp only [teardownEnv, Bool.or_eq_true, Bool.not_eq_true', Bool.and_eq_true,
      beq_iff_eq] at henv
    rcases henv with he | ⟨hz, hi⟩
    · exact .inl (by simp [hn, he])
    · cases he : ev.isEstablished with
      | false => exact .inl (by simp [hn, he])
      | true => exact .inr ⟨by simp [hn, he], hz, hi⟩
  have honce := h.once
  have hq : s.Quiet → s'.Quiet := by
    rintro ⟨hz, hd1 | ⟨h1, h2, h3⟩⟩
    · exact ⟨by omega, .inl (by omega)⟩
    · rcases hw with h0 | ⟨-, -, hi⟩
      · exact ⟨by omega, .inr ⟨h1, h2, h3⟩⟩
      · rw [h1] at hi
        cases hi
  have hat : ∀ o pc, TearingAt s o pc → TearingAt s' o pc := fun o pc ha =>
    ha.mono rfl rfl fun _ => hq
  refine ⟨?_, by omega, fun hpos => ?_, h.won, h.wonBy,
    ⟨fun o pc ho => hat o pc (h.ops.performing o pc ho),
      fun o ho => hat o _ (h.ops.queued o ho), h.ops.retired⟩,
    h.init.mono rfl rfl hq (Nat.le_refl _) fun _ hnone => hnone, fun o st hm => ?_⟩
  · have ht := h.tokens
    rw [State.tokens] at ht
    rw [State.tokens, hd, hu, hdis]
    show s.unread + n + s.reactor.token + s.connectState.token + s.tearing + _ = _
    omega
  · rcases hw with h0 | ⟨-, -, hi⟩
    · exact h.issued (by omega)
    · exact hi
  · exact h.invoked o st (by simpa [hs'] using hm)

/-- The `perform_io` loop starts. -/
theorem Teardown.nextOp (h : Teardown cfg s) (hr : s.reactor = .unlocked) :
    Teardown cfg s.nextOp := by
  have harmed := State.armed_nextOp hr
  have hdel : s.nextOp.delivered = s.delivered := by rw [State.delivered, State.trace_nextOp]; rfl
  have his : s.nextOp.issued = s.issued := by rw [State.issued, State.trace_nextOp]; rfl
  have hw : s.nextOp.won = s.won := by rw [State.won, State.trace_nextOp]; rfl
  have hq : s.Quiet → s.nextOp.Quiet := fun hqs =>
    hqs.congr State.channel_nextOp hdel his (State.owners_nextOp hr) State.initiation_nextOp
  have hops : OpsOk (TearingAt s.nextOp) (TearingDone cfg s.nextOp) s :=
    h.ops.mono (fun o pc ha => ha.mono hw his fun _ => hq) fun _ hd hab => hw.trans (hd hab)
  refine h.frame State.connectState_nextOp ?_ hdel his hw (by rw [State.callers_nextOp]; exact id)
    hops.nextOp ?_ (by rw [State.trace_nextOp]; exact fun _ _ hm _ => hm)
  · have hten : s.nextOp.tearing = s.tearing := by rw [State.tearing, State.callers_nextOp]; rfl
    have hdis : s.nextOp.disconnects = s.disconnects := by
      rw [State.disconnects, State.trace_nextOp]; rfl
    have hun : s.nextOp.unread = s.unread := by rw [State.unread, State.channel_nextOp]; rfl
    rw [State.tokens, hun, reactor_token_nextOp, State.connectState_nextOp, hten, hdis,
      State.tokens, hr]
    rfl
  · rw [State.initiation_nextOp]
    refine h.init.mono hw his hq ?_ fun _ hn o ho => hn o (State.retired_nextOp.mem_iff.1 ho)
    rw [State.liveConn, harmed]
    exact Nat.le_refl _

/-- Every step in the assumed environment keeps the invariant. -/
theorem Teardown.step {l : Label} (h : Teardown cfg s) (hl : Lockstep cfg s) (hs : SingleShot s)
    (hb : Backed cfg s) (henv : teardownEnv s l = true)
    (hst : (connector cfg).step s l = some s') : Teardown cfg s' := by
  have hnowait : s.armed.all CmOp.isConn = true → ∀ o ∈ s.armed, o.kind ≠ .wait := by
    intro hall o ho
    exact kind_ne_wait_of_isConn (List.all_eq_true.1 hall o ho)
  -- a step that changes nothing the invariant looks at
  have hsame : ∀ {x : State}, Teardown cfg x → s'.connectState = x.connectState →
      s'.trace = x.trace → s'.channel = x.channel → s'.callers = x.callers →
      s'.reactor = x.reactor → s'.readQueue = x.readQueue → s'.retired = x.retired →
      s'.initiation = x.initiation → Teardown cfg s' := by
    intro x hx hc htr hch hcal hr hrq hret hi
    have hd : s'.delivered = x.delivered := by rw [State.delivered, htr]; rfl
    have his : s'.issued = x.issued := by rw [State.issued, htr]; rfl
    have hw : s'.won = x.won := by rw [State.won, htr]; rfl
    refine hx.outside ?_ hd his hw (fun h => hc ▸ h) (fun _ hwb => by rwa [hc, hcal])
      (fun h => hc.trans h) hch hr hrq (fun o ho => hret ▸ ho) hi
      fun _ _ hm _ => .inl (htr ▸ hm)
    rw [State.tokens, State.unread, hch, hr, hc, State.tearing, hcal, State.disconnects, htr]
    rfl
  cases Step.of_step hst with
  | event ev hlt => exact h.event henv
  | beginConnect addr slot hasCreateQp requestSize replyCap hi hlt =>
    exact h.guarded (connectGuards_not_aborted _) (hnowait henv)
  | beginAccept addr slot hasCreateQp bindFails dataSize hi hlt =>
    exact h.guarded (acceptGuards_not_aborted _ _) (hnowait henv)
  | beginWait addr slot hi hlt =>
    have hall : ∀ o ∈ s.armed ++ s.retired, o.isConn = false := by
      intro o ho
      simpa using List.all_eq_true.1 henv o ho
    refine h.initMove (w := []) rfl (by simp) (by simp) (by rw [hi]; rfl) (fun _ => rfl)
      fun _ _ _ => ⟨?_, fun o ho => hall o (List.mem_append_right _ ho)⟩
    refine List.countP_eq_zero.2 fun o ho hconn => ?_
    rw [hall o (List.mem_append_left _ ho)] at hconn
    cases hconn
  | initiate a _ hin => exact h.initiates hl hs hb hin
  | performIo he hr hlt =>
    have hedge : Teardown cfg s.takeEdge :=
      h.outside rfl rfl rfl rfl id (fun _ => id) id rfl rfl rfl (fun _ ho => ho) rfl
        fun _ _ hm _ => .inl hm
    exact hedge.nextOp hr
  | perform op pc a t r hr hp => exact h.performs hl hr hp henv
  | complete i op hop => exact h.complete hop
  | enterDisconnect hlt =>
    refine h.outside ?_ rfl rfl rfl id (fun _ => Or.imp id fun hc => ⟨hc.1, by simp⟩) id rfl rfl rfl
      (fun _ ho => ho) rfl fun _ _ hm _ => .inl hm
    have hten : (s.callers ++ [DisconnectPc.load]).countP DisconnectPc.tearing = s.tearing := by
      rw [List.countP_append]
      rfl
    exact congrArg (fun n => s.unread + s.reactor.token + s.connectState.token + n + s.disconnects)
      hten
  | disconnectStep i a _ hd => exact h.disconnects hd
  | emit key hk hr hlt => exact h.cancelWhere hr _
  | closeForDestruction hlt hi hr hc =>
    have hcan : Teardown cfg s.cancelOps := by
      rw [State.cancelOps_eq]
      exact h.cancelWhere hr _
    exact hsame hcan rfl rfl rfl rfl rfl rfl rfl rfl
  | drainEstablished ev rest hlt hc he =>
    refine h.drain (w := [.rdmaDisconnect .drain, .read .drain ev]) rfl ?_ rfl rfl
      rfl (by simp)
    have hest : ev.isEstablished = true := by simp [CmEvent.isEstablished, he]
    rw [State.unread, hc, List.countP_cons_of_pos (p := CmEvent.isEstablished) hest]
    rfl
  | drainOther ev rest hlt hc he =>
    refine h.drain (w := [.read .drain ev]) rfl ?_ rfl rfl rfl (by simp)
    have hest : ¬ ev.isEstablished = true := by simp [CmEvent.isEstablished, he]
    rw [State.unread, hc, List.countP_cons_of_neg (p := CmEvent.isEstablished) hest]
    rfl
  | drainEnd hlt hc => exact hsame h rfl rfl rfl rfl rfl rfl rfl rfl
  | drainHardError errno hlt => simp [teardownEnv] at henv

theorem Teardown.fresh : Teardown cfg {} := by
  refine ⟨rfl, Nat.zero_le 1, fun hpos => ?_, fun hc => ?_, fun hw => ?_,
    ⟨fun o pc ho => ?_, fun o ho => ?_, fun o ho => ?_⟩, trivial, fun o st hm => ?_⟩
  · cases hpos
  · cases hc
  · cases hw
  · cases ho
  · cases ho
  · cases ho
  · cases hm

/-! ## The end of a connector's life -/

/-- Once `close_for_destruction` has begun, nobody else is inside the connector, and at its end the
channel has been drained. -/
structure Ended (s : State) : Prop where
  idle : s.lifetime ≠ .alive → s.initiation = .idle
  unlocked : s.lifetime ≠ .alive → s.reactor = .unlocked
  returned : s.lifetime ≠ .alive → ∀ c ∈ s.callers, c = .returned
  drained : s.lifetime = .destroyed → s.channel = []

theorem Ended.of_alive (hl : s.lifetime = .alive) : Ended s := by
  refine ⟨fun hne => absurd hl hne, fun hne => absurd hl hne, fun hne => absurd hl hne, ?_⟩
  intro hd
  rw [hl] at hd
  cases hd

/-- Every step keeps the end in order, hard errors of the drain apart. -/
theorem Ended.step {l : Label} (h : Ended s) (henv : teardownEnv s l = true)
    (hst : (connector cfg).step s l = some s') : Ended s' := by
  cases Step.of_step hst with
  | event ev hlt =>
    exact ⟨h.idle, h.unlocked, h.returned, fun hd => absurd hd hlt⟩
  | beginConnect addr slot hasCreateQp requestSize replyCap hi hlt => exact .of_alive hlt
  | beginAccept addr slot hasCreateQp bindFails dataSize hi hlt => exact .of_alive hlt
  | beginWait addr slot hi hlt => exact .of_alive hlt
  | initiate a _ hin =>
    obtain ⟨hne, hlt, -⟩ := hin.not_idle
    refine .of_alive ?_
    by_contra hna
    exact hne (h.idle (hlt ▸ hna))
  | performIo he hr hlt => exact .of_alive (State.lifetime_nextOp.trans hlt)
  | perform op pc a t r hr hp =>
    refine .of_alive ?_
    by_contra hna
    rw [State.lifetime_proceed, hp.lifetime] at hna
    rw [h.unlocked hna] at hr
    cases hr
  | complete i op hop =>
    unfold completeOp
    split_ifs
    · exact ⟨h.idle, h.unlocked, h.returned, h.drained⟩
    · exact ⟨h.idle, h.unlocked, h.returned, h.drained⟩
  | enterDisconnect hlt => exact .of_alive hlt
  | disconnectStep i a _ hd =>
    obtain ⟨⟨c, hc, hne⟩, hlt, -⟩ := hd.not_returned
    refine .of_alive ?_
    by_contra hna
    exact hne (h.returned (hlt ▸ hna) c hc)
  | emit key hk hr hlt => exact .of_alive hlt
  | closeForDestruction hlt hi hr hc =>
    exact ⟨fun _ => hi, fun _ => hr, fun _ => hc, fun hd => by cases hd⟩
  | drainEstablished ev rest hlt hc he =>
    refine ⟨h.idle, h.unlocked, h.returned, fun hd => ?_⟩
    rw [show s.lifetime = .destroyed from hd] at hlt
    cases hlt
  | drainOther ev rest hlt hc he =>
    refine ⟨h.idle, h.unlocked, h.returned, fun hd => ?_⟩
    rw [show s.lifetime = .destroyed from hd] at hlt
    cases hlt
  | drainEnd hlt hc =>
    have hna : s.lifetime ≠ .alive := by
      rw [hlt]
      exact Lifetime.noConfusion
    exact ⟨fun _ => h.idle hna, fun _ => h.unlocked hna, fun _ => h.returned hna, fun _ => hc⟩
  | drainHardError errno hlt => simp [teardownEnv] at henv

/-! ## Whole runs -/

theorem hardErrorCloses_of_teardownEnv {l : Label} (h : teardownEnv s l = true) :
    hardErrorCloses cfg s l = true := by
  unfold hardErrorCloses
  split
  · simp [teardownEnv] at h
  · rfl

/-- The invariants of a connector in the assumed environment. -/
structure TeardownInv (cfg : Config) (s : State) : Prop where
  lockstep : Lockstep cfg s
  singleShot : SingleShot s
  backed : Backed cfg s
  teardown : Teardown cfg s
  ended : Ended s

theorem TeardownInv.run {ls : List Label} (hr : (connector cfg).run {} ls = some s)
    (hm : (connector cfg).Meets (fun s l => teardownEnv s l = true) {} ls) : TeardownInv cfg s := by
  refine StepSystem.invariant_of_meets (M := connector cfg) (I := TeardownInv cfg) ?_ hr hm
    ⟨.fresh, .fresh, .fresh, .fresh, .of_alive rfl⟩
  rintro t l t' ⟨hl, hs, hb, ht, he⟩ henv hst
  exact ⟨hl.step hst, hs.step hl hst, hb.step hl (hardErrorCloses_of_teardownEnv henv) hst,
    ht.step hl hs hb henv hst, he.step henv hst⟩

/-- When the connector is gone, the tokens are the calls of `rdma_disconnect` and the connection, if
`connect_state_` was left connected. -/
theorem TeardownInv.destroyed (h : TeardownInv cfg s) (hd : s.lifetime = .destroyed) :
    s.connectState.token + s.disconnects = s.delivered := by
  have hna : s.lifetime ≠ .alive := by
    rw [hd]
    exact Lifetime.noConfusion
  have htok := h.teardown.tokens
  have hun : s.unread = 0 := by rw [State.unread, h.ended.drained hd]; rfl
  have hten : s.tearing = 0 := by
    refine List.countP_eq_zero.2 fun c hc htc => ?_
    rw [h.ended.returned hna c hc] at htc
    cases htc
  rw [State.tokens, hun, hten, h.ended.unlocked hna] at htok
  simp only [Reactor.token] at htok
  omega

/-- Teardown arbitration: however the op, the `disconnect()` calls, per-op cancellation, completions
and the final destruction interleave, `rdma_disconnect` is called at most once. When the connector has
been destroyed it has been called exactly if `ESTABLISHED` was generated and either some `disconnect()`
call was made or the op did not win the connection; an op that reports `operation_aborted` did not. -/
theorem teardown_arbitration {ls : List Label} (hr : (connector cfg).run {} ls = some s)
    (hm : (connector cfg).Meets (fun s l => teardownEnv s l = true) {} ls) :
    s.disconnects ≤ 1 ∧
      (s.lifetime = .destroyed →
        (s.disconnects = 1 ↔ s.delivered = 1 ∧ (s.callers ≠ [] ∨ s.won = false))) ∧
      (∀ op st, .invoked op st ∈ s.trace → op.abortedConn cfg = true → s.won = false) := by
  have hinv : TeardownInv cfg s := .run hr hm
  have ht := hinv.teardown
  have honce := ht.once
  have htok := ht.tokens
  rw [State.tokens] at htok
  refine ⟨by omega, fun hd => ?_, fun op st hmem hab => (ht.invoked op st hmem hab).1⟩
  have hend := hinv.destroyed hd
  have hna : s.lifetime ≠ .alive := by
    rw [hd]
    exact Lifetime.noConfusion
  constructor
  · intro h1
    have hzero : s.connectState.token = 0 := by omega
    refine ⟨by omega, ?_⟩
    cases hw : s.won with
    | false => exact .inr rfl
    | true =>
      rcases ht.wonBy hw with hc | ⟨-, hcal⟩
      · rw [hc] at hzero
        cases hzero
      · exact .inl hcal
  · rintro ⟨hdel, hcal | hwf⟩
    · -- a `disconnect()` call that has returned has left the connector closed
      obtain ⟨c, rest, hcs⟩ := List.exists_cons_of_ne_nil hcal
      have hret := hinv.ended.returned hna c (by rw [hcs]; exact List.mem_cons_self)
      have hclosed := hinv.lockstep.callers 0 c (by rw [hcs]; rfl)
      rw [hret] at hclosed
      rw [show s.connectState = .closed from hclosed] at hend
      simp only [ConnectState.token] at hend
      omega
    · have hne : s.connectState ≠ .connected := by
        intro hc
        have := ht.won hc
        simp [hwf] at this
      rw [token_of_ne hne] at hend
      omega

/-- A connect whose `ESTABLISHED` arrives after `disconnect()` has taken the op off the queue, and the
destruction. -/
def lostEstablished : List Label :=
  [.event ⟨.addrResolved, 0, []⟩, .performIo, .perform .event, .perform .run,
    .perform (.created success), .perform (.native .ok),
    .event ⟨.routeResolved, 0, []⟩, .performIo, .perform .event, .perform .run,
    .perform (.native .ok),
    .disconnect, .disconnectStep 0 .run, .disconnectStep 0 .run, .disconnectStep 0 .run,
    .event ⟨.established, 0, []⟩, .complete 0,
    .closeForDestruction, .drain .event, .drain .again]

/-- The drain is then the actor that calls `rdma_disconnect`. -/
theorem teardown_arbitration_lostEstablished :
    let s := (connector {}).after {} (armConnect ++ lostEstablished)
    s.disconnects ≤ 1 ∧ s.disconnects = 1 ∧ s.trace.head? = some (.rdmaDisconnect .drain) := by
  have hr : ((connector {}).run {} (armConnect ++ lostEstablished)).isSome = true := rfl
  have h := teardown_arbitration (StepSystem.run_after hr) (by decide)
  exact ⟨h.1, (h.2.1 rfl).2 ⟨rfl, .inr rfl⟩, rfl⟩

end RdmaOnAsio.Ibv
