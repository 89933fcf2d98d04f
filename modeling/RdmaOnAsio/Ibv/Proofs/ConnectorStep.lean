import RdmaOnAsio.Ibv.Proofs.ReactorQueue

/-!
# What one step of the connector can do

`Step` lists the steps of the connector one by one, with the guards under which each is taken, and
`Step.of_step` says that the step function takes no others. The steps inside an initiation, inside a
`do_perform` and inside a `disconnect()` call have lists of their own. Every invariant of the connector
is proved from these lists.
-/

namespace RdmaOnAsio.Ibv

open ErrorCode

/-- The steps of `initStep`. -/
inductive Initiates (s : State) : Answer → State → Prop
  | guardRejected (op : CmOp) (hi : s.initiation = .guardState op) (hs : s.connectState ≠ .idle) :
      Initiates s .run { s with initiation := .post { op with ec := .rdma .connectorTerminal } }
  | guardPassed (op : CmOp) (hi : s.initiation = .guardState op) (hs : s.connectState = .idle) :
      Initiates s .run
        { s.armCmCancellation { op with admitted := true } with
          initiation := .afterGuard { op with admitted := true } }
  | resolveAddrOk (op : CmOp) (hi : s.initiation = .resolveAddr op) :
      Initiates s (.native .ok)
        { s.log (.resolveAddr .ok) with initiation := .publish { op with ec := success } }
  | resolveAddrFailed (op : CmOp) (errno : Int) (hi : s.initiation = .resolveAddr op) :
      Initiates s (.native (.fail errno))
        { s.log (.resolveAddr (.fail errno)) with
          initiation := .storeClosed { op with ec := makeSystemErrorCode errno } }
  | published (op : CmOp) (hi : s.initiation = .publish op) (hs : s.connectState = .idle) :
      Initiates s .run
        { s.log (.cas op.kind op.kind.initial) with
          connectState := op.kind.initial, initiation := .afterPublish op }
  | publishLost (op : CmOp) (hi : s.initiation = .publish op) (hs : s.connectState ≠ .idle) :
      Initiates s .run { s with initiation := .post op.abort }
  | createQpFailed (op : CmOp) (ec : ErrorCode) (hi : s.initiation = .createQp op)
      (he : ec.isError = true) :
      Initiates s (.created ec)
        { s.log (.createQp op.kind) with initiation := .storeClosed { op with ec := ec } }
  | createQpOk (op : CmOp) (ec : ErrorCode) (hi : s.initiation = .createQp op)
      (he : ec.isError = false) :
      Initiates s (.created ec)
        { s.log (.createQp op.kind) with initiation := .accept { op with ec := ec } }
  | acceptOk (op : CmOp) (hi : s.initiation = .accept op) :
      Initiates s (.native .ok)
        { s.log (.accept .ok) with initiation := .startOp { op with ec := success } }
  | acceptFailed (op : CmOp) (errno : Int) (hi : s.initiation = .accept op) :
      Initiates s (.native (.fail errno))
        { s.log (.accept (.fail errno)) with
          initiation := .storeClosed { op with ec := makeSystemErrorCode errno } }
  | storedClosed (op : CmOp) (hi : s.initiation = .storeClosed op) :
      Initiates s .run
        { s.log (.close .initiation) with connectState := .closed, initiation := .post op }
  | posted (op : CmOp) (hi : s.initiation = .post op) :
      Initiates s .run { s with initiation := .idle, scheduled := s.scheduled ++ [op] }
  | started (op : CmOp) (hi : s.initiation = .startOp op) (hr : s.reactor = .unlocked) :
      Initiates s .run { s.startOp op with initiation := .idle }
  | latchSet (op : CmOp) (hi : s.initiation = .waitLatch op) (hp : s.peerClosed = true) :
      Initiates s .run { s with initiation := .post { op with ec := .rdma .disconnected } }
  | latchClear (op : CmOp) (hi : s.initiation = .waitLatch op) (hp : s.peerClosed = false) :
      Initiates s .run { s with initiation := .waitState op }
  | waitClosed (op : CmOp) (hi : s.initiation = .waitState op) (hs : s.connectState = .closed) :
      Initiates s .run { s with initiation := .post { op with ec := .rdma .disconnected } }
  | waitOpen (op : CmOp) (hi : s.initiation = .waitState op) (hs : s.connectState ≠ .closed) :
      Initiates s .run { s.armCmCancellation op with initiation := .startOp op }

/-- The steps of `performStep` for the op being performed: the state after the shared access, and how
the piece of `do_perform` that follows it ends. -/
inductive Performs (s : State) (op : CmOp) : PerformPc → Answer → State → CmOp × Outcome → Prop
  | readEvent (ev : CmEvent) (rest : List CmEvent) (hc : s.channel = ev :: rest) :
      Performs s op .getCmEvent .event
        { s.log (.read (.op op.kind) ev) with channel := rest, backlog := s.backlog - 1 }
        (op.onEvent ev)
  | readAgain (hc : s.channel = []) : Performs s op .getCmEvent .again s op.onAgain
  | readHardError (errno : Int) (hne : errno ≠ 0) :
      Performs s op .getCmEvent (.hardError errno) s (op.onHardError errno)
  | advanceWon (expected desired : ConnectState) (hs : s.connectState = expected) :
      Performs s op (.advance expected desired) .run
        { s.log (.cas op.kind desired) with connectState := desired } (op.advanced desired)
  | advanceLost (expected desired : ConnectState) (hs : s.connectState ≠ expected) :
      Performs s op (.advance expected desired) .run s op.abortedByDisconnect
  | createQp (ec : ErrorCode) :
      Performs s op .createQp (.created ec) (s.log (.createQp op.kind)) (op.createdQp ec)
  | resolveRoute (r : NativeResult) :
      Performs s op .resolveRoute (.native r) (s.log (.resolveRoute r)) (op.resolvedRoute r)
  | connect (r : NativeResult) :
      Performs s op .connect (.native r) (s.log (.connect r)) (op.connectIssued r)
  | establishedWon (ev : CmEvent) (hs : s.connectState = .connecting) :
      Performs s op (.established ev) .run
        { s.log (.cas op.kind .connected) with connectState := .connected } (op.arbitrated ev true)
  | establishedLost (ev : CmEvent) (hs : s.connectState ≠ .connecting) :
      Performs s op (.established ev) .run s (op.arbitrated ev false)
  | modifyQp (rc : Int) : Performs s op .modifyQp (.modified rc) s (op.modifiedQp rc)
  | disconnect (r : NativeResult) :
      Performs s op .disconnect (.native r) (s.log (.rdmaDisconnect .op)) op.tornDown
  | claimLoad : Performs s op .claimLoad .run s (op.claimRead s.connectState)
  | claimWon (e : ConnectState) (hs : s.connectState = e) :
      Performs s op (.claimCas e) .run
        { s.log (.close .op) with connectState := .closed } (op, .ret .done)
  | claimRetry (e : ConnectState) (a : Answer)
      (ha : a = .run ∧ s.connectState ≠ e ∨ a = .spurious) :
      Performs s op (.claimCas e) a s (op.claimRead s.connectState)
  | peerClosed :
      Performs s op .storePeerClosed .run { s with peerClosed := true } (op, .ret .done)

/-- What an armed op does with an event: the event its stage waits for drives it on, any other event
fails a connect or accept op, and a watcher ignores what does not close the connection. -/
inductive Handles (op : CmOp) (ev : CmEvent) : CmOp × Outcome → Prop
  | addrResolved (hk : op.kind = .connect) (hs : op.stage = .addrResolve)
      (he : ev.event = .addrResolved) :
      Handles op ev ({ op with ec := success }, .goto (.advance .addrResolve .addrRoute))
  | routeResolved (hk : op.kind = .connect) (hs : op.stage = .addrRoute)
      (he : ev.event = .routeResolved) :
      Handles op ev ({ op with ec := success }, .goto (.advance .addrRoute .connecting))
  | established (hconn : op.isConn = true) (hs : op.kind = .connect → op.stage = .connect)
      (he : ev.event = .established) :
      Handles op ev ({ op with ec := success }, .goto (.established ev))
  | failed (e : ErrorCode) (hconn : op.isConn = true) (herr : e.isError = true)
      (hne : ev.event = .established → op.kind = .connect ∧ op.stage ≠ .connect) :
      Handles op ev ({ op with ec := e }, .goto .claimLoad)
  | noStage (hk : op.kind = .connect) (hs : op.stage = .done ∨ op.stage = .error) :
      Handles op ev ({ op with ec := .rdma .invalidDevice }, .ret .done)
  | peerClosed (e : RdmaErrc) (hk : op.kind = .wait)
      (he : ev.event = .disconnected ∨ ev.event = .deviceRemoval) :
      Handles op ev ({ op with ec := .rdma e }, .goto .storePeerClosed)
  | ignored (hk : op.kind = .wait) (hne : ev.event ≠ .disconnected)
      (hne' : ev.event ≠ .deviceRemoval) :
      Handles op ev ({ op with ec := success }, .ret .notDone)

theorem isError_eventError (ev : CmEvent) : (CmOp.eventError ev).isError = true := by
  unfold CmOp.eventError makeSystemErrorCode isError
  split_ifs with h
  · simpa using h
  · rfl

/-- `onEvent` does what `Handles` lists. -/
theorem Handles.of_onEvent (op : CmOp) (ev : CmEvent) : Handles op ev (op.onEvent ev) := by
  obtain ⟨addr, kind, key, ec, admitted, stage, hasCreateQp, replyCap, reply⟩ := op
  cases kind with
  | connect =>
    cases stage with
    | addrResolve =>
      simp only [CmOp.onEvent, CmOp.doProcess, CmOp.doProcessAddrResolve]
      split
      · next he => exact .addrResolved rfl rfl he
      · exact .failed _ rfl (isError_eventError ev) fun _ => ⟨rfl, Stage.noConfusion⟩
      · exact .failed _ rfl rfl fun _ => ⟨rfl, Stage.noConfusion⟩
    | addrRoute =>
      simp only [CmOp.onEvent, CmOp.doProcess, CmOp.doProcessAddrRoute]
      split
      · next he => exact .routeResolved rfl rfl he
      · exact .failed _ rfl (isError_eventError ev) fun _ => ⟨rfl, Stage.noConfusion⟩
      · exact .failed _ rfl rfl fun _ => ⟨rfl, Stage.noConfusion⟩
    | connect =>
      simp only [CmOp.onEvent, CmOp.doProcess, CmOp.doProcessConnect]
      split
      · next he => exact .established rfl (fun _ => rfl) he
      · next he => exact .failed _ rfl rfl fun h => by simp [h] at he
      · next he => exact .failed _ rfl rfl fun h => by simp [h] at he
      · next he => exact .failed _ rfl rfl fun h => by simp [h] at he
      · next he _ _ _ => exact .failed _ rfl rfl fun h => absurd h he
    | done => exact .noStage rfl (.inl rfl)
    | error => exact .noStage rfl (.inr rfl)
  | accept =>
    simp only [CmOp.onEvent, CmOp.acceptEvent]
    split
    · next he => exact .established rfl OpKind.noConfusion he
    · next he => exact .failed _ rfl rfl fun h => by simp [h] at he
    · next he => exact .failed _ rfl rfl fun h => by simp [h] at he
    · next he _ _ => exact .failed _ rfl rfl fun h => absurd h he
  | wait =>
    simp only [CmOp.onEvent, CmOp.waitEvent]
    split
    · next he => exact .peerClosed _ rfl (.inl he)
    · next he => exact .peerClosed _ rfl (.inr he)
    · next he he' => exact .ignored rfl he he'

/-- Taking the reply of an event changes nothing that identifies the op. -/
theorem CmOp.takeReply_fixed (op : CmOp) (ev : CmEvent) :
    (op.takeReply ev).kind = op.kind ∧ (op.takeReply ev).addr = op.addr ∧
      (op.takeReply ev).cancellationKey = op.cancellationKey ∧
      (op.takeReply ev).stage = op.stage := by
  unfold CmOp.takeReply
  split_ifs <;> exact ⟨rfl, rfl, rfl, rfl⟩

/-- Nor does the attempt to claim `closed`. -/
theorem CmOp.claimRead_fixed (op : CmOp) (e : ConnectState) :
    (op.claimRead e).1.kind = op.kind ∧ (op.claimRead e).1.addr = op.addr ∧
      (op.claimRead e).1.cancellationKey = op.cancellationKey ∧
      (op.claimRead e).1.stage = op.stage := by
  unfold CmOp.claimRead
  split_ifs <;> exact ⟨rfl, rfl, rfl, rfl⟩

/-- A piece of `do_perform` works on one op. -/
theorem Performs.fixed {s t : State} {op : CmOp} {pc : PerformPc} {r : CmOp × Outcome} {a : Answer}
    (hst : Performs s op pc a t r) :
    r.1.kind = op.kind ∧ r.1.addr = op.addr ∧ r.1.cancellationKey = op.cancellationKey := by
  cases hst with
  | readEvent ev rest hc =>
    have hh := Handles.of_onEvent op ev
    revert hh
    generalize op.onEvent ev = r
    intro hh
    cases hh <;> exact ⟨rfl, rfl, rfl⟩
  | advanceWon expected desired hs =>
    unfold CmOp.advanced
    split_ifs <;> exact ⟨rfl, rfl, rfl⟩
  | createQp ec =>
    unfold CmOp.createdQp
    split_ifs <;> exact ⟨rfl, rfl, rfl⟩
  | resolveRoute res => cases res <;> exact ⟨rfl, rfl, rfl⟩
  | connect res => cases res <;> exact ⟨rfl, rfl, rfl⟩
  | establishedWon ev hs =>
    obtain ⟨hkind, haddr, hkey, -⟩ := op.takeReply_fixed ev
    exact ⟨hkind, haddr, hkey⟩
  | claimLoad =>
    obtain ⟨hkind, haddr, hkey, -⟩ := op.claimRead_fixed s.connectState
    exact ⟨hkind, haddr, hkey⟩
  | claimRetry e a ha =>
    obtain ⟨hkind, haddr, hkey, -⟩ := op.claimRead_fixed s.connectState
    exact ⟨hkind, haddr, hkey⟩
  | _ => exact ⟨rfl, rfl, rfl⟩

theorem Performs.same {s t : State} {op : CmOp} {pc : PerformPc} {r : CmOp × Outcome} {a : Answer}
    (hst : Performs s op pc a t r) : r.1.kind = op.kind ∧ r.1.addr = op.addr :=
  ⟨hst.fixed.1, hst.fixed.2.1⟩

/-- The steps of the `i`-th `disconnect()` call. -/
inductive Disconnects (s : State) (i : Nat) : Answer → State → Prop
  | load (hi : s.callers[i]? = some .load) :
      Disconnects s i .run { s with callers := s.callers.set i (casLoop s.connectState) }
  | won (old : ConnectState) (hi : s.callers[i]? = some (.cas old)) (hs : s.connectState = old) :
      Disconnects s i .run
        { s.log (.close (.caller i)) with
          connectState := .closed, callers := s.callers.set i (afterCas old) }
  | retry (old : ConnectState) (a : Answer) (hi : s.callers[i]? = some (.cas old))
      (ha : a = .run ∧ s.connectState ≠ old ∨ a = .spurious) :
      Disconnects s i a { s with callers := s.callers.set i (casLoop s.connectState) }
  | cancel (old : ConnectState) (hi : s.callers[i]? = some (.cancelOps old))
      (hr : s.reactor = .unlocked) :
      Disconnects s i .run { s.cancelOps with callers := s.callers.set i (afterCancel old) }
  | native (r : NativeResult) (hi : s.callers[i]? = some .native) :
      Disconnects s i (.native r)
        { s.log (.rdmaDisconnect (.caller i)) with callers := s.callers.set i .returned }

/-- The steps of `step`. -/
inductive Step (cfg : Config) (s : State) : Label → State → Prop
  | event (ev : CmEvent) (hl : s.lifetime ≠ .destroyed) :
      Step cfg s (.event ev)
        { s.log (.delivered ev) with channel := s.channel ++ [ev], edge := true }
  | beginConnect (addr : Nat) (slot hasCreateQp : Bool) (requestSize replyCap : Nat)
      (hi : s.initiation = .idle) (hl : s.lifetime = .alive) :
      Step cfg s (.asyncConnect addr slot hasCreateQp requestSize replyCap)
        (s.guarded (.newConnect addr slot hasCreateQp replyCap) (connectGuards requestSize))
  | beginAccept (addr : Nat) (slot hasCreateQp bindFails : Bool) (dataSize : Nat)
      (hi : s.initiation = .idle) (hl : s.lifetime = .alive) :
      Step cfg s (.asyncAccept addr slot hasCreateQp bindFails dataSize)
        (s.guarded (.newAccept addr slot hasCreateQp) (acceptGuards cfg bindFails dataSize))
  | beginWait (addr : Nat) (slot : Bool) (hi : s.initiation = .idle) (hl : s.lifetime = .alive) :
      Step cfg s (.asyncWaitDisconnect addr slot)
        { s with initiation := .waitLatch (.newWait addr slot) }
  | initiate (a : Answer) (s' : State) (h : Initiates s a s') : Step cfg s (.initiate a) s'
  | performIo (he : s.edge = true) (hr : s.reactor = .unlocked) (hl : s.lifetime = .alive) :
      Step cfg s .performIo s.takeEdge.nextOp
  | perform (op : CmOp) (pc : PerformPc) (a : Answer) (t : State) (r : CmOp × Outcome)
      (hr : s.reactor = .performing op pc) (h : Performs s op pc a t r) :
      Step cfg s (.perform a) (t.proceed r)
  | complete (i : Nat) (op : CmOp) (hop : s.scheduled[i]? = some op) :
      Step cfg s (.complete i) (completeOp cfg { s with scheduled := s.scheduled.eraseIdx i } op)
  | enterDisconnect (hl : s.lifetime = .alive) :
      Step cfg s .disconnect { s with callers := s.callers ++ [.load] }
  | disconnectStep (i : Nat) (a : Answer) (s' : State) (h : Disconnects s i a s') :
      Step cfg s (.disconnectStep i a) s'
  | emit (key : Nat) (hk : key ∈ s.slots) (hr : s.reactor = .unlocked) (hl : s.lifetime = .alive) :
      Step cfg s (.emit key) (s.cancelOpsByKey key)
  | closeForDestruction (hl : s.lifetime = .alive) (hi : s.initiation = .idle)
      (hr : s.reactor = .unlocked) (hc : ∀ c ∈ s.callers, c = .returned) :
      Step cfg s .closeForDestruction { s.cancelOps with lifetime := .draining }
  | drainEstablished (ev : CmEvent) (rest : List CmEvent) (hl : s.lifetime = .draining)
      (hc : s.channel = ev :: rest) (he : ev.event = .established) :
      Step cfg s (.drain .event)
        ({ s.log (.read .drain ev) with channel := rest }.log (.rdmaDisconnect .drain))
  | drainOther (ev : CmEvent) (rest : List CmEvent) (hl : s.lifetime = .draining)
      (hc : s.channel = ev :: rest) (he : ev.event ≠ .established) :
      Step cfg s (.drain .event) { s.log (.read .drain ev) with channel := rest }
  | drainEnd (hl : s.lifetime = .draining) (hc : s.channel = []) :
      Step cfg s (.drain .again) { s with lifetime := .destroyed }
  | drainHardError (errno : Int) (hl : s.lifetime = .draining) :
      Step cfg s (.drain (.hardError errno)) { s with lifetime := .destroyed }

variable {cfg : Config} {s s' : State}

theorem Initiates.of_initStep {a : Answer} (h : initStep s a = some s') : Initiates s a s' := by
  unfold initStep at h
  split at h
  case h_1 op hi =>
    split_ifs at h with hs
    · obtain rfl := Option.some.inj h
      exact .guardRejected op hi hs
    · obtain rfl := Option.some.inj h
      exact .guardPassed op hi (not_not.1 hs)
  case h_2 op r hi =>
    cases r with
    | ok =>
      obtain rfl := Option.some.inj h
      exact .resolveAddrOk op hi
    | fail errno =>
      obtain rfl := Option.some.inj h
      exact .resolveAddrFailed op errno hi
  case h_3 op hi =>
    split_ifs at h with hs
    all_goals obtain rfl := Option.some.inj h
    · exact .published op hi hs
    · exact .publishLost op hi hs
  case h_4 op ec hi =>
    cases he : ec.isError <;> simp only [he, if_true, Bool.false_eq_true, if_false] at h
    all_goals obtain rfl := Option.some.inj h
    · exact .createQpOk op ec hi he
    · exact .createQpFailed op ec hi he
  case h_5 op r hi =>
    cases r with
    | ok =>
      obtain rfl := Option.some.inj h
      exact .acceptOk op hi
    | fail errno =>
      obtain rfl := Option.some.inj h
      exact .acceptFailed op errno hi
  case h_6 op hi =>
    obtain rfl := Option.some.inj h
    exact .storedClosed op hi
  case h_7 op hi =>
    obtain rfl := Option.some.inj h
    exact .posted op hi
  case h_8 op hi =>
    split_ifs at h with hr
    obtain rfl := Option.some.inj h
    exact .started op hi hr
  case h_9 op hi =>
    split_ifs at h with hp
    all_goals obtain rfl := Option.some.inj h
    · exact .latchSet op hi hp
    · exact .latchClear op hi (by simpa using hp)
  case h_10 op hi =>
    split_ifs at h with hs
    all_goals obtain rfl := Option.some.inj h
    · exact .waitClosed op hi hs
    · exact .waitOpen op hi hs
  case h_11 => cases h

theorem Performs.of_performStep {a : Answer} (h : performStep s a = some s') :
    ∃ op pc t r, s.reactor = .performing op pc ∧ Performs s op pc a t r ∧ s' = t.proceed r := by
  unfold performStep at h
  split at h
  case h_1 => cases h
  case h_2 op pc hr =>
    split at h
    case h_1 =>
      split at h
      · cases h
      · next ev rest hc =>
        obtain rfl := Option.some.inj h
        exact ⟨op, _, _, _, hr, .readEvent ev rest hc, rfl⟩
    case h_2 =>
      split_ifs at h with hc
      obtain rfl := Option.some.inj h
      exact ⟨op, _, _, _, hr, .readAgain hc, rfl⟩
    case h_3 errno =>
      split_ifs at h with hc
      obtain rfl := Option.some.inj h
      exact ⟨op, _, _, _, hr, .readHardError errno hc.1, rfl⟩
    case h_4 expected desired =>
      split_ifs at h with hs
      all_goals obtain rfl := Option.some.inj h
      · exact ⟨op, _, _, _, hr, .advanceWon expected desired hs, rfl⟩
      · exact ⟨op, _, _, _, hr, .advanceLost expected desired hs, rfl⟩
    case h_5 ec =>
      obtain rfl := Option.some.inj h
      exact ⟨op, _, _, _, hr, .createQp ec, rfl⟩
    case h_6 r =>
      obtain rfl := Option.some.inj h
      exact ⟨op, _, _, _, hr, .resolveRoute r, rfl⟩
    case h_7 r =>
      obtain rfl := Option.some.inj h
      exact ⟨op, _, _, _, hr, .connect r, rfl⟩
    case h_8 ev =>
      split_ifs at h with hs
      all_goals obtain rfl := Option.some.inj h
      · exact ⟨op, _, _, _, hr, .establishedWon ev hs, rfl⟩
      · exact ⟨op, _, _, _, hr, .establishedLost ev hs, rfl⟩
    case h_9 rc =>
      obtain rfl := Option.some.inj h
      exact ⟨op, _, _, _, hr, .modifyQp rc, rfl⟩
    case h_10 r =>
      obtain rfl := Option.some.inj h
      exact ⟨op, _, _, _, hr, .disconnect r, rfl⟩
    case h_11 =>
      obtain rfl := Option.some.inj h
      exact ⟨op, _, _, _, hr, .claimLoad, rfl⟩
    case h_12 e =>
      split_ifs at h with hs
      all_goals obtain rfl := Option.some.inj h
      · exact ⟨op, _, _, _, hr, .claimWon e hs, rfl⟩
      · exact ⟨op, _, _, _, hr, .claimRetry e .run (.inl ⟨rfl, hs⟩), rfl⟩
    case h_13 e =>
      obtain rfl := Option.some.inj h
      exact ⟨op, _, _, _, hr, .claimRetry e .spurious (.inr rfl), rfl⟩
    case h_14 =>
      obtain rfl := Option.some.inj h
      exact ⟨op, _, _, _, hr, .peerClosed, rfl⟩
    case h_15 => cases h

theorem Disconnects.of_disconnectStep {i : Nat} {a : Answer}
    (h : disconnectStep s i a = some s') : Disconnects s i a s' := by
  unfold disconnectStep at h
  split at h
  case h_1 hi =>
    obtain rfl := Option.some.inj h
    exact .load hi
  case h_2 old hi =>
    split_ifs at h with hs
    all_goals obtain rfl := Option.some.inj h
    · exact .won old hi hs
    · exact .retry old .run hi (.inl ⟨rfl, hs⟩)
  case h_3 old hi =>
    obtain rfl := Option.some.inj h
    exact .retry old .spurious hi (.inr rfl)
  case h_4 old hi =>
    split_ifs at h with hr
    obtain rfl := Option.some.inj h
    exact .cancel old hi hr
  case h_5 r hi =>
    obtain rfl := Option.some.inj h
    exact .native r hi
  case h_6 => cases h

/-- The step function takes only the listed steps. -/
theorem Step.of_step {l : Label} (h : (connector cfg).step s l = some s') : Step cfg s l s' := by
  change step cfg s l = some s' at h
  cases l with
  | event ev =>
    simp only [step] at h
    split_ifs at h with hl
    obtain rfl := Option.some.inj h
    exact .event ev hl
  | asyncConnect addr slot hasCreateQp requestSize replyCap =>
    simp only [step] at h
    split_ifs at h with hg
    obtain rfl := Option.some.inj h
    exact .beginConnect addr slot hasCreateQp requestSize replyCap hg.1 hg.2.1
  | asyncAccept addr slot hasCreateQp bindFails dataSize =>
    simp only [step] at h
    split_ifs at h with hg
    obtain rfl := Option.some.inj h
    exact .beginAccept addr slot hasCreateQp bindFails dataSize hg.1 hg.2.1
  | asyncWaitDisconnect addr slot =>
    simp only [step] at h
    split_ifs at h with hg
    obtain rfl := Option.some.inj h
    exact .beginWait addr slot hg.1 hg.2.1
  | initiate a => exact .initiate a s' (.of_initStep h)
  | performIo =>
    simp only [step] at h
    split_ifs at h with hg
    obtain rfl := Option.some.inj h
    exact .performIo hg.1 hg.2.1 hg.2.2
  | perform a =>
    obtain ⟨op, pc, t, r, hr, hp, rfl⟩ := Performs.of_performStep h
    exact .perform op pc a t r hr hp
  | complete i =>
    simp only [step] at h
    split at h
    · next op hop =>
      obtain rfl := Option.some.inj h
      exact .complete i op hop
    · cases h
  | disconnect =>
    simp only [step] at h
    split_ifs at h with hl
    obtain rfl := Option.some.inj h
    exact .enterDisconnect hl
  | disconnectStep i a => exact .disconnectStep i a s' (.of_disconnectStep h)
  | emit key =>
    simp only [step] at h
    split_ifs at h with hg
    obtain rfl := Option.some.inj h
    exact .emit key hg.1 hg.2.1 hg.2.2
  | closeForDestruction =>
    simp only [step] at h
    split_ifs at h with hg
    obtain rfl := Option.some.inj h
    exact .closeForDestruction hg.1 hg.2.1 hg.2.2.1 hg.2.2.2
  | drain a =>
    cases a with
    | event =>
      simp only [step] at h
      split at h
      · next ev rest hl hc =>
        split_ifs at h with he
        all_goals obtain rfl := Option.some.inj h
        · exact .drainEstablished ev rest hl hc he
        · exact .drainOther ev rest hl hc he
      · cases h
    | again =>
      simp only [step] at h
      split_ifs at h with hg
      obtain rfl := Option.some.inj h
      exact .drainEnd hg.1 hg.2
    | hardError errno =>
      simp only [step] at h
      split_ifs at h with hg
      obtain rfl := Option.some.inj h
      exact .drainHardError errno hg.1
    | run => cases h
    | spurious => cases h
    | created ec => cases h
    | native r => cases h
    | modified rc => cases h

/-! ## What a step leaves alone -/

/-- An initiation that moves is in progress. -/
theorem Initiates.not_idle {a : Answer} (hst : Initiates s a s') :
    s.initiation ≠ .idle ∧ s'.lifetime = s.lifetime ∧ s'.channel = s.channel := by
  cases hst with
  | guardPassed op hi hs =>
    obtain ⟨sl, hsl⟩ := s.armCmCancellation_frame { op with admitted := true }
    rw [hsl, hi]
    exact ⟨InitPc.noConfusion, rfl, rfl⟩
  | waitOpen op hi hs =>
    obtain ⟨sl, hsl⟩ := s.armCmCancellation_frame op
    rw [hsl, hi]
    exact ⟨InitPc.noConfusion, rfl, rfl⟩
  | _ op => exact ⟨by simp [*], rfl, rfl⟩

theorem Performs.lifetime {t : State} {op : CmOp} {pc : PerformPc} {r : CmOp × Outcome} {a : Answer}
    (hst : Performs s op pc a t r) : t.lifetime = s.lifetime := by
  cases hst <;> rfl

/-- A `disconnect()` call that moves has not returned. -/
theorem Disconnects.not_returned {i : Nat} {a : Answer} (hst : Disconnects s i a s') :
    (∃ c ∈ s.callers, c ≠ .returned) ∧ s'.lifetime = s.lifetime ∧ s'.channel = s.channel := by
  cases hst with
  | load hi => exact ⟨⟨_, List.mem_of_getElem? hi, DisconnectPc.noConfusion⟩, rfl, rfl⟩
  | won old hi hs => exact ⟨⟨_, List.mem_of_getElem? hi, DisconnectPc.noConfusion⟩, rfl, rfl⟩
  | retry old a hi ha => exact ⟨⟨_, List.mem_of_getElem? hi, DisconnectPc.noConfusion⟩, rfl, rfl⟩
  | cancel old hi hr => exact ⟨⟨_, List.mem_of_getElem? hi, DisconnectPc.noConfusion⟩, rfl, rfl⟩
  | native res hi => exact ⟨⟨_, List.mem_of_getElem? hi, DisconnectPc.noConfusion⟩, rfl, rfl⟩

end RdmaOnAsio.Ibv
