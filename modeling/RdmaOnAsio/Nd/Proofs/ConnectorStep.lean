import RdmaOnAsio.Nd.Connector

/-!
# What one step of the nd connector can do

`Step` lists the steps of the connector one by one, with the guards under which each is taken, and
`Step.of_step` says that the step function takes no others, `Step.step_eq` that it takes all of them.
The steps inside an initiation, inside a `do_complete` and inside a `disconnect()` call have lists of
their own. Every invariant of the connector is proved from these lists.
-/

namespace RdmaOnAsio.Nd

open ErrorCode

/-- The steps of `initStep`. -/
inductive Initiates (s : State) : Answer → State → Prop
  | terminal (op : CmOp) (hasQp : Bool) (hi : s.initiation = .guardState op hasQp)
      (hs : s.connectState ≠ .idle) :
      Initiates s .run (s.reject op (.common (.rdma .connectorTerminal)))
  | nullQp (op : CmOp) (hi : s.initiation = .guardState op false) (hs : s.connectState = .idle) :
      Initiates s .run (s.reject op (.common (.rdma .invalidHandle)))
  | admitted (op : CmOp) (hi : s.initiation = .guardState op true) (hs : s.connectState = .idle) :
      Initiates s .run { s with initiation := .publish op.passGuards }
  | published (op : CmOp) (hi : s.initiation = .publish op) (hs : s.connectState = .idle) :
      Initiates s .run { s with connectState := .connecting, initiation := .afterPublish op }
  | publishLost (op : CmOp) (hi : s.initiation = .publish op) (hs : s.connectState ≠ .idle) :
      Initiates s .run (s.complete op operationAborted)
  | bindFailed (op : CmOp) (ec : NdErrorCode) (hi : s.initiation = .bind op)
      (he : ec.isError = true) : Initiates s (.bound ec) (s.complete op ec)
  | bound (op : CmOp) (ec : NdErrorCode) (hi : s.initiation = .bind op) (he : ec.isError = false) :
      Initiates s (.bound ec) { s with initiation := .native op }
  | callPending (op : CmOp) (hi : s.initiation = .native op) :
      Initiates s (.native ndPending) { s.onPending op with initiation := .arm op }
  | accepted (op : CmOp) (hi : s.initiation = .native op) (hk : op.kind = .accept) :
      Initiates s (.native ndSuccess) ((s.log (.established op.id)).complete op success)
  | callEnded (op : CmOp) (hr : Int) (hi : s.initiation = .native op) (hp : hr ≠ ndPending)
      (hk : op.kind = .accept → hr ≠ ndSuccess) :
      Initiates s (.native hr) (s.complete op (callError hr))
  | armed (op : CmOp) (hi : s.initiation = .arm op) :
      Initiates s .run { s.armNdCancellation op with initiation := .idle }
  | latchSet (op : CmOp) (hi : s.initiation = .waitLatch op) (hp : s.peerClosed = true) :
      Initiates s .run (s.reject op (.common (.rdma .disconnected)))
  | latchClear (op : CmOp) (hi : s.initiation = .waitLatch op) (hp : s.peerClosed = false) :
      Initiates s .run { s with initiation := .waitState op }
  | waitClosed (op : CmOp) (hi : s.initiation = .waitState op) (hs : s.connectState = .closed) :
      Initiates s .run (s.reject op (.common (.rdma .disconnected)))
  | waitNotOpen (op : CmOp) (hi : s.initiation = .waitState op) (hs : s.connectState ≠ .closed)
      (ho : s.isOpen = false) : Initiates s .run (s.reject op (.common (.rdma .invalidHandle)))
  | waitOpen (op : CmOp) (hi : s.initiation = .waitState op) (hs : s.connectState ≠ .closed)
      (ho : s.isOpen = true) : Initiates s .run { s with initiation := .notify op }
  | notifyPending (op : CmOp) (hi : s.initiation = .notify op) :
      Initiates s (.native ndPending)
        { (s.armNdCancellation op).onPending op with initiation := .idle }
  | notifyEnded (op : CmOp) (hr : Int) (hi : s.initiation = .notify op) (hp : hr ≠ ndPending) :
      Initiates s (.native hr) (s.reject op (callError hr))

/-- The steps of `completeStep` for the op being completed. -/
inductive Completes (s : State) (op : CmOp) : CompletePc → Answer → State → Prop
  | connectFailed (pd : Option Nat) (hr : Int) (op' : CmOp)
      (hc : op.connectCompleted pd hr = (op', some .storeFailed)) :
      Completes s op .completeConnect (.completeConnect pd hr) (s.goto (op', .storeFailed))
  | connectPending (pd : Option Nat) (hr : Int) (op' : CmOp)
      (hc : op.connectCompleted pd hr = (op', none)) :
      Completes s op .completeConnect (.completeConnect pd hr)
        ((s.takeDispatching op'.id).onPending op')
  | connectEstablished (pd : Option Nat) (hr : Int) (op' : CmOp)
      (hc : op.connectCompleted pd hr = (op', some .markConnected)) :
      Completes s op .completeConnect (.completeConnect pd hr)
        ((s.log (.established op'.id)).goto (op', .markConnected))
  | storeFailed :
      Completes s op .storeFailed .run ({ s with connectState := .closed }.goto (op, .storeClosed))
  | markWon (hs : s.connectState = .connecting) :
      Completes s op .markConnected .run
        ({ s.log (.connected op.id) with connectState := .connected }.goto (op.marked true))
  | markLost (hs : s.connectState ≠ .connecting) :
      Completes s op .markConnected .run (s.goto (op.marked false))
  | storeConnected :
      Completes s op .storeConnected .run
        ({ s.log (.connected op.id) with connectState := .connected }.goto (op, .invoke))
  | storeClosed :
      Completes s op .storeClosed .run ({ s with connectState := .closed }.goto (op, .invoke))
  | loadPeerClosed :
      Completes s op .loadPeerClosed .run (s.goto (op.waitComplete s.peerClosed))
  | storePeerClosed :
      Completes s op .storePeerClosed .run ({ s with peerClosed := true }.goto (op, .invoke))
  | invoke : Completes s op .invoke .run ((s.takeDispatching op.id).log (.invoked op))

/-- The steps of the `i`-th `disconnect()` call. -/
inductive Disconnects (s : State) (i : Nat) : Answer → State → Prop
  | load (hc : s.callers[i]? = some .load) :
      Disconnects s i .run { s with callers := s.callers.set i (casLoop s.connectState) }
  | closed (old : ConnectState) (hc : s.callers[i]? = some (.cas old)) (hs : s.connectState = old) :
      Disconnects s i .run { s.log (.close old) with
        connectState := .closed, callers := s.callers.set i (.storePeerClosed old) }
  | retry (old : ConnectState) (a : Answer) (hc : s.callers[i]? = some (.cas old))
      (ha : a = .run ∧ s.connectState ≠ old ∨ a = .spurious) :
      Disconnects s i a { s with callers := s.callers.set i (casLoop s.connectState) }
  | latched (old : ConnectState) (hc : s.callers[i]? = some (.storePeerClosed old)) :
      Disconnects s i .run
        { s with peerClosed := true, callers := s.callers.set i (afterStore old) }
  | cancelled (old : ConnectState) (hc : s.callers[i]? = some (.cancelIo old)) :
      Disconnects s i .run
        { s.cancelIoEx fun _ => true with callers := s.callers.set i (afterCancel old) }
  | native (hr : Int) (hc : s.callers[i]? = some .native) :
      Disconnects s i (.native hr) { s.log (.disconnect hr) with
        callers := s.callers.set i (.returned (callError hr)) }

/-- The steps of the connector. -/
inductive Step (s : State) : Label → State → Prop
  | useDevice : Step s .useDevice { s with deviceRegistered := true }
  | openConnector (ec : NdErrorCode) (hi : s.initiation = .idle) :
      Step s (.openConnector ec) (doOpen s ec).1
  | assign (hasHandle : Bool) (ec : NdErrorCode) (hi : s.initiation = .idle) :
      Step s (.assign hasHandle ec) (assign s hasHandle ec)
  | asyncConnect (id addr : Nat) (slot hasQp : Bool) (requestSize replyCap : Nat)
      (opened : NdErrorCode) (hi : s.initiation = .idle) (hf : s.fresh id addr = true) :
      Step s (.asyncConnect id addr slot hasQp requestSize replyCap opened)
        { asyncConnect s { id, addr, kind := .connect, slot, replyCap } hasQp requestSize opened with
          used := id :: s.used }
  | asyncAccept (id addr : Nat) (slot hasQp : Bool) (bindEc : NdErrorCode) (dataSize : Nat)
      (hi : s.initiation = .idle) (hf : s.fresh id addr = true) :
      Step s (.asyncAccept id addr slot hasQp bindEc dataSize)
        { asyncAccept s { id, addr, kind := .accept, slot } hasQp bindEc dataSize with
          used := id :: s.used }
  | asyncWaitDisconnect (id addr : Nat) (slot : Bool) (hi : s.initiation = .idle)
      (hf : s.fresh id addr = true) :
      Step s (.asyncWaitDisconnect id addr slot) { s with
        initiation := .waitLatch { id, addr, kind := .wait, slot }, used := id :: s.used }
  | initiate (id : Nat) (a : Answer) (s' : State) (op : CmOp) (ho : s.initiation.op? = some op)
      (hid : op.id = id) (h : Initiates s a s') : Step s (.initiate id a) s'
  | overlapped (r : IoResult) (op : CmOp) (hp : s.pending.find? (fun o => o.id == op.id) = some op)
      (hm : mayEnd op r = true) : Step s (.overlapped op.id r) (overlappedEnd s op r)
  | dispatch (op : CmOp) (hs : s.scheduled.find? (fun o => o.id == op.id) = some op) :
      Step s (.dispatch op.id) ((s.takeScheduled op.id).enter op.doComplete)
  | complete (a : Answer) (op : CmOp) (pc : CompletePc) (s' : State)
      (hd : s.dispatching.find? (fun d => d.1.id == op.id) = some (op, pc))
      (h : Completes s op pc a s') : Step s (.complete op.id a) s'
  | disconnect :
      Step s .disconnect { s with
        callers := s.callers ++
          [if s.isOpen then .load else .returned (.common (.rdma .invalidHandle))] }
  | disconnectStep (i : Nat) (a : Answer) (s' : State) (h : Disconnects s i a s') :
      Step s (.disconnectStep i a) s'
  | emit (addr : Nat) (ha : addr ∈ s.slots) :
      Step s (.emit addr) (s.cancelIoEx fun op => op.addr == addr)

theorem Initiates.of_initStep {s s' : State} {a : Answer} (h : initStep s a = some s') :
    Initiates s a s' := by
  unfold initStep at h
  split at h
  case h_1 op hasQp hi =>
    obtain rfl := Option.some.inj h
    split_ifs with hs hq
    · exact .terminal op hasQp hi hs
    · obtain rfl : hasQp = false := by simpa using hq
      exact .nullQp op hi (by simpa using hs)
    · obtain rfl : hasQp = true := by simpa using hq
      exact .admitted op hi (by simpa using hs)
  case h_2 op hi =>
    split_ifs at h with hs <;> obtain rfl := Option.some.inj h
    · exact .published op hi hs
    · exact .publishLost op hi hs
  case h_3 op ec hi =>
    obtain rfl := Option.some.inj h
    split_ifs with he
    · exact .bindFailed op ec hi he
    · exact .bound op ec hi (by simpa using he)
  case h_4 op hr hi =>
    split_ifs at h with hp hk <;> obtain rfl := Option.some.inj h
    · obtain rfl := hp
      exact .callPending op hi
    · obtain ⟨hk, rfl⟩ := hk
      exact .accepted op hi hk
    · exact .callEnded op hr hi hp fun hkind hsucc => hk ⟨hkind, hsucc⟩
  case h_5 op hi =>
    obtain rfl := Option.some.inj h
    exact .armed op hi
  case h_6 op hi =>
    obtain rfl := Option.some.inj h
    split_ifs with hp
    · exact .latchSet op hi hp
    · exact .latchClear op hi (by simpa using hp)
  case h_7 op hi =>
    obtain rfl := Option.some.inj h
    split_ifs with hs ho
    · exact .waitClosed op hi hs
    · exact .waitNotOpen op hi hs (by simpa using ho)
    · exact .waitOpen op hi hs (by simpa using ho)
  case h_8 op hr hi =>
    obtain rfl := Option.some.inj h
    split_ifs with hp
    · obtain rfl := hp
      exact .notifyPending op hi
    · exact .notifyEnded op hr hi hp
  case h_9 => cases h

theorem connectCompleted_pc {op op' : CmOp} {pd : Option Nat} {hr : Int} {pc : CompletePc}
    (h : op.connectCompleted pd hr = (op', some pc)) : pc = .storeFailed ∨ pc = .markConnected := by
  simp only [CmOp.connectCompleted] at h
  split_ifs at h <;> cases h
  · exact .inl rfl
  · exact .inr rfl

theorem Completes.of_completeStep {s s' : State} {op : CmOp} {pc : CompletePc} {a : Answer}
    (h : completeStep s op pc a = some s') : Completes s op pc a s' := by
  unfold completeStep at h
  split at h
  case h_1 pd hr =>
    split at h <;> obtain rfl := Option.some.inj h
    case h_1 op' hc => exact .connectEstablished pd hr op' hc
    case h_2 op' pc hne hc =>
      rcases connectCompleted_pc hc with rfl | rfl
      · exact .connectFailed pd hr op' hc
      · exact (hne rfl).elim
    case h_3 op' hc => exact .connectPending pd hr op' hc
  case h_3 =>
    split_ifs at h with hs <;> obtain rfl := Option.some.inj h
    · exact .markWon hs
    · exact .markLost hs
  case h_9 => cases h
  all_goals
    obtain rfl := Option.some.inj h
    constructor

theorem Disconnects.of_disconnectStep {s s' : State} {i : Nat} {a : Answer}
    (h : disconnectStep s i a = some s') : Disconnects s i a s' := by
  unfold disconnectStep at h
  split at h
  case h_1 hc =>
    obtain rfl := Option.some.inj h
    exact .load hc
  case h_2 old hc =>
    split_ifs at h with hs <;> obtain rfl := Option.some.inj h
    · exact .closed old hc hs
    · exact .retry old .run hc (.inl ⟨rfl, hs⟩)
  case h_3 old hc =>
    obtain rfl := Option.some.inj h
    exact .retry old .spurious hc (.inr rfl)
  case h_4 old hc =>
    obtain rfl := Option.some.inj h
    exact .latched old hc
  case h_5 old hc =>
    obtain rfl := Option.some.inj h
    exact .cancelled old hc
  case h_6 hr hc =>
    obtain rfl := Option.some.inj h
    exact .native hr hc
  case h_7 => cases h

/-- The step function takes no other steps. -/
theorem Step.of_step {s s' : State} {l : Label} (h : connector.step s l = some s') :
    Step s l s' := by
  change step s l = some s' at h
  cases l with
  | useDevice =>
    obtain rfl := Option.some.inj h
    exact .useDevice
  | openConnector ec =>
    simp only [step, Option.ite_none_right_eq_some, Option.some.injEq] at h
    obtain ⟨hi, rfl⟩ := h
    exact .openConnector ec hi
  | assign hasHandle ec =>
    simp only [step, Option.ite_none_right_eq_some, Option.some.injEq] at h
    obtain ⟨hi, rfl⟩ := h
    exact .assign hasHandle ec hi
  | asyncConnect id addr slot hasQp requestSize replyCap opened =>
    simp only [step, Option.ite_none_right_eq_some, Option.some.injEq] at h
    obtain ⟨⟨hi, hf⟩, rfl⟩ := h
    exact .asyncConnect id addr slot hasQp requestSize replyCap opened hi hf
  | asyncAccept id addr slot hasQp bindEc dataSize =>
    simp only [step, Option.ite_none_right_eq_some, Option.some.injEq] at h
    obtain ⟨⟨hi, hf⟩, rfl⟩ := h
    exact .asyncAccept id addr slot hasQp bindEc dataSize hi hf
  | asyncWaitDisconnect id addr slot =>
    simp only [step, Option.ite_none_right_eq_some, Option.some.injEq] at h
    obtain ⟨⟨hi, hf⟩, rfl⟩ := h
    exact .asyncWaitDisconnect id addr slot hi hf
  | initiate id a =>
    simp only [step, Option.ite_none_right_eq_some] at h
    obtain ⟨hany, h⟩ := h
    obtain ⟨op, ho, hid⟩ := (Option.any_eq_true _ _).1 hany
    exact .initiate id a s' op ho (by simpa using hid) (.of_initStep h)
  | overlapped id r =>
    simp only [step] at h
    split at h
    · rename_i op hfind
      obtain rfl : op.id = id := by simpa using List.find?_some hfind
      simp only [Option.ite_none_right_eq_some, Option.some.injEq] at h
      obtain ⟨hm, rfl⟩ := h
      exact .overlapped r op hfind hm
    · cases h
  | dispatch id =>
    simp only [step] at h
    split at h
    · rename_i op hfind
      obtain rfl : op.id = id := by simpa using List.find?_some hfind
      obtain rfl := Option.some.inj h
      exact .dispatch op hfind
    · cases h
  | complete id a =>
    simp only [step] at h
    split at h
    · rename_i op pc hfind
      obtain rfl : op.id = id := by simpa using List.find?_some hfind
      exact .complete a op pc s' hfind (.of_completeStep h)
    · cases h
  | disconnect =>
    obtain rfl := Option.some.inj h
    exact .disconnect
  | disconnectStep i a => exact .disconnectStep i a s' (.of_disconnectStep h)
  | emit addr =>
    simp only [step, Option.ite_none_right_eq_some, Option.some.injEq] at h
    obtain ⟨ha, rfl⟩ := h
    exact .emit addr ha

/-! ## The step function takes every listed step -/

theorem Initiates.initStep_eq {s s' : State} {a : Answer} (h : Initiates s a s') :
    initStep s a = some s' := by
  cases h with
  | terminal op hasQp hi hs => simp [initStep, hi, hs]
  | nullQp op hi hs => simp [initStep, hi, hs]
  | admitted op hi hs => simp [initStep, hi, hs]
  | published op hi hs => simp [initStep, hi, hs]
  | publishLost op hi hs => simp [initStep, hi, hs]
  | bindFailed op ec hi he => simp [initStep, hi, he]
  | bound op ec hi he => simp [initStep, hi, he]
  | callPending op hi => simp [initStep, hi]
  | accepted op hi hk => simp [initStep, hi, hk, ndSuccess, ndPending]
  | callEnded op hr hi hp hk =>
    have hnot : ¬ (op.kind = .accept ∧ hr = ndSuccess) := fun h => hk h.1 h.2
    simp [initStep, hi, hp, hnot]
  | armed op hi => simp [initStep, hi]
  | latchSet op hi hp => simp [initStep, hi, hp]
  | latchClear op hi hp => simp [initStep, hi, hp]
  | waitClosed op hi hs => simp [initStep, hi, hs]
  | waitNotOpen op hi hs ho => simp [initStep, hi, hs, ho]
  | waitOpen op hi hs ho => simp [initStep, hi, hs, ho]
  | notifyPending op hi => simp [initStep, hi]
  | notifyEnded op hr hi hp => simp [initStep, hi, hp]

theorem Completes.completeStep_eq {s s' : State} {op : CmOp} {pc : CompletePc} {a : Answer}
    (h : Completes s op pc a s') : completeStep s op pc a = some s' := by
  cases h with
  | connectFailed pd hr op' hc => simp [completeStep, hc]
  | connectPending pd hr op' hc => simp [completeStep, hc]
  | connectEstablished pd hr op' hc => simp [completeStep, hc]
  | markWon hs => simp [completeStep, hs]
  | markLost hs => simp [completeStep, hs]
  | _ => rfl

theorem Disconnects.disconnectStep_eq {s s' : State} {i : Nat} {a : Answer}
    (h : Disconnects s i a s') : disconnectStep s i a = some s' := by
  cases h with
  | load hc => simp [disconnectStep, hc]
  | closed old hc hs => simp [disconnectStep, hc, hs]
  | retry old a hc ha =>
    obtain ⟨rfl, hs⟩ | rfl := ha
    · simp [disconnectStep, hc, hs]
    · simp [disconnectStep, hc]
  | latched old hc => simp [disconnectStep, hc]
  | cancelled old hc => simp [disconnectStep, hc]
  | native hr hc => simp [disconnectStep, hc]

/-- The step function takes the step. -/
theorem Step.step_eq {s s' : State} {l : Label} (h : Step s l s') : connector.step s l = some s' := by
  change step s l = some s'
  cases h with
  | useDevice | disconnect => rfl
  | openConnector ec hi => simp [step, hi]
  | assign hasHandle ec hi => simp [step, hi]
  | asyncConnect id addr slot hasQp requestSize replyCap opened hi hf => simp [step, hi, hf]
  | asyncAccept id addr slot hasQp bindEc dataSize hi hf => simp [step, hi, hf]
  | asyncWaitDisconnect id addr slot hi hf => simp [step, hi, hf]
  | initiate id a _ op ho hid h => simp [step, ho, hid, h.initStep_eq]
  | overlapped r op hp hm => simp [step, hp, hm]
  | dispatch op hs => simp [step, hs]
  | complete a op pc _ hd h => simp [step, hd, h.completeStep_eq]
  | disconnectStep i a _ h => simp [step, h.disconnectStep_eq]
  | emit addr ha => simp [step, ha]

/-! ## The guards before the load of `connect_state_` -/

/-- The connector is opened, or left as it is. -/
inductive Opens (s : State) : State → Prop
  | same : Opens s s
  | opened (ho : s.isOpen = false) : Opens s { s with isOpen := true }

/-- An initiation is rejected, or goes on to the guards on `connect_state_` with an open connector. -/
inductive Begins (s : State) (op : CmOp) (hasQp : Bool) : State → Prop
  | rejected (t : State) (ec : NdErrorCode) (ht : Opens s t) (he : ec.isError = true) :
      Begins s op hasQp (t.reject op ec)
  | guarded (t : State) (ht : Opens s t) (ho : t.isOpen = true) :
      Begins s op hasQp { t with initiation := .guardState op hasQp }

variable {s : State} {op : CmOp} {hasQp : Bool}

theorem opens_doOpen (s : State) (ec : NdErrorCode) : Opens s (doOpen s ec).1 := by
  unfold doOpen
  split_ifs with ho hd he
  · exact .same
  · exact .same
  · exact .same
  · exact .opened (by simpa using ho)

/-- `do_open` on a connector that is not open reports an error exactly if it leaves it so. -/
theorem isError_doOpen (ho : s.isOpen = false) (ec : NdErrorCode) :
    (doOpen s ec).2.isError = !(doOpen s ec).1.isOpen := by
  unfold doOpen
  split_ifs with h hd he
  · exact absurd (ho.symm.trans h) Bool.noConfusion
  · simp [ho]
  · simp [ho, he]
  · rfl

theorem begins_asyncConnect (s : State) (op : CmOp) (hasQp : Bool) (requestSize : Nat)
    (opened : NdErrorCode) : Begins s op hasQp (asyncConnect s op hasQp requestSize opened) := by
  unfold asyncConnect
  by_cases ho : s.isOpen = true
  · simp only [if_pos ho]
    split_ifs with he hsize
    · simp at he
    · exact .rejected s _ .same rfl
    · exact .guarded s .same ho
  · simp only [if_neg ho]
    have hdoOpen := isError_doOpen (by simpa using ho) opened
    split_ifs with he hsize
    · exact .rejected _ _ (opens_doOpen s opened) he
    · exact .rejected _ _ (opens_doOpen s opened) rfl
    · refine .guarded _ (opens_doOpen s opened) ?_
      rw [Bool.not_eq_true] at he
      simpa [he] using hdoOpen

theorem begins_asyncAccept (s : State) (op : CmOp) (hasQp : Bool) (bindEc : NdErrorCode)
    (dataSize : Nat) : Begins s op hasQp (asyncAccept s op hasQp bindEc dataSize) := by
  unfold asyncAccept
  split_ifs with hb hd ho hsize
  · exact .rejected s bindEc .same hb
  · exact .rejected s _ .same rfl
  · exact .rejected s _ .same rfl
  · exact .rejected s _ .same rfl
  · exact .guarded s .same (by simpa using ho)

end RdmaOnAsio.Nd
