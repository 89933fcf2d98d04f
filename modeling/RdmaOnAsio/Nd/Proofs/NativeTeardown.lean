import RdmaOnAsio.Nd.Proofs.ClosedAbsorbing
import RdmaOnAsio.Nd.Proofs.Token

/-!
# The native teardown of a connection

A `disconnect()` issues `IND2Connector::Disconnect` only if its exchange finds `connected`. If it finds
`connecting` it leaves the connection to `CancelIoEx`, and if that comes too late the connect op finds
that it has lost, reports `operation_aborted` and does not tear down what it has established: nobody does.
`tearsDownInTime` says that the native success and the exchange of a `disconnect()` do not cross like
this.
-/

namespace RdmaOnAsio.Nd

open ErrorCode

/-- The native success of an op. -/
def Action.isEstablished : Action → Bool
  | .established _ => true
  | .close _ | .connected _ | .disconnect _ | .invoked _ => false

/-- `CompleteConnect` or `Accept` has succeeded. -/
def State.established (s : State) : Bool := s.trace.any Action.isEstablished

/-- The `disconnect()` call has not been turned away for want of a native handle. -/
def DisconnectPc.effective (c : DisconnectPc) : Bool :=
  c != .returned (.common (.rdma .invalidHandle))

/-- No connect or accept op is left, and every `disconnect()` call has returned. -/
def State.settled (s : State) : Bool :=
  s.ops.all (fun op => !op.isConn) && s.callers.all DisconnectPc.isReturned

/-- The native connection is torn down at most once, and if it was established and a `disconnect()` was
called, it is torn down by the time everybody is done. -/
structure TornDown (s : State) : Prop where
  le_one : s.disconnects ≤ 1
  eq_one : s.established = true → s.settled = true → (∃ c ∈ s.callers, c.effective = true) →
    s.disconnects = 1

/-- The step is the native success of an op. -/
def establishes (s : State) : Label → Bool
  | .initiate _ (.native hr) =>
    match s.initiation with
    | .native op => op.kind == .accept && hr == ndSuccess
    | _ => false
  | .overlapped id r => (s.pending.find? fun op => op.id == id).any fun op => op.establishes r
  | .complete _ (.completeConnect _ hr) => !failed hr && hr != ndPending
  | _ => false

/-- The step does not cross with another one: a native success finds a connector that is not closed,
a `disconnect()` that closes from `connecting` finds no native success, and neither does the `do_complete`
of an op that the guards turned away and that closes all the same. -/
def tearsDownInTime (s : State) : Label → Bool
  | .disconnectStep i .run =>
    !(s.callers[i]? == some (.cas .connecting) && s.connectState == .connecting && s.established)
  | .complete id .run =>
    match s.dispatching.find? fun d => d.1.id == id with
    | some (op, .storeClosed) => op.admitted || !s.established || s.connectState == .closed
    | _ => true
  | l => !establishes s l || s.connectState != .closed

/-- The op is established and on its way to say so. -/
def carries (e : CmOp × Place) : Bool :=
  match e.2 with
  | .port => e.1.admitted && !e.1.ec.isError &&
      (e.1.kind == .accept || (e.1.kind == .connect && e.1.stage == .connected))
  | .thread .markConnected | .thread .storeConnected => true
  | .initiating _ | .driver | .thread _ => false

/-- The `disconnect()` call is past its exchange. -/
def DisconnectPc.past : DisconnectPc → Bool
  | .storePeerClosed _ | .cancelIo _ | .native => true
  | .returned ec => ec != .common (.rdma .invalidHandle)
  | .load | .cas _ => false

/-- The invariant: an op that carries the native success is waited for in `connecting`, and once the
state is `closed` the success has been taken over by a `disconnect()`. -/
structure TearsDown (s : State) : Prop where
  single : Single s
  carried : ∀ e ∈ s.entries, carries e = true → s.established = true ∧ s.connectState = .connecting
  holders : s.established = true → ∀ e ∈ s.entries, holdsToken e = true →
    carries e = true ∨ s.connectState = .closed
  opened : s.established = true → s.connectState ≠ .idle ∧ s.isOpen = true
  past : (∃ c ∈ s.callers, c.past = true) → s.connectState = .closed
  spent : s.established = true → s.connectState = .closed → s.spent = 1

variable {s s' t : State} {op op' : CmOp} {pc : CompletePc} {x y : List (CmOp × Place)}

theorem TearsDown.tornDown (h : TearsDown s) : TornDown s := by
  refine ⟨h.single.disconnects_le_one, fun he hset hc => ?_⟩
  obtain ⟨-, hcallers⟩ := Bool.and_eq_true_iff.1 hset
  rw [List.all_eq_true] at hcallers
  have hpast : s.connectState = .closed := by
    obtain ⟨c, hmem, heff⟩ := hc
    refine h.past ⟨c, hmem, ?_⟩
    have hret := hcallers c hmem
    cases c with
    | returned ec => simpa [DisconnectPc.past, DisconnectPc.effective] using heff
    | _ => cases hret
  have hnone : s.callers.countP DisconnectPc.tearing = 0 := by
    refine List.countP_eq_zero.2 fun c hmem ht => ?_
    have hret := hcallers c hmem
    cases c with
    | returned ec => cases ht
    | _ => cases hret
  have hspent := h.spent he hpast
  rw [State.spent, hnone, Nat.zero_add] at hspent
  exact hspent

/-! ## The steps of the ops -/

/-- What carries the success holds the token. -/
theorem holdsToken_of_carries {o : Bool} {e : CmOp × Place} (hp : e.2.Holds o e.1)
    (hc : carries e = true) : holdsToken e = true := by
  obtain ⟨op, p⟩ := e
  simp only [carries] at hc
  split at hc
  · simp only [Bool.and_eq_true] at hc
    rw [holdsToken, hc.1.1]
    rfl
  · rw [holdsToken, hp.2.2.admitted]
    rfl
  · rw [holdsToken, hp.2.2.admitted]
    rfl
  all_goals exact Bool.noConfusion hc

theorem one_le_holders {e : CmOp × Place} (ht : holdsToken e = true) :
    1 ≤ [e].countP holdsToken :=
  List.countP_pos_iff.2 ⟨e, List.mem_cons_self, ht⟩

/-- Where the token is before a step there is no other. -/
theorem Single.only (h : Single s) (hsh : Shifts s s' x y) (hx : 1 ≤ x.countP holdsToken)
    {e : CmOp × Place} (he : e ∈ s'.entries) (ht : holdsToken e = true) : e ∈ y := by
  obtain ⟨rest, hbefore, hafter⟩ := hsh
  have hone := h.le_one
  rw [State.tokens, hbefore.countP_eq, List.countP_append] at hone
  rcases List.mem_append.1 (hafter.mem_iff.1 he) with hy | hrest
  · exact hy
  · have hpos : 0 < rest.countP holdsToken := List.countP_pos_iff.2 ⟨e, hrest, ht⟩
    omega

/-- A step that leaves the shared variables alone and establishes nothing. -/
theorem TearsDown.shift (h : TearsDown s) (hs : Single s') (hsh : Shifts s s' x y)
    (hest : s'.established = s.established) (hcs : s'.connectState = s.connectState)
    (hc : s'.callers = s.callers) (hspent : s'.spent = s.spent)
    (ho : s.isOpen = true → s'.isOpen = true)
    (hcarry : ∀ e ∈ y, carries e = true → ∃ e0 ∈ x, carries e0 = true)
    (hhold : ∀ e ∈ y, holdsToken e = true → s.established = true →
      carries e = true ∨ s.connectState = .closed) : TearsDown s' where
  single := hs
  carried := by
    rw [hest, hcs]
    refine hsh.forall h.carried fun e he hce => ?_
    obtain ⟨e0, hmem, hc0⟩ := hcarry e he hce
    exact h.carried e0 (hsh.mem hmem) hc0
  holders := fun he => by
    rw [hest] at he
    rw [hcs]
    exact hsh.forall (h.holders he) fun e hmem ht => hhold e hmem ht he
  opened := fun he => ⟨hcs ▸ (h.opened (hest ▸ he)).1, ho (h.opened (hest ▸ he)).2⟩
  past := fun hp => hcs.trans (h.past (hc ▸ hp))
  spent := fun he hcl => hspent.trans (h.spent (hest ▸ he) (hcs.symm.trans hcl))

theorem established_eq
    (htr : s'.trace = s.trace ∨ ∃ a, s'.trace = a :: s.trace ∧ a.isEstablished = false) :
    s'.established = s.established := by
  rcases htr with htr | ⟨a, htr, ha⟩ <;> simp only [State.established, htr]
  rw [List.any_cons, ha, Bool.false_or]

/-- An op that goes from one place to another without a word. -/
theorem TearsDown.move {p p' : Place} (h : TearsDown s) (hs : Single s')
    (hsh : Shifts s s' [(op, p)] [(op', p')]) (hadm : op'.admitted = op.admitted)
    (hpc : p.isUpcall = false) (htr : s'.trace = s.trace)
    (hcs : s'.connectState = s.connectState) (hc : s'.callers = s.callers)
    (ho : s'.isOpen = s.isOpen) (hcarry : carries (op', p') = true → carries (op, p) = true)
    (hkeep : carries (op, p) = true → holdsToken (op', p') = true → carries (op', p') = true) :
    TearsDown s' := by
  refine h.shift hs hsh (established_eq (.inl htr)) hcs hc (spent_eq hc (.inl htr))
    (fun hopen => ho.trans hopen) (fun e he hce => ?_) fun e he ht hest => ?_
  · obtain rfl := List.mem_singleton.1 he
    exact ⟨_, List.mem_cons_self, hcarry hce⟩
  · obtain rfl := List.mem_singleton.1 he
    have hold : holdsToken (op, p) = true := by
      simp only [holdsToken, hadm, hpc, Bool.and_eq_true] at ht ⊢
      exact ⟨ht.1, rfl⟩
    rcases h.holders hest _ (hsh.mem List.mem_cons_self) hold with hcar | hcl
    · exact .inl (hkeep hcar ht)
    · exact .inr hcl

/-- A step that touches neither the ops nor what the teardown depends on. -/
theorem TearsDown.quiet (h : TearsDown s) (hs : Single s') (hsh : Shifts s s' [] [])
    (htr : s'.trace = s.trace) (hcs : s'.connectState = s.connectState)
    (hc : s'.callers = s.callers) (ho : s.isOpen = true → s'.isOpen = true) : TearsDown s' :=
  h.shift hs hsh (established_eq (.inl htr)) hcs hc (spent_eq hc (.inl htr)) ho
    (fun _ he => absurd he List.not_mem_nil) fun _ he => absurd he List.not_mem_nil

/-- The native success of an op, in time. -/
theorem TearsDown.establish {p p' : Place} (id : Nat) (h : TearsDown s) (hs : Single s')
    (hsh : Shifts s s' [(op, p)] [(op', p')]) (hadm : op.admitted = true)
    (hpc : p.isUpcall = false) (hpub : p.isPublish = false) (htime : s.connectState ≠ .closed)
    (htr : s'.trace = .established id :: s.trace) (hcs : s'.connectState = s.connectState)
    (hc : s'.callers = s.callers) (ho : s'.isOpen = s.isOpen)
    (hcarry : carries (op', p') = true) : TearsDown s' := by
  have hmem := hsh.mem List.mem_cons_self
  have htok : holdsToken (op, p) = true := by simp [holdsToken, hadm, hpc]
  have hone := one_le_holders htok
  have hconn : s.connectState = .connecting := by
    obtain ⟨-, hnot, -⟩ := h.single.alone hsh hone
    cases hst : s.connectState with
    | idle => exact absurd (hpub.symm.trans ((h.single.idle hst).2 _ hmem htok)) Bool.noConfusion
    | connecting => rfl
    | connected => rw [hst] at hnot; cases hnot
    | closed => exact absurd hst htime
  have hest : s'.established = true := by simp [State.established, htr, Action.isEstablished]
  have hclosed : s'.connectState ≠ .closed := fun hcl => htime (hcs.symm.trans hcl)
  refine ⟨hs, fun _ _ _ => ⟨hest, hcs.trans hconn⟩, fun _ e he ht => ?_, fun _ => ⟨?_, ?_⟩,
    fun hp => absurd (h.past (hc ▸ hp)) htime, fun _ hcl => absurd hcl hclosed⟩
  · obtain rfl := List.mem_singleton.1 (h.single.only hsh hone he ht)
    exact .inl hcarry
  · rw [hcs, hconn]
    exact ConnectState.noConfusion
  · exact ho.trans (h.single.placed.admitted _ hmem hadm)

/-- A `do_complete` closes; what was established has been closed before. -/
theorem TearsDown.close {p p' : Place} (h : TearsDown s) (hs : Single s')
    (hsh : Shifts s s' [(op, p)] [(op', p')]) (htr : s'.trace = s.trace)
    (hlate : s.established = true → s.connectState = .closed) (hcs : s'.connectState = .closed)
    (hc : s'.callers = s.callers) (ho : s'.isOpen = s.isOpen)
    (hcarry : carries (op', p') = false) : TearsDown s' := by
  have hest := established_eq (.inl htr)
  refine ⟨hs, hsh.forall (fun e he hce => ?_) fun e he hce => ?_, fun _ _ _ _ => .inr hcs,
    fun he => ⟨?_, ho.trans (h.opened (hest ▸ he)).2⟩, fun _ => hcs, fun he _ => ?_⟩
  · obtain ⟨he, hconn⟩ := h.carried e he hce
    exact ConnectState.noConfusion (hconn.symm.trans (hlate he))
  · obtain rfl := List.mem_singleton.1 he
    exact absurd (hcarry.symm.trans hce) Bool.noConfusion
  · rw [hcs]
    exact ConnectState.noConfusion
  · rw [spent_eq hc (.inl htr)]
    exact h.spent (hest ▸ he) (hlate (hest ▸ he))

/-- The op that carries the success publishes it. -/
theorem TearsDown.connect (h : TearsDown s) (hs : Single s')
    (hsh : Shifts s s' [(op, .thread pc)] [(op', .thread .invoke)])
    (hcarry : carries (op, .thread pc) = true)
    (hcs : s'.connectState = .connected)
    (hc : s'.callers = s.callers) (ho : s'.isOpen = s.isOpen) : TearsDown s' := by
  have hmem := hsh.mem List.mem_cons_self
  have htok := holdsToken_of_carries (h.single.placed.holds _ hmem) hcarry
  obtain ⟨hest, hconn⟩ := h.carried _ hmem hcarry
  have hone := one_le_holders htok
  have hnone : ∀ e ∈ s'.entries, holdsToken e = false := by
    intro e he
    by_contra ht
    rw [Bool.not_eq_false] at ht
    obtain rfl := List.mem_singleton.1 (h.single.only hsh hone he ht)
    simp [holdsToken, Place.isUpcall] at ht
  refine ⟨hs, fun e he hce => ?_, fun _ e he ht => ?_, fun _ => ⟨?_, ?_⟩, fun hp => ?_, fun _ hcl => ?_⟩
  · have ht := holdsToken_of_carries (hs.placed.holds e he) hce
    exact absurd ((hnone e he).symm.trans ht) Bool.noConfusion
  · exact absurd ((hnone e he).symm.trans ht) Bool.noConfusion
  · rw [hcs]
    exact ConnectState.noConfusion
  · exact ho.trans (h.opened hest).2
  · exact ConnectState.noConfusion (hconn.symm.trans (h.past (hc ▸ hp)))
  · exact ConnectState.noConfusion (hcs.symm.trans hcl)

/-! ## Every step in time keeps the invariant -/

theorem carries_port_of_error (he : op.ec.isError = true) : carries (op, .port) = false := by
  simp [carries, he]

theorem carries_port_of_stage {ec : NdErrorCode} (hk : op.kind ≠ .accept) (hst : op.stage ≠ .connected) :
    carries (op.completeWith ec, .port) = false := by
  simp [carries, CmOp.completeWith, hk, hst]

theorem TearsDown.initiates {a : Answer} (h : TearsDown s) (hs : Single s')
    (htime : ∀ op, s.initiation = .native op → op.kind = .accept → a = .native ndSuccess →
      s.connectState ≠ .closed) (hst : Initiates s a s') : TearsDown s' := by
  cases hst with
  | terminal op hasQp hi _ | nullQp op hi _ | publishLost op hi _ | latchSet op hi _
  | waitClosed op hi _ | waitNotOpen op hi _ =>
    refine h.move hs (.post (initiating_eq hi rfl) rfl rfl rfl rfl) rfl rfl rfl rfl rfl rfl ?_ Bool.noConfusion
    rw [carries_port_of_error rfl]
    exact Bool.noConfusion
  | bindFailed op ec hi he =>
    refine h.move hs (.post (initiating_eq hi rfl) rfl rfl rfl rfl) rfl rfl rfl rfl rfl rfl ?_ Bool.noConfusion
    rw [carries_port_of_error he]
    exact Bool.noConfusion
  | callEnded op hr hi hp hk =>
    obtain ⟨⟨-, hstage, -⟩, -⟩ := h.single.placed.initiating hi rfl
    refine h.move hs (.post (initiating_eq hi rfl) rfl rfl rfl rfl) rfl rfl rfl rfl rfl rfl ?_ Bool.noConfusion
    by_cases hkind : op.kind = .accept
    · rw [carries_port_of_error (isError_callError (hk hkind) hp)]
      exact Bool.noConfusion
    · rw [carries_port_of_stage hkind (hstage ▸ Stage.noConfusion)]
      exact Bool.noConfusion
  | notifyEnded op hr hi hp =>
    obtain ⟨hwait, -⟩ := h.single.placed.initiating hi rfl
    refine h.move hs (.post (initiating_eq hi rfl) rfl rfl rfl rfl) rfl rfl rfl rfl rfl rfl ?_ Bool.noConfusion
    simp [carries, CmOp.completeWith, show op.kind = .wait from hwait]
  | admitted op hi hidle =>
    refine h.shift hs (.next (initiating_eq hi rfl) rfl rfl rfl rfl rfl) rfl rfl rfl rfl id
      (fun e he hce => ?_) fun e he ht hest => absurd hidle (h.opened hest).1
    obtain rfl := List.mem_singleton.1 he
    cases hce
  | published op hi hidle =>
    have hnone : s.established = false := Bool.eq_false_iff.2 fun hest => (h.opened hest).1 hidle
    have hsh : Shifts s { s with connectState := .connecting, initiation := .afterPublish op } _ _ :=
      .next (initiating_eq hi rfl) rfl (owned_afterPublish op) rfl rfl rfl
    refine ⟨hs, hsh.forall (fun e he hce => ?_) fun e he hce => ?_,
      fun hest => absurd (hnone.symm.trans hest) Bool.noConfusion,
      fun hest => absurd (hnone.symm.trans hest) Bool.noConfusion,
      fun hp => ConnectState.noConfusion (hidle.symm.trans (h.past hp)),
      fun hest => absurd (hnone.symm.trans hest) Bool.noConfusion⟩
    · exact absurd (hnone.symm.trans (h.carried e he hce).1) Bool.noConfusion
    · obtain rfl := List.mem_singleton.1 he
      cases hce
  | bound op ec hi _ | latchClear op hi _ | waitOpen op hi _ _ =>
    exact h.move hs (.next (initiating_eq hi rfl) rfl rfl rfl rfl rfl) rfl rfl rfl rfl rfl rfl
      Bool.noConfusion Bool.noConfusion
  | callPending op hi =>
    exact h.move hs (.submit (initiating_eq hi rfl) rfl rfl rfl rfl) rfl rfl rfl rfl rfl rfl
      Bool.noConfusion Bool.noConfusion
  | accepted op hi hk =>
    obtain ⟨⟨-, -, hop⟩, -⟩ := h.single.placed.initiating hi rfl
    refine h.establish op.id hs (.post (initiating_eq hi rfl) rfl rfl rfl rfl) hop.admitted rfl rfl
      (htime op hi hk rfl) rfl rfl rfl rfl ?_
    simp [carries, CmOp.completeWith, hop.admitted, hk]
  | armed op hi =>
    obtain ⟨slots, heq⟩ := armNdCancellation_eq s op
    rw [heq] at hs ⊢
    exact h.quiet hs (.init (initiating_nil (by rw [hi]; rfl)) rfl rfl rfl rfl) rfl rfl rfl id
  | notifyPending op hi =>
    obtain ⟨slots, heq⟩ := armNdCancellation_eq s op
    rw [heq] at hs ⊢
    exact h.move hs (.submit (initiating_eq hi rfl) rfl rfl rfl rfl) rfl rfl rfl rfl rfl rfl
      Bool.noConfusion Bool.noConfusion

theorem TearsDown.completes {a : Answer} (h : TearsDown s) (hs : Single s')
    (hfind : s.dispatching.find? (fun d => d.1.id == op.id) = some (op, pc))
    (htime : ∀ pd hr, a = .completeConnect pd hr → failed hr = false → hr ≠ ndPending →
      s.connectState ≠ .closed)
    (hreject : pc = .storeClosed → op.admitted = false → s.established = true →
      s.connectState = .closed)
    (hst : Completes s op pc a s') : TearsDown s' := by
  obtain ⟨hholds, -⟩ := h.single.placed.thread hfind
  have hmem : (op, Place.thread pc) ∈ s.entries :=
    (State.entries_of_dispatching hfind).mem_iff.2 List.mem_cons_self
  cases hst with
  | connectFailed pd hr op' hc =>
    have hsame := same_connectCompleted op pd hr
    rw [hc] at hsame
    exact h.move hs (.goto hfind hsame.id rfl rfl rfl rfl) hsame.admitted rfl rfl rfl rfl rfl
      Bool.noConfusion Bool.noConfusion
  | connectPending pd hr op' hc =>
    have hsame := same_connectCompleted op pd hr
    rw [hc] at hsame
    exact h.move hs (.continue hfind hsame.id) hsame.admitted rfl rfl rfl rfl rfl Bool.noConfusion
      Bool.noConfusion
  | connectEstablished pd hr op' hc =>
    have hsame := same_connectCompleted op pd hr
    rw [hc] at hsame
    have hok : failed hr = false ∧ hr ≠ ndPending := by
      simp only [CmOp.connectCompleted] at hc
      split_ifs at hc with hf hp
      · cases hc
      · cases hc
      · exact ⟨by simpa using hf, hp⟩
    exact h.establish _ hs (.goto hfind hsame.id rfl rfl rfl rfl) hholds.2.2.admitted rfl rfl
      (htime pd hr rfl hok.1 hok.2) rfl rfl rfl rfl rfl
  | storeFailed =>
    refine h.close hs (.goto hfind rfl rfl rfl rfl rfl) rfl (fun hest => ?_) rfl rfl rfl rfl
    have htok : holdsToken (op, .thread .storeFailed) = true := by
      rw [holdsToken, hholds.2.2.admitted]
      rfl
    exact (h.holders hest _ hmem htok).resolve_left Bool.noConfusion
  | markWon hconn =>
    exact h.connect hs (.goto hfind rfl rfl rfl rfl rfl) rfl rfl rfl rfl
  | markLost hconn =>
    exact h.move hs (.goto hfind rfl rfl rfl rfl rfl) rfl rfl rfl rfl rfl rfl Bool.noConfusion
      fun hc => absurd (h.carried _ hmem hc).2 hconn
  | storeConnected =>
    exact h.connect hs (.goto hfind rfl rfl rfl rfl rfl) rfl rfl rfl rfl
  | storeClosed =>
    refine h.close hs (.goto hfind rfl rfl rfl rfl rfl) rfl (fun hest => ?_) rfl rfl rfl rfl
    by_cases hadm : op.admitted = true
    · have htok : holdsToken (op, .thread .storeClosed) = true := by
        rw [holdsToken, hadm]
        rfl
      exact (h.holders hest _ hmem htok).resolve_left Bool.noConfusion
    · exact hreject rfl (by simpa using hadm) hest
  | loadPeerClosed =>
    have hsame := same_waitComplete op s.peerClosed
    refine h.move hs (.goto hfind hsame.id rfl rfl rfl rfl) hsame.admitted rfl rfl rfl rfl rfl ?_
      Bool.noConfusion
    unfold CmOp.waitComplete
    split_ifs <;> exact Bool.noConfusion
  | storePeerClosed =>
    exact h.move hs (.goto hfind rfl rfl rfl rfl rfl) rfl rfl rfl rfl rfl rfl Bool.noConfusion
      Bool.noConfusion
  | invoke =>
    exact h.shift hs (.finish hfind _) (established_eq (.inr ⟨_, rfl, rfl⟩)) rfl rfl
      (spent_eq rfl (.inr ⟨_, rfl, rfl⟩)) id (fun _ he => absurd he List.not_mem_nil)
      fun _ he => absurd he List.not_mem_nil

/-- A step after which the ops are the same but for the mark of `CancelIoEx`. -/
theorem TearsDown.cancelled {p : CmOp → Bool} (h : TearsDown s) (hs : Single s')
    (hent : s'.entries = (s.cancelIoEx p).entries) (hest : s'.established = s.established)
    (hcs : s'.connectState = s.connectState) (ho : s'.isOpen = s.isOpen)
    (hpast : (∃ c ∈ s'.callers, c.past = true) → s.connectState = .closed)
    (hspent : s'.spent = s.spent) : TearsDown s' := by
  have hcarry : ∀ e, carries (cancelEntry p e) = true → carries e = true := by
    intro e hce
    rw [carries, cancelEntry_place, cancelEntry_op] at hce
    exact hce
  have hhold : ∀ e, holdsToken (cancelEntry p e) = true → holdsToken e = true := by
    intro e hte
    rw [holdsToken, cancelEntry_place, cancelEntry_op] at hte
    exact hte
  have hkeep : ∀ e, carries e = true → carries (cancelEntry p e) = true := by
    intro e hce
    rw [carries, cancelEntry_place, cancelEntry_op]
    exact hce
  have hmem : ∀ e ∈ s'.entries, ∃ e0 ∈ s.entries, cancelEntry p e0 = e := by
    intro e he
    rw [hent, State.entries_cancelIoEx] at he
    exact List.mem_map.1 he
  refine ⟨hs, fun e he hce => ?_, fun hes e he ht => ?_, fun hes => ?_, fun hp => hcs.trans (hpast hp),
    fun hes hcl => hspent.trans (h.spent (hest ▸ hes) (hcs.symm.trans hcl))⟩
  · obtain ⟨e0, hmem0, rfl⟩ := hmem e he
    rw [hest, hcs]
    exact h.carried e0 hmem0 (hcarry e0 hce)
  · obtain ⟨e0, hmem0, rfl⟩ := hmem e he
    rw [hcs]
    rcases h.holders (hest ▸ hes) e0 hmem0 (hhold e0 ht) with hc | hc
    · exact .inl (hkeep e0 hc)
    · exact .inr hc
  · rw [hcs, ho]
    exact h.opened (hest ▸ hes)

theorem past_casLoop {old : ConnectState} (h : (casLoop old).past = true) : old = .closed := by
  cases old with
  | closed => rfl
  | _ => cases h

/-- A step of a `disconnect()` call other than the exchange that closes. -/
theorem TearsDown.caller {p : CmOp → Bool} {i : Nat} {c c' : DisconnectPc} (h : TearsDown s)
    (hs : Single s') (hc : s.callers[i]? = some c) (hset : s'.callers = s.callers.set i c')
    (hp : c'.past = true → c.past = true ∨ s.connectState = .closed)
    (hent : s'.entries = (s.cancelIoEx p).entries) (hest : s'.established = s.established)
    (hcs : s'.connectState = s.connectState) (ho : s'.isOpen = s.isOpen)
    (hspent : s'.connectState.token + s'.spent = s.connectState.token + s.spent) :
    TearsDown s' := by
  refine h.cancelled hs hent hest hcs ho (fun ⟨d, hmem, hd⟩ => ?_) ?_
  · rw [hset] at hmem
    rcases List.mem_or_eq_of_mem_set hmem with hold | rfl
    · exact h.past ⟨d, hold, hd⟩
    · rcases hp hd with hpast | hcl
      · exact h.past ⟨c, List.mem_of_getElem? hc, hpast⟩
      · exact hcl
  · rw [hcs] at hspent
    exact Nat.add_left_cancel hspent

theorem TearsDown.disconnects {i : Nat} {a : Answer} (h : TearsDown s) (hs : Single s')
    (htime : s.callers[i]? = some (.cas .connecting) → a = .run → s.connectState = .connecting →
      s.established = false) (hst : Disconnects s i a s') : TearsDown s' := by
  have hspent := hst.spent
  obtain ⟨-, -, p, hent⟩ := hst.frame
  cases hst with
  | load hc =>
    exact h.caller hs hc rfl (fun hp => .inr (past_casLoop hp)) hent rfl rfl rfl hspent
  | closed old hc hold =>
    have hnot : s.established = true → s.connectState ≠ .connecting := fun hest hconn =>
      absurd ((htime (hc.trans (by rw [← hold, hconn])) rfl hconn).symm.trans hest) Bool.noConfusion
    have hest : (s.log (.close old)).established = s.established :=
      established_eq (.inr ⟨_, rfl, rfl⟩)
    refine ⟨hs, fun e he hce => ?_, fun _ _ _ _ => .inr rfl, fun he => ?_, fun _ => rfl, fun he _ => ?_⟩
    · obtain ⟨he, hconn⟩ := h.carried e he hce
      exact absurd hconn (hnot he)
    · exact ⟨ConnectState.noConfusion, (h.opened (hest ▸ he)).2⟩
    · have hle := hs.le_one
      have he' : s.established = true := hest ▸ he
      rw [State.tokens] at hle
      change 0 + _ = _ at hspent
      cases hcs : s.connectState with
      | idle => exact absurd hcs (h.opened he').1
      | connecting => exact absurd hcs (hnot he')
      | connected =>
        rw [hcs] at hspent
        change 0 + _ = 1 + _ at hspent
        omega
      | closed =>
        have hone := h.spent he' hcs
        rw [hcs] at hspent
        change 0 + _ = 0 + _ at hspent
        omega
  | retry old a hc ha =>
    exact h.caller hs hc rfl (fun hp => .inr (past_casLoop hp)) hent rfl rfl rfl hspent
  | latched old hc => exact h.caller hs hc rfl (fun _ => .inl rfl) hent rfl rfl rfl hspent
  | cancelled old hc => exact h.caller hs hc rfl (fun _ => .inl rfl) hent rfl rfl rfl hspent
  | native hr hc =>
    exact h.caller hs hc rfl (fun _ => .inl rfl) hent (established_eq (.inr ⟨_, rfl, rfl⟩)) rfl rfl hspent

/-- A dispatched op carries what it carried at the port. -/
theorem carries_doComplete {o : Bool} (hp : Place.port.Holds o op) :
    carries (op.doComplete.1, .thread op.doComplete.2) = carries (op, .port) := by
  unfold CmOp.doComplete
  split
  case h_1 hk =>
    unfold CmOp.connectComplete
    split_ifs with he
    · rw [carries_port_of_error he]
      rfl
    · have he' : op.ec.isError = false := by simpa using he
      have hadm := (hp (isConn_of_connect hk) he').admitted
      split
      · rename_i hstage
        simp [carries, hk, hstage]
      · rename_i hstage
        simp [carries, hk, hstage, hadm, he']
      · rename_i hstage
        simp [carries, hk, hstage]
      · rename_i hstage
        simp [carries, hk, hstage]
  case h_2 hk =>
    unfold CmOp.acceptComplete
    split_ifs with hstart he
    · have he' : op.ec.isError = false := by simpa using hstart.2
      have hadm := (hp (isConn_of_accept hk) he').admitted
      simp [carries, hk, hadm, he']
    · rw [carries_port_of_error he.2]
      rfl
    · rw [carries_port_of_error ?_]
      · rfl
      · by_contra hne
        have he' : op.ec.isError = false := by simpa using hne
        exact hstart ⟨(hp (isConn_of_accept hk) he').started hk, by simp [he']⟩
  case h_3 hk => simp [carries, hk]

theorem TearsDown.begins {hasQp : Bool} {used : List Nat} (h : TearsDown s)
    (hs : Single { t with used := used }) (hi : s.initiation = .idle) (hb : Begins s op hasQp t)
    (hadm : op.admitted = false) : TearsDown { t with used := used } := by
  obtain ⟨hc, hcs, htr, ho⟩ := hb.frame
  have hnil : s.initiating = [] := initiating_nil (by rw [hi]; rfl)
  have hnone : ∀ {p : Place} {ec : NdErrorCode}, holdsToken (op.completeWith ec, p) = true →
      (op.completeWith ec).admitted = false → False := by
    intro p ec ht hf
    rw [holdsToken, hf] at ht
    cases ht
  cases hb with
  | rejected u ec hu he =>
    have hsh : Shifts s { u.reject op ec with used := used } [] [(op.completeWith ec, .port)] := by
      cases hu <;> exact .post hnil rfl rfl rfl rfl
    refine h.shift hs hsh (established_eq (.inl htr)) hcs hc (spent_eq hc (.inl htr)) ho
      (fun e hmem hce => ?_) fun e hmem ht => ?_
    · obtain rfl := List.mem_singleton.1 hmem
      exact absurd ((carries_port_of_error he).symm.trans hce) Bool.noConfusion
    · obtain rfl := List.mem_singleton.1 hmem
      exact (hnone ht hadm).elim
  | guarded u hu hopen =>
    have hsh : Shifts s { u with initiation := .guardState op hasQp, used := used } []
        [(op, .initiating (.guardState op hasQp))] := by
      cases hu <;> exact .next hnil rfl rfl rfl rfl rfl
    refine h.shift hs hsh (established_eq (.inl htr)) hcs hc (spent_eq hc (.inl htr)) ho
      (fun e hmem hce => ?_) fun e hmem ht => ?_
    · obtain rfl := List.mem_singleton.1 hmem
      cases hce
    · obtain rfl := List.mem_singleton.1 hmem
      simp [holdsToken, hadm] at ht

theorem TearsDown.assign {hasHandle : Bool} {ec : NdErrorCode} (h : TearsDown s)
    (hs : Single (Nd.assign s hasHandle ec)) : TearsDown (Nd.assign s hasHandle ec) := by
  unfold Nd.assign at hs ⊢
  split_ifs at hs ⊢ with hopen
  · exact h
  · have hno : s.isOpen = false := by simpa using fun ho => hopen (.inl ho)
    have hnone : s.established = false := Bool.eq_false_iff.2 fun hest =>
      absurd (hno.symm.trans (h.opened hest).2) Bool.noConfusion
    refine ⟨hs, fun e he hce => ?_, fun hest => ?_, fun hest => ?_, fun ⟨c, hmem, hpast⟩ => ?_,
      fun hest => ?_⟩
    · exact absurd (hnone.symm.trans (h.carried e he hce).1) Bool.noConfusion
    · exact absurd (hnone.symm.trans hest) Bool.noConfusion
    · exact absurd (hnone.symm.trans hest) Bool.noConfusion
    · refine absurd (hno.symm.trans (h.single.placed.callers c hmem fun hc => ?_)) Bool.noConfusion
      subst hc
      cases hpast
    · exact absurd (hnone.symm.trans hest) Bool.noConfusion

/-- The end of an overlapped call leaves an op that carries the success only if it is the success. -/
theorem establishes_of_carries {r : IoResult} (hm : mayEnd op r = true)
    (hc : carries (op.completeWith r.ec, .port) = true) : op.establishes r = true := by
  simp only [carries, Bool.and_eq_true, Bool.not_eq_true'] at hc
  obtain ⟨⟨-, he⟩, hkind⟩ := hc
  cases r with
  | ok => exact hkind
  | aborted => cases he
  | failed lastError =>
    simp only [mayEnd, Bool.and_eq_true, bne_iff_ne] at hm
    exact absurd (by simpa [CmOp.completeWith, IoResult.ec, makeSystemErrorCode, isError] using he) hm.1

theorem TearsDown.overlapped {r : IoResult} (h : TearsDown s) (hs : Single (overlappedEnd s op r))
    (hfind : s.pending.find? (fun o => o.id == op.id) = some op) (hm : mayEnd op r = true)
    (htime : op.establishes r = true → s.connectState ≠ .closed) :
    TearsDown (overlappedEnd s op r) := by
  have hsh := Shifts.overlapped hfind r
  rw [overlappedEnd_eq] at hs hsh ⊢
  by_cases hest : op.establishes r = true
  · obtain ⟨hok, hkind⟩ := Bool.and_eq_true_iff.1 hest
    have hconn : op.isConn = true := by
      cases hk : op.kind <;> simp [hk] at hkind <;> simp [CmOp.isConn, hk]
    have hadm := (h.single.placed.holds _ (hsh.mem List.mem_cons_self) hconn).admitted
    obtain rfl : r = .ok := by simpa using hok
    refine h.establish op.id hs hsh hadm rfl rfl (htime hest) (if_pos hest) rfl rfl rfl ?_
    simp only [carries, Bool.and_eq_true]
    exact ⟨⟨hadm, rfl⟩, hkind⟩
  · exact h.move hs hsh rfl rfl (if_neg hest) rfl rfl rfl
      (fun hc => absurd (establishes_of_carries hm hc) hest) Bool.noConfusion

/-- Every step in time keeps the invariant. -/
theorem TearsDown.step {l : Label} (h : TearsDown s) (htime : tearsDownInTime s l = true)
    (hst : connector.step s l = some s') : TearsDown s' := by
  have hs := h.single.step hst
  cases Step.of_step hst with
  | useDevice => exact h.quiet hs (.refl rfl rfl rfl rfl) rfl rfl rfl id
  | openConnector ec hi =>
    have ho := opens_doOpen s ec
    exact h.quiet hs ho.shifts ho.trace ho.connectState ho.callers ho.isOpen
  | assign hasHandle ec hi => exact h.assign hs
  | asyncConnect id addr slot hasQp requestSize replyCap opened hi hf =>
    exact h.begins hs hi (begins_asyncConnect s _ hasQp requestSize opened) rfl
  | asyncAccept id addr slot hasQp bindEc dataSize hi hf =>
    exact h.begins hs hi (begins_asyncAccept s _ hasQp bindEc dataSize) rfl
  | asyncWaitDisconnect id addr slot hi hf =>
    have hnil : s.initiating = [] := initiating_nil (by rw [hi]; rfl)
    refine h.shift hs (.next hnil rfl rfl rfl rfl rfl) rfl rfl rfl rfl (fun ho => ho)
      (fun e he hce => ?_) fun e he ht => ?_
    · obtain rfl := List.mem_singleton.1 he
      cases hce
    · obtain rfl := List.mem_singleton.1 he
      cases ht
  | initiate id a _ op ho hid hst =>
    refine h.initiates hs (fun op hi hk ha hcl => ?_) hst
    simp [tearsDownInTime, establishes, hi, hk, ha, hcl] at htime
  | overlapped r op hfind hm =>
    refine h.overlapped hs hfind hm fun hest hcl => ?_
    simp [tearsDownInTime, establishes, hfind, hest, hcl] at htime
  | dispatch op hfind =>
    have hsh := Shifts.dispatch (d := op.doComplete) hfind
    have hholds := h.single.placed.holds _ (hsh.mem List.mem_cons_self)
    have heq := carries_doComplete hholds
    exact h.move hs hsh same_doComplete.admitted rfl rfl rfl rfl rfl (fun hc => heq ▸ hc)
      fun hc _ => heq.trans hc
  | complete a op pc _ hfind hst =>
    refine h.completes hs hfind (fun pd hr ha hf hp hcl => ?_) (fun hpc hadm hest => ?_) hst
    · simp [tearsDownInTime, establishes, ha, hf, hp, hcl] at htime
    · subst hpc
      cases hst
      simpa [tearsDownInTime, hfind, hadm, hest] using htime
  | disconnect =>
    refine h.cancelled hs entries_cancelIoEx_none rfl rfl rfl (fun ⟨c, hmem, hpast⟩ => ?_) spent_disconnect
    rcases List.mem_append.1 hmem with hold | hnew
    · exact h.past ⟨c, hold, hpast⟩
    · obtain rfl := List.mem_singleton.1 hnew
      cases hopen : s.isOpen <;> simp [hopen, DisconnectPc.past] at hpast
  | disconnectStep i a _ hst =>
    refine h.disconnects hs (fun hc ha hconn => ?_) hst
    by_contra hest
    simp [tearsDownInTime, ha, hc, hconn, hest] at htime
  | emit addr ha => exact h.cancelled hs rfl rfl rfl rfl h.past rfl

theorem TearsDown.fresh : TearsDown {} where
  single := .fresh
  carried := fun _ he => absurd he List.not_mem_nil
  holders := Bool.noConfusion
  opened := Bool.noConfusion
  past := fun ⟨_, hmem, _⟩ => absurd hmem List.not_mem_nil
  spent := Bool.noConfusion

/-- In every run in which native success and `disconnect()` do not cross, what was established is torn down
exactly once if a `disconnect()` is called. -/
theorem native_teardown {ls : List Label}
    (hm : connector.Meets (fun s l => tearsDownInTime s l = true) {} ls) :
    ∀ pre t, pre <+: ls → connector.run {} pre = some t → TornDown t := by
  rintro pre t ⟨post, rfl⟩ ht
  have hpre := ((StepSystem.Meets.append ht).1 hm).1
  exact (StepSystem.invariant_of_meets (fun _ _ _ h hc hst => h.step hc hst) ht hpre TearsDown.fresh).tornDown

/-- An open connector connects; `Connect` succeeds at once. -/
def connectDispatched : List Label :=
  [.useDevice, .openConnector (.common success),
    .asyncConnect 1 0 false true 0 0 (.common success), .initiate 1 .run, .initiate 1 .run,
    .initiate 1 (.bound (.common success)), .initiate 1 (.native ndSuccess), .initiate 1 .run,
    .dispatch 1]

/-- The connection is established before `disconnect()` is called. -/
def disconnectConnected : List Label :=
  connectDispatched ++
    [.complete 1 (.completeConnect none ndSuccess), .complete 1 .run, .complete 1 .run,
      .disconnect, .disconnectStep 0 .run, .disconnectStep 0 .run, .disconnectStep 0 .run,
      .disconnectStep 0 .run, .disconnectStep 0 (.native ndSuccess)]

theorem native_teardown_disconnectConnected :
    TornDown (connector.after {} disconnectConnected) := by
  have hr : (connector.run {} disconnectConnected).isSome = true := by decide +kernel
  have hm : connector.Meets (fun s l => tearsDownInTime s l = true) {} disconnectConnected := by
    decide +kernel
  exact native_teardown hm _ _ (List.prefix_refl _)
    (StepSystem.run_after hr)

/-- A `disconnect()` runs before `CompleteConnect`, which succeeds all the same. -/
def disconnectBeforeCompleteConnect : List Label :=
  connectDispatched ++ disconnectConnecting ++
    [.complete 1 (.completeConnect none ndSuccess), .complete 1 .run, .complete 1 .run, .complete 1 .run]

/-- The connector is closed, and the native connection stays. -/
theorem not_native_teardown :
    ¬ ∀ ls s, connector.run {} ls = some s → TornDown s := by
  intro h
  have hr : (connector.run {} disconnectBeforeCompleteConnect).isSome = true := by decide +kernel
  have := (h disconnectBeforeCompleteConnect _ (StepSystem.run_after hr)).eq_one (by decide +kernel)
    (by decide +kernel) (by decide +kernel)
  revert this
  decide +kernel

end RdmaOnAsio.Nd
