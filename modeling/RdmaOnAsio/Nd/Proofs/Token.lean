import RdmaOnAsio.Nd.Proofs.Places

/-!
# One connection at most

The guards let an op through only while the connector is idle, and the op's exchange ends that for good. So
there is one token: the op that was let through holds it until it has published its outcome, then the
connected state does, then the `disconnect()` that closes it, and last the native `Disconnect`.
-/

namespace RdmaOnAsio.Nd

open ErrorCode

/-- The op is before its exchange. -/
def Place.isPublish : Place → Bool
  | .initiating (.publish _) => true
  | .initiating _ | .driver | .port | .thread _ => false

/-- The op is about to report. -/
def Place.isUpcall : Place → Bool
  | .thread .invoke => true
  | .initiating _ | .driver | .port | .thread _ => false

/-- An op that was let through and has not published its outcome. -/
def holdsToken (e : CmOp × Place) : Bool := e.1.admitted && !e.2.isUpcall

/-- A `disconnect()` that has closed an established connection and not torn it down yet. -/
def DisconnectPc.tearing : DisconnectPc → Bool
  | .storePeerClosed .connected | .cancelIo .connected | .native => true
  | .storePeerClosed _ | .cancelIo _ | .load | .cas _ | .returned _ => false

/-- A call of `IND2Connector::Disconnect`. -/
def Action.isDisconnect : Action → Bool
  | .disconnect _ => true
  | .close _ | .connected _ | .established _ | .invoked _ => false

/-- How often `IND2Connector::Disconnect` has been issued. -/
def State.disconnects (s : State) : Nat := s.trace.countP Action.isDisconnect

/-- The token after the connection was published. -/
def State.spent (s : State) : Nat := s.callers.countP DisconnectPc.tearing + s.disconnects

/-- The token as long as the state is `connected`. -/
def ConnectState.token (c : ConnectState) : Nat := if c = .connected then 1 else 0

def State.tokens (s : State) : Nat :=
  s.entries.countP holdsToken + s.connectState.token + s.spent

/-- There is one token, and as long as the connector is idle only the op before its exchange can hold it. -/
structure Single (s : State) : Prop where
  placed : Placed s
  le_one : s.tokens ≤ 1
  idle : s.connectState = .idle →
    s.spent = 0 ∧ ∀ e ∈ s.entries, holdsToken e = true → e.2.isPublish = true
  notOpen : s.isOpen = false → s.tokens = 0

variable {s s' t : State} {op op' : CmOp} {pc : CompletePc} {x y : List (CmOp × Place)}

/-- A step that makes no token. -/
theorem Single.shift (h : Single s) (hp : Placed s') (hsh : Shifts s s' x y)
    (hle : y.countP holdsToken + s'.connectState.token + s'.spent ≤
      x.countP holdsToken + s.connectState.token + s.spent)
    (hidle : s'.connectState = .idle → s.connectState = .idle ∧ s'.spent ≤ s.spent ∧
      ∀ e ∈ y, holdsToken e = true → e.2.isPublish = true)
    (ho : s.isOpen = true → s'.isOpen = true) : Single s' := by
  have hcount := hsh.countP holdsToken
  have hone := h.le_one
  refine ⟨hp, ?_, fun hi => ?_, fun hno => ?_⟩
  · simp only [State.tokens] at hone ⊢
    omega
  · obtain ⟨hi', hspent, hy⟩ := hidle hi
    obtain ⟨hzero, hpub⟩ := h.idle hi'
    exact ⟨by omega, hsh.forall hpub hy⟩
  · have hzero := h.notOpen (Bool.eq_false_iff.2 fun hopen => absurd (hno.symm.trans (ho hopen))
      Bool.noConfusion)
    simp only [State.tokens] at hzero ⊢
    omega

theorem spent_eq (hc : s'.callers = s.callers)
    (htr : s'.trace = s.trace ∨ ∃ a, s'.trace = a :: s.trace ∧ a.isDisconnect = false) :
    s'.spent = s.spent := by
  rw [State.spent, State.spent, hc, State.disconnects, State.disconnects]
  rcases htr with htr | ⟨a, htr, ha⟩ <;> rw [htr]
  rw [List.countP_cons_of_neg (by simp [ha])]

theorem Opens.spent (h : Opens s t) : t.spent = s.spent := by
  cases h <;> rfl

/-- An op that goes from one place to another as the same op. -/
theorem Single.move {p p' : Place} (h : Single s) (hp : Placed s')
    (hsh : Shifts s s' [(op, p)] [(op', p')]) (hadm : op'.admitted = op.admitted)
    (hpc : p.isUpcall = false) (hpub : p.isPublish = false)
    (hcs : s'.connectState = s.connectState) (hc : s'.callers = s.callers)
    (htr : s'.trace = s.trace ∨ ∃ a, s'.trace = a :: s.trace ∧ a.isDisconnect = false)
    (ho : s'.isOpen = s.isOpen) : Single s' := by
  have hspent := spent_eq hc htr
  have hle : holdsToken (op', p') = true → holdsToken (op, p) = true := by
    simp only [holdsToken, hadm, hpc, Bool.and_eq_true]
    exact fun ht => ⟨ht.1, rfl⟩
  refine h.shift hp hsh ?_ (fun hi => ⟨hcs ▸ hi, Nat.le_of_eq hspent, fun e he ht => ?_⟩)
    fun hopen => ho.trans hopen
  · rw [hcs, hspent, List.countP_singleton, List.countP_singleton]
    by_cases ht : holdsToken (op', p') = true
    · exact Nat.le_of_eq (by rw [if_pos ht, if_pos (hle ht)])
    · rw [if_neg ht]
      omega
  · obtain rfl := List.mem_singleton.1 he
    have heq := (h.idle (hcs ▸ hi)).2 _ (hsh.mem List.mem_cons_self) (hle ht)
    exact absurd (hpub.symm.trans heq) Bool.noConfusion

/-- A step that touches neither the ops nor the token. -/
theorem Single.quiet (h : Single s) (hp : Placed s') (he : s'.entries = s.entries)
    (hcs : s'.connectState = s.connectState) (hspent : s'.spent = s.spent)
    (ho : s.isOpen = true → s'.isOpen = true) : Single s' := by
  have hsh : Shifts s s' [] [] := ⟨s.entries, .refl _, .of_eq he⟩
  refine h.shift hp hsh ?_ (fun hi => ⟨hcs ▸ hi, Nat.le_of_eq hspent, fun e he => absurd he
    List.not_mem_nil⟩) ho
  exact Nat.le_of_eq (by rw [hcs, hspent])

/-- The token of a place: an op that holds it leaves none for another place. -/
theorem Single.alone (h : Single s) (hsh : Shifts s s' x y) (hx : 1 ≤ x.countP holdsToken) :
    x.countP holdsToken = 1 ∧ s.connectState.token = 0 ∧ s.spent = 0 := by
  obtain ⟨rest, hbefore, -⟩ := hsh
  have hone := h.le_one
  rw [State.tokens, hbefore.countP_eq, List.countP_append] at hone
  omega

theorem State.mem_initiating {o : CmOp} {pc : InitPc} (h : (o, Place.initiating pc) ∈ s.entries) :
    s.initiation = pc ∧ pc.owned? = some o := by
  have hop : s.initiation.owned? = some o ∧ s.initiation = pc := by
    simpa [State.entries, State.initiating] using h
  exact ⟨hop.2, hop.2 ▸ hop.1⟩

/-- Past the guards, which it passed with the connector idle, the op holds the token. -/
theorem Single.admitted (h : Single s) (hp : Placed { s with initiation := .publish op.passGuards })
    (hi : s.initiation = .guardState op true) (hs : s.connectState = .idle) :
    Single { s with initiation := .publish op.passGuards } := by
  obtain ⟨hspent, hpub⟩ := h.idle hs
  have hzero : s.entries.countP holdsToken = 0 := by
    refine List.countP_eq_zero.2 fun ⟨o, p⟩ he ht => ?_
    have hat := hpub _ he ht
    match p with
    | .initiating pc =>
      rw [← (State.mem_initiating he).1, hi] at hat
      cases hat
    | .driver | .port | .thread _ => cases hat
  have hsh : Shifts s { s with initiation := .publish op.passGuards } _
      [(op.passGuards, .initiating (.publish op.passGuards))] := .next rfl rfl rfl rfl rfl rfl
  have hcount := hsh.countP holdsToken
  have hlast : List.countP holdsToken [(op.passGuards, Place.initiating (.publish op.passGuards))] ≤ 1 :=
    List.countP_le_length
  have hidle : ConnectState.token s.connectState = 0 := by rw [hs]; rfl
  refine ⟨hp, ?_, fun _ => ⟨hspent, hsh.forall hpub fun e he _ => ?_⟩, fun ho => ?_⟩
  · change _ + ConnectState.token s.connectState + s.spent ≤ 1
    omega
  · obtain rfl := List.mem_singleton.1 he
    rfl
  · have hopen : s.isOpen = true := (h.placed.initiating hi rfl).1.2.2.2
    exact absurd (hopen.symm.trans ho) Bool.noConfusion

theorem Single.initiates {a : Answer} (h : Single s) (hp : Placed s') (hst : Initiates s a s') :
    Single s' := by
  cases hst with
  | terminal op hasQp hi hs | waitClosed op hi hs | waitNotOpen op hi hs | latchSet op hi hs
  | nullQp op hi hs | bindFailed op ec hi he | callEnded op hr hi hs | notifyEnded op hr hi hs =>
    exact h.move hp (.post (initiating_eq hi rfl) rfl rfl rfl rfl) rfl rfl rfl rfl rfl (.inl rfl) rfl
  | admitted op hi hs => exact h.admitted hp hi hs
  | published op hi hs =>
    have hsh : Shifts s { s with connectState := .connecting, initiation := .afterPublish op }
        [(op, .initiating (.publish op))] [(op, .initiating (.afterPublish op))] :=
      .next (initiating_eq hi rfl) rfl (owned_afterPublish op) rfl rfl rfl
    refine h.shift hp hsh ?_ ConnectState.noConfusion id
    rw [List.countP_singleton, List.countP_singleton, hs]
    exact Nat.le_refl _
  | publishLost op hi hs =>
    have hsh : Shifts s (s.complete op operationAborted) [(op, .initiating (.publish op))]
      [(op.completeWith operationAborted, .port)] := .post (initiating_eq hi rfl) rfl rfl rfl rfl
    refine h.shift hp hsh ?_ (fun hidle => absurd hidle hs) id
    rw [List.countP_singleton, List.countP_singleton]
    exact Nat.le_refl _
  | bound op ec hi he | latchClear op hi hs | waitOpen op hi hs ho =>
    exact h.move hp (.next (initiating_eq hi rfl) rfl rfl rfl rfl rfl) rfl rfl rfl rfl rfl (.inl rfl) rfl
  | callPending op hi =>
    exact h.move hp (.submit (initiating_eq hi rfl) rfl rfl rfl rfl) rfl rfl rfl rfl rfl (.inl rfl) rfl
  | accepted op hi hk =>
    exact h.move hp (.post (initiating_eq hi rfl) rfl rfl rfl rfl) rfl rfl rfl rfl rfl
      (.inr ⟨_, rfl, rfl⟩) rfl
  | armed op hi =>
    obtain ⟨slots, heq⟩ := armNdCancellation_eq s op
    rw [heq] at hp ⊢
    have hnil : s.initiating = [] := initiating_nil (by rw [hi]; rfl)
    refine h.quiet hp ?_ rfl rfl id
    rw [State.entries, State.entries, hnil]
    rfl
  | notifyPending op hi =>
    obtain ⟨slots, heq⟩ := armNdCancellation_eq s op
    rw [heq] at hp ⊢
    exact h.move hp (.submit (initiating_eq hi rfl) rfl rfl rfl rfl) rfl rfl rfl rfl rfl (.inl rfl) rfl

/-- A `do_complete` publishes the outcome of its op, and the op lets go of its token. -/
theorem Single.publish {c : ConnectState} (h : Single s) (hp : Placed s')
    (hsh : Shifts s s' [(op, .thread pc)] [(op', .thread .invoke)])
    (hle : c = .connected → op.admitted = true ∧ (Place.thread pc).isUpcall = false) (hidle : c ≠ .idle)
    (hcs : s'.connectState = c) (hc : s'.callers = s.callers)
    (htr : s'.trace = s.trace ∨ ∃ a, s'.trace = a :: s.trace ∧ a.isDisconnect = false)
    (ho : s'.isOpen = s.isOpen) : Single s' := by
  have hspent := spent_eq hc htr
  have hzero : List.countP holdsToken [(op', Place.thread .invoke)] = 0 := by
    simp [holdsToken, Place.isUpcall]
  refine h.shift hp hsh ?_ (fun hi => absurd (hcs.symm.trans hi) hidle) fun hopen => ho.trans hopen
  rw [hzero, hspent, hcs]
  by_cases hconn : c = .connected
  · obtain ⟨hadm, hpc⟩ := hle hconn
    have hone : List.countP holdsToken [(op, Place.thread pc)] = 1 := by
      rw [List.countP_singleton, if_pos]
      simp [holdsToken, hadm, hpc]
    rw [hone, hconn, ConnectState.token, if_pos rfl]
    omega
  · rw [ConnectState.token, if_neg hconn]
    omega

theorem Single.completes {a : Answer} (h : Single s) (hp : Placed s')
    (hfind : s.dispatching.find? (fun d => d.1.id == op.id) = some (op, pc))
    (hst : Completes s op pc a s') : Single s' := by
  obtain ⟨hholds, -⟩ := h.placed.thread hfind
  cases hst with
  | connectFailed pd hr op' hc =>
    have hsame := same_connectCompleted op pd hr
    rw [hc] at hsame
    exact h.move hp (.goto hfind hsame.id rfl rfl rfl rfl) hsame.admitted rfl rfl rfl rfl (.inl rfl) rfl
  | connectPending pd hr op' hc =>
    have hsame := same_connectCompleted op pd hr
    rw [hc] at hsame
    exact h.move hp (.continue hfind hsame.id) hsame.admitted rfl rfl rfl rfl (.inl rfl) rfl
  | connectEstablished pd hr op' hc =>
    have hsame := same_connectCompleted op pd hr
    rw [hc] at hsame
    exact h.move hp (.goto hfind hsame.id rfl rfl rfl rfl) hsame.admitted rfl rfl rfl rfl
      (.inr ⟨_, rfl, rfl⟩) rfl
  | storeFailed =>
    have hsh : Shifts s ({ s with connectState := .closed }.goto (op, .storeClosed)) _ _ :=
      .goto hfind rfl rfl rfl rfl rfl
    refine h.shift hp hsh ?_ nofun id
    rw [List.countP_singleton, List.countP_singleton]
    exact Nat.add_le_add_right (Nat.add_le_add_left (Nat.zero_le _) _) _
  | markWon hs =>
    exact h.publish hp (.goto hfind rfl rfl rfl rfl rfl) (fun _ => ⟨hholds.2.2.admitted, rfl⟩)
      ConnectState.noConfusion rfl rfl (.inr ⟨_, rfl, rfl⟩) rfl
  | markLost hs =>
    exact h.move hp (.goto hfind rfl rfl rfl rfl rfl) rfl rfl rfl rfl rfl (.inl rfl) rfl
  | storeConnected =>
    exact h.publish hp (.goto hfind rfl rfl rfl rfl rfl) (fun _ => ⟨hholds.2.2.admitted, rfl⟩)
      ConnectState.noConfusion rfl rfl (.inr ⟨_, rfl, rfl⟩) rfl
  | storeClosed =>
    exact h.publish hp (.goto hfind rfl rfl rfl rfl rfl) ConnectState.noConfusion
      ConnectState.noConfusion rfl rfl (.inl rfl) rfl
  | loadPeerClosed =>
    have hsame := same_waitComplete op s.peerClosed
    exact h.move hp (.goto hfind hsame.id rfl rfl rfl rfl) hsame.admitted rfl rfl rfl rfl (.inl rfl) rfl
  | storePeerClosed =>
    exact h.move hp (.goto hfind rfl rfl rfl rfl rfl) rfl rfl rfl rfl rfl (.inl rfl) rfl
  | invoke =>
    have hspent : ((s.takeDispatching op.id).log (.invoked op)).spent = s.spent :=
      spent_eq rfl (.inr ⟨_, rfl, rfl⟩)
    refine h.shift hp (.finish hfind _) ?_ (fun hi => ⟨hi, Nat.le_of_eq hspent, fun e he => absurd he
      List.not_mem_nil⟩) id
    rw [hspent]
    exact Nat.add_le_add_right (Nat.add_le_add_right (Nat.zero_le _) _) _

theorem tearing_casLoop (old : ConnectState) : (casLoop old).tearing = false := by
  cases old <;> rfl

theorem tearing_afterStore (old : ConnectState) :
    (afterStore old).tearing = (DisconnectPc.storePeerClosed old).tearing := by
  cases old <;> rfl

theorem tearing_afterCancel (old : ConnectState) :
    (afterCancel old).tearing = (DisconnectPc.cancelIo old).tearing := by
  cases old <;> rfl

theorem tearing_storePeerClosed (old : ConnectState) :
    (if (DisconnectPc.storePeerClosed old).tearing then 1 else 0) = old.token := by
  cases old <;> rfl

/-- A step of a `disconnect()` call hands the token on. -/
theorem Disconnects.spent {i : Nat} {a : Answer} (h : Disconnects s i a s') :
    s'.connectState.token + s'.spent = s.connectState.token + s.spent := by
  have hsame : ∀ {c c' : DisconnectPc}, s.callers[i]? = some c → c'.tearing = c.tearing →
      (s.callers.set i c').countP DisconnectPc.tearing = s.callers.countP DisconnectPc.tearing := by
    intro c c' hc ht
    have hset := countP_set_of_getElem? (f := DisconnectPc.tearing) (b := c') hc
    rw [ht] at hset
    exact Nat.add_right_cancel hset
  cases h with
  | load hc =>
    exact congrArg (fun n => s.connectState.token + (n + s.disconnects)) (hsame hc (tearing_casLoop _))
  | closed old hc hs =>
    have hset := countP_set_of_getElem? (f := DisconnectPc.tearing)
      (b := DisconnectPc.storePeerClosed old) hc
    rw [tearing_storePeerClosed] at hset
    have hdis : (s.log (.close old)).disconnects = s.disconnects :=
      List.countP_cons_of_neg Bool.noConfusion
    change 0 + ((s.callers.set i (.storePeerClosed old)).countP DisconnectPc.tearing +
      (s.log (.close old)).disconnects) = _
    simp only [DisconnectPc.tearing, Bool.false_eq_true, if_false, Nat.add_zero] at hset
    rw [hdis, hset, hs, State.spent]
    omega
  | retry old a hc ha =>
    exact congrArg (fun n => s.connectState.token + (n + s.disconnects)) (hsame hc (tearing_casLoop _))
  | latched old hc =>
    exact congrArg (fun n => s.connectState.token + (n + s.disconnects)) (hsame hc (tearing_afterStore old))
  | cancelled old hc =>
    exact congrArg (fun n => s.connectState.token + (n + s.disconnects)) (hsame hc (tearing_afterCancel old))
  | native hr hc =>
    have hset := countP_set_of_getElem? (f := DisconnectPc.tearing)
      (b := DisconnectPc.returned (callError hr)) hc
    have hdis : (s.log (.disconnect hr)).disconnects = s.disconnects + 1 :=
      List.countP_cons_of_pos rfl
    change s.connectState.token +
      ((s.callers.set i (.returned (callError hr))).countP DisconnectPc.tearing +
        (s.log (.disconnect hr)).disconnects) = _
    simp only [DisconnectPc.tearing, if_true, Bool.false_eq_true, if_false, Nat.add_zero] at hset
    rw [hdis, State.spent]
    omega

/-- `CancelIoEx` on nothing. -/
theorem entries_cancelIoEx_none : s.entries = (s.cancelIoEx fun _ => false).entries := by
  rw [State.entries_cancelIoEx]
  refine (List.map_id' _).symm.trans (List.map_congr_left fun e _ => ?_)
  simp [cancelEntry]

theorem Disconnects.frame {i : Nat} {a : Answer} (h : Disconnects s i a s') :
    s'.isOpen = s.isOpen ∧ (s'.connectState = s.connectState ∨ s'.connectState = .closed) ∧
      ∃ p, s'.entries = (s.cancelIoEx p).entries := by
  have hnone := entries_cancelIoEx_none (s := s)
  cases h with
  | closed => exact ⟨rfl, .inr rfl, _, hnone⟩
  | cancelled => exact ⟨rfl, .inl rfl, _, rfl⟩
  | _ => exact ⟨rfl, .inl rfl, _, hnone⟩

theorem countP_cancelIoEx (p : CmOp → Bool) :
    (s.cancelIoEx p).entries.countP holdsToken = s.entries.countP holdsToken := by
  rw [State.entries_cancelIoEx, List.countP_map]
  refine List.countP_congr fun e _ => ?_
  simp only [Function.comp_apply, holdsToken, cancelEntry_place]
  rw [cancelEntry_op]

/-- A step after which the ops are the same but for the mark of `CancelIoEx`, and that hands the token
on. -/
theorem Single.cancelled {p : CmOp → Bool} (h : Single s) (hp : Placed s')
    (hent : s'.entries = (s.cancelIoEx p).entries) (ho : s'.isOpen = s.isOpen)
    (hcs : s'.connectState = s.connectState ∨ s'.connectState = .closed)
    (hspent : s'.connectState.token + s'.spent = s.connectState.token + s.spent) : Single s' := by
  have hcount : s'.entries.countP holdsToken = s.entries.countP holdsToken :=
    (congrArg (List.countP holdsToken) hent).trans (countP_cancelIoEx p)
  have htok : s'.tokens = s.tokens := by
    simp only [State.tokens]
    omega
  refine ⟨hp, htok ▸ h.le_one, fun hi => ?_, fun hno => htok.trans (h.notOpen (ho ▸ hno))⟩
  rcases hcs with hcs | hcs
  · obtain ⟨hzero, hpub⟩ := h.idle (hcs ▸ hi)
    rw [hcs] at hspent
    refine ⟨by omega, fun e he ht => ?_⟩
    rw [hent, State.entries_cancelIoEx] at he
    obtain ⟨e0, hmem, rfl⟩ := List.mem_map.1 he
    rw [cancelEntry_place]
    refine hpub e0 hmem ?_
    rw [holdsToken, cancelEntry_place, cancelEntry_op] at ht
    exact ht
  · rw [hcs] at hi
    cases hi

theorem Single.begins {hasQp : Bool} {used : List Nat} (h : Single s)
    (hp : Placed { t with used := used }) (hi : s.initiation = .idle) (hb : Begins s op hasQp t)
    (hadm : op.admitted = false) : Single { t with used := used } := by
  have hy : ∀ (p : Place) (ec : NdErrorCode), List.countP holdsToken [(op, p)] = 0 ∧
      List.countP holdsToken [(op.completeWith ec, p)] = 0 := by
    intro p ec
    constructor <;> rw [List.countP_singleton, if_neg] <;>
      simp [holdsToken, CmOp.completeWith, hadm]
  have hnil : s.initiating = [] := initiating_nil (by rw [hi]; rfl)
  cases hb with
  | rejected u ec hu he =>
    have hsh : Shifts s { u.reject op ec with used := used } [] [(op.completeWith ec, .port)] := by
      cases hu <;> exact .post hnil rfl rfl rfl rfl
    refine h.shift hp hsh ?_ (fun hidle => ⟨?_, ?_, fun e he ht => ?_⟩) ?_
    · rw [(hy _ ec).2]
      cases hu <;> exact Nat.le_refl _
    · cases hu <;> exact hidle
    · cases hu <;> exact Nat.le_refl _
    · obtain rfl := List.mem_singleton.1 he
      simp [holdsToken, CmOp.completeWith, hadm] at ht
    · cases hu
      · exact id
      · exact fun _ => rfl
  | guarded u hu ho =>
    have hsh : Shifts s { u with initiation := .guardState op hasQp, used := used } []
        [(op, .initiating (.guardState op hasQp))] := by
      cases hu <;> exact .next hnil rfl rfl rfl rfl rfl
    refine h.shift hp hsh ?_ (fun hidle => ⟨?_, ?_, fun e he ht => ?_⟩) fun _ => ho
    · rw [(hy _ success).1]
      cases hu <;> exact Nat.le_refl _
    · cases hu <;> exact hidle
    · cases hu <;> exact Nat.le_refl _
    · obtain rfl := List.mem_singleton.1 he
      simp [holdsToken, hadm] at ht

/-- A `disconnect()` call that begins has closed nothing yet. -/
theorem spent_disconnect : State.spent { s with callers := s.callers ++
    [if s.isOpen then .load else .returned (.common (.rdma .invalidHandle))] } = s.spent := by
  simp only [State.spent, State.disconnects, List.countP_append, List.countP_singleton]
  cases s.isOpen <;> rfl

/-- Every step keeps the token single. -/
theorem Single.step {l : Label} (h : Single s) (hst : connector.step s l = some s') : Single s' := by
  have hp := h.placed.step hst
  cases Step.of_step hst with
  | useDevice => exact h.quiet hp rfl rfl rfl id
  | openConnector ec hi =>
    have ho := opens_doOpen s ec
    exact h.quiet hp ho.entries ho.connectState ho.spent ho.isOpen
  | assign hasHandle ec hi =>
    unfold Nd.assign at hp ⊢
    split_ifs at hp ⊢ with hopen
    · exact h
    · have hno : s.isOpen = false := by simpa using fun ho => hopen (.inl ho)
      have hzero := h.notOpen hno
      simp only [State.tokens] at hzero
      have hcount : s.entries.countP holdsToken = 0 := by omega
      refine ⟨hp, ?_, fun _ => ⟨by change s.spent = 0; omega, fun e he ht =>
        absurd ht (List.countP_eq_zero.1 hcount e he)⟩, fun hno => Bool.noConfusion hno⟩
      change s.entries.countP holdsToken + 0 + s.spent ≤ 1
      omega
  | asyncConnect id addr slot hasQp requestSize replyCap opened hi hf =>
    exact h.begins hp hi (begins_asyncConnect s _ hasQp requestSize opened) rfl
  | asyncAccept id addr slot hasQp bindEc dataSize hi hf =>
    exact h.begins hp hi (begins_asyncAccept s _ hasQp bindEc dataSize) rfl
  | asyncWaitDisconnect id addr slot hi hf =>
    have hnil : s.initiating = [] := initiating_nil (by rw [hi]; rfl)
    refine h.shift hp (.next hnil rfl rfl rfl rfl rfl) ?_ (fun hidle => ⟨hidle, Nat.le_refl _,
      fun e he ht => ?_⟩) fun ho => ho
    · exact Nat.le_refl _
    · obtain rfl := List.mem_singleton.1 he
      cases ht
  | initiate id a _ op ho hid hst => exact h.initiates hp hst
  | overlapped r op hfind hm =>
    refine h.move hp (.overlapped hfind r) rfl rfl rfl ?_ ?_ ?_ ?_
    all_goals rw [overlappedEnd_eq]
    by_cases he : op.establishes r = true
    · exact .inr ⟨.established op.id, if_pos he, rfl⟩
    · exact .inl (if_neg he)
  | dispatch op hs =>
    exact h.move hp (.dispatch (d := op.doComplete) hs) same_doComplete.admitted rfl rfl rfl rfl
      (.inl rfl) rfl
  | complete a op pc _ hfind hst => exact h.completes hp hfind hst
  | disconnect =>
    exact h.quiet hp rfl rfl spent_disconnect id
  | disconnectStep i a _ hst =>
    obtain ⟨ho, hcs, p, hent⟩ := hst.frame
    exact h.cancelled hp hent ho hcs hst.spent
  | emit addr ha => exact h.cancelled hp rfl rfl (.inl rfl) rfl

/-- `IND2Connector::Disconnect` is issued at most once, whatever crosses with it. -/
theorem Single.disconnects_le_one (h : Single s) : s.disconnects ≤ 1 := by
  have hone := h.le_one
  rw [State.tokens, State.spent] at hone
  omega

theorem Single.fresh : Single {} where
  placed := .fresh
  le_one := Nat.zero_le 1
  idle := fun _ => ⟨rfl, fun _ he => absurd he List.not_mem_nil⟩
  notOpen := fun _ => rfl

end RdmaOnAsio.Nd
