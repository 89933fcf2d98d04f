import RdmaOnAsio.Nd.Proofs.Places

/-!
# `closed` is absorbing

`nd_connect_op` publishes its success with the exchange `connecting -> connected`, which fails once a
`disconnect()` has closed. `nd_accept_op` publishes it with a plain store, which does not: an `Accept` that
succeeded before `CancelIoEx` reached it takes the connector out of `closed` again and reports success.
`storesInTime` says that this store does not come after a `disconnect()` has closed.
-/

namespace RdmaOnAsio.Nd

open ErrorCode

/-- The exchange of a `disconnect()`. -/
def Action.isClose : Action → Bool
  | .close _ => true
  | .connected _ | .established _ | .disconnect _ | .invoked _ => false

/-- A `disconnect()` has moved `connect_state_` to `closed`. -/
def State.torn (s : State) : Bool := s.trace.any Action.isClose

/-- The op changed the state to `connected`, and no `disconnect()` had closed before. -/
def Published (trace : List Action) (id : Nat) : Prop :=
  ∃ newer older, trace = newer ++ .connected id :: older ∧ older.any Action.isClose = false

/-- A connect or accept op reports success only if its change to `connected` came before any
`disconnect()` closed. -/
def CmOp.Truthful (trace : List Action) (op : CmOp) : Prop :=
  op.isConn = true → op.ec.isError = false → Published trace op.id

/-- `closed` is kept once a `disconnect()` has brought it about, and no handler has been told otherwise. -/
structure ClosedAbsorbing (s : State) : Prop where
  closed : s.torn = true → s.connectState = .closed
  invoked : ∀ op, .invoked op ∈ s.trace → op.Truthful s.trace

/-- The `do_complete` that runs under the label is not the one of an accept op that is about to store
`connected` after a `disconnect()` has closed. -/
def storesInTime (s : State) : Label → Bool
  | .complete id _ =>
    match s.dispatching.find? fun d => d.1.id == id with
    | some (_, .storeConnected) => !s.torn
    | _ => true
  | _ => true

variable {s s' t : State} {op : CmOp} {pc : CompletePc} {x y : List (CmOp × Place)}

theorem Published.cons {trace : List Action} {id : Nat} (h : Published trace id) (a : Action) :
    Published (a :: trace) id := by
  obtain ⟨newer, older, rfl, ho⟩ := h
  exact ⟨a :: newer, older, rfl, ho⟩

theorem published_connected (h : s.torn = false) (id : Nat) :
    Published (.connected id :: s.trace) id := ⟨[], s.trace, rfl, h⟩

theorem CmOp.Truthful.cons {trace : List Action} (h : op.Truthful trace) (a : Action) :
    op.Truthful (a :: trace) := fun hconn he => (h hconn he).cons a

theorem truthful_of_error {trace : List Action} (he : op.ec.isError = true) : op.Truthful trace :=
  fun _ hne => absurd (he.symm.trans hne) Bool.noConfusion

theorem truthful_of_wait {trace : List Action} (hk : op.kind = .wait) : op.Truthful trace :=
  fun hc => absurd hc (by simp [CmOp.isConn, hk])

/-- The invariant: besides, every op that is about to be reported may be. -/
structure Absorbing (s : State) : Prop where
  placed : Placed s
  absorbing : ClosedAbsorbing s
  isOpen : s.torn = true → s.isOpen = true
  reports : ∀ e ∈ s.entries, e.2 = .thread .invoke → e.1.Truthful s.trace

/-- A step that records nothing but what is no close, and leaves a closed state closed. -/
theorem Absorbing.shift (h : Absorbing s) (hp : Placed s') (hsh : Shifts s s' x y)
    (htr : s'.trace = s.trace ∨ ∃ a, s'.trace = a :: s.trace ∧ a.isClose = false ∧
      ∀ op, a = .invoked op → op.Truthful s'.trace)
    (hcs : s.torn = true → s'.connectState = .closed) (ho : s.isOpen = true → s'.isOpen = true)
    (hy : ∀ e ∈ y, e.2 = .thread .invoke → e.1.Truthful s'.trace) : Absorbing s' := by
  have hmono : ∀ {op : CmOp}, op.Truthful s.trace → op.Truthful s'.trace := by
    intro op hop
    rcases htr with htr | ⟨a, htr, -, -⟩ <;> rw [htr]
    · exact hop
    · exact hop.cons a
  have htorn : s'.torn = s.torn := by
    rcases htr with htr | ⟨a, htr, ha, -⟩ <;> simp only [State.torn, htr]
    rw [List.any_cons, ha, Bool.false_or]
  refine ⟨hp, ⟨fun hs => hcs (htorn ▸ hs), fun op hmem => ?_⟩, fun hs => ho (h.isOpen (htorn ▸ hs)),
    hsh.forall (fun e he hpc => hmono (h.reports e he hpc)) hy⟩
  rcases htr with htr | ⟨a, htr, -, ha⟩
  · rw [htr] at hmem ⊢
    exact h.absorbing.invoked op hmem
  · rcases List.mem_cons.1 (htr ▸ hmem) with hop | hmem
    · exact ha op hop.symm
    · exact hmono (h.absorbing.invoked op hmem)

/-- A step that records nothing and leaves `connect_state_` alone. -/
theorem Absorbing.quiet (h : Absorbing s) (hp : Placed s') (hsh : Shifts s s' x y)
    (htr : s'.trace = s.trace) (hcs : s'.connectState = s.connectState)
    (ho : s.isOpen = true → s'.isOpen = true)
    (hy : ∀ e ∈ y, e.2 = .thread .invoke → e.1.Truthful s'.trace) : Absorbing s' :=
  h.shift hp hsh (.inl htr) (fun ht => hcs.trans (h.absorbing.closed ht)) ho hy

/-- No op goes straight from the port to its upcall with a success to report. -/
theorem truthful_doComplete {o : Bool} {trace : List Action} (h : Place.port.Holds o op)
    (hpc : op.doComplete.2 = .invoke) : op.doComplete.1.Truthful trace := by
  unfold CmOp.doComplete at hpc ⊢
  split at hpc
  case h_1 hk =>
    unfold CmOp.connectComplete at hpc
    split_ifs at hpc
    split at hpc <;> cases hpc
  case h_2 hk =>
    unfold CmOp.acceptComplete at hpc ⊢
    split_ifs at hpc ⊢ with hs he
    intro hconn hne
    have := (h hconn hne).started hk
    exact absurd ⟨this, by simpa using hne⟩ hs
  case h_3 hk => cases hpc

/-- A step of an initiation puts its op somewhere, but not on a thread of the port. -/
theorem Initiates.shifts {a : Answer} (h : Initiates s a s') :
    ∃ x y, Shifts s s' x y ∧ ∀ e ∈ y, (∀ pc, e.2 ≠ .thread pc) ∧
      ∃ op, s.initiation.op? = some op ∧ e.1.id = op.id := by
  have hone : ∀ {o op : CmOp} {p : Place} {pc : InitPc}, s.initiation = pc → pc.op? = some op →
      o.id = op.id → (∀ pc, p ≠ .thread pc) → ∀ e ∈ [(o, p)], (∀ pc, e.2 ≠ .thread pc) ∧
        ∃ op, s.initiation.op? = some op ∧ e.1.id = op.id := by
    intro o op p pc hi ho hid hp e he
    obtain rfl := List.mem_singleton.1 he
    exact ⟨hp, op, hi ▸ ho, hid⟩
  cases h with
  | terminal op _ hi | nullQp op hi | publishLost op hi | bindFailed op _ hi | accepted op hi
  | callEnded op _ hi | latchSet op hi | waitClosed op hi | waitNotOpen op hi
  | notifyEnded op _ hi => exact ⟨_, _, .post rfl rfl rfl rfl rfl, hone hi rfl rfl nofun⟩
  | admitted op hi | bound op _ hi | latchClear op hi | waitOpen op hi =>
    exact ⟨_, _, .next rfl rfl rfl rfl rfl rfl, hone hi rfl rfl nofun⟩
  | published op hi =>
    exact ⟨_, _, .next rfl rfl (owned_afterPublish op) rfl rfl rfl, hone hi rfl rfl nofun⟩
  | callPending op hi => exact ⟨_, _, .submit rfl rfl rfl rfl rfl, hone hi rfl rfl nofun⟩
  | armed op =>
    obtain ⟨slots, heq⟩ := armNdCancellation_eq s op
    rw [heq]
    exact ⟨_, [], .init rfl rfl rfl rfl rfl, fun _ he => absurd he List.not_mem_nil⟩
  | notifyPending op hi =>
    obtain ⟨slots, heq⟩ := armNdCancellation_eq s op
    rw [heq]
    exact ⟨_, _, .submit rfl rfl rfl rfl rfl, hone hi rfl rfl nofun⟩

/-- What a step of an initiation does to the shared variables. -/
theorem Initiates.frame {a : Answer} (h : Initiates s a s') :
    s'.isOpen = s.isOpen ∧ s'.callers = s.callers ∧
      (s'.connectState = s.connectState ∨
        s.connectState = .idle ∧ s'.connectState = .connecting) ∧
      (s'.trace = s.trace ∨ ∃ id, s'.trace = .established id :: s.trace) := by
  cases h with
  | published op hi hs => exact ⟨rfl, rfl, .inr ⟨hs, rfl⟩, .inl rfl⟩
  | accepted op => exact ⟨rfl, rfl, .inl rfl, .inr ⟨op.id, rfl⟩⟩
  | armed op | notifyPending op =>
    obtain ⟨slots, heq⟩ := armNdCancellation_eq s op
    rw [heq]
    exact ⟨rfl, rfl, .inl rfl, .inl rfl⟩
  | _ => exact ⟨rfl, rfl, .inl rfl, .inl rfl⟩

theorem Absorbing.initiates {a : Answer} (h : Absorbing s) (hp : Placed s')
    (hst : Initiates s a s') : Absorbing s' := by
  obtain ⟨x, y, hsh, hy⟩ := hst.shifts
  obtain ⟨ho, -, hcs, htr⟩ := hst.frame
  refine h.shift hp hsh ?_ (fun ht => ?_) (fun h => ho.trans h) fun e he hpc => ((hy e he).1 _ hpc).elim
  · rcases htr with htr | ⟨id, htr⟩
    · exact .inl htr
    · exact .inr ⟨_, htr, rfl, fun op hop => Action.noConfusion hop⟩
  · have hclosed := h.absorbing.closed ht
    rcases hcs with hcs | ⟨hidle, -⟩
    · exact hcs.trans hclosed
    · rw [hclosed] at hidle
      cases hidle

/-- A `do_complete` that does not store `connected` too late. -/
theorem Absorbing.completes {a : Answer} (h : Absorbing s) (hp : Placed s')
    (hfind : s.dispatching.find? (fun d => d.1.id == op.id) = some (op, pc))
    (htime : pc = .storeConnected → s.torn = false) (hst : Completes s op pc a s') :
    Absorbing s' := by
  obtain ⟨hholds, -⟩ := h.placed.thread hfind
  have hone : ∀ {o : CmOp} {p : CompletePc} {tr : List Action}, (p = .invoke → o.Truthful tr) →
      ∀ e ∈ [(o, Place.thread p)], e.2 = .thread .invoke → e.1.Truthful tr := by
    intro o p tr ho e he hpc
    obtain rfl := List.mem_singleton.1 he
    exact ho (Place.thread.inj hpc)
  have hkeep : s.torn = true → s.connectState = .closed := h.absorbing.closed
  cases hst with
  | connectFailed pd hr op' hc =>
    have hsame := same_connectCompleted op pd hr
    rw [hc] at hsame
    exact h.quiet hp (.goto hfind hsame.id rfl rfl rfl rfl) rfl rfl id (hone nofun)
  | connectPending pd hr op' hc =>
    have hsame := same_connectCompleted op pd hr
    rw [hc] at hsame
    refine h.quiet hp (.continue hfind hsame.id) rfl rfl id fun e he hpc => ?_
    obtain rfl := List.mem_singleton.1 he
    cases hpc
  | connectEstablished pd hr op' hc =>
    have hsame := same_connectCompleted op pd hr
    rw [hc] at hsame
    exact h.shift hp (.goto hfind hsame.id rfl rfl rfl rfl)
      (.inr ⟨_, rfl, rfl, fun _ hop => Action.noConfusion hop⟩) hkeep id (hone nofun)
  | storeFailed =>
    exact h.shift hp (.goto hfind rfl rfl rfl rfl rfl) (.inl rfl) (fun _ => rfl) id (hone nofun)
  | markWon hs =>
    have hnot : s.torn = false := by
      by_contra ht
      have := hkeep (by simpa using ht)
      rw [hs] at this
      cases this
    refine h.shift hp (.goto hfind rfl rfl rfl rfl rfl)
      (.inr ⟨_, rfl, rfl, fun _ hop => Action.noConfusion hop⟩) (fun ht => ?_) id
      (hone fun _ _ _ => published_connected hnot op.id)
    exact absurd (hnot.symm.trans ht) Bool.noConfusion
  | markLost hs =>
    exact h.quiet hp (.goto hfind rfl rfl rfl rfl rfl) rfl rfl id (hone nofun)
  | storeConnected =>
    have hnot := htime rfl
    refine h.shift hp (.goto hfind rfl rfl rfl rfl rfl)
      (.inr ⟨_, rfl, rfl, fun _ hop => Action.noConfusion hop⟩) (fun ht => ?_) id
      (hone fun _ _ _ => published_connected hnot op.id)
    exact absurd (hnot.symm.trans ht) Bool.noConfusion
  | storeClosed =>
    exact h.shift hp (.goto hfind rfl rfl rfl rfl rfl) (.inl rfl) (fun _ => rfl) id
      (hone fun _ => truthful_of_error hholds.2)
  | loadPeerClosed =>
    have hsame := same_waitComplete op s.peerClosed
    exact h.quiet hp (.goto hfind hsame.id rfl rfl rfl rfl) rfl rfl id
      (hone fun _ => truthful_of_wait (hsame.kind.trans hholds))
  | storePeerClosed =>
    exact h.quiet hp (.goto hfind rfl rfl rfl rfl rfl) rfl rfl id
      (hone fun _ => truthful_of_wait hholds)
  | invoke =>
    refine h.shift hp (.finish hfind _) (.inr ⟨_, rfl, rfl, fun o ho => ?_⟩) hkeep id
      fun e he => absurd he List.not_mem_nil
    obtain rfl := Action.invoked.inj ho
    have hmem := (State.entries_of_dispatching hfind).mem_iff.2 List.mem_cons_self
    exact (h.reports _ hmem rfl).cons _

theorem Absorbing.cancelIoEx (h : Absorbing s) (p : CmOp → Bool) : Absorbing (s.cancelIoEx p) where
  placed := h.placed.cancelIoEx p
  absorbing := ⟨h.absorbing.closed, h.absorbing.invoked⟩
  isOpen := h.isOpen
  reports := by
    rw [State.entries_cancelIoEx]
    intro e he hpc
    obtain ⟨e0, hmem, rfl⟩ := List.mem_map.1 he
    rw [cancelEntry_place] at hpc
    rw [cancelEntry_op]
    exact h.reports e0 hmem hpc

theorem Absorbing.disconnects {i : Nat} {a : Answer} (h : Absorbing s) (hp : Placed s')
    (hst : Disconnects s i a s') : Absorbing s' := by
  have hnil : ∀ {tr : List Action}, ∀ e ∈ ([] : List (CmOp × Place)),
      e.2 = .thread .invoke → e.1.Truthful tr := fun e he => absurd he List.not_mem_nil
  cases hst with
  | load hc => exact h.quiet hp (.refl rfl rfl rfl rfl) rfl rfl id hnil
  | closed old hc hs =>
    have hopen : s.isOpen = true := h.placed.callers _ (List.mem_of_getElem? hc) nofun
    refine ⟨hp, ⟨fun _ => rfl, fun op hmem => ?_⟩, fun _ => hopen, fun e he hpc =>
      (h.reports e he hpc).cons _⟩
    rcases List.mem_cons.1 hmem with hop | hmem
    · cases hop
    · exact (h.absorbing.invoked op hmem).cons _
  | retry old a hc ha => exact h.quiet hp (.refl rfl rfl rfl rfl) rfl rfl id hnil
  | latched old hc => exact h.quiet hp (.refl rfl rfl rfl rfl) rfl rfl id hnil
  | cancelled old hc =>
    exact (h.cancelIoEx _).quiet hp (.refl rfl rfl rfl rfl) rfl rfl id hnil
  | native hr hc =>
    exact h.shift hp (.refl rfl rfl rfl rfl) (.inr ⟨_, rfl, rfl, fun _ hop => Action.noConfusion hop⟩)
      h.absorbing.closed id hnil

theorem Begins.shifts {hasQp : Bool} (h : Begins s op hasQp t) :
    ∃ x y, Shifts s t x y ∧ ∀ e ∈ y, (∀ pc, e.2 ≠ .thread pc) ∧ e.1.id = op.id := by
  have hone : ∀ {o : CmOp} {p : Place}, (∀ pc, p ≠ .thread pc) → o.id = op.id → ∀ e ∈ [(o, p)],
      (∀ pc, e.2 ≠ .thread pc) ∧ e.1.id = op.id := fun hp hid e he =>
    List.mem_singleton.1 he ▸ ⟨hp, hid⟩
  cases h with
  | rejected u ec hu he => cases hu <;> exact ⟨_, _, .post rfl rfl rfl rfl rfl, hone nofun rfl⟩
  | guarded u hu ho => cases hu <;> exact ⟨_, _, .next rfl rfl rfl rfl rfl rfl, hone nofun rfl⟩

theorem Begins.frame {hasQp : Bool} (h : Begins s op hasQp t) :
    t.callers = s.callers ∧ t.connectState = s.connectState ∧ t.trace = s.trace ∧
      (s.isOpen = true → t.isOpen = true) := by
  cases h with
  | rejected u ec hu he => cases hu <;> exact ⟨rfl, rfl, rfl, by simp [State.reject, State.onCompletion]⟩
  | guarded u hu ho => cases hu <;> exact ⟨rfl, rfl, rfl, by simp⟩

theorem Absorbing.begins {hasQp : Bool} {used : List Nat} (h : Absorbing s)
    (hp : Placed { t with used := used }) (hb : Begins s op hasQp t) :
    Absorbing { t with used := used } := by
  obtain ⟨x, y, ⟨rest, hbefore, hafter⟩, hy⟩ := hb.shifts
  obtain ⟨-, hcs, htr, ho⟩ := hb.frame
  exact h.quiet hp ⟨rest, hbefore, hafter⟩ htr hcs ho fun e he hpc => ((hy e he).1 _ hpc).elim

/-- A step in time keeps the invariant. -/
theorem Absorbing.step {l : Label} (h : Absorbing s) (htime : storesInTime s l = true)
    (hst : connector.step s l = some s') : Absorbing s' := by
  have hp := h.placed.step hst
  have hnil : ∀ {tr : List Action}, ∀ e ∈ ([] : List (CmOp × Place)),
      e.2 = .thread .invoke → e.1.Truthful tr := fun e he => absurd he List.not_mem_nil
  cases Step.of_step hst with
  | useDevice => exact h.quiet hp (.refl rfl rfl rfl rfl) rfl rfl id hnil
  | openConnector ec hi =>
    have ho := opens_doOpen s ec
    exact h.quiet hp ho.shifts ho.trace ho.connectState ho.isOpen hnil
  | assign hasHandle ec hi =>
    unfold Nd.assign at hp ⊢
    split_ifs at hp ⊢ with hopen
    · exact h
    · refine h.shift hp (.refl rfl rfl rfl rfl) (.inl rfl) (fun ht => ?_) (fun _ => rfl) hnil
      exact absurd (.inl (h.isOpen ht)) hopen
  | asyncConnect id addr slot hasQp requestSize replyCap opened hi hf =>
    exact h.begins hp (begins_asyncConnect s _ hasQp requestSize opened)
  | asyncAccept id addr slot hasQp bindEc dataSize hi hf =>
    exact h.begins hp (begins_asyncAccept s _ hasQp bindEc dataSize)
  | asyncWaitDisconnect id addr slot hi hf =>
    refine h.quiet hp (.next rfl rfl rfl rfl rfl rfl) rfl rfl (fun ho => ho) fun e he hpc => ?_
    obtain rfl := List.mem_singleton.1 he
    cases hpc
  | initiate id a _ op ho hid hst => exact h.initiates hp hst
  | overlapped r op hfind hm =>
    refine h.shift hp (.overlapped hfind r) ?_ ?_ ?_ fun e he hpc => ?_
    · rw [overlappedEnd_eq]
      by_cases he : op.establishes r = true
      · exact .inr ⟨.established op.id, if_pos he, rfl, fun _ hop => Action.noConfusion hop⟩
      · exact .inl (if_neg he)
    · rw [overlappedEnd_eq]
      exact h.absorbing.closed
    · rw [overlappedEnd_eq]
      exact id
    · obtain rfl := List.mem_singleton.1 he
      cases hpc
  | dispatch op hs =>
    have hsh := Shifts.dispatch (d := op.doComplete) hs
    refine h.quiet hp hsh rfl rfl id fun e he hpc => ?_
    obtain rfl := List.mem_singleton.1 he
    exact truthful_doComplete (h.placed.holds _ (hsh.mem List.mem_cons_self)) (Place.thread.inj hpc)
  | complete a op pc _ hfind hst =>
    refine h.completes hp hfind (fun hpc => ?_) hst
    subst hpc
    simpa [storesInTime, hfind] using htime
  | disconnect => exact h.quiet hp (.refl rfl rfl rfl rfl) rfl rfl id hnil
  | disconnectStep i a _ hst => exact h.disconnects hp hst
  | emit addr ha => exact h.cancelIoEx _

/-- A step that is too late takes the connector out of `closed`. -/
theorem not_closedAbsorbing {l : Label} (htime : storesInTime s l ≠ true)
    (hst : connector.step s l = some s') : ¬ ClosedAbsorbing s' := by
  intro hs'
  cases Step.of_step hst with
  | complete a op pc _ hfind hst =>
    have hpc : pc = .storeConnected ∧ s.torn = true := by
      simp only [storesInTime, hfind] at htime
      split at htime
      · rename_i heq
        exact ⟨(Prod.mk.inj (Option.some.inj heq)).2, by simpa using htime⟩
      · exact absurd rfl htime
    obtain ⟨rfl, ht⟩ := hpc
    cases hst with
    | storeConnected => exact ConnectState.noConfusion (hs'.closed ht)
  | _ => exact htime rfl

theorem Absorbing.fresh : Absorbing {} where
  placed := .fresh
  absorbing := ⟨Bool.noConfusion, fun _ h => absurd h List.not_mem_nil⟩
  isOpen := Bool.noConfusion
  reports := fun _ h => absurd h List.not_mem_nil

/-- `closed` is absorbing along a run exactly if no accept op stores `connected` after a `disconnect()` has
closed. -/
theorem closed_absorbing {ls : List Label} (hr : connector.run {} ls = some s) :
    (∀ pre t, pre <+: ls → connector.run {} pre = some t → ClosedAbsorbing t) ↔
      connector.Meets (fun s l => storesInTime s l = true) {} ls :=
  StepSystem.always_iff_meets_of_invariant (J := Absorbing) (fun _ h => h.absorbing)
    (fun _ _ _ h hc hst => h.step hc hst) (fun _ _ _ _ hc hst => not_closedAbsorbing hc hst) hr .fresh

/-- An open connector accepts; the call is pending. -/
def acceptPending : List Label :=
  [.useDevice, .openConnector (.common success),
    .asyncAccept 1 0 false true (.common success) 0, .initiate 1 .run, .initiate 1 .run,
    .initiate 1 (.native ndPending), .initiate 1 .run]

/-- One `disconnect()` call that finds the connector `connecting`. -/
def disconnectConnecting : List Label :=
  [.disconnect, .disconnectStep 0 .run, .disconnectStep 0 .run, .disconnectStep 0 .run,
    .disconnectStep 0 .run]

/-- `Accept` ends with `ERROR_OPERATION_ABORTED`: the handler reports it and the state stays `closed`. -/
def disconnectAccept : List Label :=
  acceptPending ++ disconnectConnecting ++
    [.overlapped 1 .aborted, .dispatch 1, .complete 1 .run, .complete 1 .run]

theorem closed_absorbing_disconnectAccept :
    ClosedAbsorbing (connector.after {} disconnectAccept) := by
  have hr : (connector.run {} disconnectAccept).isSome = true := by decide +kernel
  exact (closed_absorbing (StepSystem.run_after hr)).2 (by decide +kernel) disconnectAccept _
    (List.prefix_refl _) (StepSystem.run_after hr)

/-- `Accept` has succeeded when `disconnect()` is called. -/
def acceptBeforeDisconnect : List Label :=
  acceptPending ++ [.overlapped 1 .ok] ++ disconnectConnecting ++
    [.dispatch 1, .complete 1 .run, .complete 1 .run]

/-- The accept op takes the connector out of `closed` and reports success. -/
theorem not_closed_absorbing :
    ¬ ∀ ls s, connector.run {} ls = some s → ClosedAbsorbing s := by
  intro h
  have hr : (connector.run {} acceptBeforeDisconnect).isSome = true := by decide +kernel
  have := (h acceptBeforeDisconnect _ (StepSystem.run_after hr)).closed (by decide +kernel)
  revert this
  decide +kernel

end RdmaOnAsio.Nd
