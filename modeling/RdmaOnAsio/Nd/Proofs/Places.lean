import RdmaOnAsio.Lts.Lists
import RdmaOnAsio.Nd.Proofs.ConnectorStep

/-!
# Where the ops are

An op is with the initiating thread, with the driver, at the completion port or in a `do_complete`.
`State.entries` lists the ops with their places, and a step takes entries out of the list and puts
others in: `Shifts`. What holds of an op by its place, `Placed`, is proved from that.
-/

namespace RdmaOnAsio.Nd

open ErrorCode

/-- Where an op is. -/
inductive Place
  | initiating (pc : InitPc)
  | driver
  | port
  | thread (pc : CompletePc)
deriving DecidableEq, Repr

/-- The op with the initiating thread. -/
def State.initiating (s : State) : List (CmOp × Place) :=
  s.initiation.owned?.toList.map fun op => (op, .initiating s.initiation)

/-- The ops with their places. -/
def State.entries (s : State) : List (CmOp × Place) :=
  s.initiating ++
    (s.pending.map (fun op => (op, .driver)) ++
      (s.scheduled.map (fun op => (op, .port)) ++ s.dispatching.map fun d => (d.1, .thread d.2)))

/-- Between the two states the entries `x` go and the entries `y` come. -/
def Shifts (s s' : State) (x y : List (CmOp × Place)) : Prop :=
  ∃ rest, s.entries.Perm (x ++ rest) ∧ s'.entries.Perm (y ++ rest)

variable {s s' t : State} {op op' : CmOp} {pc : CompletePc} {d : CmOp × CompletePc}
  {x y : List (CmOp × Place)}

/-! ## The shifts -/

theorem Shifts.forall {Q : CmOp × Place → Prop} (h : Shifts s s' x y) (hs : ∀ e ∈ s.entries, Q e)
    (hy : ∀ e ∈ y, Q e) : ∀ e ∈ s'.entries, Q e := by
  obtain ⟨rest, hbefore, hafter⟩ := h
  intro e he
  rcases List.mem_append.1 (hafter.mem_iff.1 he) with hmem | hmem
  · exact hy e hmem
  · exact hs e (hbefore.mem_iff.2 (List.mem_append_right x hmem))

theorem Shifts.mem (h : Shifts s s' x y) {e : CmOp × Place} (he : e ∈ x) : e ∈ s.entries := by
  obtain ⟨rest, hbefore, -⟩ := h
  exact hbefore.mem_iff.2 (List.mem_append_left rest he)

theorem Shifts.countP (h : Shifts s s' x y) (f : CmOp × Place → Bool) :
    s'.entries.countP f + x.countP f = s.entries.countP f + y.countP f := by
  obtain ⟨rest, hbefore, hafter⟩ := h
  rw [hbefore.countP_eq, hafter.countP_eq, List.countP_append, List.countP_append]
  omega

/-- A state in which nothing but the shared variables is different. -/
theorem Shifts.refl (hi : s'.initiation = s.initiation) (hp : s'.pending = s.pending)
    (hs : s'.scheduled = s.scheduled) (hd : s'.dispatching = s.dispatching) : Shifts s s' [] [] :=
  ⟨s.entries, .refl _, by
    simp only [State.entries, State.initiating, hi, hp, hs, hd, List.nil_append, List.Perm.refl]⟩

theorem initiating_eq {pc : InitPc} (hi : s.initiation = pc) (ho : pc.owned? = some op) :
    s.initiating = [(op, .initiating pc)] := by
  rw [State.initiating, hi, ho]
  rfl

theorem initiating_nil (ho : s.initiation.owned? = none) : s.initiating = [] := by
  rw [State.initiating, ho]
  rfl

/-- The initiating thread goes on with its op, or begins or ends with one. -/
theorem Shifts.init (hx : s.initiating = x) (hy : s'.initiating = y) (hp : s'.pending = s.pending)
    (hs : s'.scheduled = s.scheduled) (hd : s'.dispatching = s.dispatching) : Shifts s s' x y := by
  refine ⟨s.pending.map (fun op => (op, Place.driver)) ++
    (s.scheduled.map (fun op => (op, Place.port)) ++ s.dispatching.map fun d => (d.1, Place.thread d.2)),
    .of_eq ?_, .of_eq ?_⟩
  · rw [State.entries, hx]
  · rw [State.entries, hy, hp, hs, hd]

/-- The same, with the op it goes on with. -/
theorem Shifts.next {pc : InitPc} (hx : s.initiating = x) (hi : s'.initiation = pc)
    (ho : pc.owned? = some op) (hp : s'.pending = s.pending) (hs : s'.scheduled = s.scheduled)
    (hd : s'.dispatching = s.dispatching) : Shifts s s' x [(op, .initiating pc)] :=
  .init hx (initiating_eq hi ho) hp hs hd

/-- The initiating thread posts an op. -/
theorem Shifts.post (hx : s.initiating = x) (hi : s'.initiation.owned? = none)
    (hp : s'.pending = s.pending) (hs : s'.scheduled = s.scheduled ++ [op])
    (hd : s'.dispatching = s.dispatching) : Shifts s s' x [(op, .port)] := by
  refine ⟨s.pending.map (fun op => (op, Place.driver)) ++
    (s.scheduled.map (fun op => (op, Place.port)) ++ s.dispatching.map fun d => (d.1, Place.thread d.2)),
    .of_eq (by rw [State.entries, hx]), ?_⟩
  rw [State.entries, initiating_nil hi, hp, hs, hd, List.map_append, List.map_singleton]
  refine List.perm_iff_count.2 fun a => ?_
  simp only [List.nil_append, List.count_append]
  omega

/-- The initiating thread leaves an op to the driver. -/
theorem Shifts.submit (hx : s.initiating = x) (hi : s'.initiation.owned? = none)
    (hp : s'.pending = s.pending ++ [op]) (hs : s'.scheduled = s.scheduled)
    (hd : s'.dispatching = s.dispatching) : Shifts s s' x [(op, .driver)] := by
  refine ⟨s.pending.map (fun op => (op, Place.driver)) ++
    (s.scheduled.map (fun op => (op, Place.port)) ++ s.dispatching.map fun d => (d.1, Place.thread d.2)),
    .of_eq (by rw [State.entries, hx]), ?_⟩
  rw [State.entries, initiating_nil hi, hp, hs, hd, List.map_append, List.map_singleton]
  refine List.perm_iff_count.2 fun a => ?_
  simp only [List.nil_append, List.count_append]
  omega

/-- The driver hands an op to the port. -/
theorem Shifts.end (hfind : s.pending.find? (fun o => o.id == op.id) = some op)
    (hi : s'.initiation = s.initiation) (hp : s'.pending = s.pending.eraseP fun o => o.id == op.id)
    (hs : s'.scheduled = s.scheduled ++ [op']) (hd : s'.dispatching = s.dispatching) :
    Shifts s s' [(op, .driver)] [(op', .port)] := by
  have hperm := (perm_cons_eraseP hfind).map fun o => (o, Place.driver)
  refine ⟨(s.takePending op.id).entries, ?_, ?_⟩
  · refine List.perm_iff_count.2 fun a => ?_
    simp only [State.entries, State.initiating, State.takePending, List.count_append,
      hperm.count_eq, List.map_cons, List.count_cons, List.count_nil]
    omega
  · rw [State.entries, State.initiating, hi, hp, hs, hd, List.map_append, List.map_singleton]
    refine List.perm_iff_count.2 fun a => ?_
    simp only [State.entries, State.initiating, State.takePending, List.count_append]
    omega

theorem overlappedEnd_eq (s : State) (op : CmOp) (r : IoResult) :
    overlappedEnd s op r = { s with
      pending := s.pending.eraseP fun o => o.id == op.id
      scheduled := s.scheduled ++ [op.completeWith r.ec]
      trace := if op.establishes r then .established op.id :: s.trace else s.trace } := by
  unfold overlappedEnd
  split_ifs <;> rfl

theorem Shifts.overlapped (hfind : s.pending.find? (fun o => o.id == op.id) = some op)
    (r : IoResult) :
    Shifts s (overlappedEnd s op r) [(op, .driver)] [(op.completeWith r.ec, .port)] := by
  rw [overlappedEnd_eq]
  exact .end hfind rfl rfl rfl rfl

/-- A thread takes an op from the port. -/
theorem Shifts.dispatch (hfind : s.scheduled.find? (fun o => o.id == op.id) = some op) :
    Shifts s ((s.takeScheduled op.id).enter d) [(op, .port)] [(d.1, .thread d.2)] := by
  have hperm := (perm_cons_eraseP hfind).map fun o => (o, Place.port)
  refine ⟨(s.takeScheduled op.id).entries, ?_, ?_⟩
  · refine List.perm_iff_count.2 fun a => ?_
    simp only [State.entries, State.initiating, State.takeScheduled, List.count_append, hperm.count_eq,
      List.map_cons, List.count_cons, List.count_nil]
    omega
  · refine List.perm_iff_count.2 fun a => ?_
    simp only [State.entries, State.initiating, State.enter, State.takeScheduled, List.map_append,
      List.map_singleton, List.count_append]
    omega

/-- The entries with one `do_complete` set apart. -/
theorem State.entries_of_dispatching
    (hfind : s.dispatching.find? (fun d => d.1.id == op.id) = some (op, pc)) :
    s.entries.Perm ((op, .thread pc) :: (s.takeDispatching op.id).entries) := by
  have hperm := (perm_cons_eraseP hfind).map fun d => (d.1, Place.thread d.2)
  refine List.perm_iff_count.2 fun a => ?_
  simp only [State.entries, State.initiating, State.takeDispatching, List.count_append, hperm.count_eq,
    List.map_cons, List.count_cons]
  omega

/-- A `do_complete` goes on; the shared variables may be different. -/
theorem Shifts.goto (hfind : s.dispatching.find? (fun d => d.1.id == op.id) = some (op, pc))
    (hid : d.1.id = op.id) (hi : t.initiation = s.initiation) (hp : t.pending = s.pending)
    (hs : t.scheduled = s.scheduled) (hd : t.dispatching = s.dispatching) :
    Shifts s (t.goto d) [(op, .thread pc)] [(d.1, .thread d.2)] := by
  refine ⟨(s.takeDispatching op.id).entries, State.entries_of_dispatching hfind, ?_⟩
  refine List.perm_iff_count.2 fun a => ?_
  simp only [State.entries, State.initiating, State.goto, State.enter, State.takeDispatching, hid,
    hi, hp, hs, hd, List.map_append, List.map_singleton, List.count_append]
  omega

/-- A `do_complete` leaves its op to the driver again. -/
theorem Shifts.continue (hfind : s.dispatching.find? (fun d => d.1.id == op.id) = some (op, pc))
    (hid : op'.id = op.id) :
    Shifts s ((s.takeDispatching op'.id).onPending op') [(op, .thread pc)] [(op', .driver)] := by
  refine ⟨(s.takeDispatching op.id).entries, State.entries_of_dispatching hfind, ?_⟩
  refine List.perm_iff_count.2 fun a => ?_
  simp only [State.entries, State.initiating, State.onPending, State.takeDispatching, hid, List.map_append,
    List.map_singleton, List.count_append]
  omega

/-- A `do_complete` ends with the upcall. -/
theorem Shifts.finish (hfind : s.dispatching.find? (fun d => d.1.id == op.id) = some (op, pc))
    (a : Action) : Shifts s ((s.takeDispatching op.id).log a) [(op, .thread pc)] [] :=
  ⟨(s.takeDispatching op.id).entries, State.entries_of_dispatching hfind, .refl _⟩

/-- `CancelIoEx` on an entry. -/
def cancelEntry (p : CmOp → Bool) (e : CmOp × Place) : CmOp × Place :=
  if e.2 = .driver ∧ p e.1 = true then ({ e.1 with canceled := true }, e.2) else e

theorem State.entries_cancelIoEx (p : CmOp → Bool) :
    (s.cancelIoEx p).entries = s.entries.map (cancelEntry p) := by
  have hpend : (s.pending.map fun op => if p op then { op with canceled := true } else op).map
      (fun op => (op, Place.driver)) =
        (s.pending.map fun op => (op, Place.driver)).map (cancelEntry p) := by
    rw [List.map_map, List.map_map]
    refine List.map_congr_left fun op _ => ?_
    simp only [Function.comp_apply, cancelEntry, true_and]
    split_ifs <;> rfl
  simp only [State.entries, State.initiating, State.cancelIoEx, hpend, List.map_append, List.map_map]
  congr 1

@[simp] theorem cancelEntry_place (p : CmOp → Bool) (e : CmOp × Place) :
    (cancelEntry p e).2 = e.2 := by
  simp only [cancelEntry]
  split_ifs <;> rfl

/-- Only the mark of `CancelIoEx` is new. -/
theorem cancelEntry_op (p : CmOp → Bool) (e : CmOp × Place) :
    (cancelEntry p e).1 = { e.1 with canceled := (cancelEntry p e).1.canceled } := by
  simp only [cancelEntry]
  split_ifs <;> rfl

/-! ## What the library's code does not change about an op -/

/-- The op is the same one, with the same history of guards. -/
structure CmOp.Same (op op' : CmOp) : Prop where
  id : op'.id = op.id
  kind : op'.kind = op.kind
  admitted : op'.admitted = op.admitted
  started : op'.started = op.started

theorem same_connectComplete : op.Same op.connectComplete.1 := by
  unfold CmOp.connectComplete
  split_ifs
  · exact ⟨rfl, rfl, rfl, rfl⟩
  · split <;> exact ⟨rfl, rfl, rfl, rfl⟩

theorem same_doComplete : op.Same op.doComplete.1 := by
  unfold CmOp.doComplete
  split
  · exact same_connectComplete
  · unfold CmOp.acceptComplete
    split_ifs <;> exact ⟨rfl, rfl, rfl, rfl⟩
  · exact ⟨rfl, rfl, rfl, rfl⟩

theorem same_captureRemotePd (op : CmOp) (pd : Option Nat) :
    op.Same { op.captureRemotePd pd with canceled := false } := by
  unfold CmOp.captureRemotePd
  cases pd with
  | none => exact ⟨rfl, rfl, rfl, rfl⟩
  | some size =>
    simp only
    split_ifs <;> exact ⟨rfl, rfl, rfl, rfl⟩

theorem same_connectCompleted (op : CmOp) (pd : Option Nat) (hr : Int) :
    op.Same (op.connectCompleted pd hr).1 := by
  have h := same_captureRemotePd op pd
  unfold CmOp.connectCompleted
  simp only
  split_ifs <;> exact ⟨h.id, h.kind, h.admitted, h.started⟩

theorem same_waitComplete (op : CmOp) (alreadyClosed : Bool) :
    op.Same (op.waitComplete alreadyClosed).1 := by
  unfold CmOp.waitComplete
  split_ifs <;> exact ⟨rfl, rfl, rfl, rfl⟩

theorem ec_captureRemotePd (op : CmOp) (pd : Option Nat) :
    (op.captureRemotePd pd).ec = op.ec := by
  unfold CmOp.captureRemotePd
  cases pd with
  | none => rfl
  | some size =>
    simp only
    split_ifs <;> rfl

/-- `CompleteConnect` fails with an error, and otherwise leaves the op without one on the next stage. -/
theorem ec_connectCompleted (op : CmOp) (pd : Option Nat) (hr : Int) :
    ((op.connectCompleted pd hr).2 = some .storeFailed →
      (op.connectCompleted pd hr).1.ec.isError = true) ∧
    ((op.connectCompleted pd hr).2 ≠ some .storeFailed →
      (op.connectCompleted pd hr).1.ec = op.ec ∧
        (op.connectCompleted pd hr).1.stage = .connected) := by
  unfold CmOp.connectCompleted
  simp only
  split_ifs with hf hp
  · refine ⟨fun _ => ?_, fun h => absurd rfl h⟩
    have : hr ≠ 0 := fun h0 => by simp [failed, h0] at hf
    simpa using this
  · refine ⟨fun h => ?_, fun _ => ⟨ec_captureRemotePd op pd, rfl⟩⟩
    simp at h
  · refine ⟨fun h => ?_, fun _ => ⟨ec_captureRemotePd op pd, rfl⟩⟩
    simp at h

/-! ## What holds of an op by its place -/

/-- The op is past the guards, which let it through on an open connector only. -/
structure CmOp.Admitted (op : CmOp) (isOpen : Bool) : Prop where
  admitted : op.admitted = true
  started : op.kind = .accept → op.started = true
  isOpen : isOpen = true

/-- What holds of an op that is at a place. -/
def Place.Holds (isOpen : Bool) (op : CmOp) : Place → Prop
  | .initiating (.guardState _ _) =>
    op.isConn = true ∧ op.admitted = false ∧ op.stage = .connecting ∧ isOpen = true
  | .initiating (.publish _) | .initiating (.bind _) | .initiating (.native _) =>
    op.isConn = true ∧ op.stage = .connecting ∧ op.Admitted isOpen
  | .initiating _ => op.kind = .wait
  | .driver => op.isConn = true → op.Admitted isOpen
  | .port => op.isConn = true → op.ec.isError = false → op.Admitted isOpen
  | .thread .completeConnect | .thread .markConnected =>
    op.kind = .connect ∧ op.ec.isError = false ∧ op.Admitted isOpen
  | .thread .storeConnected => op.kind = .accept ∧ op.ec.isError = false ∧ op.Admitted isOpen
  | .thread .storeFailed => op.isConn = true ∧ op.ec.isError = true ∧ op.Admitted isOpen
  | .thread .storeClosed => op.isConn = true ∧ op.ec.isError = true
  | .thread .loadPeerClosed | .thread .storePeerClosed => op.kind = .wait
  | .thread .invoke => True

/-- Every op is as its place says, and what got past the check for a native handle found one. -/
structure Placed (s : State) : Prop where
  holds : ∀ e ∈ s.entries, e.2.Holds s.isOpen e.1
  admitted : ∀ e ∈ s.entries, e.1.admitted = true → s.isOpen = true
  callers : ∀ c ∈ s.callers, c ≠ .returned (.common (.rdma .invalidHandle)) → s.isOpen = true

theorem CmOp.Admitted.mono {o o' : Bool} (ho : o = true → o' = true) (h : op.Admitted o) :
    op.Admitted o' := ⟨h.admitted, h.started, ho h.isOpen⟩

theorem CmOp.Admitted.same {o : Bool} (hs : op.Same op') (h : op.Admitted o) : op'.Admitted o :=
  ⟨hs.admitted.trans h.admitted, fun hk => hs.started.trans (h.started (hs.kind.symm.trans hk)),
    h.isOpen⟩

theorem Place.Holds.mono {o o' : Bool} (ho : o = true → o' = true) {p : Place}
    (h : p.Holds o op) : p.Holds o' op := by
  cases p with
  | initiating pc =>
    cases pc with
    | guardState => exact ⟨h.1, h.2.1, h.2.2.1, ho h.2.2.2⟩
    | publish | bind | native => exact ⟨h.1, h.2.1, h.2.2.mono ho⟩
    | _ => exact h
  | driver => exact fun hc => (h hc).mono ho
  | port => exact fun hc he => (h hc he).mono ho
  | thread pc =>
    cases pc with
    | completeConnect | markConnected | storeConnected | storeFailed =>
      exact ⟨h.1, h.2.1, h.2.2.mono ho⟩
    | _ => exact h

theorem Placed.shift (h : Placed s) (hsh : Shifts s s' x y)
    (ho : s.isOpen = true → s'.isOpen = true)
    (hy : ∀ e ∈ y, e.2.Holds s'.isOpen e.1 ∧ (e.1.admitted = true → s'.isOpen = true))
    (hc : ∀ c ∈ s'.callers, c ∉ s.callers → c ≠ .returned (.common (.rdma .invalidHandle)) →
      s'.isOpen = true) : Placed s' where
  holds := hsh.forall (fun e he => (h.holds e he).mono ho) fun e he => (hy e he).1
  admitted := hsh.forall (fun e he hadm => ho (h.admitted e he hadm)) fun e he => (hy e he).2
  callers := fun c hmem hne => by
    by_cases hold : c ∈ s.callers
    · exact ho (h.callers c hold hne)
    · exact hc c hmem hold hne

/-- A shift by a step that neither opens the connector nor moves a caller. -/
theorem Placed.move (h : Placed s) (hsh : Shifts s s' x y) (ho : s'.isOpen = s.isOpen)
    (hc : s'.callers = s.callers)
    (hy : ∀ e ∈ y, e.2.Holds s.isOpen e.1 ∧ (e.1.admitted = true → s.isOpen = true)) : Placed s' :=
  h.shift hsh (fun h => ho.trans h) (by rw [ho]; exact hy) fun c hmem hnot =>
    absurd (hc ▸ hmem) hnot

/-- The same for a step that puts one op somewhere. -/
theorem Placed.put {p : Place} (h : Placed s) (hsh : Shifts s s' x [(op, p)])
    (ho : s'.isOpen = s.isOpen) (hc : s'.callers = s.callers) (hp : p.Holds s.isOpen op)
    (ha : op.admitted = true → s.isOpen = true) : Placed s' := by
  refine h.move hsh ho hc fun e he => ?_
  obtain rfl := List.mem_singleton.1 he
  exact ⟨hp, ha⟩

theorem State.mem_entries_initiating (ho : s.initiation.owned? = some op) :
    (op, .initiating s.initiation) ∈ s.entries := by
  rw [State.entries, State.initiating, ho]
  exact List.mem_append_left _ (List.mem_singleton.2 rfl)

theorem Placed.initiating (h : Placed s) {pc : InitPc} (hi : s.initiation = pc)
    (ho : pc.owned? = some op) :
    (Place.initiating pc).Holds s.isOpen op ∧ (op.admitted = true → s.isOpen = true) := by
  subst hi
  have hmem := State.mem_entries_initiating ho
  exact ⟨h.holds _ hmem, h.admitted _ hmem⟩

theorem Placed.thread (h : Placed s)
    (hfind : s.dispatching.find? (fun d => d.1.id == op.id) = some (op, pc)) :
    (Place.thread pc).Holds s.isOpen op ∧ (op.admitted = true → s.isOpen = true) := by
  have hmem : (op, Place.thread pc) ∈ s.entries :=
    (State.entries_of_dispatching hfind).mem_iff.2 List.mem_cons_self
  exact ⟨h.holds _ hmem, h.admitted _ hmem⟩

theorem isConn_of_connect (hk : op.kind = .connect) : op.isConn = true := by
  simp [CmOp.isConn, hk]

theorem isConn_of_accept (hk : op.kind = .accept) : op.isConn = true := by
  simp [CmOp.isConn, hk]

theorem holds_port_of_error {o : Bool} (he : op.ec.isError = true) : Place.port.Holds o op :=
  fun _ hne => absurd (he.symm.trans hne) Bool.noConfusion

theorem holds_port_of_wait {o : Bool} (hk : op.kind = .wait) : Place.port.Holds o op :=
  fun hc => absurd hc (by simp [CmOp.isConn, hk])

theorem holds_driver_of_wait {o : Bool} (hk : op.kind = .wait) : Place.driver.Holds o op :=
  fun hc => absurd hc (by simp [CmOp.isConn, hk])

/-! ## Every step keeps the ops in order -/

/-- Arming a slot is not seen by the ops. -/
theorem armNdCancellation_eq (s : State) (op : CmOp) :
    ∃ slots, s.armNdCancellation op = { s with slots := slots } := by
  unfold State.armNdCancellation
  split_ifs
  · exact ⟨_, rfl⟩
  · exact ⟨s.slots, rfl⟩

theorem Opens.isOpen (h : Opens s t) (ho : s.isOpen = true) : t.isOpen = true := by
  cases h with
  | same => exact ho
  | opened => rfl

theorem Opens.callers (h : Opens s t) : t.callers = s.callers := by
  cases h <;> rfl

theorem Opens.connectState (h : Opens s t) : t.connectState = s.connectState := by
  cases h <;> rfl

theorem Opens.initiation (h : Opens s t) : t.initiation = s.initiation := by
  cases h <;> rfl

theorem Opens.trace (h : Opens s t) : t.trace = s.trace := by
  cases h <;> rfl

theorem Opens.shifts (h : Opens s t) : Shifts s t [] [] := by
  cases h <;> exact .refl rfl rfl rfl rfl

theorem Opens.entries (h : Opens s t) : t.entries = s.entries := by
  cases h <;> rfl

theorem Placed.begins {hasQp : Bool} (h : Placed s)
    (hb : Begins s op hasQp t) (hconn : op.isConn = true) (hadm : op.admitted = false)
    (hstage : op.stage = .connecting) (used : List Nat) : Placed { t with used := used } := by
  cases hb with
  | rejected u ec hu he =>
    have hsh : Shifts u { u.reject op ec with used := used } _ [(op.completeWith ec, .port)] :=
      .post rfl rfl rfl rfl rfl
    exact (h.shift hu.shifts hu.isOpen (fun e he => absurd he List.not_mem_nil)
      fun c hc hnot => absurd (hu.callers ▸ hc) hnot).put hsh rfl rfl (holds_port_of_error he)
      fun ha => absurd (hadm.symm.trans ha) Bool.noConfusion
  | guarded u hu ho =>
    have hsh : Shifts u { u with initiation := .guardState op hasQp, used := used } _ _ :=
      .init rfl rfl rfl rfl rfl
    exact (h.shift hu.shifts hu.isOpen (fun e he => absurd he List.not_mem_nil)
      fun c hc hnot => absurd (hu.callers ▸ hc) hnot).put hsh rfl rfl ⟨hconn, hadm, hstage, ho⟩
      fun _ => ho

theorem isError_callError {hr : Int} (hs : hr ≠ ndSuccess) (hp : hr ≠ ndPending) :
    (callError hr).isError = true := by
  rw [callError, if_pos ⟨hs, hp⟩]
  exact bne_iff_ne.2 hs

theorem owned_afterPublish (op : CmOp) : (InitPc.afterPublish op).owned? = some op := by
  unfold InitPc.afterPublish
  split <;> rfl

theorem holds_afterPublish {o : Bool} (h : op.isConn = true ∧ op.stage = .connecting ∧ op.Admitted o) :
    (Place.initiating (.afterPublish op)).Holds o op := by
  unfold InitPc.afterPublish
  split <;> exact h

theorem Placed.initiates {a : Answer} (h : Placed s) (hst : Initiates s a s') : Placed s' := by
  cases hst with
  | terminal op hasQp hi hs =>
    obtain ⟨-, hadm⟩ := h.initiating hi rfl
    exact h.put (.post rfl rfl rfl rfl rfl) rfl rfl (holds_port_of_error rfl) hadm
  | nullQp op hi hs =>
    obtain ⟨-, hadm⟩ := h.initiating hi rfl
    exact h.put (.post rfl rfl rfl rfl rfl) rfl rfl (holds_port_of_error rfl) hadm
  | admitted op hi hs =>
    obtain ⟨⟨hconn, -, hstage, ho⟩, -⟩ := h.initiating hi rfl
    refine h.put (.init rfl rfl rfl rfl rfl) rfl rfl ⟨hconn, hstage, rfl, fun hk => ?_, ho⟩ fun _ => ho
    exact beq_iff_eq.2 hk
  | published op hi hs =>
    obtain ⟨hholds, hadm⟩ := h.initiating hi rfl
    exact h.put (.next rfl rfl (owned_afterPublish op) rfl rfl rfl) rfl rfl (holds_afterPublish hholds) hadm
  | publishLost op hi hs =>
    obtain ⟨-, hadm⟩ := h.initiating hi rfl
    exact h.put (.post rfl rfl rfl rfl rfl) rfl rfl (holds_port_of_error rfl) hadm
  | bindFailed op ec hi he =>
    obtain ⟨-, hadm⟩ := h.initiating hi rfl
    exact h.put (.post rfl rfl rfl rfl rfl) rfl rfl (holds_port_of_error he) hadm
  | bound op ec hi he =>
    obtain ⟨hholds, hadm⟩ := h.initiating hi rfl
    exact h.put (.init rfl rfl rfl rfl rfl) rfl rfl hholds hadm
  | callPending op hi =>
    obtain ⟨⟨-, -, hop⟩, hadm⟩ := h.initiating hi rfl
    exact h.put (.submit rfl rfl rfl rfl rfl) rfl rfl (fun _ => hop) hadm
  | accepted op hi hk =>
    obtain ⟨⟨-, -, hop⟩, hadm⟩ := h.initiating hi rfl
    exact h.put (.post rfl rfl rfl rfl rfl) rfl rfl
      (fun _ _ => ⟨hop.admitted, hop.started, hop.isOpen⟩) hadm
  | callEnded op hr hi hp hk =>
    obtain ⟨⟨-, -, hop⟩, hadm⟩ := h.initiating hi rfl
    exact h.put (.post rfl rfl rfl rfl rfl) rfl rfl
      (fun _ _ => ⟨hop.admitted, hop.started, hop.isOpen⟩) hadm
  | armed op hi =>
    obtain ⟨slots, heq⟩ := armNdCancellation_eq s op
    rw [heq]
    exact h.move (.init rfl rfl rfl rfl rfl) rfl rfl fun e he => absurd he List.not_mem_nil
  | latchSet op hi hp =>
    obtain ⟨-, hadm⟩ := h.initiating hi rfl
    exact h.put (.post rfl rfl rfl rfl rfl) rfl rfl (holds_port_of_error rfl) hadm
  | latchClear op hi hp =>
    obtain ⟨hholds, hadm⟩ := h.initiating hi rfl
    exact h.put (.init rfl rfl rfl rfl rfl) rfl rfl hholds hadm
  | waitClosed op hi hs =>
    obtain ⟨-, hadm⟩ := h.initiating hi rfl
    exact h.put (.post rfl rfl rfl rfl rfl) rfl rfl (holds_port_of_error rfl) hadm
  | waitNotOpen op hi hs ho =>
    obtain ⟨-, hadm⟩ := h.initiating hi rfl
    exact h.put (.post rfl rfl rfl rfl rfl) rfl rfl (holds_port_of_error rfl) hadm
  | waitOpen op hi hs ho =>
    obtain ⟨hholds, hadm⟩ := h.initiating hi rfl
    exact h.put (.init rfl rfl rfl rfl rfl) rfl rfl hholds hadm
  | notifyPending op hi =>
    obtain ⟨hholds, hadm⟩ := h.initiating hi rfl
    obtain ⟨slots, heq⟩ := armNdCancellation_eq s op
    rw [heq]
    exact h.put (.submit rfl rfl rfl rfl rfl) rfl rfl (holds_driver_of_wait hholds) hadm
  | notifyEnded op hr hi hp =>
    obtain ⟨hholds, hadm⟩ := h.initiating hi rfl
    exact h.put (.post rfl rfl rfl rfl rfl) rfl rfl (holds_port_of_wait hholds) hadm

theorem holds_doComplete {o : Bool} (h : Place.port.Holds o op) :
    (Place.thread op.doComplete.2).Holds o op.doComplete.1 := by
  unfold CmOp.doComplete
  split
  case h_1 hk =>
    have hconn := isConn_of_connect hk
    unfold CmOp.connectComplete
    split_ifs with he
    · exact ⟨hconn, he⟩
    · have he' : op.ec.isError = false := by simpa using he
      split
      · exact ⟨hk, he', h hconn he'⟩
      · exact ⟨hk, he', h hconn he'⟩
      · exact ⟨hconn, rfl⟩
      · exact ⟨hconn, rfl⟩
  case h_2 hk =>
    have hconn := isConn_of_accept hk
    unfold CmOp.acceptComplete
    split_ifs with hs he
    · have he' : op.ec.isError = false := by simpa using hs.2
      exact ⟨hk, he', h hconn he'⟩
    · exact ⟨hconn, he.2⟩
    · exact trivial
  case h_3 hk => exact hk

/-- What a `do_complete` leaves behind is as its place says. -/
theorem Placed.completes {a : Answer} (h : Placed s)
    (hfind : s.dispatching.find? (fun d => d.1.id == op.id) = some (op, pc))
    (hst : Completes s op pc a s') : Placed s' := by
  obtain ⟨hholds, hadm⟩ := h.thread hfind
  cases hst with
  | connectFailed pd hr op' hc =>
    have hsame := same_connectCompleted op pd hr
    have hec := (ec_connectCompleted op pd hr).1
    rw [hc] at hsame hec
    exact h.put (.goto hfind hsame.id rfl rfl rfl rfl) rfl rfl
      ⟨isConn_of_connect (hsame.kind.trans hholds.1), hec rfl, hholds.2.2.same hsame⟩
      fun ha => hadm (hsame.admitted ▸ ha)
  | connectPending pd hr op' hc =>
    have hsame := same_connectCompleted op pd hr
    rw [hc] at hsame
    exact h.put (.continue hfind hsame.id) rfl rfl (fun _ => hholds.2.2.same hsame)
      fun ha => hadm (hsame.admitted ▸ ha)
  | connectEstablished pd hr op' hc =>
    have hsame := same_connectCompleted op pd hr
    have hec := (ec_connectCompleted op pd hr).2
    rw [hc] at hsame hec
    exact h.put (.goto hfind hsame.id rfl rfl rfl rfl) rfl rfl
      ⟨hsame.kind.trans hholds.1, by rw [(hec (by simp)).1]; exact hholds.2.1,
        hholds.2.2.same hsame⟩ fun ha => hadm (hsame.admitted ▸ ha)
  | storeFailed =>
    exact h.put (.goto hfind rfl rfl rfl rfl rfl) rfl rfl ⟨hholds.1, hholds.2.1⟩ hadm
  | markWon hs => exact h.put (.goto hfind rfl rfl rfl rfl rfl) rfl rfl trivial hadm
  | markLost hs =>
    exact h.put (.goto hfind rfl rfl rfl rfl rfl) rfl rfl
      ⟨isConn_of_connect hholds.1, rfl⟩ hadm
  | storeConnected => exact h.put (.goto hfind rfl rfl rfl rfl rfl) rfl rfl trivial hadm
  | storeClosed => exact h.put (.goto hfind rfl rfl rfl rfl rfl) rfl rfl trivial hadm
  | loadPeerClosed =>
    have hsame := same_waitComplete op s.peerClosed
    refine h.put (.goto hfind hsame.id rfl rfl rfl rfl) rfl rfl ?_ fun ha => hadm (hsame.admitted ▸ ha)
    unfold CmOp.waitComplete
    split_ifs
    · exact hholds
    · exact trivial
    · exact hholds
  | storePeerClosed => exact h.put (.goto hfind rfl rfl rfl rfl rfl) rfl rfl trivial hadm
  | invoke => exact h.move (.finish hfind _) rfl rfl fun e he => absurd he List.not_mem_nil

/-- A step changes the mark of `CancelIoEx` on ops only. -/
theorem Placed.cancelIoEx (h : Placed s) (p : CmOp → Bool) : Placed (s.cancelIoEx p) where
  holds := by
    rw [State.entries_cancelIoEx]
    intro e he
    obtain ⟨e0, hmem, rfl⟩ := List.mem_map.1 he
    have hold := h.holds e0 hmem
    rw [cancelEntry_place]
    simp only [cancelEntry]
    split_ifs with hc
    · rw [hc.1] at hold ⊢
      exact fun hconn => ⟨(hold hconn).admitted, (hold hconn).started, (hold hconn).isOpen⟩
    · exact hold
  admitted := by
    rw [State.entries_cancelIoEx]
    intro e he hadm
    obtain ⟨e0, hmem, rfl⟩ := List.mem_map.1 he
    rw [cancelEntry_op] at hadm
    exact h.admitted e0 hmem hadm
  callers := h.callers

theorem Placed.disconnects {i : Nat} {a : Answer} (h : Placed s) (hst : Disconnects s i a s') :
    Placed s' := by
  have hset : ∀ {c c' : DisconnectPc} {u : State}, s.callers[i]? = some c →
      c ≠ .returned (.common (.rdma .invalidHandle)) → u.isOpen = s.isOpen →
      u.entries = s.entries → u.callers = s.callers.set i c' → Placed u := by
    intro c c' u hc hne ho he hcall
    have hopen : s.isOpen = true := h.callers c (List.mem_of_getElem? hc) hne
    refine ⟨fun e hmem => ?_, fun e hmem _ => ho.trans hopen, fun _ _ _ => ho.trans hopen⟩
    rw [ho]
    exact h.holds e (he ▸ hmem)
  cases hst with
  | load hc => exact hset hc nofun rfl rfl rfl
  | closed old hc hs => exact hset hc nofun rfl rfl rfl
  | retry old a hc ha => exact hset hc nofun rfl rfl rfl
  | latched old hc => exact hset hc nofun rfl rfl rfl
  | cancelled old hc =>
    have hopen : s.isOpen = true := h.callers _ (List.mem_of_getElem? hc) nofun
    exact ⟨(h.cancelIoEx _).holds, fun _ _ _ => hopen, fun _ _ _ => hopen⟩
  | native hr hc => exact hset hc nofun rfl rfl rfl

/-- Every step keeps every op as its place says. -/
theorem Placed.step {l : Label} (h : Placed s) (hst : connector.step s l = some s') : Placed s' := by
  cases Step.of_step hst with
  | useDevice => exact h.move (.refl rfl rfl rfl rfl) rfl rfl fun e he => absurd he List.not_mem_nil
  | openConnector ec hi =>
    have ho := opens_doOpen s ec
    exact h.shift ho.shifts ho.isOpen (fun e he => absurd he List.not_mem_nil)
      fun c hc hnot => absurd (ho.callers ▸ hc) hnot
  | assign hasHandle ec hi =>
    unfold Nd.assign
    split_ifs
    · exact h
    · exact h.shift (.refl rfl rfl rfl rfl) (fun _ => rfl) (fun e he => absurd he List.not_mem_nil)
        fun c hc hnot => absurd hc hnot
  | asyncConnect id addr slot hasQp requestSize replyCap opened hi hf =>
    exact h.begins (begins_asyncConnect s _ hasQp requestSize opened) rfl rfl rfl _
  | asyncAccept id addr slot hasQp bindEc dataSize hi hf =>
    exact h.begins (begins_asyncAccept s _ hasQp bindEc dataSize) rfl rfl rfl _
  | asyncWaitDisconnect id addr slot hi hf =>
    exact h.put (.next rfl rfl rfl rfl rfl rfl) rfl rfl rfl Bool.noConfusion
  | initiate id a _ op ho hid hst => exact h.initiates hst
  | overlapped r op hp hm =>
    have hsh := Shifts.overlapped hp r
    have hmem := hsh.mem List.mem_cons_self
    have hop : op.isConn = true → op.Admitted s.isOpen := h.holds _ hmem
    refine h.put hsh ?_ ?_ (fun hconn _ => ⟨(hop hconn).admitted, (hop hconn).started, (hop hconn).isOpen⟩)
      (h.admitted _ hmem)
    all_goals rw [overlappedEnd_eq]
  | dispatch op hs =>
    have hsh := Shifts.dispatch (d := op.doComplete) hs
    have hmem := hsh.mem List.mem_cons_self
    exact h.put hsh rfl rfl (holds_doComplete (h.holds _ hmem)) fun ha =>
      h.admitted _ hmem (same_doComplete.admitted ▸ ha)
  | complete a op pc _ hd hst => exact h.completes hd hst
  | disconnect =>
    refine h.shift (.refl rfl rfl rfl rfl) id (fun e he => absurd he List.not_mem_nil)
      fun c hc hnot hne => ?_
    rcases List.mem_append.1 hc with hc | hc
    · exact absurd hc hnot
    · obtain rfl := List.mem_singleton.1 hc
      by_contra ho
      exact hne (if_neg ho)
  | disconnectStep i a _ hst => exact h.disconnects hst
  | emit addr ha => exact h.cancelIoEx _

theorem Placed.fresh : Placed {} where
  holds := fun _ he => absurd he List.not_mem_nil
  admitted := fun _ he => absurd he List.not_mem_nil
  callers := fun _ hc => absurd hc List.not_mem_nil

end RdmaOnAsio.Nd
