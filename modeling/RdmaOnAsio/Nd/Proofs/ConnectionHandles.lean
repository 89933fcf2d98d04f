import RdmaOnAsio.Nd.Proofs.ListenerCancellation

/-!
# Who has the connectors that an nd listener makes

Each initiation may make an overlapped file, and a connector on it, for a client that has not come yet. In every
run they are with the op, or with the handler it has been delivered to, whatever fails on the way; and every
initiation is answered once. The completions that are left when the listener is destroyed come all by themselves.
-/

namespace RdmaOnAsio.Nd.Listener

open ErrorCode

variable {s t : State} {op : GetConnectionOp} {l : Label} {n : Nat}

/-! ## Files and where they are -/

/-- The overlapped file of an op. -/
def GetConnectionOp.file (op : GetConnectionOp) : Option Nat := op.connectorHandle.overlappedHandle

/-- The overlapped file that a handler was given. -/
def Delivery.file (d : Delivery) : Option Nat := d.handle.overlappedHandle

/-- The overlapped files of the ops that exist, and those that were delivered. -/
def State.files (s : State) : List Nat :=
  s.pending.filterMap GetConnectionOp.file ++ s.scheduled.filterMap GetConnectionOp.file ++
    s.delivered.filterMap Delivery.file

/-- A handle with a connector, on the file it was made for. -/
def ConnectorHandle.Complete (h : ConnectorHandle) : Prop := ∃ k, h = ⟨some k, some k⟩

/-- What a handler is called with: a connector and at most `max_private_data_size` bytes if there is no error,
and no data otherwise. -/
def Delivery.Sound (d : Delivery) : Prop :=
  if d.ec.isError then d.privateDataLen = 0
  else d.handle.Complete ∧ d.privateDataLen ≤ maxPrivateDataSize

/-- `n` initiations have been made, and everything they made is somewhere. -/
structure Custody (s : State) (n : Nat) : Prop where
  files : s.files.Perm (List.range s.handles)
  answers : s.pending.length + s.scheduled.length + s.delivered.length = n
  pending : ∀ op ∈ s.pending, op.connectorHandle.Complete ∧ op.privateDataLen = 0
  scheduled : ∀ op ∈ s.scheduled,
    (op.ec.isError = false → op.connectorHandle.Complete) ∧ op.privateDataLen = 0
  delivered : ∀ d ∈ s.delivered, d.Sound

theorem Custody.initial : Custody {} 0 :=
  ⟨.nil, rfl, fun _ h => absurd h List.not_mem_nil, fun _ h => absurd h List.not_mem_nil,
    fun _ h => absurd h List.not_mem_nil⟩

/-! ## The steps -/

/-- Whether a step is an initiation. -/
def Label.isInitiation : Label → Bool
  | .asyncGetConnectionRequest .. => true
  | _ => false

/-- Whether a step is one of the completion port: a call ends, or a completion is run. -/
def Label.isPort : Label → Bool
  | .overlapped .. | .complete .. => true
  | _ => false

/-- What a step can do. -/
inductive Moves (s : State) : Label → State → Prop
  | flags {l : Label} (hl : l.isInitiation = false ∧ l.isPort = false) (deviceRegistered isOpen : Bool) :
    Moves s l { s with deviceRegistered := deviceRegistered, isOpen := isOpen }
  | initiated (addr : Nat) (slot : Bool) (file connector : NdErrorCode) (hr : Int)
      (hlive : s.destroyed = false) :
    Moves s (.asyncGetConnectionRequest addr slot file connector hr)
      (s.asyncGetConnectionRequest addr slot file connector hr)
  | marked {l : Label} (hl : l.isInitiation = false ∧ l.isPort = false) (p : GetConnectionOp → Bool)
      (hlive : s.destroyed = false) : Moves s l (s.cancelIoEx p)
  | ended (op : GetConnectionOp) (r : IoResult)
      (hfind : s.pending.find? (fun o => o.addr == op.addr) = some op) :
    Moves s (.overlapped op.addr r) (s.overlappedEnd op r)
  | completed (op : GetConnectionOp) (pd : Option Nat)
      (hfind : s.scheduled.find? (fun o => o.addr == op.addr) = some op) :
    Moves s (.complete op.addr pd) (s.completeOp op pd)
  | destroyed (hlive : s.destroyed = false) : Moves s .destroy s.destroy

theorem Moves.of_step (hst : listener.step s l = some t) : Moves s l t := by
  change Listener.step s l = some t at hst
  cases l with
  | useDevice =>
    cases hst
    exact .flags ⟨rfl, rfl⟩ true s.isOpen
  | openListener ec =>
    obtain ⟨-, ⟨⟩⟩ := Option.ite_none_left_eq_some.1 hst
    unfold State.openListener
    split_ifs
    · exact .flags ⟨rfl, rfl⟩ s.deviceRegistered s.isOpen
    · exact .flags ⟨rfl, rfl⟩ s.deviceRegistered true
  | asyncGetConnectionRequest addr slot file connector hr =>
    obtain ⟨⟨-, hlive⟩, rfl⟩ := Option.ite_some_none_eq_some.1 hst
    exact .initiated addr slot file connector hr hlive
  | overlapped addr r =>
    cases hfind : s.pending.find? fun op => op.addr == addr with
    | none => simp [Listener.step, hfind] at hst
    | some op =>
      simp only [Listener.step, hfind] at hst
      obtain ⟨-, rfl⟩ := Option.ite_some_none_eq_some.1 hst
      have haddr : op.addr = addr := by simpa using List.find?_some hfind
      subst haddr
      exact .ended op r hfind
  | complete addr pd =>
    cases hfind : s.scheduled.find? fun op => op.addr == addr with
    | none => simp [Listener.step, hfind] at hst
    | some op =>
      simp only [Listener.step, hfind, Option.some.injEq] at hst
      subst hst
      have haddr : op.addr = addr := by simpa using List.find?_some hfind
      subst haddr
      exact .completed op pd hfind
  | emit addr =>
    obtain ⟨⟨-, hlive⟩, rfl⟩ := Option.ite_some_none_eq_some.1 hst
    exact .marked ⟨rfl, rfl⟩ _ hlive
  | cancel =>
    obtain ⟨hlive, hst⟩ := Option.ite_none_left_eq_some.1 hst
    split_ifs at hst
    · obtain rfl := Option.some.inj hst
      exact .marked ⟨rfl, rfl⟩ _ (Bool.eq_false_iff.2 hlive)
    · obtain rfl := Option.some.inj hst
      exact .flags ⟨rfl, rfl⟩ s.deviceRegistered s.isOpen
  | destroy =>
    obtain ⟨hlive, ⟨⟩⟩ := Option.ite_none_left_eq_some.1 hst
    exact .destroyed (Bool.eq_false_iff.2 hlive)

/-! ## What keeps the ops and the handles -/

/-- Marking calls in flight moves nothing. -/
theorem Custody.cancelIoEx (h : Custody s n) (p : GetConnectionOp → Bool) : Custody (s.cancelIoEx p) n := by
  have hfile : ∀ op, (if p op then { op with canceled := true } else op).file = op.file := by
    intro op
    split <;> rfl
  refine ⟨?_, ?_, fun op hop => ?_, h.scheduled, h.delivered⟩
  · have hfiles : (s.cancelIoEx p).files = s.files := by
      simp only [State.files, State.cancelIoEx, List.filterMap_map, Function.comp_def, hfile]
    rw [hfiles]
    exact h.files
  · simpa [State.cancelIoEx] using h.answers
  · obtain ⟨op', hop', rfl⟩ := List.mem_map.1 hop
    split <;> exact h.pending op' hop'

/-- The call of an op ends: the op goes over to those that are scheduled. -/
theorem Custody.overlappedEnd (h : Custody s n) (r : IoResult)
    (hfind : s.pending.find? (fun o => o.addr == op.addr) = some op) : Custody (s.overlappedEnd op r) n := by
  have hperm := perm_cons_eraseP hfind
  refine ⟨?_, ?_, fun o ho => h.pending o (List.mem_of_mem_eraseP ho), fun o ho => ?_, h.delivered⟩
  · refine List.Perm.trans (List.perm_iff_count.2 fun k => ?_) h.files
    have hcount := (hperm.filterMap GetConnectionOp.file).count_eq k
    have hsame : (op.completeWith r.ec).file = op.file := rfl
    simp only [State.files, State.overlappedEnd, State.onCompletion, List.filterMap_append,
      List.count_append, hcount, List.filterMap_cons, List.filterMap_nil, hsame]
    cases op.file with
    | none => simp only [List.count_nil]; omega
    | some k' => simp only [List.count_cons, List.count_nil]; omega
  · have hlen := hperm.length_eq
    have hans := h.answers
    simp only [State.overlappedEnd, State.onCompletion, List.length_append, List.length_cons,
      List.length_nil] at hlen ⊢
    omega
  · rcases List.mem_append.1 ho with ho | ho
    · exact h.scheduled o ho
    · obtain rfl := List.mem_singleton.1 ho
      obtain ⟨hcomplete, hpd⟩ := h.pending op (List.mem_of_find?_eq_some hfind)
      exact ⟨fun _ => hcomplete, hpd⟩

/-- The delivery that `do_complete` makes. -/
def GetConnectionOp.delivery (op : GetConnectionOp) (pd : Option Nat) : Delivery :=
  ⟨(op.retrievePrivateData pd).ec, (op.retrievePrivateData pd).connectorHandle,
    (op.retrievePrivateData pd).privateDataLen⟩

/-- `do_complete` asks for the private data of a connector that succeeded only. -/
theorem retrievePrivateData_sound {pd : Option Nat}
    (hop : (op.ec.isError = false → op.connectorHandle.Complete) ∧ op.privateDataLen = 0) :
    (op.delivery pd).Sound := by
  obtain ⟨hcomplete, hpd⟩ := hop
  have hec : (op.retrievePrivateData pd).ec = op.ec := by
    unfold GetConnectionOp.retrievePrivateData
    split
    · split <;> rfl
    · rfl
  have hhandle : (op.retrievePrivateData pd).connectorHandle = op.connectorHandle := by
    unfold GetConnectionOp.retrievePrivateData
    split
    · split <;> rfl
    · rfl
  unfold Delivery.Sound GetConnectionOp.delivery
  simp only [hec, hhandle]
  unfold GetConnectionOp.retrievePrivateData
  cases herr : op.ec.isError with
  | true =>
    rw [if_pos rfl]
    split
    · simpa [herr] using hpd
    · exact hpd
  | false =>
    rw [if_neg Bool.false_ne_true]
    refine ⟨hcomplete herr, ?_⟩
    split
    · split
      · exact Nat.min_le_right _ _
      · rw [hpd]
        exact Nat.zero_le _
    · rw [hpd]
      exact Nat.zero_le _

theorem file_retrievePrivateData (op : GetConnectionOp) (pd : Option Nat) :
    (op.retrievePrivateData pd).connectorHandle.overlappedHandle = op.file := by
  unfold GetConnectionOp.retrievePrivateData
  split
  · split <;> rfl
  · rfl

theorem completeOp_eq (s : State) (op : GetConnectionOp) (pd : Option Nat) :
    s.completeOp op pd =
      { s with
        scheduled := s.scheduled.eraseP fun o => o.addr == op.addr
        delivered := s.delivered ++ [op.delivery pd] } := by
  have haddr : (op.retrievePrivateData pd).addr = op.addr := by
    unfold GetConnectionOp.retrievePrivateData
    split
    · split <;> rfl
    · rfl
  rw [← haddr]
  rfl

/-- A completion is run: what the op has is delivered. -/
theorem Custody.completeOp (h : Custody s n) (pd : Option Nat)
    (hfind : s.scheduled.find? (fun o => o.addr == op.addr) = some op) : Custody (s.completeOp op pd) n := by
  have hperm := perm_cons_eraseP hfind
  rw [completeOp_eq]
  refine ⟨?_, ?_, h.pending, fun o ho => h.scheduled o (List.mem_of_mem_eraseP ho), fun d hd => ?_⟩
  · refine List.Perm.trans (List.perm_iff_count.2 fun k => ?_) h.files
    have hcount := (hperm.filterMap GetConnectionOp.file).count_eq k
    have hsame := file_retrievePrivateData op pd
    simp only [State.files, List.filterMap_append, List.count_append, hcount, List.filterMap_cons,
      List.filterMap_nil, Delivery.file, GetConnectionOp.delivery, hsame]
    cases op.file with
    | none => simp only [List.count_nil]; omega
    | some k' => simp only [List.count_cons, List.count_nil]; omega
  · have hlen := hperm.length_eq
    have hans := h.answers
    simp only [List.length_append, List.length_cons, List.length_nil] at hlen ⊢
    omega
  · rcases List.mem_append.1 hd with hd | hd
    · exact h.delivered d hd
    · obtain rfl := List.mem_singleton.1 hd
      exact retrievePrivateData_sound (h.scheduled op (List.mem_of_find?_eq_some hfind))

/-- What an initiation makes: an op that is posted, or one whose call is in flight; with the next file, or with
none. -/
theorem asyncGetConnectionRequest_makes (s : State) (addr : Nat) (slot : Bool)
    (file connector : NdErrorCode) (hr : Int) :
    ∃ (op : GetConnectionOp) (handles : Nat), op.privateDataLen = 0 ∧
      (op.file = none ∧ handles = s.handles ∨ op.file = some s.handles ∧ handles = s.handles + 1) ∧
      ((op.ec.isError = false → op.connectorHandle.Complete) ∧
          s.asyncGetConnectionRequest addr slot file connector hr =
            { s with handles := handles, scheduled := s.scheduled ++ [op] } ∨
        op.connectorHandle.Complete ∧ ∃ slots,
          s.asyncGetConnectionRequest addr slot file connector hr =
            { s with handles := handles, pending := s.pending ++ [op], slots := slots }) := by
  have hfails : ∀ {ec : NdErrorCode} {P : Prop}, ec.isError = true → ec.isError = false → P :=
    fun h h' => Bool.noConfusion (h.symm.trans h')
  unfold State.asyncGetConnectionRequest
  dsimp only
  split_ifs with hopen hfile hconnector hcall hpending
  · exact ⟨_, _, rfl, .inl ⟨rfl, rfl⟩, .inl ⟨fun he => Bool.noConfusion he, rfl⟩⟩
  · exact ⟨_, _, rfl, .inl ⟨rfl, rfl⟩, .inl ⟨hfails hfile, rfl⟩⟩
  · exact ⟨_, _, rfl, .inr ⟨rfl, rfl⟩, .inl ⟨hfails hconnector, rfl⟩⟩
  · exact ⟨_, _, rfl, .inr ⟨rfl, rfl⟩, .inl ⟨hfails hcall, rfl⟩⟩
  · obtain ⟨slots, harm⟩ := armNdCancellation_eq { s with handles := s.handles + 1 }
      { addr, slot, connectorHandle := { overlappedHandle := some s.handles, connector := some s.handles } }
    rw [harm]
    exact ⟨_, _, rfl, .inr ⟨rfl, rfl⟩, .inr ⟨⟨_, rfl⟩, slots, rfl⟩⟩
  · exact ⟨_, _, rfl, .inr ⟨rfl, rfl⟩, .inl ⟨fun _ => ⟨_, rfl⟩, rfl⟩⟩

theorem Custody.asyncGetConnectionRequest (h : Custody s n) (addr : Nat) (slot : Bool)
    (file connector : NdErrorCode) (hr : Int) :
    Custody (s.asyncGetConnectionRequest addr slot file connector hr) (n + 1) := by
  obtain ⟨op, handles, hpd, hmade, hplace⟩ := asyncGetConnectionRequest_makes s addr slot file connector hr
  -- the file that was made, if any, is the next one
  have hnew : (op.file.toList ++ s.files).Perm (List.range handles) := by
    rcases hmade with ⟨hnone, rfl⟩ | ⟨hsome, rfl⟩
    · rw [hnone]
      exact h.files
    · rw [hsome, List.range_succ]
      exact ((List.perm_append_comm).trans (h.files.append_right [s.handles]))
  have hans := h.answers
  rcases hplace with ⟨hcomplete, heq⟩ | ⟨hcomplete, slots, heq⟩
  · rw [heq]
    refine ⟨List.Perm.trans (List.perm_iff_count.2 fun k => ?_) hnew, ?_, h.pending, fun o ho => ?_,
      h.delivered⟩
    · simp only [State.files, List.filterMap_append, List.count_append, List.filterMap_cons,
        List.filterMap_nil]
      cases op.file with
      | none => simp only [Option.toList_none, List.count_nil]; omega
      | some k' => simp only [Option.toList_some, List.count_cons, List.count_nil]; omega
    · simp only [List.length_append, List.length_cons, List.length_nil]
      omega
    · rcases List.mem_append.1 ho with ho | ho
      · exact h.scheduled o ho
      · obtain rfl := List.mem_singleton.1 ho
        exact ⟨hcomplete, hpd⟩
  · rw [heq]
    refine ⟨List.Perm.trans (List.perm_iff_count.2 fun k => ?_) hnew, ?_, fun o ho => ?_, h.scheduled,
      h.delivered⟩
    · simp only [State.files, List.filterMap_append, List.count_append, List.filterMap_cons,
        List.filterMap_nil]
      cases op.file with
      | none => simp only [Option.toList_none, List.count_nil]; omega
      | some k' => simp only [Option.toList_some, List.count_cons, List.count_nil]; omega
    · simp only [List.length_append, List.length_cons, List.length_nil]
      omega
    · rcases List.mem_append.1 ho with ho | ho
      · exact h.pending o ho
      · obtain rfl := List.mem_singleton.1 ho
        exact ⟨hcomplete, hpd⟩

theorem Custody.moves (h : Custody s n) (hm : Moves s l t) : Custody t (n + l.isInitiation.toNat) := by
  cases hm with
  | flags hl =>
    rw [hl.1]
    exact ⟨h.files, h.answers, h.pending, h.scheduled, h.delivered⟩
  | initiated addr slot file connector hr => exact h.asyncGetConnectionRequest addr slot file connector hr
  | marked hl p =>
    rw [hl.1]
    exact h.cancelIoEx p
  | ended op r hfind => exact h.overlappedEnd r hfind
  | completed op pd hfind => exact h.completeOp pd hfind
  | destroyed =>
    have hcancel := h.cancelIoEx fun _ => true
    exact ⟨hcancel.files, hcancel.answers, hcancel.pending, hcancel.scheduled, hcancel.delivered⟩

/-- The custody of a run counts its initiations. -/
theorem Custody.run {ls : List Label} (h : Custody s n) (hr : listener.run s ls = some t) :
    Custody t (n + ls.countP Label.isInitiation) := by
  induction ls generalizing s n with
  | nil =>
    obtain rfl := Option.some.inj hr
    exact h
  | cons l ls ih =>
    obtain ⟨u, hu, hrest⟩ := StepSystem.run_cons.1 hr
    have hcount : n + (l :: ls).countP Label.isInitiation =
        n + l.isInitiation.toNat + ls.countP Label.isInitiation := by
      rw [List.countP_cons]
      cases l.isInitiation with
      | true =>
        simp only [Bool.toNat_true, if_true]
        omega
      | false => simp
    rw [hcount]
    exact ih (h.moves (.of_step hu)) hrest

/-- In every run of a listener: each overlapped file that was made for a connector is with one op or was given to
one handler; the ops that exist and those that were delivered are as many as were initiated; and a handler is
called with a connector on its own file if there is no error, and without private data otherwise. -/
theorem connectors_in_custody {ls : List Label} (hr : listener.run {} ls = some s) :
    s.files.Perm (List.range s.handles) ∧
      s.pending.length + s.scheduled.length + s.delivered.length = ls.countP Label.isInitiation ∧
      ∀ d ∈ s.delivered, d.Sound := by
  have h := Custody.initial.run hr
  rw [Nat.zero_add] at h
  exact ⟨h.files, h.answers, h.delivered⟩

/-- Two requests: one is cancelled by its own signal, the other one finds a client with 300 bytes. -/
def twoRequests : List Label :=
  [.useDevice, .openListener (.common success),
    .asyncGetConnectionRequest 1 true (.common success) (.common success) ndPending,
    .asyncGetConnectionRequest 2 false (.common success) (.common success) ndPending, .emit 1,
    .overlapped 1 .aborted, .overlapped 2 .ok, .complete 2 (some 300), .complete 1 none]

theorem connectors_in_custody_twoRequests :
    (listener.after {} twoRequests).files.Perm (List.range 2) ∧
      Delivery.Sound ⟨.common success, ⟨some 1, some 1⟩, 256⟩ := by
  have hr : (listener.run {} twoRequests).isSome = true := by decide +kernel
  obtain ⟨hfiles, -, hsound⟩ := connectors_in_custody (StepSystem.run_after hr)
  have hhandles : (listener.after {} twoRequests).handles = 2 := by decide +kernel
  rw [hhandles] at hfiles
  exact ⟨hfiles, hsound _ (by decide +kernel)⟩

/-! ## After the listener is destroyed -/

/-- The steps that are left to the port. -/
def State.remaining (s : State) : Nat := 2 * s.pending.length + s.scheduled.length

/-- The listener is destroyed, and the calls that were in flight are cancelled. -/
structure Closed (s : State) : Prop where
  destroyed : s.destroyed = true
  canceled : ∀ op ∈ s.pending, op.canceled = true

theorem closed_destroy : Closed s.destroy := by
  refine ⟨rfl, fun op hop => ?_⟩
  obtain ⟨op', -, rfl⟩ := List.mem_map.1 hop
  rfl

/-- The calls in flight of a destroyed listener are cancelled. -/
theorem closed_of_destroyed {ls : List Label} (hr : listener.run {} ls = some s)
    (hd : s.destroyed = true) : Closed s := by
  refine StepSystem.invariant (M := listener) (I := fun s => s.destroyed = true → Closed s)
    (fun s l t hi hst hd => ?_) hr nofun hd
  cases Moves.of_step hst with
  | flags => exact ⟨hd, (hi hd).canceled⟩
  | initiated addr slot file connector hr hlive =>
    obtain ⟨op, handles, -, -, ⟨-, heq⟩ | ⟨-, slots, heq⟩⟩ :=
      asyncGetConnectionRequest_makes s addr slot file connector hr
    · rw [heq] at hd
      exact Bool.noConfusion (hlive.symm.trans hd)
    · rw [heq] at hd
      exact Bool.noConfusion (hlive.symm.trans hd)
  | marked hl p hlive => exact Bool.noConfusion (hlive.symm.trans hd)
  | ended op r => exact ⟨hd, fun o ho => (hi hd).canceled o (List.mem_of_mem_eraseP ho)⟩
  | completed op pd => exact ⟨hd, (hi hd).canceled⟩
  | destroyed => exact closed_destroy

/-- Once the listener is destroyed, nothing is initiated, every step of the port takes one from what remains, and
no other step adds to it. -/
theorem Closed.step (h : Closed s) (hst : listener.step s l = some t) :
    Closed t ∧ l.isInitiation = false ∧ t.remaining + l.isPort.toNat = s.remaining := by
  cases Moves.of_step hst with
  | flags hl =>
    rw [hl.2]
    exact ⟨⟨h.destroyed, h.canceled⟩, hl.1, rfl⟩
  | initiated addr slot file connector hr hlive => exact Bool.noConfusion (hlive.symm.trans h.destroyed)
  | marked hl p hlive => exact Bool.noConfusion (hlive.symm.trans h.destroyed)
  | ended op r hfind =>
    have hlen := (perm_cons_eraseP hfind).length_eq
    refine ⟨⟨h.destroyed, fun o ho => h.canceled o (List.mem_of_mem_eraseP ho)⟩, rfl, ?_⟩
    simp only [State.remaining, State.overlappedEnd, State.onCompletion, List.length_append, List.length_cons,
      List.length_nil, Label.isPort, Bool.toNat_true] at hlen ⊢
    omega
  | completed op pd hfind =>
    have hlen := (perm_cons_eraseP hfind).length_eq
    refine ⟨⟨h.destroyed, h.canceled⟩, rfl, ?_⟩
    rw [completeOp_eq]
    simp only [State.remaining, List.length_cons, Label.isPort, Bool.toNat_true] at hlen ⊢
    omega
  | destroyed hlive => exact Bool.noConfusion (hlive.symm.trans h.destroyed)

theorem Closed.run {ls : List Label} (h : Closed s) (hr : listener.run s ls = some t) :
    ls.countP Label.isInitiation = 0 ∧ t.remaining + ls.countP Label.isPort = s.remaining := by
  induction ls generalizing s with
  | nil =>
    obtain rfl := Option.some.inj hr
    exact ⟨rfl, rfl⟩
  | cons l ls ih =>
    obtain ⟨u, hu, hrest⟩ := StepSystem.run_cons.1 hr
    obtain ⟨hclosed, hnone, hrem⟩ := h.step hu
    obtain ⟨hnones, hrun⟩ := ih hclosed hrest
    refine ⟨by simp [hnones, hnone], ?_⟩
    rw [List.countP_cons]
    cases hport : l.isPort with
    | true =>
      rw [hport, Bool.toNat_true] at hrem
      simp only [if_true]
      omega
    | false =>
      rw [hport, Bool.toNat_false] at hrem
      simp only [Bool.false_eq_true, if_false]
      omega

/-- The port has a step to take while something remains. -/
theorem Closed.enabled (h : Closed s) (hrem : s.remaining ≠ 0) :
    ∃ l t, l.isPort = true ∧ listener.step s l = some t := by
  cases hp : s.pending with
  | cons op rest =>
    have hfind : s.pending.find? (fun o => o.addr == op.addr) = some op := by simp [hp]
    have hend : mayEnd op .aborted = true := h.canceled op (by simp [hp])
    refine ⟨.overlapped op.addr .aborted, s.overlappedEnd op .aborted, rfl, ?_⟩
    simp only [listener, Listener.step, hfind, hend, if_true]
  | nil =>
    cases hs : s.scheduled with
    | cons op rest =>
      have hfind : s.scheduled.find? (fun o => o.addr == op.addr) = some op := by simp [hs]
      refine ⟨.complete op.addr none, s.completeOp op none, rfl, ?_⟩
      simp only [listener, Listener.step, hfind]
    | nil => exact absurd (by simp [State.remaining, hp, hs]) hrem

/-- Once a listener is destroyed, every request that was made is answered by the completion port alone, which
always has a step to take and needs two for each call in flight and one for each completion that waits; whatever
else happens in between. -/
theorem destroyed_answers {ls : List Label} (hr : listener.run {} ls = some s) (hd : s.destroyed = true) :
    (s.remaining ≠ 0 → ∃ l t, l.isPort = true ∧ listener.step s l = some t) ∧
      ∀ ls' t, listener.run s ls' = some t → s.remaining ≤ ls'.countP Label.isPort →
        t.pending = [] ∧ t.scheduled = [] ∧ t.delivered.length = ls.countP Label.isInitiation := by
  have h := closed_of_destroyed hr hd
  refine ⟨h.enabled, fun ls' t hr' hle => ?_⟩
  -- nothing is initiated once the listener is destroyed
  obtain ⟨hnone, hrem⟩ := h.run hr'
  have hpending : t.pending.length = 0 := by
    unfold State.remaining at hrem hle
    omega
  have hscheduled : t.scheduled.length = 0 := by
    unfold State.remaining at hrem hle
    omega
  have hans := ((Custody.initial.run hr).run hr').answers
  refine ⟨List.length_eq_zero_iff.1 hpending, List.length_eq_zero_iff.1 hscheduled, ?_⟩
  omega

/-- The listener is destroyed over a call in flight. -/
def destroyedWaiting : List Label :=
  [.useDevice, .openListener (.common success),
    .asyncGetConnectionRequest 1 false (.common success) (.common success) ndPending, .destroy]

theorem destroyed_answers_waiting :
    (listener.after (listener.after {} destroyedWaiting)
      [.overlapped 1 .aborted, .useDevice, .complete 1 none]).delivered.length = 1 := by
  have hr : (listener.run {} destroyedWaiting).isSome = true := by decide +kernel
  have hr' : (listener.run (listener.after {} destroyedWaiting)
      [.overlapped 1 .aborted, .useDevice, .complete 1 none]).isSome = true := by decide +kernel
  have hdone := (destroyed_answers (StepSystem.run_after hr) (by decide +kernel)).2 _ _
    (StepSystem.run_after hr') (by decide +kernel)
  exact hdone.2.2.trans (by decide)

end RdmaOnAsio.Nd.Listener
