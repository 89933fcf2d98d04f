import Mathlib.Data.List.Nodup
import RdmaOnAsio.Nd.Cancellation
import RdmaOnAsio.Nd.Proofs.Places

/-!
# What a signal does to the nd connector

There is one op at an address, so `CancelIoEx` marks one call or none. The functor of an op that was
handed over before its slot was armed may come when the op is gone, but not when another one is there.
-/

namespace RdmaOnAsio.Nd

open ErrorCode

/-- An op by its address and by whether its slot is connected. -/
def CmOp.tag (op : CmOp) : Nat × Bool := (op.addr, op.slot)

/-- The ops that exist. -/
def State.tags (s : State) : List (Nat × Bool) := s.entries.map fun e => e.1.tag

/-- If the slot of an op is about to be armed, no other op is at its address. -/
def State.ArmsOwn (s : State) : Prop :=
  ∀ op, s.initiation = .arm op → ∀ b, (op.addr, b) ∈ s.tags → b = op.slot

variable {s s' t : State} {op op' : CmOp} {pc : CompletePc} {x y : List (CmOp × Place)} {l : Label}
  {a : Nat}

theorem Shifts.tags (h : Shifts s s' x y) {z : List (Nat × Bool)}
    (hy : (y.map fun e => e.1.tag).Subperm (z ++ x.map fun e => e.1.tag)) :
    s'.tags.Subperm (z ++ s.tags) := by
  obtain ⟨rest, hbefore, hafter⟩ := h
  refine (hafter.map _).subperm.trans ?_
  refine List.Subperm.trans ?_ ((hbefore.map fun e : CmOp × Place => e.1.tag).symm.append_left z).subperm
  rw [List.map_append, List.map_append, ← List.append_assoc]
  exact (List.subperm_append_right _).2 hy

/-- An op goes from one place to another. -/
theorem Shifts.tags_moved {p q : Place} (h : Shifts s s' [(op, p)] [(op', q)]) (htag : op'.tag = op.tag) :
    s'.tags.Subperm s.tags :=
  h.tags (z := []) (by simp [htag])

/-- The initiating thread goes on with its op, or hands it over. -/
theorem tags_initiating {i : InitPc} {q : Place} (hi : s.initiation = i) (ho : i.owned? = some op)
    (h : Shifts s s' s.initiating [(op', q)]) (htag : op'.tag = op.tag) :
    s'.tags.Subperm s.tags := by
  rw [initiating_eq hi ho] at h
  exact h.tags_moved htag

theorem tags_gone (h : Shifts s s' x []) : s'.tags.Subperm s.tags :=
  h.tags (z := []) (List.nil_subperm)

theorem tags_cancelIoEx (p : CmOp → Bool) : (s.cancelIoEx p).tags = s.tags := by
  rw [State.tags, State.entries_cancelIoEx, List.map_map]
  refine List.map_congr_left fun e _ => ?_
  simp only [Function.comp_apply]
  rw [cancelEntry_op]
  rfl

theorem tag_connectCompleted (op : CmOp) (pd : Option Nat) (hr : Int) :
    (op.connectCompleted pd hr).1.tag = op.tag := by
  unfold CmOp.connectCompleted CmOp.captureRemotePd
  cases pd <;> dsimp only <;> split_ifs <;> rfl

theorem tag_waitComplete (op : CmOp) (alreadyClosed : Bool) :
    (op.waitComplete alreadyClosed).1.tag = op.tag := by
  unfold CmOp.waitComplete
  split_ifs <;> rfl

theorem tag_doComplete (op : CmOp) : op.doComplete.1.tag = op.tag := by
  unfold CmOp.doComplete
  split
  · unfold CmOp.connectComplete
    split_ifs
    · rfl
    · split <;> rfl
  · unfold CmOp.acceptComplete
    split_ifs <;> rfl
  · rfl

/-! ## The ops -/

theorem Initiates.tags {ans : Answer} (hst : Initiates s ans s') : s'.tags.Subperm s.tags := by
  cases hst with
  | terminal op hasQp hi hs => exact tags_initiating hi rfl (.post rfl rfl rfl rfl rfl) rfl
  | nullQp op hi hs => exact tags_initiating hi rfl (.post rfl rfl rfl rfl rfl) rfl
  | admitted op hi hs => exact tags_initiating hi rfl (.next rfl rfl rfl rfl rfl rfl) rfl
  | published op hi hs =>
    exact tags_initiating hi rfl (.next rfl rfl (owned_afterPublish op) rfl rfl rfl) rfl
  | publishLost op hi hs => exact tags_initiating hi rfl (.post rfl rfl rfl rfl rfl) rfl
  | bindFailed op ec hi he => exact tags_initiating hi rfl (.post rfl rfl rfl rfl rfl) rfl
  | bound op ec hi he => exact tags_initiating hi rfl (.next rfl rfl rfl rfl rfl rfl) rfl
  | callPending op hi => exact tags_initiating hi rfl (.submit rfl rfl rfl rfl rfl) rfl
  | accepted op hi hk => exact tags_initiating hi rfl (.post rfl rfl rfl rfl rfl) rfl
  | callEnded op hr hi hp hk => exact tags_initiating hi rfl (.post rfl rfl rfl rfl rfl) rfl
  | armed op hi =>
    obtain ⟨slots, heq⟩ := armNdCancellation_eq s op
    rw [heq]
    exact tags_gone (.init rfl rfl rfl rfl rfl)
  | latchSet op hi hp => exact tags_initiating hi rfl (.post rfl rfl rfl rfl rfl) rfl
  | latchClear op hi hp => exact tags_initiating hi rfl (.next rfl rfl rfl rfl rfl rfl) rfl
  | waitClosed op hi hs => exact tags_initiating hi rfl (.post rfl rfl rfl rfl rfl) rfl
  | waitNotOpen op hi hs ho => exact tags_initiating hi rfl (.post rfl rfl rfl rfl rfl) rfl
  | waitOpen op hi hs ho => exact tags_initiating hi rfl (.next rfl rfl rfl rfl rfl rfl) rfl
  | notifyPending op hi =>
    obtain ⟨slots, heq⟩ := armNdCancellation_eq s op
    rw [heq]
    exact tags_initiating hi rfl (.submit rfl rfl rfl rfl rfl) rfl
  | notifyEnded op hr hi hp => exact tags_initiating hi rfl (.post rfl rfl rfl rfl rfl) rfl

theorem Completes.tags {ans : Answer}
    (hfind : s.dispatching.find? (fun d => d.1.id == op.id) = some (op, pc))
    (hst : Completes s op pc ans s') : s'.tags.Subperm s.tags := by
  cases hst with
  | connectFailed pd hr op' hc =>
    have hsame := same_connectCompleted op pd hr
    have htag := tag_connectCompleted op pd hr
    rw [hc] at hsame htag
    exact (Shifts.goto hfind hsame.id rfl rfl rfl rfl).tags_moved htag
  | connectPending pd hr op' hc =>
    have hsame := same_connectCompleted op pd hr
    have htag := tag_connectCompleted op pd hr
    rw [hc] at hsame htag
    exact (Shifts.continue hfind hsame.id).tags_moved htag
  | connectEstablished pd hr op' hc =>
    have hsame := same_connectCompleted op pd hr
    have htag := tag_connectCompleted op pd hr
    rw [hc] at hsame htag
    exact (Shifts.goto hfind hsame.id rfl rfl rfl rfl).tags_moved htag
  | loadPeerClosed =>
    exact (Shifts.goto hfind (same_waitComplete op s.peerClosed).id rfl rfl rfl rfl).tags_moved
      (tag_waitComplete op s.peerClosed)
  | invoke => exact tags_gone (.finish hfind _)
  | _ => exact (Shifts.goto hfind rfl rfl rfl rfl rfl).tags_moved rfl

theorem Begins.tags {hasQp : Bool} (hb : Begins s op hasQp t) (used : List Nat) :
    State.tags { t with used := used } |>.Subperm (op.tag :: s.tags) := by
  have hopen : ∀ {u : State}, Opens s u → u.tags = s.tags := fun hu => by
    rw [State.tags, hu.entries, State.tags]
  cases hb with
  | rejected u ec hu he =>
    rw [← hopen hu]
    have hsh : Shifts u { u.reject op ec with used := used } _ [(op.completeWith ec, .port)] :=
      .post rfl rfl rfl rfl rfl
    exact hsh.tags (z := [op.tag]) (List.sublist_append_left [op.tag] _).subperm
  | guarded u hu ho =>
    rw [← hopen hu]
    have hsh : Shifts u { u with initiation := .guardState op hasQp, used := used } _
      [(op, .initiating (.guardState op hasQp))] := .next rfl rfl rfl rfl rfl rfl
    exact hsh.tags (z := [op.tag]) (List.sublist_append_left [op.tag] _).subperm

/-- The ops that exist are kept, with the one that a step initiates. -/
theorem tags_step (hst : connector.step s l = some s') :
    l.initiates = none ∧ s'.tags.Subperm s.tags ∨
      ∃ addr slot, l.initiates = some addr ∧ s'.tags.Subperm ((addr, slot) :: s.tags) := by
  cases Step.of_step hst with
  | useDevice => exact .inl ⟨rfl, tags_gone (.refl rfl rfl rfl rfl)⟩
  | openConnector ec hi => exact .inl ⟨rfl, tags_gone (opens_doOpen s ec).shifts⟩
  | assign hasHandle ec hi =>
    refine .inl ⟨rfl, ?_⟩
    unfold Nd.assign
    split_ifs
    · exact List.Subperm.refl _
    · exact tags_gone (.refl rfl rfl rfl rfl)
  | asyncConnect id addr slot hasQp requestSize replyCap opened hi hf =>
    exact .inr ⟨addr, slot, rfl, (begins_asyncConnect s _ hasQp requestSize opened).tags _⟩
  | asyncAccept id addr slot hasQp bindEc dataSize hi hf =>
    exact .inr ⟨addr, slot, rfl, (begins_asyncAccept s _ hasQp bindEc dataSize).tags _⟩
  | asyncWaitDisconnect id addr slot hi hf =>
    refine .inr ⟨addr, slot, rfl, ?_⟩
    have hsh : Shifts s
        { s with initiation := .waitLatch { id, addr, kind := .wait, slot }, used := id :: s.used }
        s.initiating _ := .next rfl rfl rfl rfl rfl rfl
    exact hsh.tags (z := [(addr, slot)]) (List.sublist_append_left [(addr, slot)] _).subperm
  | initiate id ans _ op ho hid hin => exact .inl ⟨rfl, hin.tags⟩
  | overlapped r op hp hm => exact .inl ⟨rfl, (Shifts.overlapped hp r).tags_moved rfl⟩
  | dispatch op hs => exact .inl ⟨rfl, (Shifts.dispatch hs).tags_moved (tag_doComplete op)⟩
  | complete ans op pc _ hd hc => exact .inl ⟨rfl, hc.tags hd⟩
  | disconnect => exact .inl ⟨rfl, tags_gone (.refl rfl rfl rfl rfl)⟩
  | disconnectStep i ans _ hd =>
    refine .inl ⟨rfl, ?_⟩
    cases hd with
    | cancelled old hc =>
      show (s.cancelIoEx fun _ => true).tags.Subperm s.tags
      exact (List.Perm.of_eq (tags_cancelIoEx _)).subperm
    | _ => exact tags_gone (.refl rfl rfl rfl rfl)
  | emit addr ha => exact .inl ⟨rfl, (List.Perm.of_eq (tags_cancelIoEx _)).subperm⟩

/-- An initiation uses an address at which there is no op. -/
theorem fresh_of_step (hst : connector.step s l = some s') (hb : l.initiates = some a) :
    a ∉ s.tags.map Prod.fst := by
  have hfresh : ∀ {id}, s.fresh id a = true → a ∉ s.tags.map Prod.fst := by
    intro id hf hmem
    obtain ⟨x, hx, rfl⟩ := List.mem_map.1 hmem
    obtain ⟨e, he, rfl⟩ := List.mem_map.1 hx
    have hop : e.1 ∈ s.ops := by
      have hops : s.ops = s.entries.map Prod.fst := by
        simp [State.ops, State.entries, State.initiating, Function.comp_def]
      rw [hops]
      exact List.mem_map_of_mem he
    have hne := List.all_eq_true.1 (Bool.and_eq_true_iff.1 hf).2 e.1 hop
    simp [CmOp.tag] at hne
  cases Step.of_step hst with
  | asyncConnect id addr slot hasQp requestSize replyCap opened hi hf =>
    cases hb
    exact hfresh hf
  | asyncAccept id addr slot hasQp bindEc dataSize hi hf =>
    cases hb
    exact hfresh hf
  | asyncWaitDisconnect id addr slot hi hf =>
    cases hb
    exact hfresh hf
  | _ => cases hb

/-! ## The slots -/

theorem mem_tags_initiating {i : InitPc} (hi : s.initiation = i) (ho : i.owned? = some op) :
    op.tag ∈ s.tags := by
  refine List.mem_map_of_mem (f := fun e : CmOp × Place => e.1.tag) (a := (op, .initiating i)) ?_
  rw [State.entries, initiating_eq hi ho]
  exact List.mem_cons_self

/-- A thread that is going to arm a slot has just handed its op over, or was going to before the step. -/
theorem arm_of_initiates {ans : Answer} (hst : Initiates s ans s') (harm : s'.initiation = .arm op) :
    op.tag ∈ s.tags := by
  cases hst with
  | publishLost op hi hs =>
    cases harm
    exact mem_tags_initiating hi rfl
  | bindFailed op ec hi he =>
    cases harm
    exact mem_tags_initiating hi rfl
  | callPending op hi =>
    cases harm
    exact mem_tags_initiating hi rfl
  | accepted op hi hk =>
    cases harm
    exact mem_tags_initiating hi rfl
  | callEnded op hr hi hp hk =>
    cases harm
    exact mem_tags_initiating hi rfl
  | published op hi hs =>
    unfold InitPc.afterPublish at harm
    dsimp only at harm
    split at harm <;> cases harm
  | _ => cases harm

theorem initiation_completes {ans : Answer} (hst : Completes s op pc ans s') :
    s'.initiation = s.initiation := by
  cases hst <;> rfl

theorem Begins.not_arm {hasQp : Bool} (hb : Begins s op hasQp t) : t.initiation ≠ .arm op' := by
  cases hb <;> nofun

theorem arm_step (hst : connector.step s l = some s') (harm : s'.initiation = .arm op) :
    l.initiates = none ∧ (s.initiation = .arm op ∨ op.tag ∈ s.tags) := by
  cases Step.of_step hst with
  | openConnector ec hi => exact ⟨rfl, .inl ((opens_doOpen s ec).initiation.symm.trans harm)⟩
  | assign hasHandle ec hi =>
    refine ⟨rfl, .inl ?_⟩
    unfold Nd.assign at harm
    split_ifs at harm <;> exact harm
  | asyncConnect id addr slot hasQp requestSize replyCap opened hi hf =>
    exact absurd harm (begins_asyncConnect s _ hasQp requestSize opened).not_arm
  | asyncAccept id addr slot hasQp bindEc dataSize hi hf =>
    exact absurd harm (begins_asyncAccept s _ hasQp bindEc dataSize).not_arm
  | asyncWaitDisconnect id addr slot hi hf => cases harm
  | initiate id ans _ op ho hid hin => exact ⟨rfl, .inr (arm_of_initiates hin harm)⟩
  | overlapped r op hp hm =>
    rw [overlappedEnd_eq] at harm
    exact ⟨rfl, .inl harm⟩
  | complete ans op pc _ hd hc => exact ⟨rfl, .inl ((initiation_completes hc).symm.trans harm)⟩
  | disconnectStep i ans _ hd =>
    refine ⟨rfl, .inl ?_⟩
    cases hd <;> exact harm
  | _ => exact ⟨rfl, .inl harm⟩

theorem State.ArmsOwn.initial : State.ArmsOwn {} := by
  intro op harm
  cases harm

theorem State.ArmsOwn.step (h : s.ArmsOwn) (hnd : (s.tags.map Prod.fst).Nodup)
    (hst : connector.step s l = some s') : s'.ArmsOwn := by
  intro op harm b hb
  obtain ⟨hnone, hop⟩ := arm_step hst harm
  have hmem : (op.addr, b) ∈ s.tags := by
    rcases tags_step hst with ⟨-, hsub⟩ | ⟨addr, slot, hsome, -⟩
    · exact hsub.subset hb
    · cases hnone.symm.trans hsome
  rcases hop with harm' | htag
  · exact h op harm' b hmem
  · exact (Prod.mk.inj (List.inj_on_of_nodup_map hnd hmem htag rfl)).2

theorem slots_armNdCancellation (s : State) (op : CmOp) :
    (s.armNdCancellation op).slots = s.slots ∨
      (s.armNdCancellation op).slots = op.addr :: s.slots ∧ op.slot = true := by
  unfold State.armNdCancellation
  split_ifs with h
  · exact .inr ⟨rfl, h⟩
  · exact .inl rfl

theorem Opens.slots (h : Opens s t) : t.slots = s.slots := by
  cases h <;> rfl

theorem Begins.slots {hasQp : Bool} (hb : Begins s op hasQp t) : t.slots = s.slots := by
  cases hb with
  | rejected u ec hu he => exact hu.slots
  | guarded u hu ho => exact hu.slots

theorem mem_tags_pending (h : op ∈ s.pending) : op.tag ∈ s.tags := by
  refine List.mem_map_of_mem (f := fun e : CmOp × Place => e.1.tag) (a := (op, .driver)) ?_
  exact List.mem_append_right _ (List.mem_append_left _ (List.mem_map_of_mem h))

/-- The functor that a step leaves is for an op that is in the driver, or was handed over before. -/
theorem slots_step (hst : connector.step s l = some s') :
    s'.slots = s.slots ∨ ∃ op, s'.slots = op.addr :: s.slots ∧ op.slot = true ∧ l.initiates = none ∧
      (s.initiation = .arm op ∨ op.tag ∈ s'.tags) := by
  cases Step.of_step hst with
  | openConnector ec hi => exact .inl (opens_doOpen s ec).slots
  | assign hasHandle ec hi =>
    left
    unfold Nd.assign
    split_ifs <;> rfl
  | asyncConnect id addr slot hasQp requestSize replyCap opened hi hf =>
    exact .inl (begins_asyncConnect s _ hasQp requestSize opened).slots
  | asyncAccept id addr slot hasQp bindEc dataSize hi hf =>
    exact .inl (begins_asyncAccept s _ hasQp bindEc dataSize).slots
  | initiate id ans _ op ho hid hin =>
    cases hin with
    | armed op hi =>
      refine (slots_armNdCancellation s op).imp_right ?_
      rintro ⟨hslots, hslot⟩
      exact ⟨op, hslots, hslot, rfl, .inl hi⟩
    | notifyPending op hi =>
      refine (slots_armNdCancellation s op).imp_right ?_
      rintro ⟨hslots, hslot⟩
      exact ⟨op, hslots, hslot, rfl, .inr (mem_tags_pending (List.mem_append_right _ List.mem_cons_self))⟩
    | _ => exact .inl rfl
  | overlapped r op hp hm =>
    left
    rw [overlappedEnd_eq]
  | complete ans op pc _ hd hc =>
    left
    cases hc <;> rfl
  | disconnectStep i ans _ hd =>
    left
    cases hd <;> rfl
  | _ => exact .inl rfl

theorem slotted_lawful : slotted.Lawful State.tags State.ArmsOwn where
  invariant _ _ _ h hnd hst := h.step hnd hst
  begins s l t a h hst hb := by
    refine ⟨fresh_of_step hst hb, ?_⟩
    rcases tags_step hst with ⟨hnone, -⟩ | ⟨addr, slot, hsome, hsub⟩
    · cases hnone.symm.trans hb
    · cases hsome.symm.trans hb
      exact ⟨slot, hsub⟩
  keeps s l t h hst hb := by
    rcases tags_step hst with ⟨-, hsub⟩ | ⟨addr, slot, hsome, -⟩
    · exact hsub
    · cases hsome.symm.trans hb
  slots s l t h _ hnd hst := by
    refine (slots_step hst).imp_right ?_
    rintro ⟨op, hslots, hslot, hnone, hop⟩
    refine ⟨op.addr, hslots, fun b hb => ?_⟩
    rcases hop with harm | htag
    · rcases tags_step hst with ⟨-, hsub⟩ | ⟨addr, slot, hsome, -⟩
      · exact (h op harm b (hsub.subset hb)).trans hslot
      · cases hnone.symm.trans hsome
    · exact (Prod.mk.inj (List.inj_on_of_nodup_map hnd hb htag rfl)).2.trans hslot
  emit _ := rfl

/-! ## The emit -/

theorem emit_step (hst : slotted.system.step s (slotted.emit a) = some t) :
    t = s.cancelIoEx fun op => op.addr == a := by
  obtain ⟨-, ⟨⟩⟩ := Option.ite_some_none_eq_some.1 hst
  rfl

/-- The calls in flight have different addresses. -/
theorem nodup_pending (hnd : (s.tags.map Prod.fst).Nodup) : (s.pending.map CmOp.addr).Nodup := by
  rw [State.tags, List.map_map] at hnd
  have hsub : (s.pending.map fun op => (op, Place.driver)).Sublist s.entries :=
    (List.sublist_append_left _ _).trans (List.sublist_append_right _ _)
  have hpend := hnd.sublist (hsub.map _)
  rwa [List.map_map] at hpend

/-- An op with a call in flight is not at the port or in a `do_complete`. -/
theorem betweenCallsAt_eq_false (hnd : (s.tags.map Prod.fst).Nodup) (hop : op ∈ s.pending) :
    s.betweenCallsAt op.addr = false := by
  rw [State.tags, List.map_map, State.entries, List.map_append, List.nodup_append] at hnd
  obtain ⟨-, hnd, -⟩ := hnd
  rw [List.map_append, List.nodup_append] at hnd
  obtain ⟨-, -, hne⟩ := hnd
  have hmem := List.mem_map_of_mem (f := fun op => (op, Place.driver)) hop
  have hother : ∀ e ∈ s.scheduled.map (fun op => (op, Place.port)) ++
      s.dispatching.map (fun d => (d.1, Place.thread d.2)), e.1.addr ≠ op.addr := fun e he heq =>
    hne _ (List.mem_map_of_mem hmem) _ (List.mem_map_of_mem he) heq.symm
  rw [State.betweenCallsAt, Bool.or_eq_false_iff, List.any_eq_false, List.any_eq_false]
  constructor
  · intro o ho hfound
    exact hother (o, .port) (List.mem_append_left _ (List.mem_map_of_mem ho))
      (beq_iff_eq.1 (Bool.and_eq_true_iff.1 hfound).1)
  · intro d hd hfound
    exact hother (d.1, .thread d.2)
      (List.mem_append_right _ (List.mem_map_of_mem (f := fun d => (d.1, Place.thread d.2)) hd))
      (beq_iff_eq.1 (Bool.and_eq_true_iff.1 hfound).1)

/-- `CancelIoEx` marks one call. -/
theorem cancelIoEx_mem (hnd : (s.tags.map Prod.fst).Nodup) {before after : List CmOp}
    (hp : s.pending = before ++ op :: after) :
    (s.cancelIoEx fun o => o.addr == op.addr) = { s with
      pending := before ++ { op with canceled := true } :: after } := by
  exact congrArg (fun ops => { s with pending := ops }) (map_name (nodup_pending hnd) hp)

/-- `CancelIoEx` finds no call that it has not marked. -/
theorem cancelIoEx_not_mem {p : CmOp → Bool}
    (h : ∀ op ∈ s.pending, p op = true → op.canceled = true) : s.cancelIoEx p = s := by
  refine congrArg (fun ops => { s with pending := ops }) (map_of_fixed fun op hop hp => ?_)
  have hcanceled := h op hop hp
  rw [← hcanceled]

theorem slotted_reaches :
    slotted.Reaches State.tags State.ArmsOwn cancellation State.betweenCallsAt State.inFlightAt where
  own s a t h hnd _ hst := by
    obtain rfl := emit_step hst
    by_cases hflight : ∃ op ∈ s.pending, op.addr = a
    · obtain ⟨op, hop, rfl⟩ := hflight
      obtain ⟨before, after, hp⟩ := List.append_of_mem hop
      rw [cancelIoEx_mem hnd hp]
      refine iff_of_true ⟨fun _ => ⟨before, op, after, hp, rfl, rfl⟩, fun hnot => ?_⟩ ?_
      · exact absurd (.inr ⟨op, hop, rfl⟩) hnot
      · exact betweenCallsAt_eq_false hnd hop
    · rw [cancelIoEx_not_mem fun op hop heq => absurd ⟨op, hop, beq_iff_eq.1 heq⟩ hflight]
      constructor
      · rintro ⟨habort, -⟩
        by_contra hbetween
        obtain ⟨before, op, after, hp, rfl, -⟩ := habort (.inl (by simpa using hbetween))
        exact hflight ⟨op, by simp [hp], rfl⟩
      · intro hbetween
        refine ⟨fun hpending => ?_, fun _ => rfl⟩
        rcases hpending with htrue | hcall
        · cases htrue.symm.trans hbetween
        · exact absurd hcall hflight
  other s a t h hnd hst := by
    obtain rfl := emit_step hst
    constructor
    · intro heq
      rw [State.inFlightAt, List.any_eq_false]
      intro op hop hfound
      obtain ⟨haddr, hmark⟩ := Bool.and_eq_true_iff.1 hfound
      obtain rfl := beq_iff_eq.1 haddr
      obtain ⟨before, after, hp⟩ := List.append_of_mem hop
      have hsame : before ++ { op with canceled := true } :: after = before ++ op :: after := by
        rw [← hp]
        exact congrArg State.pending ((cancelIoEx_mem hnd hp).symm.trans heq)
      have hop' := List.head_eq_of_cons_eq (List.append_cancel_left hsame)
      rw [← hop'] at hmark
      cases hmark
    · intro hnot
      refine cancelIoEx_not_mem fun op hop haddr => ?_
      have hfound := List.any_eq_false.1 hnot op hop
      simpa [haddr] using hfound

end RdmaOnAsio.Nd
