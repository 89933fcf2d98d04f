import Mathlib.Data.List.Nodup
import RdmaOnAsio.Lts.Lists
import RdmaOnAsio.Ibv.Cancellation
import RdmaOnAsio.Ibv.Proofs.Accounting

/-!
# What a signal does to the connector

An op exists at one address, and the key it may have is that address. So `cancel_ops_by_key` takes the
op at the address out of the queue if it is there with a connected slot, and otherwise changes nothing.
-/

namespace RdmaOnAsio.Ibv

open ErrorCode

/-- An op by its address and by whether its slot is connected. -/
def CmOp.tag (op : CmOp) : Nat × Bool := (op.addr, op.cancellationKey.isSome)

/-- The ops that exist. -/
def State.tags (s : State) : List (Nat × Bool) := s.existing.map CmOp.tag

/-- The key of an op is not its address. -/
def CmOp.misKeyed (op : CmOp) : Bool := op.cancellationKey.any fun key => key != op.addr

/-- The keys of the ops are their addresses. -/
def State.Keyed (s : State) : Prop := s.existing.countP CmOp.misKeyed = 0

variable {cfg : Config} {s t s' : State} {op : CmOp} {pc : PerformPc} {r : CmOp × Outcome} {l : Label}
  {a : Nat}

theorem CmOp.fixed_misKeyed : CmOp.Fixed CmOp.misKeyed := by
  intro op op' _ haddr hkey
  simp only [CmOp.misKeyed, haddr, hkey]

theorem CmOp.fixed_tag (x : Nat × Bool) : CmOp.Fixed fun op => op.tag == x := by
  intro op op' _ haddr hkey
  simp only [CmOp.tag, haddr, hkey]

theorem State.Keyed.key (h : s.Keyed) (hop : op ∈ s.existing) {key : Nat}
    (hkey : op.cancellationKey = some key) : key = op.addr := by
  have hnot := List.countP_eq_zero.1 h op hop
  simpa [CmOp.misKeyed, hkey] using hnot

/-- An op that an initiation begins with has its own address for a key, if any. -/
theorem Label.newOp_misKeyed (l : Label) : l.newOp.any CmOp.misKeyed = false := by
  cases l with
  | asyncConnect addr slot hasCreateQp requestSize replyCap =>
    cases slot <;> simp [Label.newOp, CmOp.newConnect, CmOp.misKeyed]
  | asyncAccept addr slot hasCreateQp bindFails dataSize =>
    cases slot <;> simp [Label.newOp, CmOp.newAccept, CmOp.misKeyed]
  | asyncWaitDisconnect addr slot => cases slot <;> simp [Label.newOp, CmOp.newWait, CmOp.misKeyed]
  | _ => rfl

theorem Label.initiates_eq (l : Label) : l.initiates = l.newOp.map CmOp.addr := by
  cases l <;> rfl

theorem State.Keyed.initial : State.Keyed {} := rfl

theorem State.Keyed.step (h : s.Keyed) (hst : (connector cfg).step s l = some s') : s'.Keyed := by
  have hstep := State.countP_existing_step CmOp.fixed_misKeyed hst
  rw [Label.newOp_misKeyed, show s.existing.countP CmOp.misKeyed = 0 from h] at hstep
  exact Nat.eq_zero_of_add_eq_zero_right hstep

/-- The tags are kept, with the one of the op that a step begins. -/
theorem State.tags_step (hst : (connector cfg).step s l = some s') :
    s'.tags.Subperm ((l.newOp.map CmOp.tag).toList ++ s.tags) := by
  refine List.subperm_ext_iff.2 fun x _ => ?_
  have hstep := State.countP_existing_step (CmOp.fixed_tag x) hst
  have hcount : ∀ s : State, s.tags.count x = s.existing.countP fun op => op.tag == x := by
    intro s
    rw [State.tags, List.count_eq_countP, List.countP_map]
    rfl
  rw [List.count_append, hcount, hcount]
  cases hnew : l.newOp with
  | none =>
    rw [hnew] at hstep
    simp only [Option.any_none, Bool.false_eq_true, if_false] at hstep
    omega
  | some op =>
    rw [hnew] at hstep
    simp only [Option.any_some] at hstep
    simp only [Option.map_some, Option.toList_some, List.count_singleton]
    omega

/-- An initiation uses an address at which there is no op. -/
theorem State.fresh_of_step (hst : (connector cfg).step s l = some s') (hb : l.initiates = some a) :
    a ∉ s.tags.map Prod.fst := by
  change Ibv.step cfg s l = some s' at hst
  have hfresh : s.initiation = .idle → s.freshAddr a = true → a ∉ s.tags.map Prod.fst := by
    intro hi hf hmem
    obtain ⟨x, hx, rfl⟩ := List.mem_map.1 hmem
    obtain ⟨op, hop, rfl⟩ := List.mem_map.1 hx
    rw [State.existing, hi] at hop
    have hne := List.all_eq_true.1 hf op hop
    simp [CmOp.tag] at hne
  cases l with
  | asyncConnect addr slot hasCreateQp requestSize replyCap =>
    obtain ⟨⟨hi, -, hf⟩, -⟩ := Option.ite_some_none_eq_some.1 hst
    cases hb
    exact hfresh hi hf
  | asyncAccept addr slot hasCreateQp bindFails dataSize =>
    obtain ⟨⟨hi, -, hf⟩, -⟩ := Option.ite_some_none_eq_some.1 hst
    cases hb
    exact hfresh hi hf
  | asyncWaitDisconnect addr slot =>
    obtain ⟨⟨hi, -, hf⟩, -⟩ := Option.ite_some_none_eq_some.1 hst
    cases hb
    exact hfresh hi hf
  | _ => cases hb

/-! ## The slots -/

theorem State.slots_nextOp : s.nextOp.slots = s.slots := by
  unfold State.nextOp
  cases s.readQueue <;> rfl

theorem State.slots_proceed : (s.proceed r).slots = s.slots := by
  obtain ⟨op, out⟩ := r
  cases out with
  | goto pc => rfl
  | ret st =>
    cases st with
    | notDone => rfl
    | done => exact State.slots_nextOp

/-- The initiating thread arms the slot of its op, if it is connected. -/
theorem Initiates.slots {ans : Answer} (hst : Initiates s ans s') :
    s'.slots = s.slots ∨ ∃ op ∈ s'.existing, ∃ key, op.cancellationKey = some key ∧
      s'.slots = key :: s.slots := by
  have harm : ∀ {i : InitPc} {o : CmOp}, o ∈ i.ops →
      ({ s.armCmCancellation o with initiation := i } : State).slots = s.slots ∨
        ∃ op ∈ ({ s.armCmCancellation o with initiation := i } : State).existing, ∃ key,
          op.cancellationKey = some key ∧
            ({ s.armCmCancellation o with initiation := i } : State).slots = key :: s.slots := by
    intro i o ho
    unfold State.armCmCancellation
    cases hkey : o.cancellationKey with
    | none => exact .inl rfl
    | some key => exact .inr ⟨o, List.mem_append_left _ ho, key, hkey, rfl⟩
  cases hst with
  | guardPassed op hi hs =>
    refine harm ?_
    rw [InitPc.ops_afterGuard]
    exact List.mem_cons_self
  | waitOpen op hi hs => exact harm List.mem_cons_self
  | _ => exact .inl rfl

theorem State.slots_step (hst : (connector cfg).step s l = some s') :
    s'.slots = s.slots ∨ ∃ op ∈ s'.existing, ∃ key, op.cancellationKey = some key ∧
      s'.slots = key :: s.slots := by
  cases Step.of_step hst with
  | initiate ans _ hin => exact hin.slots
  | performIo he hr hlt => exact .inl State.slots_nextOp
  | perform op pc ans t r hr hp =>
    left
    rw [State.slots_proceed]
    cases hp <;> rfl
  | complete i op hop =>
    left
    unfold completeOp
    split_ifs <;> rfl
  | beginConnect addr slot hasCreateQp requestSize replyCap hi hlt => exact .inl rfl
  | beginAccept addr slot hasCreateQp bindFails dataSize hi hlt => exact .inl rfl
  | disconnectStep i ans _ hd =>
    left
    cases hd <;> rfl
  | _ => exact .inl rfl

theorem slotted_lawful (cfg : Config) : (slotted cfg).Lawful State.tags State.Keyed where
  invariant _ _ _ h _ hst := h.step hst
  begins s l t a h hst hb := by
    refine ⟨State.fresh_of_step hst hb, ?_⟩
    change l.initiates = some a at hb
    rw [Label.initiates_eq] at hb
    obtain ⟨op, hnew, rfl⟩ := Option.map_eq_some_iff.1 hb
    have hsub := State.tags_step hst
    rw [hnew] at hsub
    exact ⟨_, hsub⟩
  keeps s l t h hst hb := by
    change l.initiates = none at hb
    rw [Label.initiates_eq] at hb
    have hsub := State.tags_step hst
    rw [Option.map_eq_none_iff.1 hb] at hsub
    exact hsub
  slots s l t _ h hnd hst := by
    rcases State.slots_step hst with hsame | ⟨op, hop, key, hkey, hslots⟩
    · exact .inl hsame
    · obtain rfl := h.key hop hkey
      refine .inr ⟨op.addr, hslots, fun b hb => ?_⟩
      have htag : op.tag ∈ t.tags := List.mem_map_of_mem hop
      have heq : (op.addr, b) = op.tag := List.inj_on_of_nodup_map hnd hb htag rfl
      rw [show b = op.tag.2 from congrArg Prod.snd heq, CmOp.tag, hkey, Option.isSome_some]
  emit _ := rfl

/-! ## The emit -/

theorem emit_step (hst : (slotted cfg).system.step s ((slotted cfg).emit a) = some t) :
    s.reactor = .unlocked ∧ t = s.cancelOpsByKey a := by
  obtain ⟨⟨-, hr, -⟩, ⟨⟩⟩ := Option.ite_some_none_eq_some.1 hst
  exact ⟨hr, rfl⟩

theorem State.mem_existing_of_readQueue (h : op ∈ s.readQueue) : op ∈ s.existing :=
  List.mem_append_right _ (List.mem_append_left _ (List.mem_append_right _ h))

theorem InitPc.mem_ops_of_starting {i : InitPc} (h : i.starting = some op) : op ∈ i.ops := by
  cases i <;> cases h <;> exact List.mem_cons_self

/-- The initiating thread and the queue have no op with the same address. -/
theorem State.ne_starting (hnd : (s.tags.map Prod.fst).Nodup) {o : CmOp}
    (ho : s.initiation.starting = some o) (hop : op ∈ s.readQueue) : o.addr ≠ op.addr := by
  have htags : (s.existing.map CmOp.addr).Nodup := by
    rwa [State.tags, List.map_map] at hnd
  rw [State.existing, List.map_append, List.nodup_append] at htags
  exact htags.2.2 _ (List.mem_map_of_mem (InitPc.mem_ops_of_starting ho)) _
    (List.mem_map_of_mem (List.mem_append_left _ (List.mem_append_right _ hop)))

/-- The queued ops have different addresses. -/
theorem State.nodup_readQueue (hnd : (s.tags.map Prod.fst).Nodup) :
    (s.readQueue.map CmOp.addr).Nodup := by
  have htags : (s.existing.map CmOp.addr).Nodup := by
    rwa [State.tags, List.map_map] at hnd
  refine htags.sublist (List.Sublist.map _ ?_)
  exact (List.sublist_append_right _ _).trans
    ((List.sublist_append_left _ _).trans (List.sublist_append_right _ _))

/-- The key finds one op. -/
theorem State.cancelOpsByKey_mem (h : s.Keyed) (hnd : (s.tags.map Prod.fst).Nodup)
    {before after : List CmOp} (hq : s.readQueue = before ++ op :: after)
    (hkey : op.cancellationKey = some op.addr) :
    s.cancelOpsByKey op.addr = { s with
      readQueue := before ++ after, scheduled := s.scheduled ++ [op.abort] } := by
  obtain ⟨hfound, hrest⟩ := filter_key (State.nodup_readQueue hnd)
    (fun o ho _ hko => h.key (State.mem_existing_of_readQueue ho) hko) hq hkey
  unfold State.cancelOpsByKey
  rw [hfound]
  exact congrArg (fun ops => { s with readQueue := ops, scheduled := s.scheduled ++ [op.abort] }) hrest

/-- The key finds nothing. -/
theorem State.cancelOpsByKey_not_mem (h : ∀ op ∈ s.readQueue, op.cancellationKey ≠ some a) :
    s.cancelOpsByKey a = s := by
  obtain ⟨hfound, hrest⟩ := filter_of_not
    (p := fun op : CmOp => op.cancellationKey == some a) fun op hop => beq_eq_false_iff_ne.2 (h op hop)
  unfold State.cancelOpsByKey
  rw [hfound, List.map_nil, List.append_nil]
  exact congrArg (fun ops => { s with readQueue := ops }) hrest

theorem slotted_reaches (cfg : Config) :
    (slotted cfg).Reaches State.tags State.Keyed cancellation State.initiatingAt State.queuedAt where
  own s a t h hnd hslot hst := by
    obtain ⟨hr, rfl⟩ := emit_step hst
    by_cases hqueued : ∃ op ∈ s.readQueue, op.addr = a
    · obtain ⟨op, hop, rfl⟩ := hqueued
      obtain ⟨before, after, hq⟩ := List.append_of_mem hop
      have hmem := State.mem_existing_of_readQueue hop
      have hkey : op.cancellationKey = some op.addr := by
        obtain ⟨key, hkey⟩ := Option.isSome_iff_exists.1 (hslot _ (List.mem_map_of_mem (f := CmOp.tag) hmem))
        rw [hkey, h.key hmem hkey]
      rw [State.cancelOpsByKey_mem h hnd hq hkey]
      refine iff_of_true ⟨fun _ => ⟨before, op, after, hq, rfl, rfl⟩, fun hnot => ?_⟩ ?_
      · refine absurd ⟨op, List.mem_append_right _ (List.mem_append_right _ hop), rfl⟩ hnot
      · rw [State.initiatingAt, Option.any_eq_false]
        intro o ho
        simpa using State.ne_starting hnd ho hop
    · -- nothing is at the address, or an op that is not started yet
      rw [State.cancelOpsByKey_not_mem fun op hop hkey =>
        hqueued ⟨op, hop, (h.key (State.mem_existing_of_readQueue hop) hkey).symm⟩]
      have hpending : cancellation.pending s a ↔ s.initiatingAt a = true := by
        rw [State.initiatingAt, Option.any_eq_true]
        constructor
        · rintro ⟨op, hop, rfl⟩
          rcases List.mem_append.1 hop with hop | hop
          · exact ⟨op, Option.mem_toList.1 hop, beq_self_eq_true _⟩
          · rw [State.armed, hr] at hop
            exact absurd ⟨op, hop, rfl⟩ hqueued
        · rintro ⟨op, hop, heq⟩
          exact ⟨op, List.mem_append_left _ (Option.mem_toList.2 hop), beq_iff_eq.1 heq⟩
      constructor
      · rintro ⟨habort, -⟩
        by_contra hinit
        obtain ⟨before, op, after, hq, rfl, -⟩ := habort (hpending.2 (by simpa using hinit))
        exact hqueued ⟨op, by simp [hq], rfl⟩
      · intro hinit
        refine ⟨fun hp => ?_, fun _ => rfl⟩
        rw [hpending.1 hp] at hinit
        cases hinit
  other s a t h hnd hst := by
    obtain ⟨-, rfl⟩ := emit_step hst
    constructor
    · intro heq
      rw [State.queuedAt, List.any_eq_false]
      intro op hop hkey
      have hmem : op ∈ (s.cancelOpsByKey a).readQueue := heq.symm ▸ hop
      have hne := (List.mem_filter.1 hmem).2
      rw [beq_iff_eq.1 hkey] at hne
      simp at hne
    · intro hnot
      refine State.cancelOpsByKey_not_mem fun op hop hkey => ?_
      exact List.any_eq_false.1 hnot op hop (beq_iff_eq.2 hkey)

end RdmaOnAsio.Ibv
