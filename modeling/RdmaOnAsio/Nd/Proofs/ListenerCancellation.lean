import Mathlib.Data.List.Nodup
import RdmaOnAsio.Nd.Cancellation

/-!
# What a signal does to the nd listener

An op that is armed has its call in flight, so `CancelIoEx` always finds it until the call has ended.
-/

namespace RdmaOnAsio.Nd.Listener

open ErrorCode

/-- An op by its address and by whether its slot is connected. -/
def GetConnectionOp.tag (op : GetConnectionOp) : Nat × Bool := (op.addr, op.slot)

/-- The ops that exist. -/
def State.tags (s : State) : List (Nat × Bool) := s.ops.map GetConnectionOp.tag

variable {s t : State} {op : GetConnectionOp} {l : Label} {a : Nat}

theorem tags_cancelIoEx (p : GetConnectionOp → Bool) : (s.cancelIoEx p).tags = s.tags := by
  have hpending : (s.cancelIoEx p).pending.map GetConnectionOp.tag =
      s.pending.map GetConnectionOp.tag := by
    refine map_changed ?_ s.pending
    exact fun _ => rfl
  rw [State.tags, State.tags, State.ops, State.ops, List.map_append, List.map_append, hpending]
  rfl

/-- Arming a slot is not seen by the ops. -/
theorem armNdCancellation_eq (s : State) (op : GetConnectionOp) :
    ∃ slots, s.armNdCancellation op = { s with slots := slots } := by
  unfold State.armNdCancellation
  split_ifs
  · exact ⟨_, rfl⟩
  · exact ⟨s.slots, rfl⟩

theorem slots_armNdCancellation (s : State) (op : GetConnectionOp) :
    (s.armNdCancellation op).slots = s.slots ∨
      (s.armNdCancellation op).slots = op.addr :: s.slots ∧ op.slot = true := by
  unfold State.armNdCancellation
  split_ifs with h
  · exact .inr ⟨rfl, h⟩
  · exact .inl rfl

/-- A new op is posted, or its call is in flight and its slot armed if it is connected. -/
theorem asyncGetConnectionRequest_cases (s : State) (addr : Nat) (slot : Bool)
    (file connector : NdErrorCode) (hr : Int) :
    ∃ op : GetConnectionOp, op.tag = (addr, slot) ∧ ∃ n,
      (s.asyncGetConnectionRequest addr slot file connector hr =
          { s with handles := n, scheduled := s.scheduled ++ [op] } ∨
        s.asyncGetConnectionRequest addr slot file connector hr =
          (State.armNdCancellation { s with handles := n } op).onPending op) := by
  unfold State.asyncGetConnectionRequest
  dsimp only
  split_ifs with ho hf hc he hp
  · exact ⟨_, rfl, _, .inl rfl⟩
  · exact ⟨_, rfl, _, .inl rfl⟩
  · exact ⟨_, rfl, _, .inl rfl⟩
  · exact ⟨_, rfl, _, .inl rfl⟩
  · exact ⟨_, rfl, s.handles + 1, .inr rfl⟩
  · exact ⟨_, rfl, _, .inl rfl⟩

theorem perm_tags_overlappedEnd (hfind : s.pending.find? (fun o => o.addr == op.addr) = some op)
    (r : IoResult) : (s.overlappedEnd op r).tags.Perm s.tags := by
  have hperm := (perm_cons_eraseP hfind).map GetConnectionOp.tag
  have hsame : (op.completeWith r.ec).tag = op.tag := rfl
  refine List.perm_iff_count.2 fun x => ?_
  simp only [State.tags, State.ops, State.overlappedEnd, State.onCompletion, List.map_append,
    List.count_append, hperm.count_eq, List.map_cons, List.map_nil, List.count_cons, List.count_nil, hsame]
  omega

theorem subperm_tags_completeOp (s : State) (op : GetConnectionOp) (pd : Option Nat) :
    (s.completeOp op pd).tags.Subperm s.tags := by
  refine List.Sublist.subperm (List.Sublist.map _ (List.Sublist.append_left ?_ _))
  exact List.eraseP_sublist

/-- The ops that exist are kept, with the one that a step initiates. -/
theorem tags_step (hst : listener.step s l = some t) :
    l.initiates = none ∧ t.tags.Subperm s.tags ∨
      ∃ addr slot, l.initiates = some addr ∧ t.tags.Subperm ((addr, slot) :: s.tags) := by
  change Listener.step s l = some t at hst
  cases l with
  | useDevice =>
    cases hst
    exact .inl ⟨rfl, List.Subperm.refl _⟩
  | openListener ec =>
    obtain ⟨-, ⟨⟩⟩ := Option.ite_none_left_eq_some.1 hst
    refine .inl ⟨rfl, ?_⟩
    unfold State.openListener
    split_ifs <;> exact List.Subperm.refl _
  | asyncGetConnectionRequest addr slot file connector hr =>
    obtain ⟨-, rfl⟩ := Option.ite_some_none_eq_some.1 hst
    refine .inr ⟨addr, slot, rfl, ?_⟩
    obtain ⟨op, htag, n, heq | heq⟩ := asyncGetConnectionRequest_cases s addr slot file connector hr
    · rw [heq, ← htag]
      have hperm : (s.pending ++ (s.scheduled ++ [op])).Perm (op :: s.ops) := by
        rw [← List.append_assoc]
        exact List.perm_append_singleton op _
      exact (hperm.map GetConnectionOp.tag).subperm
    · obtain ⟨slots, harm⟩ := armNdCancellation_eq { s with handles := n } op
      rw [heq, harm, ← htag]
      have hperm : (s.pending ++ [op] ++ s.scheduled).Perm (op :: s.ops) :=
        (List.perm_append_singleton op _).append_right _
      exact (hperm.map GetConnectionOp.tag).subperm
  | overlapped addr r =>
    cases hfind : s.pending.find? fun op => op.addr == addr with
    | none => simp [Listener.step, hfind] at hst
    | some op =>
      simp only [Listener.step, hfind] at hst
      obtain ⟨-, rfl⟩ := Option.ite_some_none_eq_some.1 hst
      have haddr : op.addr = addr := by simpa using List.find?_some hfind
      subst haddr
      exact .inl ⟨rfl, (perm_tags_overlappedEnd hfind r).subperm⟩
  | complete addr pd =>
    cases hfind : s.scheduled.find? fun op => op.addr == addr with
    | none => simp [Listener.step, hfind] at hst
    | some op =>
      simp only [Listener.step, hfind, Option.some.injEq] at hst
      subst hst
      exact .inl ⟨rfl, subperm_tags_completeOp s op pd⟩
  | emit addr =>
    obtain ⟨-, rfl⟩ := Option.ite_some_none_eq_some.1 hst
    exact .inl ⟨rfl, (List.Perm.of_eq (tags_cancelIoEx _)).subperm⟩
  | cancel =>
    obtain ⟨-, hst⟩ := Option.ite_none_left_eq_some.1 hst
    refine .inl ⟨rfl, ?_⟩
    split_ifs at hst <;> cases hst
    · exact (List.Perm.of_eq (tags_cancelIoEx _)).subperm
    · exact List.Subperm.refl _
  | destroy =>
    obtain ⟨-, ⟨⟩⟩ := Option.ite_none_left_eq_some.1 hst
    refine .inl ⟨rfl, ?_⟩
    show (s.cancelIoEx fun _ => true).tags.Subperm s.tags
    exact (List.Perm.of_eq (tags_cancelIoEx _)).subperm

theorem fresh_of_step (hst : listener.step s l = some t) (hb : l.initiates = some a) :
    a ∉ s.tags.map Prod.fst := by
  change Listener.step s l = some t at hst
  cases l with
  | asyncGetConnectionRequest addr slot file connector hr =>
    obtain ⟨⟨hfresh, -⟩, -⟩ := Option.ite_some_none_eq_some.1 hst
    cases hb
    intro hmem
    obtain ⟨x, hx, rfl⟩ := List.mem_map.1 hmem
    obtain ⟨op, hop, rfl⟩ := List.mem_map.1 hx
    simpa [GetConnectionOp.tag] using List.all_eq_true.1 hfresh op hop
  | _ => cases hb

/-- The slot that a step arms is that of an op that exists. -/
theorem slots_step (hst : listener.step s l = some t) :
    t.slots = s.slots ∨ ∃ addr, t.slots = addr :: s.slots ∧ (addr, true) ∈ t.tags := by
  change Listener.step s l = some t at hst
  cases l with
  | asyncGetConnectionRequest addr slot file connector hr =>
    obtain ⟨-, rfl⟩ := Option.ite_some_none_eq_some.1 hst
    obtain ⟨op, htag, n, heq | heq⟩ := asyncGetConnectionRequest_cases s addr slot file connector hr
    · rw [heq]
      exact .inl rfl
    · rw [heq]
      refine (slots_armNdCancellation { s with handles := n } op).imp_right ?_
      rintro ⟨hslots, hslot⟩
      refine ⟨op.addr, hslots, ?_⟩
      rw [show (op.addr, true) = op.tag by rw [GetConnectionOp.tag, hslot]]
      exact List.mem_map_of_mem (List.mem_append_left _ (List.mem_append_right _ List.mem_cons_self))
  | useDevice =>
    cases hst
    exact .inl rfl
  | openListener ec =>
    obtain ⟨-, ⟨⟩⟩ := Option.ite_none_left_eq_some.1 hst
    left
    unfold State.openListener
    split_ifs <;> rfl
  | overlapped addr r =>
    left
    simp only [Listener.step] at hst
    split at hst
    · obtain ⟨-, rfl⟩ := Option.ite_some_none_eq_some.1 hst
      rfl
    · cases hst
  | complete addr pd =>
    left
    simp only [Listener.step] at hst
    split at hst <;> cases hst
    rfl
  | emit addr =>
    obtain ⟨-, rfl⟩ := Option.ite_some_none_eq_some.1 hst
    exact .inl rfl
  | cancel =>
    left
    obtain ⟨-, hst⟩ := Option.ite_none_left_eq_some.1 hst
    split_ifs at hst <;> cases hst <;> rfl
  | destroy =>
    obtain ⟨-, ⟨⟩⟩ := Option.ite_none_left_eq_some.1 hst
    exact .inl rfl

theorem slotted_lawful : slotted.Lawful State.tags fun _ => True where
  invariant _ _ _ _ _ _ := trivial
  begins s l t a _ hst hb := by
    refine ⟨fresh_of_step hst hb, ?_⟩
    rcases tags_step hst with ⟨hnone, -⟩ | ⟨addr, slot, hsome, hsub⟩
    · cases hnone.symm.trans hb
    · cases hsome.symm.trans hb
      exact ⟨slot, hsub⟩
  keeps s l t _ hst hb := by
    rcases tags_step hst with ⟨-, hsub⟩ | ⟨addr, slot, hsome, -⟩
    · exact hsub
    · cases hsome.symm.trans hb
  slots s l t _ _ hnd hst := by
    refine (slots_step hst).imp_right ?_
    rintro ⟨addr, hslots, hmem⟩
    exact ⟨addr, hslots, fun b hb => (Prod.mk.inj (List.inj_on_of_nodup_map hnd hb hmem rfl)).2⟩
  emit _ := rfl

/-! ## The emit -/

theorem emit_step (hst : slotted.system.step s (slotted.emit a) = some t) :
    t = s.cancelIoEx fun op => op.addr == a := by
  obtain ⟨-, ⟨⟩⟩ := Option.ite_some_none_eq_some.1 hst
  rfl

/-- `CancelIoEx` marks one call. -/
theorem cancelIoEx_mem (hnd : (s.tags.map Prod.fst).Nodup) {before after : List GetConnectionOp}
    (hp : s.pending = before ++ op :: after) :
    (s.cancelIoEx fun o => o.addr == op.addr) = { s with
      pending := before ++ { op with canceled := true } :: after } := by
  have hnames : (s.pending.map GetConnectionOp.addr).Nodup := by
    rw [State.tags, List.map_map] at hnd
    exact hnd.sublist ((List.sublist_append_left _ _).map _)
  exact congrArg (fun ops => { s with pending := ops }) (map_name hnames hp)

/-- `CancelIoEx` finds no call that it has not marked. -/
theorem cancelIoEx_not_mem {p : GetConnectionOp → Bool}
    (h : ∀ op ∈ s.pending, p op = true → op.canceled = true) : s.cancelIoEx p = s := by
  refine congrArg (fun ops => { s with pending := ops }) (map_of_fixed fun op hop hp => ?_)
  have hcanceled := h op hop hp
  rw [← hcanceled]

theorem slotted_reaches : slotted.Reaches State.tags (fun _ => True) cancellation (fun _ _ => false)
    State.inFlightAt where
  own s a t _ hnd _ hst := by
    obtain rfl := emit_step hst
    refine iff_of_true ?_ rfl
    by_cases hflight : ∃ op ∈ s.pending, op.addr = a
    · obtain ⟨op, hop, rfl⟩ := hflight
      obtain ⟨before, after, hp⟩ := List.append_of_mem hop
      rw [cancelIoEx_mem hnd hp]
      exact ⟨fun _ => ⟨before, op, after, hp, rfl, rfl⟩, fun hnot => absurd ⟨op, hop, rfl⟩ hnot⟩
    · rw [cancelIoEx_not_mem fun op hop heq => absurd ⟨op, hop, beq_iff_eq.1 heq⟩ hflight]
      exact ⟨fun hpending => absurd hpending hflight, fun _ => rfl⟩
  other s a t _ hnd hst := by
    obtain rfl := emit_step hst
    constructor
    · intro heq
      rw [State.inFlightAt, List.any_eq_false]
      intro op hop hfound
      obtain ⟨haddr, hmark⟩ := Bool.and_eq_true_iff.1 hfound
      obtain rfl := beq_iff_eq.1 haddr
      obtain ⟨before, after, hp⟩ := List.append_of_mem hop
      have hsame : before ++ { op with canceled := true } :: after = before ++ op :: after := by
        rw [← hp]
        exact congrArg State.pending ((cancelIoEx_mem hnd hp).symm.trans heq)
      have hop' := List.head_eq_of_cons_eq (List.append_cancel_left hsame)
      rw [← hop'] at hmark
      cases hmark
    · intro hnot
      refine cancelIoEx_not_mem fun op hop haddr => ?_
      have hfound := List.any_eq_false.1 hnot op hop
      simpa [haddr] using hfound

end RdmaOnAsio.Nd.Listener
