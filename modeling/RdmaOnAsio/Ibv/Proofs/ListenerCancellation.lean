import Mathlib.Data.List.Nodup
import RdmaOnAsio.Ibv.Cancellation
import RdmaOnAsio.Ibv.Proofs.ListenerStep

/-!
# What a signal does to the listener

As for the connector, the key of an op is its address and there is one op at an address.
-/

namespace RdmaOnAsio.Ibv.Listener

open ErrorCode

/-- The address and the key of an op. -/
def GetConnectionOp.ident (op : GetConnectionOp) : Nat × Option Nat := (op.addr, op.cancellationKey)

/-- The ops that exist, by address and key. -/
def State.idents (s : State) : List (Nat × Option Nat) := s.ops.map GetConnectionOp.ident

/-- The ops that exist, by address and by whether their slot is connected. -/
def State.tags (s : State) : List (Nat × Bool) := s.idents.map fun x => (x.1, x.2.isSome)

/-- The keys of the ops are their addresses. -/
def State.Keyed (s : State) : Prop := ∀ x ∈ s.idents, ∀ key, x.2 = some key → key = x.1

variable {s t : State} {op : GetConnectionOp} {l : Label} {a : Nat}

theorem idents_eq_cores (s : State) : s.idents = s.cores.map GetConnectionOp.ident := by
  rw [State.cores, List.map_map]
  rfl

theorem map_fst_tags (s : State) : s.tags.map Prod.fst = s.ops.map GetConnectionOp.addr := by
  rw [State.tags, State.idents, List.map_map, List.map_map]
  rfl

theorem ident_onEvent (op : GetConnectionOp) (ev : ListenEvent) (channel : Nat)
    (create nonblocking migrate : NativeResult) :
    (op.onEvent ev channel create nonblocking migrate).1.ident = op.ident := by
  unfold GetConnectionOp.onEvent
  split
  · rfl
  · dsimp only
    split <;> rfl

/-- The ops that exist are kept, with the one that a step initiates. -/
theorem idents_step (hst : listener.step s l = some t) :
    t.idents.Subperm s.idents ∨
      ∃ addr slot key, l = .asyncGetConnectionRequest addr slot ∧ (key = none ∨ key = some addr) ∧
        t.idents.Subperm ((addr, key) :: s.idents) := by
  rw [idents_eq_cores, idents_eq_cores]
  cases Effect.of_step hst with
  | moved hkept hcores hframe hchildren hchannel => exact .inl (hcores.map _).subperm
  | arrived event privateData hs => exact .inl (hs ▸ List.Subperm.refl _)
  | initiated addr slot key hfresh hkey hkept hcores hframe hchildren hchannel =>
    exact .inr ⟨addr, slot, key, rfl, hkey, (hcores.map GetConnectionOp.ident).subperm⟩
  | performed create nonblocking migrate op ev rest h =>
    left
    have hcores := (h.cores.map GetConnectionOp.ident).subperm
    rw [List.map_cons] at hcores
    rw [h.before, List.map_cons]
    have hsame : (op.onEvent ev s.channels create nonblocking migrate).1.core.ident = op.core.ident :=
      ident_onEvent op ev s.channels create nonblocking migrate
    rwa [hsame] at hcores
  | completed i op ops hcores hs =>
    exact .inl ((List.sublist_cons_self _ _).subperm.trans (hcores.map _).symm.subperm)
  | dropped i d ds hdelivered hs => exact .inl (hs ▸ List.Subperm.refl _)
  | destroyed i op ops hcores hs =>
    exact .inl ((List.sublist_cons_self _ _).subperm.trans (hcores.map _).symm.subperm)

theorem State.Keyed.initial : State.Keyed {} := by
  intro x hx
  cases hx

theorem State.Keyed.step (h : s.Keyed) (hst : listener.step s l = some t) : t.Keyed := by
  intro x hx key hkey
  rcases idents_step hst with hsub | ⟨addr, slot, k, -, hk, hsub⟩
  · exact h x (hsub.subset hx) key hkey
  · rcases List.mem_cons.1 (hsub.subset hx) with rfl | hmem
    · rcases hk with rfl | rfl
      · cases hkey
      · exact (Option.some.inj hkey).symm
    · exact h x hmem key hkey

theorem fresh_of_step (hst : listener.step s l = some t) (hb : l.initiates = some a) :
    a ∉ s.tags.map Prod.fst := by
  change Listener.step s l = some t at hst
  cases l with
  | asyncGetConnectionRequest addr slot =>
    obtain ⟨⟨hfresh, -, -⟩, -⟩ := Option.ite_some_none_eq_some.1 hst
    cases hb
    rw [map_fst_tags]
    intro hmem
    obtain ⟨op, hop, heq⟩ := List.mem_map.1 hmem
    simpa [heq] using List.all_eq_true.1 hfresh op hop
  | _ => cases hb

/-! ## The slots -/

theorem slots_nextOp (s : State) : s.nextOp.slots = s.slots := by
  unfold State.nextOp
  cases s.readQueue <;> rfl

theorem slots_performStep {ans : Answer} (hst : performStep s ans = some t) : t.slots = s.slots := by
  unfold performStep at hst
  split at hst
  · split at hst
    · cases hst
    · obtain rfl := Option.some.inj hst
      exact slots_nextOp _
  · obtain ⟨-, rfl⟩ := Option.ite_some_none_eq_some.1 hst
    rfl
  · obtain ⟨-, rfl⟩ := Option.ite_some_none_eq_some.1 hst
    exact slots_nextOp _
  · cases hst

/-- The slot of a new op is armed if it is connected. -/
theorem slots_asyncGetConnectionRequest (s : State) (addr : Nat) (slot : Bool) :
    (s.asyncGetConnectionRequest addr slot).slots = s.slots ∨
      (s.asyncGetConnectionRequest addr slot).slots = addr :: s.slots ∧
        (addr, true) ∈ (s.asyncGetConnectionRequest addr slot).tags := by
  unfold State.asyncGetConnectionRequest
  by_cases ho : s.isOpen = true
  · cases slot with
    | false => exact .inl (by simp [ho, State.startOp, State.armCmCancellation])
    | true =>
      right
      simp [ho, State.startOp, State.armCmCancellation, State.tags, State.idents, State.ops,
        GetConnectionOp.ident]
  · exact .inl (by simp [ho])

theorem slots_step (hst : listener.step s l = some t) :
    t.slots = s.slots ∨ ∃ addr, t.slots = addr :: s.slots ∧ (addr, true) ∈ t.tags := by
  change Listener.step s l = some t at hst
  cases l with
  | asyncGetConnectionRequest addr slot =>
    obtain ⟨-, rfl⟩ := Option.ite_some_none_eq_some.1 hst
    exact (slots_asyncGetConnectionRequest s addr slot).imp_right fun h => ⟨addr, h⟩
  | «open» r =>
    obtain ⟨-, ⟨⟩⟩ := Option.ite_none_left_eq_some.1 hst
    exact .inl rfl
  | performIo =>
    obtain ⟨-, rfl⟩ := Option.ite_some_none_eq_some.1 hst
    exact .inl (slots_nextOp _)
  | perform ans => exact .inl (slots_performStep hst)
  | complete i =>
    left
    simp only [Listener.step] at hst
    split at hst
    · obtain ⟨-, ⟨⟩⟩ := Option.ite_none_left_eq_some.1 hst
      rfl
    · cases hst
  | drop i =>
    left
    simp only [Listener.step] at hst
    split at hst <;> cases hst
    rfl
  | destroyOp i =>
    left
    simp only [Listener.step] at hst
    split at hst
    · obtain ⟨-, rfl⟩ := Option.ite_some_none_eq_some.1 hst
      rfl
    · cases hst
  | _ =>
    obtain ⟨-, rfl⟩ := Option.ite_some_none_eq_some.1 hst
    exact .inl rfl

theorem slotted_lawful : slotted.Lawful State.tags State.Keyed where
  invariant _ _ _ h _ hst := h.step hst
  begins s l t a h hst hb := by
    refine ⟨fresh_of_step hst hb, ?_⟩
    rcases idents_step hst with hsub | ⟨addr, slot, key, rfl, -, hsub⟩
    · exact ⟨false, (subperm_map _ hsub).trans (List.sublist_cons_self _ _).subperm⟩
    · cases hb
      exact ⟨key.isSome, subperm_map (fun x : Nat × Option Nat => (x.1, x.2.isSome)) hsub⟩
  keeps s l t h hst hb := by
    rcases idents_step hst with hsub | ⟨addr, slot, key, rfl, -, hsub⟩
    · exact subperm_map _ hsub
    · cases hb
  slots s l t _ h hnd hst := by
    refine (slots_step hst).imp_right ?_
    rintro ⟨addr, hslots, hmem⟩
    exact ⟨addr, hslots, fun b hb => (Prod.mk.inj (List.inj_on_of_nodup_map hnd hb hmem rfl)).2⟩
  emit _ := rfl

/-! ## The emit -/

theorem emit_step (hst : slotted.system.step s (slotted.emit a) = some t) :
    s.performing = none ∧ t = s.cancelOpsByKey a := by
  obtain ⟨⟨-, hp, -⟩, ⟨⟩⟩ := Option.ite_some_none_eq_some.1 hst
  exact ⟨hp, rfl⟩

theorem mem_ops_of_readQueue (h : op ∈ s.readQueue) : op ∈ s.ops :=
  List.mem_append_left _ (List.mem_append_left _ (List.mem_append_right _ h))

theorem State.Keyed.key (h : s.Keyed) (hop : op ∈ s.readQueue) {key : Nat}
    (hkey : op.cancellationKey = some key) : key = op.addr :=
  h op.ident (List.mem_map_of_mem (mem_ops_of_readQueue hop)) key hkey

/-- The queued ops have different addresses. -/
theorem nodup_readQueue (hnd : (s.tags.map Prod.fst).Nodup) :
    (s.readQueue.map GetConnectionOp.addr).Nodup := by
  rw [map_fst_tags] at hnd
  refine hnd.sublist (List.Sublist.map _ ?_)
  exact (List.sublist_append_right _ _).trans
    ((List.sublist_append_left _ _).trans (List.sublist_append_left _ _))

/-- The key finds one op. -/
theorem cancelOpsByKey_mem (h : s.Keyed) (hnd : (s.tags.map Prod.fst).Nodup)
    {before after : List GetConnectionOp} (hq : s.readQueue = before ++ op :: after)
    (hkey : op.cancellationKey = some op.addr) :
    s.cancelOpsByKey op.addr = { s with
      readQueue := before ++ after
      scheduled := s.scheduled ++ [{ op with ec := operationAborted }] } := by
  obtain ⟨hfound, hrest⟩ := filter_key (nodup_readQueue hnd) (fun o ho _ hko => h.key ho hko) hq hkey
  unfold State.cancelOpsByKey
  rw [hfound]
  exact congrArg (fun ops => { s with
    readQueue := ops, scheduled := s.scheduled ++ [{ op with ec := operationAborted }] }) hrest

/-- The key finds nothing. -/
theorem cancelOpsByKey_not_mem (h : ∀ op ∈ s.readQueue, op.cancellationKey ≠ some a) :
    s.cancelOpsByKey a = s := by
  obtain ⟨hfound, hrest⟩ := filter_of_not
    (p := fun op : GetConnectionOp => op.cancellationKey == some a)
    fun op hop => beq_eq_false_iff_ne.2 (h op hop)
  unfold State.cancelOpsByKey
  rw [hfound, List.map_nil, List.append_nil]
  exact congrArg (fun ops => { s with readQueue := ops }) hrest

/-- An op is queued as soon as its slot is armed, so a signal always reaches it. -/
theorem slotted_reaches :
    slotted.Reaches State.tags State.Keyed cancellation (fun _ _ => false) State.queuedAt where
  own s a t h hnd hslot hst := by
    obtain ⟨hp, rfl⟩ := emit_step hst
    refine iff_of_true ?_ rfl
    by_cases hqueued : ∃ op ∈ s.readQueue, op.addr = a
    · obtain ⟨op, hop, rfl⟩ := hqueued
      obtain ⟨before, after, hq⟩ := List.append_of_mem hop
      have htag : (op.addr, op.cancellationKey.isSome) ∈ s.tags :=
        List.mem_map_of_mem (f := fun x : Nat × Option Nat => (x.1, x.2.isSome))
          (List.mem_map_of_mem (f := GetConnectionOp.ident) (mem_ops_of_readQueue hop))
      obtain ⟨key, hkey⟩ := Option.isSome_iff_exists.1 (hslot _ htag)
      rw [h.key hop hkey] at hkey
      rw [cancelOpsByKey_mem h hnd hq hkey]
      refine ⟨fun _ => ⟨before, op, after, hq, rfl, rfl⟩, fun hnot => ?_⟩
      exact absurd ⟨op, List.mem_append_right _ hop, rfl⟩ hnot
    · rw [cancelOpsByKey_not_mem fun op hop hkey => hqueued ⟨op, hop, (h.key hop hkey).symm⟩]
      refine ⟨?_, fun _ => rfl⟩
      rintro ⟨op, hop, heq⟩
      rw [hp] at hop
      exact absurd ⟨op, hop, heq⟩ hqueued
  other s a t h hnd hst := by
    obtain ⟨-, rfl⟩ := emit_step hst
    constructor
    · intro heq
      rw [State.queuedAt, List.any_eq_false]
      intro op hop hkey
      have hmem : op ∈ (s.cancelOpsByKey a).readQueue := heq.symm ▸ hop
      have hne := (List.mem_filter.1 hmem).2
      rw [beq_iff_eq.1 hkey] at hne
      simp at hne
    · intro hnot
      refine cancelOpsByKey_not_mem fun op hop hkey => ?_
      exact List.any_eq_false.1 hnot op hop (beq_iff_eq.2 hkey)

end RdmaOnAsio.Ibv.Listener
