import Mathlib.Data.List.Nodup
import RdmaOnAsio.Ibv.Proofs.ListenerStep

/-!
# The ownership of incoming connections

Every child whose `CONNECT_REQUEST` was read is in exactly one connector handle or was destroyed once,
and its channel goes after it, as long as `create_event_channel` does not fail for it. What the handles
hold is accounted for against the pairs that were made; a step of the listener makes a pair, moves
handles or destroys one.
-/

namespace RdmaOnAsio.Ibv.Listener

open ErrorCode

/-- The child announced by a `CONNECT_REQUEST`. -/
def ListenEvent.child? (ev : ListenEvent) : Option Nat :=
  if ev.event = .connectRequest then some ev.id else none

/-- The children that were announced and not read. -/
def State.unread (s : State) : List Nat := s.channel.filterMap ListenEvent.child?

/-- The `cm_id` that is destroyed. -/
def Release.id? : Release → Option Nat
  | .destroyId id => some id
  | .ack _ | .destroyChannel _ => none

/-- The event channel that is destroyed. -/
def Release.channel? : Release → Option Nat
  | .destroyChannel channel => some channel
  | .ack _ | .destroyId _ => none

/-- No channel is destroyed before the child it was paired with. -/
def Outlives (paired : List (Nat × Nat)) (released : List Release) : Prop :=
  ∀ id channel, (id, channel) ∈ paired →
    ∀ pre, pre <+: released → .destroyChannel channel ∈ pre → .destroyId id ∈ pre

/-- Every child that was read is in one handle or was destroyed once; a handle with a child has a
channel for it that exists, and the channel is destroyed after the child. -/
structure State.Owned (s : State) : Prop where
  once : ∀ id ∈ s.read,
    (s.handles.countP fun b => b.cmId == some id) + s.released.count (.destroyId id) = 1
  paired : ∀ b ∈ s.handles, ∀ id, b.cmId = some id →
    ∃ channel, b.cmChannel = some channel ∧ (id, channel) ∈ s.paired ∧
      .destroyChannel channel ∉ s.released
  outlives : Outlives s.paired s.released

variable {handles handles' : List CmBlock} {paired : List (Nat × Nat)} {released : List Release}
  {n id : Nat} {b : CmBlock}

/-- How often a child is held or was destroyed. -/
theorem count_ids (handles : List CmBlock) (released : List Release) (id : Nat) :
    (handles.countP fun b => b.cmId == some id) + released.count (.destroyId id) =
      (handles.filterMap CmBlock.cmId ++ released.filterMap Release.id?).count id := by
  have hreleased : (fun r : Release => r.id? == some id) = fun r => r == .destroyId id := by
    funext r
    cases r <;> simp [Release.id?]
  rw [List.count_append, List.count_filterMap, List.count_filterMap, hreleased]
  rfl

/-! ## Accounts of handles -/

/-- The handles, with the releases, account for the pairs that were made of `n` channels. -/
structure Holding (handles : List CmBlock) (paired : List (Nat × Nat)) (released : List Release)
    (n : Nat) : Prop where
  created : ∀ p ∈ paired, p.2 < n
  channels : (paired.map Prod.snd).Nodup
  blocks : ∀ b ∈ handles, b = {} ∨ ∃ p ∈ paired, b = ⟨some p.2, some p.1⟩
  heldIds : (handles.filterMap CmBlock.cmId ++ released.filterMap Release.id?).Perm
    (paired.map Prod.fst)
  heldChannels : (handles.filterMap CmBlock.cmChannel ++ released.filterMap Release.channel?).Perm
    (paired.map Prod.snd)
  outlives : Outlives paired released

theorem Outlives.concat {r : Release} (h : Outlives paired released)
    (hr : ∀ id channel, (id, channel) ∈ paired → r = .destroyChannel channel →
      .destroyId id ∈ released) : Outlives paired (released ++ [r]) := by
  intro id channel hp pre hpre hmem
  rcases List.prefix_concat_iff.1 hpre with rfl | hpre
  · refine List.mem_append_left _ ?_
    rcases List.mem_append.1 hmem with hmem | hmem
    · exact h id channel hp released (List.prefix_refl _) hmem
    · exact hr id channel hp (List.mem_singleton.1 hmem).symm
  · exact h id channel hp pre hpre hmem

theorem Holding.perm (h : Holding handles paired released n) (hp : handles'.Perm handles) :
    Holding handles' paired released n where
  created := h.created
  channels := h.channels
  blocks b hb := h.blocks b (hp.mem_iff.1 hb)
  heldIds := ((hp.filterMap _).append_right _).trans h.heldIds
  heldChannels := ((hp.filterMap _).append_right _).trans h.heldChannels
  outlives := h.outlives

/-- A handle that holds nothing. -/
theorem Holding.empty (h : Holding handles paired released n) :
    Holding ({} :: handles) paired released n where
  created := h.created
  channels := h.channels
  blocks b hb := by
    rcases List.mem_cons.1 hb with rfl | hb
    · exact .inl rfl
    · exact h.blocks b hb
  heldIds := by simpa using h.heldIds
  heldChannels := by simpa using h.heldChannels
  outlives := h.outlives

theorem Holding.ack (h : Holding handles paired released n) (ev : ListenEvent) :
    Holding handles paired (released ++ [.ack ev]) (n + 1) where
  created p hp := Nat.lt_succ_of_lt (h.created p hp)
  channels := h.channels
  blocks := h.blocks
  heldIds := by simpa [Release.id?, List.filterMap_cons] using h.heldIds
  heldChannels := by simpa [Release.channel?, List.filterMap_cons] using h.heldChannels
  outlives := h.outlives.concat fun _ _ _ hr => by cases hr

/-- An event is acknowledged, and its child put into a handle together with the next channel. -/
theorem Holding.take (h : Holding ({} :: handles) paired released n) (id : Nat) (ev : ListenEvent) :
    Holding (⟨some n, some id⟩ :: handles) (paired ++ [(id, n)]) (released ++ [.ack ev]) (n + 1) := by
  have hnew : n ∉ paired.map Prod.snd := by
    intro hmem
    obtain ⟨p, hp, heq⟩ := List.mem_map.1 hmem
    exact absurd (h.created p hp) (by omega)
  refine ⟨fun p hp => ?_, ?_, fun b hb => ?_, ?_, ?_, ?_⟩
  · rcases List.mem_append.1 hp with hp | hp
    · exact Nat.lt_succ_of_lt (h.created p hp)
    · rw [List.mem_singleton.1 hp]
      exact Nat.lt_succ_self n
  · rw [List.map_append, List.map_singleton, ← List.concat_eq_append]
    exact List.Nodup.concat hnew h.channels
  · rcases List.mem_cons.1 hb with rfl | hb
    · exact .inr ⟨(id, n), by simp, rfl⟩
    · rcases h.blocks b (List.mem_cons_of_mem _ hb) with hb | ⟨p, hp, hb⟩
      · exact .inl hb
      · exact .inr ⟨p, List.mem_append_left _ hp, hb⟩
  · have hids := h.heldIds
    refine List.perm_iff_count.2 fun x => ?_
    have hcount := hids.count_eq x
    simp [Release.id?, List.filterMap_cons, List.count_append, List.count_cons] at hcount ⊢
    omega
  · have hchannels := h.heldChannels
    refine List.perm_iff_count.2 fun x => ?_
    have hcount := hchannels.count_eq x
    simp [Release.channel?, List.filterMap_cons, List.count_append, List.count_cons] at hcount ⊢
    omega
  · refine Outlives.concat (fun id' channel hp pre hpre hmem => ?_) fun _ _ _ hr => by cases hr
    rcases List.mem_append.1 hp with hp | hp
    · exact h.outlives id' channel hp pre hpre hmem
    · -- the channel is new, so it was not destroyed
      obtain ⟨-, rfl⟩ := Prod.mk.inj (List.mem_singleton.1 hp)
      refine absurd (h.heldChannels.mem_iff.1 (List.mem_append_right _ ?_)) hnew
      exact List.mem_filterMap.2 ⟨_, hpre.subset hmem, rfl⟩

/-- A handle is destroyed. -/
theorem Holding.release (h : Holding (b :: handles) paired released n) :
    Holding handles paired (released ++ b.release) n := by
  rcases h.blocks b List.mem_cons_self with rfl | ⟨⟨id, channel⟩, hp, rfl⟩
  · refine ⟨h.created, h.channels, fun b hb => h.blocks b (List.mem_cons_of_mem _ hb), ?_, ?_, ?_⟩
    · simpa [CmBlock.release] using h.heldIds
    · simpa [CmBlock.release] using h.heldChannels
    · simpa [CmBlock.release] using h.outlives
  · refine ⟨h.created, h.channels, fun b hb => h.blocks b (List.mem_cons_of_mem _ hb), ?_, ?_, ?_⟩
    · refine List.perm_iff_count.2 fun x => ?_
      have hcount := h.heldIds.count_eq x
      simp [CmBlock.release, Release.id?, List.filterMap_cons, List.count_append, List.count_cons]
        at hcount ⊢
      omega
    · refine List.perm_iff_count.2 fun x => ?_
      have hcount := h.heldChannels.count_eq x
      simp [CmBlock.release, Release.channel?, List.filterMap_cons, List.count_append,
        List.count_cons] at hcount ⊢
      omega
    · have hrel : CmBlock.release ⟨some channel, some id⟩ =
          [Release.destroyId id] ++ [Release.destroyChannel channel] := rfl
      rw [hrel, ← List.append_assoc]
      refine (h.outlives.concat fun _ _ _ hr => by cases hr).concat fun id' channel' hp' hr => ?_
      obtain rfl := Release.destroyChannel.inj hr
      -- no two pairs share a channel
      have heq : ((id', channel) : Nat × Nat) = (id, channel) :=
        List.inj_on_of_nodup_map h.channels hp' hp rfl
      rw [(Prod.mk.inj heq).1]
      exact List.mem_append_right _ List.mem_cons_self

/-! ## The listener -/

variable {s s' : State} {l : Label} {op : GetConnectionOp} {ev : ListenEvent}
  {create nonblocking migrate : NativeResult}

/-- A `CONNECT_REQUEST` is read for which `create_event_channel` fails. -/
def State.forgets (s : State) : Label → Bool
  | .perform (.event create nonblocking _) =>
    (s.channel.head?.any fun ev => ev.event == .connectRequest) &&
      (create != .ok || nonblocking != .ok)
  | _ => false

/-- What holds of the listener as long as it forgets nothing. -/
structure Custody (s : State) : Prop where
  holding : Holding s.handles s.paired s.released s.channels
  taken : s.paired.map Prod.fst = s.read
  arrivals : (s.read ++ s.unread).Nodup
  announced : ∀ id ∈ s.read ++ s.unread, id < s.children
  waiting : ∀ op ∈ s.waiting, op.connectorHandle = {}

theorem Custody.fresh : Custody {} where
  holding := {
    created := fun _ hp => by cases hp
    channels := List.nodup_nil
    blocks := fun _ hb => by cases hb
    heldIds := .refl _
    heldChannels := .refl _
    outlives := fun _ _ hp => by cases hp }
  taken := rfl
  arrivals := List.nodup_nil
  announced _ h := by cases h
  waiting _ h := by cases h

theorem Custody.owned (h : Custody s) : s.Owned where
  once id hid := by
    have hread : s.read.Nodup := (List.nodup_append.1 h.arrivals).1
    rw [count_ids, h.holding.heldIds.count_eq, h.taken, List.count_eq_one_of_mem hread hid]
  paired b hb id hid := by
    rcases h.holding.blocks b hb with rfl | ⟨⟨id', channel⟩, hp, rfl⟩
    · cases hid
    · obtain rfl := Option.some.inj hid
      refine ⟨channel, rfl, hp, fun hmem => ?_⟩
      have hcount := h.holding.heldChannels.count_eq channel
      have hle := List.nodup_iff_count_le_one.1 h.holding.channels channel
      have hheld : 0 < (s.handles.filterMap CmBlock.cmChannel).count channel :=
        List.count_pos_iff.2 (List.mem_filterMap.2 ⟨_, hb, rfl⟩)
      have hgone : 0 < (s.released.filterMap Release.channel?).count channel :=
        List.count_pos_iff.2 (List.mem_filterMap.2 ⟨_, hmem, rfl⟩)
      rw [List.count_append] at hcount
      omega
  outlives := h.holding.outlives

theorem unread_cons (hc : s.channel = ev :: s'.channel) :
    s.unread = ev.child?.toList ++ s'.unread := by
  rw [State.unread, hc]
  cases h : ev.child? <;> simp [State.unread, h]

/-- The handles of a state whose ops and deliveries are known up to their order. -/
theorem handles_perm {ops : List GetConnectionOp} (hcores : s'.cores.Perm ops)
    (hdelivered : s'.delivered = s.delivered) :
    s'.handles.Perm
      (ops.map GetConnectionOp.connectorHandle ++ s.delivered.map Delivery.handle) := by
  rw [handles_eq_cores, hdelivered]
  exact (hcores.map _).append_right _

theorem Custody.moved (h : Custody s) (hkept : Kept s s') (hcores : s'.cores.Perm s.cores)
    (hframe : Frame s s') (hchildren : s'.children = s.children)
    (hchannel : s'.channel = s.channel ∨ s'.channel = []) : Custody s' := by
  have hhandles : s'.handles.Perm s.handles := by
    rw [handles_eq_cores s]
    exact handles_perm hcores hframe.delivered
  have hunread : s'.unread.Sublist s.unread := by
    rcases hchannel with hc | hc
    · rw [State.unread, hc]
      exact .refl _
    · rw [State.unread, hc]
      exact List.nil_sublist _
  have harrivals : (s'.read ++ s'.unread).Sublist (s.read ++ s.unread) :=
    hframe.read ▸ hunread.append_left s.read
  refine ⟨?_, ?_, h.arrivals.sublist harrivals, fun id hid => ?_, fun op hop => ?_⟩
  · rw [hframe.paired, hframe.released, hframe.channels]
    exact h.holding.perm hhandles
  · rw [hframe.paired, hframe.read]
    exact h.taken
  · rw [hchildren]
    exact h.announced id (harrivals.subset hid)
  · obtain ⟨o, ho, heq⟩ := hkept op hop
    rw [← heq]
    exact h.waiting o ho

/-! ## One event -/

theorem onEvent_other (hev : ev.event ≠ .connectRequest) (op : GetConnectionOp) (channel : Nat)
    (create nonblocking migrate : NativeResult) :
    op.onEvent ev channel create nonblocking migrate =
      ({ op with ec := .basic .connectionAborted }, [.ack ev]) := by
  rw [GetConnectionOp.onEvent, if_pos hev]

/-- The child and its channel go into the op's handle, whether the migration succeeds or not. -/
theorem onEvent_request (hev : ev.event = .connectRequest) (hop : op.connectorHandle = {})
    (channel : Nat) (migrate : NativeResult) :
    op.onEvent ev channel .ok .ok migrate =
      ({ op with
        privateData := ev.privateData.take maxPrivateDataSize, ec := migrate.ec
        connectorHandle := ⟨some channel, some ev.id⟩ }, [.ack ev]) := by
  rw [GetConnectionOp.onEvent, if_neg (not_not.2 hev)]
  simp [createEventChannel, CmBlock.reset, hop, isError, success]

/-- Without a channel the child is left out, or put into the handle alone if the failure has no code. -/
theorem onEvent_failed (hev : ev.event = .connectRequest) (hop : op.connectorHandle = {})
    (hfail : create ≠ .ok ∨ nonblocking ≠ .ok) (channel : Nat) (migrate : NativeResult) :
    ((op.onEvent ev channel create nonblocking migrate).1.connectorHandle = {} ∨
      (op.onEvent ev channel create nonblocking migrate).1.connectorHandle = ⟨none, some ev.id⟩) ∧
      (op.onEvent ev channel create nonblocking migrate).2.filterMap Release.id? = [] := by
  have hnone : ∃ errno released, createEventChannel channel create nonblocking =
      (none, makeSystemErrorCode errno, released) ∧ released.filterMap Release.id? = [] := by
    cases create with
    | fail errno => exact ⟨errno, [], rfl, rfl⟩
    | ok =>
      cases nonblocking with
      | fail errno => exact ⟨errno, _, rfl, rfl⟩
      | ok => simp at hfail
  obtain ⟨errno, released, heq, hreleased⟩ := hnone
  rw [GetConnectionOp.onEvent, if_neg (not_not.2 hev)]
  simp only [heq]
  by_cases he : (makeSystemErrorCode errno).isError = true
  · rw [if_pos he]
    refine ⟨.inl hop, ?_⟩
    rw [List.filterMap_append, hreleased]
    rfl
  · rw [if_neg he]
    refine ⟨.inr rfl, ?_⟩
    simp only [CmBlock.reset, hop, Option.map_none, Option.toList_none, List.append_nil]
    rw [List.filterMap_append, hreleased]
    rfl

theorem Custody.performed (h : Custody s) {rest : List GetConnectionOp}
    (hc : s.forgets (.perform (.event create nonblocking migrate)) = false)
    (hs : Performed s s' create nonblocking migrate op ev rest) : Custody s' := by
  obtain ⟨hkept, ⟨o, ho, heq⟩, hp, hchannel, hcores, hdelivered, hchildren, hchannels, hread, hpaired,
    hreleased⟩ := hs
  have hop : op.connectorHandle = {} := heq ▸ h.waiting o ho
  have hhandles := handles_perm hcores hdelivered
  have hold : s.handles = op.connectorHandle ::
      (rest.map GetConnectionOp.connectorHandle ++ s.delivered.map Delivery.handle) := by
    rw [handles_eq_cores, hp]
    rfl
  have hunread := unread_cons hchannel
  have hwait : ∀ op ∈ s'.waiting, op.connectorHandle = {} := fun op' hop' => by
    obtain ⟨o, ho, heq⟩ := hkept op' hop'
    rw [← heq]
    exact h.waiting o ho
  have hholding := h.holding
  rw [hold, hop] at hholding
  by_cases hev : ev.event = .connectRequest
  · have hok : create = .ok ∧ nonblocking = .ok := by
      simpa [State.forgets, hchannel, hev, not_or] using hc
    obtain ⟨rfl, rfl⟩ := hok
    have hon := onEvent_request hev hop s.channels migrate
    rw [if_pos hev] at hread hpaired
    have harr : s'.read ++ s'.unread = s.read ++ s.unread := by
      rw [hread, hunread, ListenEvent.child?, if_pos hev]
      simp
    refine ⟨?_, ?_, harr ▸ h.arrivals, ?_, hwait⟩
    · rw [hpaired, hreleased, hchannels]
      rw [hon] at hhandles ⊢
      exact (hholding.take ev.id ev).perm hhandles
    · rw [hpaired, hread, hon]
      simp [CmBlock.pair?, h.taken]
    · rw [harr, hchildren]
      exact h.announced
  · have hon := onEvent_other hev op s.channels create nonblocking migrate
    rw [if_neg hev] at hread hpaired
    have harr : s'.read ++ s'.unread = s.read ++ s.unread := by
      rw [hread, hunread, ListenEvent.child?, if_neg hev]
      rfl
    refine ⟨?_, ?_, harr ▸ h.arrivals, ?_, hwait⟩
    · rw [hpaired, hreleased, hchannels]
      rw [hon] at hhandles ⊢
      refine (hholding.ack ev).perm (hhandles.trans ?_)
      rw [List.map_cons, connectorHandle_core, hop]
      exact .refl _
    · rw [hpaired, hread]
      exact h.taken
    · rw [harr, hchildren]
      exact h.announced

/-! ## Runs -/

theorem Custody.arrived (h : Custody s) (event : CmEventType) (privateData : List UInt8) :
    Custody { s with
      channel := s.channel ++ [⟨event, s.children, privateData⟩], children := s.children + 1
      edge := true } := by
  have hnew : s.children ∉ s.read ++ s.unread := fun hmem =>
    Nat.lt_irrefl _ (h.announced s.children hmem)
  have hunread : State.unread { s with
      channel := s.channel ++ [⟨event, s.children, privateData⟩], children := s.children + 1
      edge := true } =
      s.unread ++ (ListenEvent.child? ⟨event, s.children, privateData⟩).toList := by
    rw [State.unread, List.filterMap_append]
    cases hev : ListenEvent.child? ⟨event, s.children, privateData⟩ <;> simp [State.unread, hev]
  have hchild : ListenEvent.child? ⟨event, s.children, privateData⟩ = some s.children ∨
      ListenEvent.child? ⟨event, s.children, privateData⟩ = none := by
    unfold ListenEvent.child?
    by_cases hev : event = .connectRequest
    · exact .inl (if_pos hev)
    · exact .inr (if_neg hev)
  refine ⟨h.holding, h.taken, ?_, fun id hid => ?_, h.waiting⟩
  · rw [hunread, ← List.append_assoc]
    rcases hchild with hchild | hchild
    · rw [hchild, Option.toList_some, ← List.concat_eq_append]
      exact List.Nodup.concat hnew h.arrivals
    · rw [hchild, Option.toList_none, List.append_nil]
      exact h.arrivals
  · rw [hunread, ← List.append_assoc] at hid
    rcases List.mem_append.1 hid with hid | hid
    · exact Nat.lt_succ_of_lt (h.announced id hid)
    · rcases hchild with hchild | hchild
      · rw [hchild] at hid
        rw [List.mem_singleton.1 hid]
        exact Nat.lt_succ_self _
      · rw [hchild] at hid
        cases hid

/-- An op is initiated without a handle. -/
theorem Custody.initiated (h : Custody s) {addr : Nat} {key : Option Nat}
    (hkept : ∀ op ∈ s'.waiting, op ∈ s.waiting ∨ op.connectorHandle = {})
    (hcores : s'.cores.Perm ({ addr, cancellationKey := key } :: s.cores)) (hframe : Frame s s')
    (hchildren : s'.children = s.children) (hchannel : s'.channel = s.channel) : Custody s' := by
  have hhandles : s'.handles.Perm ({} :: s.handles) := by
    rw [handles_eq_cores s]
    exact handles_perm hcores hframe.delivered
  have hunread : s'.unread = s.unread := by rw [State.unread, hchannel, State.unread]
  refine ⟨?_, ?_, ?_, ?_, fun op hop => ?_⟩
  · rw [hframe.paired, hframe.released, hframe.channels]
    exact h.holding.empty.perm hhandles
  · rw [hframe.paired, hframe.read]
    exact h.taken
  · rw [hframe.read, hunread]
    exact h.arrivals
  · rw [hframe.read, hunread, hchildren]
    exact h.announced
  · rcases hkept op hop with hop | hop
    · exact h.waiting op hop
    · exact hop

/-- The handle of an op goes to the handler. -/
theorem Custody.completed (h : Custody s) {ops : List GetConnectionOp} {d : Delivery}
    (hcores : s.cores.Perm (op.core :: State.cores { s with scheduled := ops }))
    (hd : d.handle = op.connectorHandle) :
    Custody { s with scheduled := ops, delivered := s.delivered ++ [d] } := by
  refine ⟨h.holding.perm (List.perm_iff_count.2 fun x => ?_), h.taken, h.arrivals, h.announced,
    h.waiting⟩
  have hcount := (hcores.map GetConnectionOp.connectorHandle).count_eq x
  rw [handles_eq_cores, handles_eq_cores s]
  simp only [List.map_cons, List.count_cons, connectorHandle_core] at hcount
  simp only [List.map_append, List.map_cons, List.map_nil, List.count_append, List.count_cons,
    List.count_nil, hd]
  change (List.map _ (State.cores { s with scheduled := ops })).count x + _ = _
  omega

/-- A handle is destroyed. -/
theorem Custody.release (h : Custody s) (hhandles : s.handles.Perm (b :: s'.handles))
    (hreleased : s'.released = s.released ++ b.release) (hpaired : s'.paired = s.paired)
    (hchannels : s'.channels = s.channels) (hread : s'.read = s.read)
    (hchannel : s'.channel = s.channel) (hchildren : s'.children = s.children)
    (hwaiting : s'.waiting = s.waiting) : Custody s' := by
  have hunread : s'.unread = s.unread := by rw [State.unread, hchannel, State.unread]
  refine ⟨?_, ?_, ?_, ?_, ?_⟩
  · rw [hpaired, hreleased, hchannels]
    exact (h.holding.perm hhandles.symm).release
  · rw [hpaired, hread]
    exact h.taken
  · rw [hread, hunread]
    exact h.arrivals
  · rw [hread, hunread, hchildren]
    exact h.announced
  · rw [hwaiting]
    exact h.waiting

theorem Custody.step (h : Custody s) (hc : s.forgets l = false) (hs : listener.step s l = some s') :
    Custody s' := by
  cases Effect.of_step hs with
  | moved hkept hcores hframe hchildren hchannel =>
    exact h.moved hkept hcores hframe hchildren hchannel
  | arrived event privateData hs' => exact hs' ▸ h.arrived event privateData
  | initiated addr slot key hfresh hkey hkept hcores hframe hchildren hchannel =>
    exact h.initiated hkept hcores hframe hchildren hchannel
  | performed create nonblocking migrate op ev rest hs' => exact h.performed hc hs'
  | completed i op ops hcores hs' =>
    subst hs'
    exact h.completed hcores rfl
  | dropped i d ds hdelivered hs' =>
    subst hs'
    refine h.release (b := d.handle) ?_ rfl rfl rfl rfl rfl rfl rfl
    rw [handles_eq_cores, handles_eq_cores]
    exact ((hdelivered.map Delivery.handle).append_left _).trans List.perm_middle
  | destroyed i op ops hcores hs' =>
    subst hs'
    refine h.release (b := op.connectorHandle) ?_ rfl rfl rfl rfl rfl rfl rfl
    rw [handles_eq_cores, handles_eq_cores]
    exact (hcores.map GetConnectionOp.connectorHandle).append_right _

/-- A step that forgets a child leaves it in no handle that has a channel, and never destroyed. -/
theorem Custody.not_owned (h : Custody s) (hc : s.forgets l = true)
    (hs : listener.step s l = some s') : ¬ s'.Owned := by
  intro howned
  cases l with
  | perform a =>
    cases a with
    | event create nonblocking migrate =>
      obtain ⟨op, ev, rest, hs'⟩ := Performed.of_step hs
      obtain ⟨o, ho, heq⟩ := hs'.waiting
      have hop : op.connectorHandle = {} := heq ▸ h.waiting o ho
      have hev : ev.event = .connectRequest ∧ (create ≠ .ok ∨ nonblocking ≠ .ok) := by
        simpa [State.forgets, hs'.channel] using hc
      obtain ⟨hev, hfail⟩ := hev
      have hunread := unread_cons hs'.channel
      rw [ListenEvent.child?, if_pos hev] at hunread
      -- the child was not read before, so nothing holds it
      have hnew : ev.id ∉ s.paired.map Prod.fst := by
        rw [h.taken]
        intro hmem
        refine (List.nodup_append.1 h.arrivals).2.2 ev.id hmem ev.id ?_ rfl
        rw [hunread]
        exact List.mem_append_left _ List.mem_cons_self
      have hhandles := handles_perm hs'.cores hs'.delivered
      rw [List.map_cons, connectorHandle_core] at hhandles
      have hread : ev.id ∈ s'.read := by
        rw [hs'.read, if_pos hev]
        exact List.mem_append_right _ List.mem_cons_self
      obtain ⟨hhandle, hreleased⟩ := onEvent_failed hev hop hfail s.channels migrate
      rcases hhandle with hhandle | hhandle
      · have hsame : s'.handles.Perm s.handles := by
          rw [hhandle] at hhandles
          rw [handles_eq_cores s, hs'.before, List.map_cons, connectorHandle_core, hop]
          exact hhandles
        have hone := howned.once ev.id hread
        rw [count_ids, List.count_append, (hsame.filterMap _).count_eq, hs'.released,
          List.filterMap_append, hreleased, List.append_nil, ← List.count_append,
          h.holding.heldIds.count_eq, List.count_eq_zero_of_not_mem hnew] at hone
        cases hone
      · rw [hhandle] at hhandles
        obtain ⟨channel, hchannel, -⟩ := howned.paired ⟨none, some ev.id⟩
          (hhandles.mem_iff.2 List.mem_cons_self) ev.id rfl
        cases hchannel
    | _ => cases hc
  | _ => cases hc

/-- In every run of the listener every child that was read is owned by one handle or was destroyed once,
before its channel, after every step, exactly if `create_event_channel` never fails for a
`CONNECT_REQUEST`. -/
theorem owned_always_iff {ls : List Label} (hr : listener.run {} ls = some s) :
    (∀ pre t, pre <+: ls → listener.run {} pre = some t → t.Owned) ↔
      listener.Meets (fun s l => s.forgets l = false) {} ls :=
  StepSystem.always_iff_meets_of_invariant (J := Custody) (fun _ h => h.owned)
    (fun _ _ _ h hc hs => h.step hc hs) (fun _ _ _ h hc hs => h.not_owned (by simpa using hc) hs) hr
    .fresh

/-- Two clients: the id of the first cannot be migrated, its handle is delivered and destroyed; the
handle of the second is destroyed with its op when the `io_context` goes. -/
def twoClients : List Label :=
  [.open .ok, .asyncGetConnectionRequest 100 true, .event .connectRequest [1, 2], .performIo,
    .perform (.event .ok .ok (.fail 5)), .complete 0, .asyncGetConnectionRequest 100 true,
    .event .connectRequest [], .performIo, .perform (.event .ok .ok .ok), .drop 0, .shutdown,
    .destroyOp 0]

theorem owned_always_iff_twoClients :
    (listener.after {} twoClients).read = [0, 1] ∧ (listener.after {} twoClients).Owned := by
  have hr := StepSystem.run_after (show (listener.run {} twoClients).isSome = true by decide)
  exact ⟨by decide, (owned_always_iff hr).2 (by decide) twoClients _ (List.prefix_refl _) hr⟩

/-- The process is out of descriptors when a client connects. -/
def noDescriptor : List Label :=
  [.open .ok, .asyncGetConnectionRequest 100 false, .event .connectRequest [], .performIo,
    .perform (.event (.fail 24) .ok .ok)]

/-- The event is acknowledged, and nothing owns or destroys the child. -/
theorem not_owned_noDescriptor :
    ¬ ∀ (ls : List Label) (s : State), listener.run {} ls = some s → s.Owned := by
  intro h
  have howned := h noDescriptor _ (StepSystem.run_after (by decide))
  have hone := howned.once 0 (by decide)
  exact absurd hone (by decide)

end RdmaOnAsio.Ibv.Listener
