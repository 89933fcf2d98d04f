import Mathlib.Data.List.Perm.Basic
import RdmaOnAsio.Ibv.Listener

/-!
# What one step of the listener does to its ops

Most steps only move ops from one place to another and may set a code. `cores` is what they leave alone: the
ops that exist, without their codes and private data, in any order.
-/

namespace RdmaOnAsio.Ibv.Listener

open ErrorCode

/-- An op without what its completion reports. -/
def GetConnectionOp.core (op : GetConnectionOp) : GetConnectionOp :=
  { op with ec := success, privateData := [] }

/-- The ops that exist, by what does not change. -/
def State.cores (s : State) : List GetConnectionOp := s.ops.map GetConnectionOp.core

/-- The ops that wait for an event. -/
def State.waiting (s : State) : List GetConnectionOp := s.performing.toList ++ s.readQueue

/-- The ops that wait in `s'` have waited in `s`, with the handles they have now. -/
def Kept (s s' : State) : Prop :=
  ∀ op' ∈ s'.waiting, ∃ op ∈ s.waiting, op.connectorHandle = op'.connectorHandle

variable {s s' : State} {op op' : GetConnectionOp} {ev : ListenEvent} {l : Label} {i : Nat}

theorem map_core_setEc (ops : List GetConnectionOp) (ec : ErrorCode) :
    (ops.map fun op => { op with ec := ec }).map GetConnectionOp.core =
      ops.map GetConnectionOp.core := by
  rw [List.map_map]
  rfl

@[simp] theorem connectorHandle_core (op : GetConnectionOp) :
    op.core.connectorHandle = op.connectorHandle := rfl

theorem handles_eq_cores (s : State) :
    s.handles = s.cores.map GetConnectionOp.connectorHandle ++ s.delivered.map Delivery.handle := by
  simp [State.handles, State.cores, Function.comp_def]

/-- The handles that were delivered and the histories, which most steps leave alone. -/
structure Frame (s s' : State) : Prop where
  delivered : s'.delivered = s.delivered
  read : s'.read = s.read
  paired : s'.paired = s.paired
  released : s'.released = s.released
  channels : s'.channels = s.channels

theorem cores_nextOp (s : State) :
    s.nextOp.cores.Perm ((s.readQueue ++ s.ioCleanup ++ s.scheduled).map GetConnectionOp.core) := by
  refine List.Perm.map _ ?_
  unfold State.nextOp
  cases s.readQueue with
  | nil =>
    simp only [State.ops, Option.toList_none, List.nil_append]
    exact List.perm_append_comm
  | cons op rest =>
    simp only [State.ops, Option.toList_some, List.append_assoc, List.cons_append, List.nil_append]
    exact .refl _

/-- The op that is performed, and the rest. -/
theorem cores_performing (hp : s.performing = some op) :
    s.cores = op.core :: (s.readQueue ++ s.ioCleanup ++ s.scheduled).map GetConnectionOp.core := by
  simp [State.cores, State.ops, hp]

theorem cores_unlocked (hp : s.performing = none) :
    s.cores = (s.readQueue ++ s.ioCleanup ++ s.scheduled).map GetConnectionOp.core := by
  simp [State.cores, State.ops, hp]

theorem nextOp_frame (s : State) :
    Frame s s.nextOp ∧ s.nextOp.children = s.children ∧ s.nextOp.channel = s.channel := by
  unfold State.nextOp
  cases s.readQueue <;> exact ⟨⟨rfl, rfl, rfl, rfl, rfl⟩, rfl, rfl⟩

theorem retire_frame (s : State) (op : GetConnectionOp) :
    Frame s (s.retire op) ∧ (s.retire op).children = s.children ∧
      (s.retire op).channel = s.channel := by
  obtain ⟨h, hrest⟩ := nextOp_frame { s with ioCleanup := s.ioCleanup ++ [op] }
  exact ⟨⟨h.delivered, h.read, h.paired, h.released, h.channels⟩, hrest⟩

theorem State.kept_self (s : State) : Kept s s := fun op hop => ⟨op, hop, rfl⟩

/-- The queue has waited. -/
theorem State.kept_readQueue (s : State) :
    ∀ op' ∈ s.readQueue, ∃ op ∈ s.waiting, op.connectorHandle = op'.connectorHandle :=
  fun op hop => ⟨op, List.mem_append_right _ hop, rfl⟩

theorem waiting_nextOp (s : State) : s.nextOp.waiting = s.readQueue := by
  unfold State.nextOp
  cases s.readQueue with
  | nil => simp only [State.waiting, Option.toList_none, List.nil_append]
  | cons op rest => rfl

theorem kept_retire {t : State}
    (h : ∀ op' ∈ t.readQueue, ∃ op ∈ s.waiting, op.connectorHandle = op'.connectorHandle)
    (op : GetConnectionOp) : Kept s (t.retire op) := by
  intro op' hop
  rw [State.retire, waiting_nextOp] at hop
  exact h op' hop

theorem cores_retire (s : State) (op : GetConnectionOp) :
    (s.retire op).cores.Perm
      (op.core :: (s.readQueue ++ s.ioCleanup ++ s.scheduled).map GetConnectionOp.core) := by
  refine (cores_nextOp _).trans ?_
  rw [← List.map_cons]
  refine List.Perm.map _ (List.perm_iff_count.2 fun x => ?_)
  simp only [List.count_append, List.count_cons, List.count_nil]
  omega

theorem cores_stay (s : State) (op : GetConnectionOp) :
    (s.stay op).cores.Perm
      (op.core :: (s.readQueue ++ s.ioCleanup ++ s.scheduled).map GetConnectionOp.core) := by
  rw [← List.map_cons]
  refine List.Perm.map _ (List.perm_iff_count.2 fun x => ?_)
  simp only [State.stay, State.ops, Option.toList_none, List.count_append, List.count_cons,
    List.count_nil]
  omega

theorem cores_cancelOps (s : State) : s.cancelOps.cores.Perm s.cores := by
  refine List.perm_iff_count.2 fun x => ?_
  simp only [State.cores, State.ops, State.cancelOps, List.map_append, map_core_setEc,
    List.count_append, List.map_nil, List.count_nil]
  omega

theorem State.kept_cancelOps (s : State) : Kept s s.cancelOps := by
  intro op hop
  rcases List.mem_append.1 hop with hop | hop
  · exact ⟨op, List.mem_append_left _ hop, rfl⟩
  · cases hop

theorem cores_cancelOpsByKey (s : State) (key : Nat) : (s.cancelOpsByKey key).cores.Perm s.cores := by
  have hsplit : (s.readQueue.filter (fun op => op.cancellationKey == some key) ++
      s.readQueue.filter fun op => op.cancellationKey != some key).Perm s.readQueue :=
    List.filter_append_perm ..
  refine List.perm_iff_count.2 fun x => ?_
  have hcount := (hsplit.map GetConnectionOp.core).count_eq x
  simp only [List.map_append, List.count_append] at hcount
  simp only [State.cores, State.ops, State.cancelOpsByKey, List.map_append, map_core_setEc,
    List.count_append]
  omega

/-- A new op is armed, or posted; its functor looks for its own address. -/
theorem cores_asyncGetConnectionRequest (s : State) (addr : Nat) (slot : Bool) :
    ∃ key, (key = none ∨ key = some addr) ∧
      (s.asyncGetConnectionRequest addr slot).cores.Perm
        ({ addr, cancellationKey := key } :: s.cores) := by
  unfold State.asyncGetConnectionRequest
  by_cases ho : s.isOpen = true
  · rw [if_pos ho]
    refine ⟨if slot then some addr else none, by cases slot <;> simp, ?_⟩
    refine List.perm_iff_count.2 fun x => ?_
    cases slot <;>
    · simp only [State.cores, State.ops, State.startOp, State.armCmCancellation,
        GetConnectionOp.core, if_true, List.map_append, List.count_append, List.map_cons,
        List.map_nil, List.count_cons, List.count_nil, Bool.false_eq_true, if_false]
      omega
  · rw [if_neg ho]
    refine ⟨none, .inl rfl, List.perm_iff_count.2 fun x => ?_⟩
    simp only [State.cores, State.ops, GetConnectionOp.core, List.map_append, List.count_append,
      List.map_cons, List.map_nil, List.count_cons, List.count_nil]
    omega

theorem asyncGetConnectionRequest_frame (s : State) (addr : Nat) (slot : Bool) :
    Frame s (s.asyncGetConnectionRequest addr slot) ∧
      (s.asyncGetConnectionRequest addr slot).children = s.children ∧
      (s.asyncGetConnectionRequest addr slot).channel = s.channel := by
  unfold State.asyncGetConnectionRequest
  by_cases ho : s.isOpen = true
  · rw [if_pos ho]
    cases slot <;> exact ⟨⟨rfl, rfl, rfl, rfl, rfl⟩, rfl, rfl⟩
  · rw [if_neg ho]
    exact ⟨⟨rfl, rfl, rfl, rfl, rfl⟩, rfl, rfl⟩

theorem mem_waiting_asyncGetConnectionRequest {addr : Nat} {slot : Bool}
    (hop : op ∈ (s.asyncGetConnectionRequest addr slot).waiting) :
    op ∈ s.waiting ∨ op.connectorHandle = {} := by
  unfold State.asyncGetConnectionRequest at hop
  by_cases ho : s.isOpen = true
  · rw [if_pos ho] at hop
    have hmem : op ∈ s.waiting ++
        [{ addr, cancellationKey := if slot then some addr else none }] := by
      cases slot <;> simpa [State.waiting, State.startOp, State.armCmCancellation] using hop
    rcases List.mem_append.1 hmem with hmem | hmem
    · exact .inl hmem
    · exact .inr (by rw [List.mem_singleton.1 hmem])
  · rw [if_neg ho] at hop
    exact .inl hop

/-- The scheduler takes an op. -/
theorem cores_eraseIdx (hi : s.scheduled[i]? = some op) :
    s.cores.Perm (op.core :: State.cores { s with scheduled := s.scheduled.eraseIdx i }) := by
  obtain ⟨hlt, rfl⟩ := List.getElem?_eq_some_iff.1 hi
  have hperm := (List.getElem_cons_eraseIdx_perm hlt).map GetConnectionOp.core
  refine List.perm_iff_count.2 fun x => ?_
  have hcount := hperm.count_eq x
  simp only [List.map_cons, List.count_cons] at hcount
  simp only [State.cores, State.ops, List.map_append, List.count_append, List.count_cons]
  omega

/-- The op that waits first handles the next event; the other ops are `rest`. -/
structure Performed (s s' : State) (create nonblocking migrate : NativeResult) (op : GetConnectionOp)
    (ev : ListenEvent) (rest : List GetConnectionOp) : Prop where
  kept : Kept s s'
  waiting : ∃ o ∈ s.waiting, o.connectorHandle = op.connectorHandle
  before : s.cores = op.core :: rest
  channel : s.channel = ev :: s'.channel
  cores : s'.cores.Perm ((op.onEvent ev s.channels create nonblocking migrate).1.core :: rest)
  delivered : s'.delivered = s.delivered
  children : s'.children = s.children
  channels : s'.channels = s.channels + 1
  read : s'.read = if ev.event = .connectRequest then s.read ++ [ev.id] else s.read
  paired : s'.paired =
    if ev.event = .connectRequest then
      s.paired ++
        (op.onEvent ev s.channels create nonblocking migrate).1.connectorHandle.pair?.toList
    else s.paired
  released : s'.released = s.released ++ (op.onEvent ev s.channels create nonblocking migrate).2

/-- The steps of the listener, by what becomes of the ops, the handles and the events. -/
inductive Effect (s s' : State) : Label → Prop
  | moved {l : Label} (hkept : Kept s s') (hcores : s'.cores.Perm s.cores) (hframe : Frame s s')
      (hchildren : s'.children = s.children) (hchannel : s'.channel = s.channel ∨ s'.channel = []) :
      Effect s s' l
  | arrived (event : CmEventType) (privateData : List UInt8)
      (hs : s' = { s with
        channel := s.channel ++ [⟨event, s.children, privateData⟩], children := s.children + 1
        edge := true }) :
      Effect s s' (.event event privateData)
  | initiated (addr : Nat) (slot : Bool) (key : Option Nat) (hfresh : s.freshAddr addr = true)
      (hkey : key = none ∨ key = some addr)
      (hkept : ∀ op ∈ s'.waiting, op ∈ s.waiting ∨ op.connectorHandle = {})
      (hcores : s'.cores.Perm ({ addr, cancellationKey := key } :: s.cores)) (hframe : Frame s s')
      (hchildren : s'.children = s.children) (hchannel : s'.channel = s.channel) :
      Effect s s' (.asyncGetConnectionRequest addr slot)
  | performed (create nonblocking migrate : NativeResult) (op : GetConnectionOp) (ev : ListenEvent)
      (rest : List GetConnectionOp) (h : Performed s s' create nonblocking migrate op ev rest) :
      Effect s s' (.perform (.event create nonblocking migrate))
  | completed (i : Nat) (op : GetConnectionOp) (ops : List GetConnectionOp)
      (hcores : s.cores.Perm (op.core :: s'.cores))
      (hs : s' = { s with
        scheduled := ops
        delivered := s.delivered ++ [⟨op.ec, op.connectorHandle, op.privateData⟩] }) :
      Effect s s' (.complete i)
  | dropped (i : Nat) (d : Delivery) (ds : List Delivery) (hdelivered : s.delivered.Perm (d :: ds))
      (hs : s' = { s with
        delivered := ds, released := s.released ++ d.handle.release }) :
      Effect s s' (.drop i)
  | destroyed (i : Nat) (op : GetConnectionOp) (ops : List GetConnectionOp)
      (hcores : s.cores.Perm (op.core :: s'.cores))
      (hs : s' = { s with
        scheduled := ops, released := s.released ++ op.connectorHandle.release }) :
      Effect s s' (.destroyOp i)

/-- The histories and the counter once an event has been handled. -/
def State.noted (s : State) (op : GetConnectionOp) (ev : ListenEvent)
    (create nonblocking migrate : NativeResult) : State :=
  { s with
    channels := s.channels + 1
    read := if ev.event = CmEventType.connectRequest then s.read ++ [ev.id] else s.read
    paired :=
      if ev.event = CmEventType.connectRequest then
        s.paired ++
          (op.onEvent ev s.channels create nonblocking migrate).1.connectorHandle.pair?.toList
      else s.paired
    released := s.released ++ (op.onEvent ev s.channels create nonblocking migrate).2 }

theorem onEvent_eq (s : State) (op : GetConnectionOp) (ev : ListenEvent)
    (create nonblocking migrate : NativeResult) :
    s.onEvent op ev create nonblocking migrate =
      (s.noted op ev create nonblocking migrate).retire
        (op.onEvent ev s.channels create nonblocking migrate).1 := rfl

theorem Effect.of_cores {l : Label} (hkept : Kept s s') (hcores : s'.cores.Perm s.cores)
    (hrest : Frame s s' ∧ s'.children = s.children ∧ s'.channel = s.channel) : Effect s s' l :=
  .moved hkept hcores hrest.1 hrest.2.1 (.inl hrest.2.2)

theorem Performed.of_event {evs : List ListenEvent} (create nonblocking migrate : NativeResult)
    (hp : s.performing = some op) (hc : s.channel = ev :: evs) (hop : op'.core = op.core) :
    Performed s (State.onEvent { s with channel := evs } op' ev create nonblocking migrate) create
      nonblocking migrate op' ev
      ((s.readQueue ++ s.ioCleanup ++ s.scheduled).map GetConnectionOp.core) := by
  rw [onEvent_eq]
  obtain ⟨hframe, hchildren, hchannel⟩ :=
    retire_frame (State.noted { s with channel := evs } op' ev create nonblocking migrate)
      (op'.onEvent ev s.channels create nonblocking migrate).1
  have hmem : op ∈ s.waiting := by simp [State.waiting, hp]
  have hhandle : op.connectorHandle = op'.connectorHandle := by
    rw [← connectorHandle_core op, ← hop, connectorHandle_core]
  exact {
    kept := kept_retire (fun o ho => ⟨o, List.mem_append_right _ ho, rfl⟩) _
    waiting := ⟨op, hmem, hhandle⟩
    before := hop ▸ cores_performing hp
    channel := hc.trans (congrArg (ev :: ·) hchannel.symm)
    cores := cores_retire ..
    delivered := hframe.delivered
    children := hchildren
    channels := hframe.channels
    read := hframe.read
    paired := hframe.paired
    released := hframe.released }

/-- What `perform_io` does with an event. -/
theorem Performed.of_step {create nonblocking migrate : NativeResult}
    (hs : performStep s (.event create nonblocking migrate) = some s') :
    ∃ op ev rest, Performed s s' create nonblocking migrate op ev rest := by
  cases hp : s.performing with
  | none => simp [performStep, hp] at hs
  | some op =>
    cases hc : s.channel with
    | nil => simp [performStep, hp, hc] at hs
    | cons ev evs =>
      have hstep : performStep s (.event create nonblocking migrate) = some
          (State.onEvent { s with channel := evs } { op with ec := success } ev create nonblocking
            migrate) := by
        simp only [performStep, hp, hc]
      obtain rfl := Option.some.inj (hstep.symm.trans hs)
      exact ⟨_, _, _, .of_event create nonblocking migrate hp hc rfl⟩

theorem Effect.perform {a : Answer} (hs : performStep s a = some s') : Effect s s' (.perform a) := by
  cases hp : s.performing with
  | none => simp [performStep, hp] at hs
  | some op =>
    cases a with
    | event create nonblocking migrate =>
      obtain ⟨op, ev, rest, h⟩ := Performed.of_step hs
      exact .performed create nonblocking migrate op ev rest h
    | again =>
      by_cases hc : s.channel = []
      · simp only [performStep, hp, if_pos hc, Option.some.injEq] at hs
        subst hs
        refine .of_cores (fun op' hop => ?_) ?_ ⟨⟨rfl, rfl, rfl, rfl, rfl⟩, rfl, rfl⟩
        · rcases List.mem_cons.1 hop with rfl | hop
          · exact ⟨op, by simp [State.waiting, hp], rfl⟩
          · exact s.kept_readQueue op' hop
        · rw [cores_performing hp]
          exact cores_stay s _
      · simp [performStep, hp, hc] at hs
    | hardError errno =>
      by_cases he : errno ≠ 0 ∧ errno ≠ eagain
      · simp only [performStep, hp, if_pos he, Option.some.injEq] at hs
        subst hs
        refine .of_cores (kept_retire s.kept_readQueue _) ?_ (retire_frame ..)
        rw [cores_performing hp]
        exact cores_retire s _
      · simp [performStep, hp, he] at hs

/-- `Effect` lists what the step function does. -/
theorem Effect.of_step (hs : listener.step s l = some s') : Effect s s' l := by
  change step s l = some s' at hs
  cases l with
  | «open» r =>
    by_cases h : s.isOpen = true ∨ s.stopped = true
    · simp [step, h] at hs
    · simp only [step, if_neg h, Option.some.injEq] at hs
      subst hs
      exact .of_cores s.kept_self (.refl _) ⟨⟨rfl, rfl, rfl, rfl, rfl⟩, rfl, rfl⟩
  | event event privateData =>
    obtain ⟨-, rfl⟩ := Option.ite_some_none_eq_some.1 hs
    exact .arrived event privateData rfl
  | asyncGetConnectionRequest addr slot =>
    obtain ⟨⟨hfresh, -, -⟩, rfl⟩ := Option.ite_some_none_eq_some.1 hs
    obtain ⟨key, hkey, hcores⟩ := cores_asyncGetConnectionRequest s addr slot
    obtain ⟨hframe, hchildren, hchannel⟩ := asyncGetConnectionRequest_frame s addr slot
    exact .initiated addr slot key hfresh hkey
      (fun op hop => mem_waiting_asyncGetConnectionRequest hop) hcores hframe hchildren hchannel
  | performIo =>
    obtain ⟨⟨-, hp⟩, rfl⟩ := Option.ite_some_none_eq_some.1 hs
    obtain ⟨hframe, hrest⟩ := nextOp_frame { s with edge := false }
    refine .of_cores (fun op hop => ?_) ?_ ⟨⟨hframe.delivered, hframe.read, hframe.paired,
      hframe.released, hframe.channels⟩, hrest⟩
    · rw [waiting_nextOp] at hop
      exact s.kept_readQueue op hop
    · rw [cores_unlocked hp]
      exact cores_nextOp _
  | perform a => exact .perform hs
  | complete i =>
    cases hi : s.scheduled[i]? with
    | none => simp [step, hi] at hs
    | some op =>
      by_cases h : s.stopped = true
      · simp [step, hi, h] at hs
      · simp only [step, hi, if_neg h, Option.some.injEq] at hs
        subst hs
        exact .completed i op _ (cores_eraseIdx hi) rfl
  | drop i =>
    cases hi : s.delivered[i]? with
    | none => simp [step, hi] at hs
    | some d =>
      simp only [step, hi, Option.some.injEq] at hs
      subst hs
      obtain ⟨hlt, rfl⟩ := List.getElem?_eq_some_iff.1 hi
      exact .dropped i _ _ (List.getElem_cons_eraseIdx_perm hlt).symm rfl
  | emit key =>
    obtain ⟨-, rfl⟩ := Option.ite_some_none_eq_some.1 hs
    refine .of_cores (fun op hop => ?_) (cores_cancelOpsByKey s key)
      ⟨⟨rfl, rfl, rfl, rfl, rfl⟩, rfl, rfl⟩
    rcases List.mem_append.1 hop with hop | hop
    · exact ⟨op, List.mem_append_left _ hop, rfl⟩
    · exact s.kept_readQueue op (List.mem_of_mem_filter hop)
  | cancel =>
    obtain ⟨-, rfl⟩ := Option.ite_some_none_eq_some.1 hs
    exact .of_cores s.kept_cancelOps (cores_cancelOps s) ⟨⟨rfl, rfl, rfl, rfl, rfl⟩, rfl, rfl⟩
  | closeForDestruction =>
    obtain ⟨-, rfl⟩ := Option.ite_some_none_eq_some.1 hs
    exact .moved s.kept_cancelOps (cores_cancelOps s) ⟨rfl, rfl, rfl, rfl, rfl⟩ rfl (.inr rfl)
  | shutdown =>
    obtain ⟨-, rfl⟩ := Option.ite_some_none_eq_some.1 hs
    exact .moved s.kept_cancelOps (cores_cancelOps s) ⟨rfl, rfl, rfl, rfl, rfl⟩ rfl (.inr rfl)
  | destroyOp i =>
    cases hi : s.scheduled[i]? with
    | none => simp [step, hi] at hs
    | some op =>
      simp only [step, hi] at hs
      obtain ⟨-, rfl⟩ := Option.ite_some_none_eq_some.1 hs
      exact .destroyed i op _ (cores_eraseIdx hi) rfl

end RdmaOnAsio.Ibv.Listener
