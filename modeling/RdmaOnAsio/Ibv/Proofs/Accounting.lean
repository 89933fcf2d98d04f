import Mathlib.Data.List.Perm.Basic
import RdmaOnAsio.Ibv.Proofs.Backed

/-!
# Every op is somewhere

An op that was initiated is in the hands of the initiating thread, armed, finished, or its handler has
been invoked. A selection `f` of ops, by their kind and address, is counted over these four places: an
initiation adds to the count what it starts, and nothing else changes it.
-/

namespace RdmaOnAsio.Ibv

open ErrorCode

/-- The op is selected. -/
def CmOp.among (f : OpKind → Nat → Bool) (op : CmOp) : Bool := f op.kind op.addr

/-- The op the initiating thread holds. -/
def InitPc.ops : InitPc → List CmOp
  | .idle => []
  | .guardState op | .resolveAddr op | .publish op | .createQp op | .accept op | .storeClosed op
  | .startOp op | .post op | .waitLatch op | .waitState op => [op]

/-- The handler of a selected op is invoked. -/
def Action.reports (f : OpKind → Nat → Bool) : Action → Bool
  | .invoked op _ => op.among f
  | _ => false

/-- A selected op is initiated. -/
def Label.begins (f : OpKind → Nat → Bool) : Label → Bool
  | .asyncConnect addr _ _ _ _ => f .connect addr
  | .asyncAccept addr _ _ _ _ => f .accept addr
  | .asyncWaitDisconnect addr _ => f .wait addr
  | _ => false

/-- The selected ops: being initiated, armed, finished, and reported. -/
def State.held (s : State) (f : OpKind → Nat → Bool) : Nat :=
  s.initiation.ops.countP (CmOp.among f) + s.armed.countP (CmOp.among f) +
    s.retired.countP (CmOp.among f) + s.trace.countP (Action.reports f)

/-- The ops that exist: being initiated, armed, finished. -/
def State.existing (s : State) : List CmOp := s.initiation.ops ++ (s.armed ++ s.retired)

/-- `g` depends on what does not change about an op. -/
def CmOp.Fixed (g : CmOp → Bool) : Prop :=
  ∀ op op' : CmOp, op'.kind = op.kind → op'.addr = op.addr →
    op'.cancellationKey = op.cancellationKey → g op' = g op

/-- The op an initiation begins with. -/
def Label.newOp : Label → Option CmOp
  | .asyncConnect addr slot hasCreateQp _ replyCap => some (.newConnect addr slot hasCreateQp replyCap)
  | .asyncAccept addr slot hasCreateQp _ _ => some (.newAccept addr slot hasCreateQp)
  | .asyncWaitDisconnect addr slot => some (.newWait addr slot)
  | _ => none

/-- The op whose completion runs. -/
def State.completing (s : State) : Label → Option CmOp
  | .complete i => s.scheduled[i]?
  | _ => none

variable {cfg : Config} {s t s' : State} {op : CmOp} {pc : PerformPc} {r : CmOp × Outcome}
  {g : CmOp → Bool} {f : OpKind → Nat → Bool}

theorem CmOp.fixed_among : CmOp.Fixed (CmOp.among f) := by
  intro op op' hkind haddr _
  simp only [CmOp.among, hkind, haddr]

theorem State.held_eq :
    s.held f = s.existing.countP (CmOp.among f) + s.trace.countP (Action.reports f) := by
  simp only [State.held, State.existing, List.countP_append]
  omega

/-! ## The ops that exist -/

/-- An op is kept or finished by a piece of `do_perform`. -/
theorem countP_kept_finished (f : CmOp → Bool) :
    (kept r).countP f + (finished r).countP f = if f r.1 then 1 else 0 := by
  obtain ⟨o, out⟩ := r
  cases out with
  | goto pc' => simp [kept, finished, List.countP_cons]
  | ret st => cases st <;> simp [kept, finished, List.countP_cons]

theorem State.countP_performs {ans : Answer} (hg : CmOp.Fixed g) (hr : s.reactor = .performing op pc)
    (hst : Performs s op pc ans t r) : (t.proceed r).existing.countP g = s.existing.countP g := by
  obtain ⟨hkind, haddr, hkey⟩ := hst.fixed
  have hsame : g r.1 = g op := hg op r.1 hkind haddr hkey
  have hi : t.initiation = s.initiation := by cases hst <;> rfl
  have hq : t.readQueue = s.readQueue := by cases hst <;> rfl
  have hret : t.retired = s.retired := by cases hst <;> rfl
  have harmed : s.armed.countP g = (if g op then 1 else 0) + s.readQueue.countP g := by
    simp only [State.armed, hr, Reactor.ops, List.countP_append, List.countP_singleton]
  have hkept := countP_kept_finished (r := r) g
  rw [hsame] at hkept
  have hperm := (State.retired_proceed (s := t) (r := r)).countP_eq g
  rw [List.countP_append, hret] at hperm
  simp only [State.existing, State.initiation_proceed, State.armed_proceed, List.countP_append, hi, hq,
    harmed, hperm]
  omega

theorem State.countP_existing_cancelWhere (hg : CmOp.Fixed g) (hr : s.reactor = .unlocked)
    {p : CmOp → Bool} : (s.cancelWhere p).existing.countP g = s.existing.countP g := by
  have habort : g ∘ CmOp.abort = g := funext fun op => hg op op.abort rfl rfl rfl
  have hretired : (s.cancelWhere p).retired.countP g =
      s.retired.countP g + (s.readQueue.filter p).countP g := by
    simp only [State.retired, State.cancelWhere, List.countP_append, List.countP_map, habort,
      Nat.add_assoc]
  have hsplit := State.countP_cancelWhere hr g (p := p)
  simp only [State.existing, State.initiation_cancelWhere, List.countP_append, hretired]
  omega

theorem InitPc.ops_afterGuard : (InitPc.afterGuard op).ops = [op] := by
  unfold InitPc.afterGuard
  split <;> rfl

theorem InitPc.countP_afterPublish (hg : CmOp.Fixed g) :
    (InitPc.afterPublish op).ops.countP g = [op].countP g := by
  unfold InitPc.afterPublish
  split
  · have hsame : g { op with ec := success } = g op := hg op _ rfl rfl rfl
    simp only [InitPc.ops, List.countP_singleton, hsame]
  · split_ifs <;> rfl
  · split_ifs <;> rfl

theorem State.countP_initiates {ans : Answer} (hg : CmOp.Fixed g) (hst : Initiates s ans s') :
    s'.existing.countP g = s.existing.countP g := by
  have hone : ∀ {o o' : CmOp}, o'.kind = o.kind → o'.addr = o.addr →
      o'.cancellationKey = o.cancellationKey → [o'].countP g = [o].countP g := by
    intro o o' hkind haddr hkey
    rw [List.countP_singleton, List.countP_singleton, hg o o' hkind haddr hkey]
  have hmove : ∀ {i : InitPc} {c : ConnectState} {sl : List Nat} {tr : List Action},
      i.ops.countP g = s.initiation.ops.countP g →
      ({ s with initiation := i, connectState := c, slots := sl, trace := tr } :
        State).existing.countP g = s.existing.countP g := by
    intro i c sl tr hi
    simp only [State.existing, List.countP_append, hi]
    rfl
  cases hst with
  | guardRejected op hi hs => exact hmove (by rw [hi]; exact hone rfl rfl rfl)
  | guardPassed op hi hs =>
    obtain ⟨sl, hsl⟩ := s.armCmCancellation_frame { op with admitted := true }
    rw [hsl]
    refine hmove ?_
    rw [hi, InitPc.ops_afterGuard]
    exact hone rfl rfl rfl
  | resolveAddrOk op hi => exact hmove (by rw [hi]; exact hone rfl rfl rfl)
  | resolveAddrFailed op errno hi => exact hmove (by rw [hi]; exact hone rfl rfl rfl)
  | published op hi hs =>
    refine hmove ?_
    rw [hi, InitPc.countP_afterPublish hg]
    rfl
  | publishLost op hi hs => exact hmove (by rw [hi]; exact hone rfl rfl rfl)
  | createQpFailed op ec hi he => exact hmove (by rw [hi]; exact hone rfl rfl rfl)
  | createQpOk op ec hi he => exact hmove (by rw [hi]; exact hone rfl rfl rfl)
  | acceptOk op hi => exact hmove (by rw [hi]; exact hone rfl rfl rfl)
  | acceptFailed op errno hi => exact hmove (by rw [hi]; exact hone rfl rfl rfl)
  | storedClosed op hi => exact hmove (by rw [hi]; rfl)
  | posted op hi =>
    simp only [State.existing, hi, InitPc.ops, State.armed, State.retired, List.countP_append,
      List.countP_nil]
    omega
  | started op hi hr =>
    simp only [State.existing, hi, InitPc.ops, State.armed, State.retired, State.startOp,
      List.countP_append, List.countP_nil]
    omega
  | latchSet op hi hp => exact hmove (by rw [hi]; exact hone rfl rfl rfl)
  | latchClear op hi hp => exact hmove (by rw [hi]; rfl)
  | waitClosed op hi hs => exact hmove (by rw [hi]; exact hone rfl rfl rfl)
  | waitOpen op hi hs =>
    obtain ⟨sl, hsl⟩ := s.armCmCancellation_frame op
    rw [hsl]
    exact hmove (by rw [hi]; rfl)

/-- Running a completion takes its op away. -/
theorem State.countP_complete {i : Nat} (hop : s.scheduled[i]? = some op) :
    (completeOp cfg { s with scheduled := s.scheduled.eraseIdx i } op).existing.countP g +
      (if g op then 1 else 0) = s.existing.countP g := by
  obtain ⟨hi, rfl⟩ := List.getElem?_eq_some_iff.1 hop
  have hperm := (List.getElem_cons_eraseIdx_perm hi).countP_eq g
  rw [List.countP_cons] at hperm
  have hsame : (completeOp cfg { s with scheduled := s.scheduled.eraseIdx i } s.scheduled[i]).existing =
      ({ s with scheduled := s.scheduled.eraseIdx i } : State).existing := by
    unfold completeOp
    split_ifs <;> rfl
  rw [hsame]
  simp only [State.existing, State.armed, State.retired, List.countP_append]
  omega

/-- An initiation that begins adds its op. -/
theorem State.countP_begin {i : InitPc} (hi : s.initiation = .idle) :
    ({ s with initiation := i } : State).existing.countP g =
      s.existing.countP g + i.ops.countP g := by
  simp only [State.existing, hi, List.countP_append, InitPc.ops, List.countP_nil]
  show _ + (s.armed.countP g + s.retired.countP g) = _
  omega

theorem State.countP_guarded {ec : ErrorCode} (hg : CmOp.Fixed g) (hi : s.initiation = .idle) :
    (s.guarded op ec).existing.countP g = s.existing.countP g + if g op then 1 else 0 := by
  unfold State.guarded
  rw [State.countP_begin hi]
  cases ec.isError with
  | true => simp only [if_true, InitPc.ops, List.countP_singleton, hg op { op with ec := ec } rfl rfl rfl]
  | false => simp only [Bool.false_eq_true, if_false, InitPc.ops, List.countP_singleton]

/-- Every step keeps the ops that exist, except that an initiation adds one and a completion takes one
away. -/
theorem State.countP_existing_step {l : Label} (hg : CmOp.Fixed g)
    (hst : (connector cfg).step s l = some s') :
    s'.existing.countP g + (if (s.completing l).any g then 1 else 0) =
      s.existing.countP g + if l.newOp.any g then 1 else 0 := by
  cases Step.of_step hst with
  | event ev hlt => rfl
  | beginConnect addr slot hasCreateQp requestSize replyCap hi hlt => exact State.countP_guarded hg hi
  | beginAccept addr slot hasCreateQp bindFails dataSize hi hlt => exact State.countP_guarded hg hi
  | beginWait addr slot hi hlt =>
    exact (State.countP_begin hi).trans (congrArg (_ + ·) List.countP_singleton)
  | initiate ans _ hin => exact State.countP_initiates hg hin
  | performIo he hr hlt =>
    have hperm := (State.retired_nextOp (s := s.takeEdge)).countP_eq g
    simp only [State.existing, List.countP_append, hperm, State.armed_nextOp (s := s.takeEdge) hr,
      State.initiation_nextOp]
    rfl
  | perform op pc ans t r hr hp => exact State.countP_performs hg hr hp
  | complete i op hop =>
    rw [State.completing, hop]
    exact State.countP_complete hop
  | enterDisconnect hlt => rfl
  | disconnectStep i ans _ hd =>
    cases hd with
    | load hi => rfl
    | retry old a' hi ha => rfl
    | won old hi hs => rfl
    | native res hi => rfl
    | cancel old hi hr =>
      show s.cancelOps.existing.countP g = _
      rw [State.cancelOps_eq, State.countP_existing_cancelWhere hg hr]
      rfl
  | emit key hk hr hlt =>
    rw [State.cancelOpsByKey_eq, State.countP_existing_cancelWhere hg hr]
    rfl
  | closeForDestruction hlt hi hr hc =>
    show s.cancelOps.existing.countP g = _
    rw [State.cancelOps_eq, State.countP_existing_cancelWhere hg hr]
    rfl
  | drainEstablished ev rest hlt hc he => rfl
  | drainOther ev rest hlt hc he => rfl
  | drainEnd hlt hc => rfl
  | drainHardError errno hlt => rfl

/-! ## The handlers that were invoked -/

theorem countP_trace_log {act : Action} (h : act.reports f = false) :
    (s.log act).trace.countP (Action.reports f) = s.trace.countP (Action.reports f) :=
  List.countP_cons_of_neg (by simp [h])

theorem State.countP_trace_complete {i : Nat} :
    (completeOp cfg { s with scheduled := s.scheduled.eraseIdx i } op).trace.countP
        (Action.reports f) =
      s.trace.countP (Action.reports f) + if op.among f then 1 else 0 := by
  unfold completeOp
  split_ifs <;> simp_all [State.log, Action.reports]

/-- Only a completion reports. -/
theorem State.countP_trace_step {l : Label} (hst : (connector cfg).step s l = some s') :
    s'.trace.countP (Action.reports f) =
      s.trace.countP (Action.reports f) + if (s.completing l).any (CmOp.among f) then 1 else 0 := by
  cases Step.of_step hst with
  | event ev hlt => exact countP_trace_log rfl
  | initiate ans _ hin =>
    cases hin with
    | guardPassed op hi hs =>
      obtain ⟨sl, hsl⟩ := s.armCmCancellation_frame { op with admitted := true }
      rw [hsl]
      rfl
    | waitOpen op hi hs =>
      obtain ⟨sl, hsl⟩ := s.armCmCancellation_frame op
      rw [hsl]
      rfl
    | resolveAddrOk op hi => exact countP_trace_log rfl
    | resolveAddrFailed op errno hi => exact countP_trace_log rfl
    | published op hi hs => exact countP_trace_log rfl
    | createQpFailed op ec hi he => exact countP_trace_log rfl
    | createQpOk op ec hi he => exact countP_trace_log rfl
    | acceptOk op hi => exact countP_trace_log rfl
    | acceptFailed op errno hi => exact countP_trace_log rfl
    | storedClosed op hi => exact countP_trace_log rfl
    | _ => rfl
  | performIo he hr hlt => exact congrArg _ State.trace_nextOp
  | perform op pc ans t r hr hp =>
    rw [State.trace_proceed]
    cases hp <;> simp [Action.reports, State.completing]
  | complete i op hop =>
    rw [State.completing, hop]
    exact State.countP_trace_complete
  | disconnectStep i ans _ hd =>
    cases hd with
    | won old hi hs => exact countP_trace_log rfl
    | native res hi => exact countP_trace_log rfl
    | _ => rfl
  | drainEstablished ev rest hlt hc he => exact (countP_trace_log rfl).trans (countP_trace_log rfl)
  | drainOther ev rest hlt hc he => exact countP_trace_log rfl
  | _ => rfl

theorem Label.begins_eq_newOp (l : Label) : l.begins f = l.newOp.any (CmOp.among f) := by
  cases l <;> rfl

/-- Every step keeps the account, and an initiation adds its op to it. -/
theorem State.held_step {l : Label} (hst : (connector cfg).step s l = some s') :
    s'.held f = s.held f + if l.begins f then 1 else 0 := by
  have hexisting := State.countP_existing_step CmOp.fixed_among hst (g := CmOp.among f)
  have htrace := State.countP_trace_step hst (f := f)
  rw [State.held_eq, State.held_eq, htrace, Label.begins_eq_newOp]
  omega

/-- No op is lost along a run. -/
theorem State.held_run {ls : List Label}
    (hr : (connector cfg).run s ls = some s') : s'.held f = s.held f + ls.countP (Label.begins f) := by
  induction ls generalizing s with
  | nil =>
    obtain rfl : s = s' := by simpa using hr
    rfl
  | cons l ls ih =>
    obtain ⟨t, ht, hrest⟩ := StepSystem.run_cons.1 hr
    rw [ih hrest, State.held_step ht, List.countP_cons]
    omega

end RdmaOnAsio.Ibv
