import RdmaOnAsio.Ibv.Implementation
import RdmaOnAsio.Nd.Implementation
import RdmaOnAsio.Nd.Proofs.RejectedInitiation
import RdmaOnAsio.Nd.Proofs.Token

/-!
# A connector that is opened starts fresh

Moves copy `connect_state_` and `peer_closed_`, and the implementation moved from keeps them. The ibv
service resets them whenever it opens an implementation, and so does the `assign` of the nd service. The
`do_open` of the nd service does not: an implementation that is opened again starts with the state of the
connection that was moved away. `reopensFresh` says that it is opened only with the flags of a new one.
-/

namespace RdmaOnAsio

open ErrorCode

/-- A step that opens the object leaves it fresh. -/
def opensFresh {σ ι : Type} (M : StepSystem σ ι) (isOpen fresh : σ → Bool) (a : σ) (l : ι) : Bool :=
  (M.step a l).all fun b => isOpen a || !isOpen b || fresh b

namespace Ibv

/-- The flags of a new implementation. -/
def Implementation.fresh (s : Implementation) : Bool :=
  s.conn.connectState == .idle && !s.conn.peerClosed

variable {aliased : Bool} {s s' : Implementation}

theorem Implementation.isOpen_withConn {conn : Option State} (h : s.withConn conn = some s') :
    s'.isOpen = s.isOpen := by
  unfold withConn at h
  split at h
  · obtain rfl := Option.some.inj h
    rfl
  · cases h

theorem Implementation.isOpen_closedStep {l : Label} (h : s.closedStep aliased l = some s') :
    s'.isOpen = s.isOpen := by
  unfold closedStep at h
  split at h
  · simp only [Option.ite_none_right_eq_some, Option.some.injEq] at h
    obtain ⟨-, rfl⟩ := h
    rfl
  · split at h
    · obtain rfl := Option.some.inj h
      rfl
    · exact isOpen_withConn h
  · obtain rfl := Option.some.inj h
    rfl
  · cases h
  · cases h
  · exact isOpen_withConn h

/-- Only `open`, `assign` and the auto-open open an implementation. -/
theorem Implementation.isOpen_connector {l : Label} (h : s.step aliased (.connector l) = some s') :
    s'.isOpen = s.isOpen := by
  have hmove : ∀ {l : Label}, (if s.isOpen then s.withConn (Ibv.step (s.config aliased) s.conn l)
      else s.closedStep aliased l) = some s' → s'.isOpen = s.isOpen := by
    intro l h
    split_ifs at h
    · exact isOpen_withConn h
    · exact isOpen_closedStep h
  cases l with
  | asyncConnect | closeForDestruction | drain => cases h
  | _ => exact hmove h

/-- They either leave it as it is or reset its flags. -/
theorem Implementation.openClosed_fresh (ec : ErrorCode) :
    (s.openClosed ec).1 = s ∨ (s.openClosed ec).1.fresh = true := by
  unfold openClosed
  split_ifs
  · exact .inl rfl
  · exact .inl rfl
  · exact .inr rfl

theorem Implementation.asyncConnect_fresh {opened : ErrorCode} {addr requestSize replyCap : Nat}
    {slot hasCreateQp : Bool}
    (h : s.asyncConnect aliased opened addr slot hasCreateQp requestSize replyCap = some s') :
    s'.isOpen = s.isOpen ∨ s'.fresh = true := by
  have hopen : ∀ {t : Implementation} {openEc : ErrorCode},
      (if s.isOpen then (s, success) else s.openClosed opened) = (t, openEc) →
        t = s ∨ t.fresh = true := by
    intro t openEc ht
    split_ifs at ht
    · exact .inl (Prod.mk.inj ht).1.symm
    · have hfresh := openClosed_fresh (s := s) opened
      rw [ht] at hfresh
      exact hfresh
  unfold asyncConnect at h
  generalize hpair : (if s.isOpen then (s, success) else s.openClosed opened) = r at h
  obtain ⟨t, openEc⟩ := r
  have hkeep : ∀ {u : Implementation}, u.isOpen = t.isOpen → u.fresh = t.fresh →
      u.isOpen = s.isOpen ∨ u.fresh = true := by
    intro u ho hf
    rcases hopen hpair with rfl | hfresh
    · exact .inl ho
    · exact .inr (hf.trans hfresh)
  simp only at h
  split_ifs at h with he hi
  · obtain rfl := Option.some.inj h
    exact hkeep rfl rfl
  · unfold withConn Ibv.step at h
    split at h
    · rename_i conn hconn
      obtain rfl := Option.some.inj h
      simp only [Option.ite_none_right_eq_some, Option.some.injEq] at hconn
      obtain ⟨-, rfl⟩ := hconn
      exact hkeep rfl rfl
    · cases h

/-- Whatever opens an ibv implementation resets its flags. -/
theorem Implementation.opensFresh_step (aliased : Bool) (a : Implementation) (l : ImplLabel) :
    opensFresh (implementations aliased).system Implementation.isOpen Implementation.fresh a l = true := by
  rw [opensFresh, Option.all_eq_true]
  intro b hb
  have hdone : b.isOpen = a.isOpen ∨ b.fresh = true := by
    change a.step aliased l = some b at hb
    cases l with
    | useDevice =>
      obtain rfl := Option.some.inj hb
      exact .inl rfl
    | openConnector ec =>
      simp only [step, Option.ite_none_right_eq_some, Option.some.injEq] at hb
      obtain ⟨-, rfl⟩ := hb
      unfold openConnector
      split_ifs
      · exact .inl rfl
      · rcases openClosed_fresh (s := a) ec with h | h
        · exact .inl (congrArg isOpen h)
        · exact .inr h
    | assign hasHandle ec =>
      simp only [step, Option.ite_none_right_eq_some, Option.some.injEq] at hb
      obtain ⟨-, rfl⟩ := hb
      unfold assign
      split_ifs
      · exact .inl rfl
      · exact .inr rfl
    | asyncConnect opened addr slot hasCreateQp requestSize replyCap =>
      simp only [step, Option.ite_none_right_eq_some] at hb
      exact asyncConnect_fresh hb.2
    | connector l => exact .inl (isOpen_connector hb)
  rcases hdone with h | h
  · rw [h]
    cases a.isOpen <;> rfl
  · rw [h, Bool.or_true]

end Ibv

namespace Nd

/-- The flags of a new implementation. -/
def State.isFresh (s : State) : Bool := s.connectState == .idle && !s.peerClosed

/-- `open` and the auto-open succeed only on an implementation with the flags of a new one. -/
def reopensFresh (s : State) : Label → Bool
  | .openConnector ec => s.isOpen || (doOpen s ec).2.isError || s.isFresh
  | .asyncConnect _ _ _ _ _ _ opened => s.isOpen || (doOpen s opened).2.isError || s.isFresh
  | _ => true

variable {s t : State} {op : CmOp}

theorem Opens.isFresh (h : Opens s t) : t.isFresh = s.isFresh := by
  cases h <;> rfl

theorem Begins.isFresh {hasQp : Bool} (h : Begins s op hasQp t) : t.isFresh = s.isFresh := by
  cases h with
  | rejected u ec hu he => exact hu.isFresh
  | guarded u hu ho => exact hu.isFresh

/-- A step that leaves the connector as open as it was. -/
theorem opensFresh_of_isOpen (h : t.isOpen = s.isOpen) : (s.isOpen || !t.isOpen || t.isFresh) = true := by
  rw [h]
  cases s.isOpen <;> rfl

theorem isOpen_completes {pc : CompletePc} {a : Answer} (h : Completes s op pc a t) : t.isOpen = s.isOpen := by
  cases h <;> rfl

/-- What opens an nd implementation leaves it fresh exactly if it was; `assign` resets the flags. -/
theorem opensFresh_step {l : Label} (h : connector.step s l = some t) :
    opensFresh connector State.isOpen State.isFresh s l = reopensFresh s l := by
  rw [opensFresh, h, Option.all_some]
  cases Step.of_step h with
  | useDevice | dispatch | disconnect | emit | asyncWaitDisconnect => exact opensFresh_of_isOpen rfl
  | openConnector ec hi =>
    have hfresh := (opens_doOpen s ec).isFresh
    rw [reopensFresh, hfresh]
    by_cases ho : s.isOpen = true
    · rw [ho]
      rfl
    · rw [isError_doOpen (by simpa using ho)]
  | assign hasHandle ec hi =>
    unfold Nd.assign
    split_ifs
    · exact opensFresh_of_isOpen rfl
    · exact Bool.or_true _
  | asyncConnect id addr slot hasQp requestSize replyCap opened hi hf =>
    have hb := begins_asyncConnect s { id, addr, kind := .connect, slot, replyCap } hasQp requestSize opened
    have hfresh := hb.isFresh
    have hiff := isOpen_asyncConnect s { id, addr, kind := .connect, slot, replyCap } hasQp requestSize opened
    change (s.isOpen || !(asyncConnect s _ hasQp requestSize opened).isOpen ||
      (asyncConnect s _ hasQp requestSize opened).isFresh) = (s.isOpen || _ || _)
    rw [hfresh]
    cases ho : s.isOpen with
    | true => rfl
    | false =>
      rw [ho, Bool.false_or] at hiff
      cases he : (doOpen s opened).2.isError with
      | true => rw [hiff.2 he]; rfl
      | false =>
        rw [eq_true_of_ne_false fun h => absurd (he.symm.trans (hiff.1 h)) Bool.noConfusion]
        rfl
  | asyncAccept id addr slot hasQp bindEc dataSize hi hf =>
    exact opensFresh_of_isOpen (isOpen_asyncAccept ..)
  | initiate id a _ op ho hid hst => exact opensFresh_of_isOpen hst.frame.1
  | overlapped r op hp hm => exact opensFresh_of_isOpen (by rw [overlappedEnd_eq])
  | complete a op pc _ hd hst => exact opensFresh_of_isOpen (isOpen_completes hst)
  | disconnectStep i a _ hst => exact opensFresh_of_isOpen hst.frame.1

end Nd

/-- Along every run of the ibv implementations, what opens one leaves it with the flags of a new one.
Along a run of the nd implementations it does exactly if every `open` and every auto-open finds these
flags. -/
theorem opened_fresh (aliased : Bool) (ls : List (PoolLabel Ibv.ImplLabel))
    {ms : List (PoolLabel Nd.Label)} {t : List Nd.State}
    (hr : Nd.implementations.pool.run [] ms = some t) :
    (Ibv.implementations aliased).pool.Meets
        (fun s l => Movable.onSteps (opensFresh (Ibv.implementations aliased).system
          Ibv.Implementation.isOpen Ibv.Implementation.fresh) s l = true) [] ls ∧
      (Nd.implementations.pool.Meets
          (fun s l => Movable.onSteps (opensFresh Nd.connector Nd.State.isOpen Nd.State.isFresh) s l = true)
          [] ms ↔
        Nd.implementations.pool.Meets
          (fun s l => Movable.onSteps Nd.reopensFresh s l = true) [] ms) :=
  ⟨Movable.meets_onSteps (Ibv.Implementation.opensFresh_step aliased) [] ls,
    Movable.meets_onSteps_congr (fun _ _ _ hst => Nd.opensFresh_step hst) hr⟩

namespace Nd

/-- A connector that has not left `idle` is moved away and opened again. -/
def movedIdle : List (PoolLabel Label) :=
  [.construct, .on 0 .useDevice, .on 0 (.openConnector (.common success)), .moveConstruct 0,
    .on 0 (.openConnector (.common success))]

/-- A connector that was disconnected is moved away and opened again. -/
def movedDisconnected : List (PoolLabel Label) :=
  [.construct, .on 0 .useDevice, .on 0 (.openConnector (.common success)), .on 0 .disconnect,
    .on 0 (.disconnectStep 0 .run), .on 0 (.disconnectStep 0 .run), .on 0 (.disconnectStep 0 .run),
    .moveConstruct 0, .on 0 (.openConnector (.common success))]

end Nd

theorem opened_fresh_movedIdle :
    Nd.implementations.pool.Meets
      (fun s l => Movable.onSteps (opensFresh Nd.connector Nd.State.isOpen Nd.State.isFresh) s l = true)
      [] Nd.movedIdle := by
  have hr : (Nd.implementations.pool.run [] Nd.movedIdle).isSome = true := by decide +kernel
  exact (opened_fresh false [] (StepSystem.run_after hr)).2.2 (by decide +kernel)

/-- The implementation that was moved from is opened in `closed`. -/
theorem not_opened_fresh :
    ¬ ∀ ms t, Nd.implementations.pool.run [] ms = some t →
      Nd.implementations.pool.Meets
        (fun s l => Movable.onSteps (opensFresh Nd.connector Nd.State.isOpen Nd.State.isFresh) s l = true)
        [] ms := by
  intro h
  have hr : (Nd.implementations.pool.run [] Nd.movedDisconnected).isSome = true := by decide +kernel
  have := h Nd.movedDisconnected _ (StepSystem.run_after hr)
  revert this
  decide +kernel

end RdmaOnAsio
