import RdmaOnAsio.Ibv.Lifetime
import RdmaOnAsio.Ibv.Proofs.Backed

/-!
# The pointers captured by ops

The pointers an op follows lead to the owner of its `cm_id` as long as no step takes that owner away
while the op can still follow them: an armed op while it is performed, and a connect or accept op that
ends with `operation_aborted` when its completion runs. `outlives` is that condition on moves and
destructions; a functor is followed whenever its signal is emitted, so there the condition is on the
emission.
-/

namespace RdmaOnAsio.Ibv

open ErrorCode

namespace Lifetime

/-- No op holds on to the implementation a step takes away. A destruction and the target of a move
assignment abort the armed ops, so that only connect and accept ops matter there; a move leaves the armed
ops of its source where they are. -/
def outlives (cfg : Config) (s : State) : Label → Bool
  | .destroy i =>
    (s.armed.all fun b => b.impl != i || !b.op.isConn) &&
      s.scheduled.all fun b => b.impl != i || !b.op.abortedConn cfg
  | .moveConstruct _ j =>
    ((s.armed ++ s.performing.map Prod.fst).all fun b => b.impl != j) &&
      s.scheduled.all fun b => b.impl != j || !b.op.abortedConn cfg || b.cmId.isNone
  | .moveAssign i j =>
    (s.armed.all fun b => b.impl != i || !b.op.isConn) &&
      ((s.armed ++ s.performing.map Prod.fst).all fun b => b.impl != j) &&
      s.scheduled.all fun b =>
        (b.impl != i && b.impl != j) || !b.op.abortedConn cfg || b.cmId.isNone
  | .emit k => (s.functors[k]?).all fun f => s.valid f.impl f.cmId
  | _ => true

/-- Every pointer that is still to be followed is valid, and none has been followed that was not. -/
structure Sound (cfg : Config) (s : State) : Prop where
  armed : ∀ b ∈ s.armed, s.valid b.impl b.cmId = true ∧ b.cmId.isSome = true
  performing : ∀ b ∈ s.performing, s.valid b.1.impl b.1.cmId = true ∧ b.1.cmId.isSome = true
  scheduled : ∀ b ∈ s.scheduled, b.op.abortedConn cfg = true → s.valid b.impl b.cmId = true
  quiet : s.dangling = false

variable {cfg : Config} {s t s' : State} {m m' : Impl} {b : BoundOp} {i j : Nat}
  {cmId : Option Nat}

/-! ## Valid pointers -/

theorem valid_self (h : s.impls i = some m) : s.valid i m.cmId = true := by
  simp [State.valid, h]

theorem impls_setImpl_self {x : Option Impl} : (s.setImpl i x).impls i = x := Function.update_self ..

theorem impls_setImpl_ne {x : Option Impl} (h : j ≠ i) : (s.setImpl i x).impls j = s.impls j :=
  Function.update_of_ne h ..

theorem valid_setImpl_ne {x : Option Impl} (h : j ≠ i) :
    (s.setImpl i x).valid j cmId = s.valid j cmId := by
  rw [State.valid, State.valid, impls_setImpl_ne h]

/-- A `cm_id` that is followed successfully is owned. -/
theorem cmId_of_valid (h : s.valid i cmId = true) (hm : s.impls i = some m)
    (hc : cmId.isSome = true) : m.cmId = cmId := by
  cases cmId with
  | none => cases hc
  | some d => simpa [State.valid, hm] using h

/-- Writing an implementation that keeps its `cm_id`, or had none, keeps the pointers valid. -/
theorem valid_setImpl (hm : s.impls i = some m) (hc : m.cmId = none ∨ m'.cmId = m.cmId)
    (h : s.valid j cmId = true) : (s.setImpl i (some m')).valid j cmId = true := by
  by_cases hji : j = i
  · subst hji
    cases cmId with
    | none => simp [State.valid, impls_setImpl_self]
    | some d =>
      have hd : m.cmId = some d := cmId_of_valid h hm rfl
      rcases hc with hc | hc
      · rw [hc] at hd
        cases hd
      · simp [State.valid, impls_setImpl_self, hc, hd]
  · rw [valid_setImpl_ne hji]
    exact h

/-! ## What steps do to the ops -/

/-- A step that leaves the ops alone and keeps the pointers valid. -/
theorem Sound.frame (h : Sound cfg s) (ha : s'.armed = s.armed) (hp : s'.performing = s.performing)
    (hs : s'.scheduled = s.scheduled) (hd : s'.dangling = s.dangling)
    (hv : ∀ i c, s.valid i c = true → s'.valid i c = true) : Sound cfg s' where
  armed b hb := (h.armed b (ha ▸ hb)).imp (hv _ _) id
  performing b hb := (h.performing b (hp ▸ hb)).imp (hv _ _) id
  scheduled b hb hab := hv _ _ (h.scheduled b (hs ▸ hb) hab)
  quiet := hd.trans h.quiet

theorem Sound.setImpl (h : Sound cfg s) (hm : s.impls i = some m)
    (hc : m.cmId = none ∨ m'.cmId = m.cmId) : Sound cfg (s.setImpl i (some m')) :=
  h.frame rfl rfl rfl rfl fun _ _ => valid_setImpl hm hc

theorem Sound.armCmCancellation (h : Sound cfg s) : Sound cfg (s.armCmCancellation b) := by
  unfold State.armCmCancellation
  split
  · exact h.frame rfl rfl rfl rfl fun _ _ hv => hv
  · exact h

theorem impls_armCmCancellation : (s.armCmCancellation b).impls = s.impls := by
  unfold State.armCmCancellation
  split <;> rfl

/-- An op that is posted has a valid pointer. -/
theorem Sound.post (h : Sound cfg s) (hv : s.valid b.impl b.cmId = true) (ec : ErrorCode) :
    Sound cfg (s.post b ec) where
  armed := h.armed
  performing := h.performing
  scheduled o ho hab := by
    rcases List.mem_append.1 ho with ho | ho
    · exact h.scheduled o ho hab
    · obtain rfl := List.mem_singleton.1 ho
      exact hv
  quiet := h.quiet

/-- An op that is armed has a valid pointer, and a `cm_id`. -/
theorem Sound.startOp (h : Sound cfg s) (hv : s.valid b.impl b.cmId = true)
    (hc : b.cmId.isSome = true) : Sound cfg (s.startOp b) where
  armed o ho := by
    rcases List.mem_append.1 ho with ho | ho
    · exact h.armed o ho
    · obtain rfl := List.mem_singleton.1 ho
      exact ⟨hv, hc⟩
  performing := h.performing
  scheduled := h.scheduled
  quiet := h.quiet

theorem Sound.abortOps (h : Sound cfg s) (cmId : Option Nat) (p : BoundOp → Bool) :
    Sound cfg (s.abortOps cmId p) where
  armed o ho := h.armed o (List.mem_filter.1 ho).1
  performing := h.performing
  scheduled o ho hab := by
    rcases List.mem_append.1 ho with ho | ho
    · exact h.scheduled o ho hab
    · obtain ⟨o', ho', rfl⟩ := List.mem_map.1 ho
      exact (h.armed o' (List.mem_filter.1 ho').1).1
  quiet := h.quiet

/-- An op goes on, back to the queue, or to its completion with a valid pointer. -/
theorem Sound.resume (h : Sound cfg s) {k : Nat} {r : CmOp × Outcome}
    (hv : s.valid b.impl b.cmId = true) (hc : b.cmId.isSome = true) :
    Sound cfg (s.resume k b r) := by
  obtain ⟨op, out⟩ := r
  cases out with
  | goto pc =>
    refine ⟨h.armed, fun o ho => ?_, h.scheduled, h.quiet⟩
    rcases List.mem_or_eq_of_mem_set ho with ho | rfl
    · exact h.performing o ho
    · exact ⟨hv, hc⟩
  | ret st =>
    cases st with
    | notDone =>
      refine ⟨fun o ho => ?_, fun o ho => h.performing o (List.mem_of_mem_eraseIdx ho), h.scheduled,
        h.quiet⟩
      rcases List.mem_cons.1 ho with rfl | ho
      · exact ⟨hv, hc⟩
      · exact h.armed o ho
    | done =>
      refine ⟨h.armed, fun o ho => h.performing o (List.mem_of_mem_eraseIdx ho), fun o ho hab => ?_,
        h.quiet⟩
      rcases List.mem_append.1 ho with ho | ho
      · exact h.scheduled o ho hab
      · obtain rfl := List.mem_singleton.1 ho
        exact hv

/-! ## Initiations -/

theorem Sound.opened (h : Sound cfg s) (hm : s.impls i = some m) (hc : m.cmId = none) :
    Sound cfg (s.opened i) :=
  (h.setImpl hm (.inl hc)).frame rfl rfl rfl rfl
    fun _ _ hv => hv

/-- The auto-open leaves an implementation at the address, with a `cm_id` unless it failed. -/
theorem Sound.autoOpen (h : Sound cfg s) (hm : s.impls i = some m) {opened : NativeResult} {x : _}
    (hx : autoOpen cfg s i m opened = x) :
    Sound cfg x.1 ∧ x.1.impls i = some x.2.1 ∧ (x.2.2 = none → x.2.1.cmId.isSome = true) := by
  subst hx
  unfold Lifetime.autoOpen
  split_ifs with hsome hreg
  · exact ⟨h, hm, fun _ => hsome⟩
  · exact ⟨h, hm, fun hn => by cases hn⟩
  · cases opened with
    | ok =>
      have hnone : m.cmId = none := by simpa using hsome
      exact ⟨h.opened hm hnone, impls_setImpl_self, fun _ => rfl⟩
    | fail errno => exact ⟨h, hm, fun hn => by cases hn⟩

theorem Sound.asyncConnect (h : Sound cfg s) (hm : s.impls b.impl = some m) {requestSize : Nat}
    {opened resolve : NativeResult} :
    Sound cfg (asyncConnect cfg s m b requestSize opened resolve) := by
  unfold Lifetime.asyncConnect
  obtain ⟨hs, himpl, hopen⟩ := h.autoOpen hm rfl
  generalize Lifetime.autoOpen cfg s b.impl m opened = x at hs himpl hopen ⊢
  obtain ⟨s₁, m₁, openEc⟩ := x
  have hv : s₁.valid b.impl m₁.cmId = true := valid_self himpl
  cases openEc with
  | some ec => exact hs.post (b := { b with cmId := m₁.cmId }) hv ec
  | none =>
    simp only
    split_ifs with hsize hstate
    · exact hs.post (b := { b with cmId := m₁.cmId }) hv _
    · exact hs.post (b := { b with cmId := m₁.cmId }) hv _
    · have harm : Sound cfg (s₁.armCmCancellation { b with cmId := m₁.cmId }) := hs.armCmCancellation
      have himpl' : (s₁.armCmCancellation { b with cmId := m₁.cmId }).impls b.impl = some m₁ := by
        rw [impls_armCmCancellation]
        exact himpl
      have hset : ∀ c : ConnectState,
          Sound cfg ((s₁.armCmCancellation { b with cmId := m₁.cmId }).setImpl b.impl
            (some { m₁ with connectState := c })) ∧
          ((s₁.armCmCancellation { b with cmId := m₁.cmId }).setImpl b.impl
            (some { m₁ with connectState := c })).valid b.impl m₁.cmId = true := fun c =>
        ⟨harm.setImpl himpl' (.inr rfl), valid_setImpl himpl' (.inr rfl) (valid_self himpl')⟩
      cases resolve with
      | ok =>
        exact (hset .addrResolve).1.startOp (b := { b with cmId := m₁.cmId }) (hset .addrResolve).2
          (hopen rfl)
      | fail errno =>
        exact (hset .closed).1.post (b := { b with cmId := m₁.cmId }) (hset .closed).2 _

theorem Sound.asyncAccept (h : Sound cfg s) (hm : s.impls b.impl = some m) (hb : b.cmId = m.cmId)
    {bindFails : Bool} {dataSize : Nat} {created : ErrorCode} {accept : NativeResult} :
    Sound cfg (asyncAccept cfg s m b bindFails dataSize created accept) := by
  have hv : s.valid b.impl b.cmId = true := by
    rw [hb]
    exact valid_self hm
  have harm : Sound cfg (s.armCmCancellation b) := h.armCmCancellation
  have himpl : (s.armCmCancellation b).impls b.impl = some m := by
    rw [impls_armCmCancellation]
    exact hm
  have hset : ∀ c : ConnectState, Sound cfg ((s.armCmCancellation b).setImpl b.impl
      (some { m with connectState := c })) ∧
      ((s.armCmCancellation b).setImpl b.impl (some { m with connectState := c })).valid b.impl
        b.cmId = true := by
    intro c
    refine ⟨harm.setImpl himpl (.inr rfl), valid_setImpl himpl (.inr rfl) ?_⟩
    rw [hb]
    exact valid_self himpl
  unfold Lifetime.asyncAccept
  split_ifs with hbind hreg hopen hsize hstate hcreate
  · exact h.post hv _
  · exact h.post hv _
  · exact h.post hv _
  · exact h.post hv _
  · exact h.post hv _
  · exact (hset .closed).1.post (hset .closed).2 _
  · cases accept with
    | ok =>
      refine (hset .connecting).1.startOp (hset .connecting).2 ?_
      rw [hb]
      exact Option.isSome_iff_ne_none.2 (by simpa using hopen)
    | fail errno => exact (hset .closed).1.post (hset .closed).2 _

theorem Sound.asyncWaitDisconnect (h : Sound cfg s) (hm : s.impls b.impl = some m)
    (hb : b.cmId = m.cmId) : Sound cfg (asyncWaitDisconnect s m b) := by
  have hv : s.valid b.impl b.cmId = true := by
    rw [hb]
    exact valid_self hm
  unfold Lifetime.asyncWaitDisconnect
  split_ifs with hclosed hopen
  · exact h.post hv _
  · exact h.post hv _
  · refine h.armCmCancellation.startOp ?_ ?_
    · rw [State.valid, impls_armCmCancellation]
      exact hv
    · rw [hb]
      exact Option.isSome_iff_ne_none.2 (by simpa using hopen)

/-! ## `do_perform` and `do_complete` -/

/-- No access changes which `cm_id` an implementation owns. -/
theorem cmId_access {op : CmOp} {pc : PerformPc} {a : Answer} {r : CmOp × Outcome}
    (h : access m op pc a = some (m', r)) : m'.cmId = m.cmId := by
  unfold access at h
  split at h
  case h_1 =>
    split_ifs at h <;> cases h <;> rfl
  case h_2 =>
    split_ifs at h <;> cases h <;> rfl
  case h_3 =>
    cases h
    rfl
  case h_4 =>
    split_ifs at h <;> cases h <;> rfl
  case h_5 =>
    cases h
    rfl
  case h_6 =>
    cases h
    rfl
  case h_7 => cases h

/-- A step of `do_perform` follows a valid pointer. -/
theorem Sound.performStep (h : Sound cfg s) {k : Nat} {a : Answer}
    (hst : performStep s k a = some s') : Sound cfg s' := by
  unfold Lifetime.performStep at hst
  split at hst
  · cases hst
  · next b pc hk =>
    obtain ⟨hv, hc⟩ := h.performing (b, pc) (List.mem_of_getElem? hk)
    split_ifs at hst
    · split at hst
      · cases hst
      · next m hm =>
        split at hst
        · next m' r hacc =>
          obtain rfl := Option.some.inj hst
          have hcm := cmId_access hacc
          exact (h.setImpl hm (.inr hcm)).resume (valid_setImpl hm (.inr hcm) hv) hc
        · cases hst
    · split at hst
      · next r hnat =>
        obtain rfl := Option.some.inj hst
        exact h.resume hv hc
      · cases hst

/-- A completion follows a valid pointer, if any. -/
theorem Sound.completeOp (h : Sound cfg s)
    (hb : b.op.abortedConn cfg = true → s.valid b.impl b.cmId = true) :
    Sound cfg (completeOp cfg s b) := by
  unfold Lifetime.completeOp
  split_ifs with hab hv
  · cases hm : s.impls b.impl with
    | none => simp [State.valid, hm] at hv
    | some m => exact h.setImpl hm (.inr rfl)
  · exact absurd (hb (by simpa [CmOp.abortedConn] using hab)) hv
  · exact h

/-- The `do_perform` of the model of one connector goes through the same accesses. -/
theorem access_of_performs {s t : Ibv.State} {op : CmOp} {pc : PerformPc} {a : Answer}
    {r : CmOp × Outcome} (h : Performs s op pc a t r) (hd : derefs pc = true) :
    access { connectState := s.connectState, peerClosed := s.peerClosed } op pc a =
      some ({ connectState := t.connectState, peerClosed := t.peerClosed }, r) := by
  cases h with
  | advanceWon expected desired hs => simp [access, hs, Ibv.State.log]
  | advanceLost expected desired hs => simp [access, hs]
  | establishedWon ev hs => simp [access, hs, Ibv.State.log]
  | establishedLost ev hs => simp [access, hs]
  | claimLoad => rfl
  | claimWon e hs => simp [access, hs, Ibv.State.log]
  | claimRetry e a ha =>
    rcases ha with ⟨rfl, hne⟩ | rfl
    · simp [access, hne]
    · rfl
  | peerClosed => rfl
  | _ => cases hd

/-! ## Moves and destructions -/

/-- Nothing armed or being performed points to an implementation whose `cm_id` is another one. -/
theorem impl_ne_of_cmId (hv : s.valid b.impl b.cmId = true ∧ b.cmId.isSome = true)
    (hm : s.impls i = some m) (hne : b.cmId ≠ m.cmId) : b.impl ≠ i := by
  rintro rfl
  exact hne (cmId_of_valid hv.1 hm hv.2).symm

/-- What is left on the descriptors once the one of `m` is deregistered. -/
theorem mem_armed_close (hb : b ∈ (s.closeForDestruction m).armed) (hc : b.cmId.isSome = true) :
    b ∈ s.armed ∧ b.cmId ≠ m.cmId := by
  unfold State.closeForDestruction at hb
  split_ifs at hb with hsome
  · obtain ⟨hmem, hne⟩ := List.mem_filter.1 hb
    exact ⟨hmem, by simpa using hne⟩
  · refine ⟨hb, fun heq => hsome ?_⟩
    rw [← heq]
    exact hc

/-- A completion that is posted once the descriptor of `m` is deregistered is an old one, or belongs to
an armed op. -/
theorem mem_scheduled_close (hb : b ∈ (s.closeForDestruction m).scheduled) :
    b ∈ s.scheduled ∨ ∃ o ∈ s.armed, b = { o with op := o.op.abort } := by
  unfold State.closeForDestruction at hb
  split_ifs at hb
  · rcases List.mem_append.1 hb with hb | hb
    · exact .inl hb
    · obtain ⟨o, ho, rfl⟩ := List.mem_map.1 hb
      exact .inr ⟨o, (List.mem_filter.1 ho).1, rfl⟩
  · exact .inl hb

theorem Sound.close (h : Sound cfg s) : Sound cfg (s.closeForDestruction m) := by
  unfold State.closeForDestruction
  split_ifs
  · exact h.abortOps _ _
  · exact h

theorem performing_close : (s.closeForDestruction m).performing = s.performing := by
  unfold State.closeForDestruction
  split_ifs <;> rfl

/-- Taking an implementation away keeps the pointers valid that do not lead to it. -/
theorem Sound.update (h : Sound cfg s) (hd : s'.dangling = s.dangling) (ha : s'.armed = s.armed)
    (hp : s'.performing = s.performing) (hs : s'.scheduled = s.scheduled)
    (harm : ∀ b ∈ s.armed, s'.valid b.impl b.cmId = s.valid b.impl b.cmId)
    (hperf : ∀ b ∈ s.performing, s'.valid b.1.impl b.1.cmId = s.valid b.1.impl b.1.cmId)
    (hsched : ∀ b ∈ s.scheduled, b.op.abortedConn cfg = true → s.valid b.impl b.cmId = true →
      s'.valid b.impl b.cmId = true) : Sound cfg s' where
  armed b hb := by
    rw [ha] at hb
    rw [harm b hb]
    exact h.armed b hb
  performing b hb := by
    rw [hp] at hb
    rw [hperf b hb]
    exact h.performing b hb
  scheduled b hb hab := by
    rw [hs] at hb
    exact hsched b hb hab (h.scheduled b hb hab)
  quiet := hd.trans h.quiet

theorem cmId_ne_of_unlocked (h : s.unlocked cmId = true) {o : BoundOp × PerformPc}
    (ho : o ∈ s.performing) : o.1.cmId ≠ cmId := by
  have := List.all_eq_true.1 h o ho
  simpa using this

/-- A destruction leaves the pointers valid if it meets the condition. -/
theorem Sound.destroy (h : Sound cfg s) (hm : s.impls i = some m) (hu : s.unlocked m.cmId = true)
    (hout : outlives cfg s (.destroy i) = true) :
    Sound cfg ((s.closeForDestruction m).setImpl i none) := by
  obtain ⟨harm, hsched⟩ := Bool.and_eq_true_iff.1 hout
  rw [List.all_eq_true] at harm hsched
  refine h.close.update rfl rfl rfl rfl (fun b hb => valid_setImpl_ne ?_)
    (fun b hb => valid_setImpl_ne ?_) fun b hb hab hv => ?_
  · obtain ⟨hmem, hne⟩ := mem_armed_close hb (h.close.armed b hb).2
    exact impl_ne_of_cmId (h.armed b hmem) hm hne
  · rw [performing_close] at hb
    exact impl_ne_of_cmId (h.performing b hb) hm (cmId_ne_of_unlocked hu hb)
  · rw [valid_setImpl_ne]
    · exact hv
    rcases mem_scheduled_close hb with hold | ⟨o, ho, rfl⟩
    · simpa [hab] using hsched b hold
    · have hconn : o.op.isConn = true := (Bool.and_eq_true_iff.1 hab).1
      simpa [hconn] using harm o ho

theorem valid_moved_ne {k : Nat} (hi : k ≠ i) (hj : k ≠ j) :
    (moved s i j m).valid k cmId = s.valid k cmId := by
  rw [moved, valid_setImpl_ne hj, valid_setImpl_ne hi]

/-- An op that has no `cm_id` is content with an implementation. -/
theorem valid_moved_none {k : Nat} (h : s.valid k none = true) :
    (moved s i j m).valid k none = true := by
  by_cases hj : k = j
  · subst hj
    simp [moved, State.valid, impls_setImpl_self]
  · by_cases hi : k = i
    · subst hi
      simp [moved, State.valid, impls_setImpl_ne hj, impls_setImpl_self]
    · rw [valid_moved_ne hi hj]
      exact h

/-- A move construction leaves the pointers valid if it meets the condition. -/
theorem Sound.moveConstruct (h : Sound cfg s) (hi : s.impls i = none)
    (hout : outlives cfg s (.moveConstruct i j) = true) : Sound cfg (moved s i j m) := by
  obtain ⟨hheld, hsched⟩ := Bool.and_eq_true_iff.1 hout
  rw [List.all_eq_true] at hheld hsched
  have hne : ∀ {k c}, s.valid k c = true → k ≠ i := by
    rintro k c hv rfl
    simp [State.valid, hi] at hv
  refine h.update rfl rfl rfl rfl (fun b hb => ?_) (fun b hb => ?_) fun b hb hab hv => ?_
  · refine valid_moved_ne (hne (h.armed b hb).1) ?_
    simpa using hheld b (List.mem_append_left _ hb)
  · refine valid_moved_ne (hne (h.performing b hb).1) ?_
    simpa using hheld b.1 (List.mem_append_right _ (List.mem_map_of_mem hb))
  · have hs := hsched b hb
    cases hc : b.cmId with
    | none =>
      rw [hc] at hv
      exact valid_moved_none hv
    | some d =>
      rw [← hc, valid_moved_ne (hne hv) (by simpa [hab, hc] using hs)]
      exact hv

/-- A move assignment leaves the pointers valid if it meets the condition. -/
theorem Sound.moveAssign (h : Sound cfg s) {mi : Impl} (hmi : s.impls i = some mi)
    (hu : s.unlocked mi.cmId = true) (hout : outlives cfg s (.moveAssign i j) = true) :
    Sound cfg (moved (s.closeForDestruction mi) i j m) := by
  obtain ⟨hboth, hsched⟩ := Bool.and_eq_true_iff.1 hout
  obtain ⟨harm, hheld⟩ := Bool.and_eq_true_iff.1 hboth
  rw [List.all_eq_true] at harm hheld hsched
  refine h.close.update rfl rfl rfl rfl (fun b hb => ?_) (fun b hb => ?_) fun b hb hab hv => ?_
  · obtain ⟨hmem, hne⟩ := mem_armed_close hb (h.close.armed b hb).2
    refine valid_moved_ne (impl_ne_of_cmId (h.armed b hmem) hmi hne) ?_
    simpa using hheld b (List.mem_append_left _ hmem)
  · rw [performing_close] at hb
    refine valid_moved_ne (impl_ne_of_cmId (h.performing b hb) hmi (cmId_ne_of_unlocked hu hb)) ?_
    simpa using hheld b.1 (List.mem_append_right _ (List.mem_map_of_mem hb))
  · cases hc : b.cmId with
    | none =>
      rw [hc] at hv
      exact valid_moved_none hv
    | some d =>
      obtain ⟨hi, hj⟩ : b.impl ≠ i ∧ b.impl ≠ j := by
        rcases mem_scheduled_close hb with hold | ⟨o, ho, rfl⟩
        · simpa [hab, hc] using hsched b hold
        · have hconn : o.op.isConn = true := (Bool.and_eq_true_iff.1 hab).1
          exact ⟨by simpa [hconn] using harm o ho, by simpa using hheld o (List.mem_append_left _ ho)⟩
      rw [← hc, valid_moved_ne hi hj]
      exact hv

/-! ## Whole runs -/

/-- Every step that meets the condition keeps the pointers valid. -/
theorem Sound.step {l : Label} (h : Sound cfg s) (hout : outlives cfg s l = true)
    (hst : (connectors cfg).step s l = some s') : Sound cfg s' := by
  change Lifetime.step cfg s l = some s' at hst
  unfold Lifetime.step at hst
  rw [if_neg (by simp [h.quiet])] at hst
  cases l with
  | construct i =>
    simp only at hst
    split_ifs at hst with hi
    obtain rfl := Option.some.inj hst
    refine h.frame rfl rfl rfl rfl fun k c hv => ?_
    have hne : k ≠ i := by
      rintro rfl
      simp [State.valid, hi] at hv
    rw [valid_setImpl_ne hne]
    exact hv
  | openConnector i =>
    simp only at hst
    split at hst
    · next m hm =>
      split_ifs at hst with hc
      obtain rfl := Option.some.inj hst
      exact h.opened hm hc
    · cases hst
  | asyncConnect i addr slot hasCreateQp requestSize replyCap opened resolve =>
    simp only at hst
    split at hst
    · next m hm =>
      split_ifs at hst
      obtain rfl := Option.some.inj hst
      exact h.asyncConnect hm
    · cases hst
  | asyncAccept i addr slot hasCreateQp bindFails dataSize created accept =>
    simp only at hst
    split at hst
    · next m hm =>
      split_ifs at hst
      obtain rfl := Option.some.inj hst
      exact h.asyncAccept hm rfl
    · cases hst
  | asyncWaitDisconnect i addr slot =>
    simp only at hst
    split at hst
    · next m hm =>
      split_ifs at hst
      obtain rfl := Option.some.inj hst
      exact h.asyncWaitDisconnect hm rfl
    · cases hst
  | performIo k =>
    simp only at hst
    split at hst
    · next b hk =>
      split_ifs at hst
      obtain rfl := Option.some.inj hst
      have hb := h.armed b (List.mem_of_getElem? hk)
      refine ⟨fun o ho => h.armed o (List.mem_of_mem_eraseIdx ho), fun o ho => ?_, h.scheduled,
        h.quiet⟩
      rcases List.mem_append.1 ho with ho | ho
      · exact h.performing o ho
      · obtain rfl := List.mem_singleton.1 ho
        exact hb
    · cases hst
  | readEvent k ev =>
    simp only at hst
    split at hst
    · next b hk =>
      obtain rfl := Option.some.inj hst
      obtain ⟨hv, hc⟩ := h.performing _ (List.mem_of_getElem? hk)
      exact h.resume hv hc
    · cases hst
  | perform k a => exact h.performStep hst
  | complete k =>
    simp only at hst
    split at hst
    · next b hk =>
      obtain rfl := Option.some.inj hst
      have hs : Sound cfg { s with scheduled := s.scheduled.eraseIdx k } :=
        ⟨h.armed, h.performing, fun o ho => h.scheduled o (List.mem_of_mem_eraseIdx ho), h.quiet⟩
      exact hs.completeOp fun hab => h.scheduled b (List.mem_of_getElem? hk) hab
    · cases hst
  | emit k =>
    simp only at hst
    split at hst
    · next f hk =>
      have hv : s.valid f.impl f.cmId = true := by simpa [outlives, hk] using hout
      rw [if_pos hv] at hst
      split_ifs at hst
      obtain rfl := Option.some.inj hst
      exact h.abortOps _ _
    · cases hst
  | moveConstruct i j =>
    simp only at hst
    split at hst
    · next m hi hj =>
      obtain rfl := Option.some.inj hst
      exact h.moveConstruct hi hout
    · cases hst
  | moveAssign i j =>
    simp only at hst
    split at hst
    · next mi m hi hj =>
      split_ifs at hst with hg
      obtain rfl := Option.some.inj hst
      exact h.moveAssign hi hg.2 hout
    · cases hst
  | destroy i =>
    simp only at hst
    split at hst
    · next m hm =>
      split_ifs at hst with hu
      obtain rfl := Option.some.inj hst
      exact h.destroy hm hu hout
    · cases hst

/-- Op pointers stay valid: in every run whose moves, destructions and emissions meet the condition, no
op and no cancellation functor has followed a pointer that did not lead to the owner of its `cm_id`, and
those that still will have a valid one. -/
theorem op_pointers_valid {ls : List Label} (hr : (connectors cfg).run {} ls = some s)
    (hm : (connectors cfg).Meets (fun s l => outlives cfg s l = true) {} ls) :
    s.dangling = false ∧
      (∀ b ∈ s.armed ++ s.performing.map Prod.fst, s.valid b.impl b.cmId = true) ∧
      (∀ b ∈ s.scheduled, b.op.abortedConn cfg = true → s.valid b.impl b.cmId = true) := by
  have h : Sound cfg s := StepSystem.invariant_of_meets (M := connectors cfg) (I := Sound cfg)
    (fun _ _ _ h hout hst => h.step hout hst) hr hm ⟨by simp, by simp, by simp, rfl⟩
  refine ⟨h.quiet, fun b hb => ?_, h.scheduled⟩
  rcases List.mem_append.1 hb with hb | hb
  · exact (h.armed b hb).1
  · obtain ⟨o, ho, rfl⟩ := List.mem_map.1 hb
    exact (h.performing o ho).1

/-- A connect that fails and is reported before its connector is moved; the moved-from connector is opened
again and destroyed under an armed watcher. -/
def moveAfterReport : List Label :=
  [.construct 0, .asyncConnect 0 1 true false 0 0 .ok .ok, .performIo 0,
    .readEvent 0 ⟨.addrError, 0, []⟩, .perform 0 .run, .perform 0 .run, .complete 0,
    .moveConstruct 1 0, .openConnector 0, .asyncWaitDisconnect 0 2 true, .emit 0, .complete 0,
    .asyncWaitDisconnect 0 3 true, .destroy 0, .destroy 1, .complete 0]

/-- No pointer dangles there. -/
theorem op_pointers_valid_moveAfterReport :
    ((connectors {}).after {} moveAfterReport).dangling = false ∧
      ((connectors {}).run {} moveAfterReport).isSome = true := by
  have hrun : ((connectors {}).run {} moveAfterReport).isSome = true := by decide +kernel
  exact ⟨(op_pointers_valid (StepSystem.run_after hrun) (by decide +kernel)).1, hrun⟩

/-- A connector that is destroyed while its connect op is armed; the completion runs afterwards. -/
def destroyArmed : List Label :=
  [.construct 0, .asyncConnect 0 1 false false 0 0 .ok .ok, .destroy 0, .complete 0]

/-- A connector that is moved while its connect op is armed; the next event comes afterwards. -/
def moveArmed : List Label :=
  [.construct 0, .asyncConnect 0 1 false false 0 0 .ok .ok, .moveConstruct 1 0, .performIo 0,
    .readEvent 0 ⟨.addrResolved, 0, []⟩, .perform 0 .run]

/-- Without the condition the completion of a destroyed connector's op, and the `do_perform` of a moved
one's, follow a dangling pointer. -/
theorem not_op_pointers_valid :
    (¬ ∀ ls s, (connectors {}).run {} ls = some s → s.dangling = false) ∧
      ((connectors {}).after {} destroyArmed).dangling = true ∧
      ((connectors {}).after {} moveArmed).dangling = true := by
  refine ⟨fun h => ?_, by decide +kernel, by decide +kernel⟩
  have hd := h destroyArmed ((connectors {}).after {} destroyArmed)
    (StepSystem.run_after (by decide +kernel))
  revert hd
  decide +kernel

end Lifetime

end RdmaOnAsio.Ibv
