import RdmaOnAsio.Ibv.Proofs.ReactorQueue
import RdmaOnAsio.Ibv.Proofs.ConnectorStep

/-!
# Edges and unread events

The descriptor is registered edge-triggered, and a `do_perform` reads one event. An op that stays armed
with events left from the same edge waits for an edge that nothing announces. `drains` says which reads
and native calls end the loop of `perform_io`, and how many events may be left when they do.
-/

namespace RdmaOnAsio.Ibv

open ErrorCode

/-- The events a watcher waits for. -/
def CmEvent.closes (ev : CmEvent) : Bool :=
  ev.event == .disconnected || ev.event == .deviceRemoval

/-- The op returns `not_done` only with no event left of those the edge announced: a watcher ignores an
event only if it is the last of them, and the native call of a connect op succeeds only with none
left. -/
def drains (s : State) : Label → Bool
  | .perform .event =>
    match s.reactor, s.channel with
    | .performing op .getCmEvent, ev :: _ => op.isConn || ev.closes || s.backlog ≤ 1
    | _, _ => true
  | .perform (.native .ok) =>
    match s.reactor with
    | .performing _ .resolveRoute | .performing _ .connect => s.backlog == 0
    | _ => true
  | _ => true

/-- No event that was in the channel when the edge was taken is left behind. -/
def Drained (s : State) : Prop := s.reactor = .unlocked → s.backlog = 0

/-- What holds of the backlog while `perform_io` runs, whatever the ops do: it is part of the channel, and
an event that came after the edge was taken announced another edge. -/
def Announced (s : State) : Prop :=
  s.reactor ≠ .unlocked →
    s.backlog ≤ s.channel.length ∧ (s.backlog < s.channel.length → s.edge = true) ∧
      s.lifetime = .alive

/-- Unread events with an op armed for them have an edge announced. -/
def NoStall (s : State) : Prop :=
  s.lifetime = .alive → s.reactor = .unlocked → s.readQueue ≠ [] → s.channel ≠ [] → s.edge = true

variable {cfg : Config} {s t s' : State} {op : CmOp} {pc : PerformPc} {r : CmOp × Outcome}

/-! ## The loop of `perform_io` -/

theorem drained_proceed : Drained (t.proceed r) ↔ (r.2 = .ret .notDone → t.backlog = 0) := by
  obtain ⟨o, out⟩ := r
  cases out with
  | goto pc' => simp [Drained, State.proceed]
  | ret st =>
    cases st with
    | notDone => simp [Drained, State.proceed]
    | done =>
      simp only [Drained, State.proceed, State.nextOp]
      split <;> simp

/-- What holds of the backlog survives the end of a piece of `do_perform`. -/
theorem announced_proceed (h : t.backlog ≤ t.channel.length ∧
    (t.backlog < t.channel.length → t.edge = true) ∧ t.lifetime = .alive) :
    Announced (t.proceed r) := by
  obtain ⟨o, out⟩ := r
  cases out with
  | goto pc' => exact fun _ => h
  | ret st =>
    cases st with
    | notDone => exact fun hne => absurd rfl hne
    | done =>
      simp only [State.proceed, State.nextOp]
      split
      · exact fun hne => absurd rfl hne
      · exact fun _ => h

/-- If the loop ends with nothing left of its edge, unread events have another edge announced. -/
theorem noStall_proceed (he : t.backlog < t.channel.length → t.edge = true)
    (hd : Drained (t.proceed r)) : NoStall (t.proceed r) := by
  rw [drained_proceed] at hd
  obtain ⟨o, out⟩ := r
  cases out with
  | goto pc' => exact fun _ hr => by cases hr
  | ret st =>
    cases st with
    | notDone =>
      intro _ _ _ hch
      refine he ?_
      rw [hd rfl]
      exact List.length_pos_iff.2 hch
    | done =>
      simp only [NoStall, State.proceed, State.nextOp]
      split
      · next hq => exact fun _ _ hne => absurd hq hne
      · exact fun _ hr => by cases hr

/-- What a step of `do_perform` does to the backlog. -/
theorem Performs.announced (h : Announced s) (hr : s.reactor = .performing op pc) {a : Answer}
    (hst : Performs s op pc a t r) :
    t.backlog ≤ t.channel.length ∧ (t.backlog < t.channel.length → t.edge = true) ∧
      t.lifetime = .alive := by
  obtain ⟨hb, he, hlt⟩ := h (by simp [hr])
  cases hst with
  | readEvent ev rest hc =>
    rw [hc, List.length_cons] at hb he
    refine ⟨?_, fun hlt' => he ?_, hlt⟩
    · show s.backlog - 1 ≤ rest.length
      omega
    · have : s.backlog - 1 < rest.length := hlt'
      omega
  | _ => exact ⟨hb, he, hlt⟩

/-- A step of `do_perform` ends the loop with nothing left of its edge exactly if it meets the
condition. -/
theorem drained_performs (h : Announced s) (hr : s.reactor = .performing op pc) {a : Answer}
    (hst : Performs s op pc a t r) :
    Drained (t.proceed r) ↔ drains s (.perform a) = true := by
  rw [drained_proceed]
  cases hst with
  | readEvent ev rest hc =>
    simp only [drains, hr, hc]
    have hh := Handles.of_onEvent op ev
    revert hh
    generalize op.onEvent ev = r
    intro hh
    cases hh with
    | ignored hk hne hne' =>
      simp [CmOp.isConn, hk, CmEvent.closes, hne, hne', Nat.sub_eq_zero_iff_le]
    | peerClosed e hk he => rcases he with he | he <;> simp [CmEvent.closes, he]
    | addrResolved hk hs he => simp [CmOp.isConn, hk]
    | routeResolved hk hs he => simp [CmOp.isConn, hk]
    | established hconn hs he => simp [hconn]
    | failed e hconn herr hne => simp [hconn]
    | noStage hk hs => simp [CmOp.isConn, hk]
  | readAgain hc =>
    have hb := (h (by simp [hr])).1
    rw [hc, List.length_nil] at hb
    exact iff_of_true (fun _ => Nat.le_zero.1 hb) rfl
  | resolveRoute res =>
    cases res with
    | ok => simp [drains, hr, CmOp.resolvedRoute, State.log]
    | fail errno => simp [drains, CmOp.resolvedRoute, CmOp.failWith]
  | connect res =>
    cases res with
    | ok => simp [drains, hr, CmOp.connectIssued, State.log]
    | fail errno => simp [drains, CmOp.connectIssued, CmOp.failWith]
  | disconnect res => cases res <;> simp [drains, hr, CmOp.tornDown]
  | readHardError errno hne => simp [drains, CmOp.onHardError]
  | advanceWon expected desired hs =>
    unfold CmOp.advanced
    split_ifs <;> simp [drains]
  | advanceLost expected desired hs => simp [drains, CmOp.abortedByDisconnect]
  | createQp ec =>
    unfold CmOp.createdQp
    split_ifs <;> simp [drains, CmOp.failWith]
  | establishedWon ev hs => simp [drains, CmOp.arbitrated]
  | establishedLost ev hs => simp [drains, CmOp.arbitrated]
  | modifyQp rc => simp [drains, CmOp.modifiedQp]
  | claimLoad =>
    unfold CmOp.claimRead
    split_ifs <;> simp [drains]
  | claimWon e hs => simp [drains]
  | claimRetry e a ha =>
    have hdrains : drains s (.perform a) = true := by rcases ha with ⟨rfl, -⟩ | rfl <;> rfl
    rw [hdrains]
    unfold CmOp.claimRead
    split_ifs <;> simp
  | peerClosed => simp [drains]

/-! ## Steps -/

/-- A step that leaves the channel and the reactor alone keeps what holds of the backlog, and leaves
nothing behind if nothing was. -/
theorem Announced.frame (h : Announced s) (hb : s'.backlog = s.backlog)
    (hch : s'.channel = s.channel) (hr : s'.reactor = s.reactor) (hlt : s'.lifetime = s.lifetime)
    (he : s.edge = true → s'.edge = true) : Announced s' := by
  intro hne
  rw [hr] at hne
  obtain ⟨hle, hlater, ha⟩ := h hne
  rw [hb, hch, hlt]
  exact ⟨hle, fun hlt => he (hlater hlt), ha⟩

theorem Announced.of_unlocked (h : s.reactor = .unlocked) : Announced s := fun hne => absurd h hne

theorem NoStall.frame (h : NoStall s) (hch : s'.channel = s.channel) (hr : s'.reactor = s.reactor)
    (hlt : s'.lifetime = s.lifetime) (he : s'.edge = s.edge)
    (hq : s'.readQueue ≠ [] → s.readQueue ≠ []) : NoStall s' := by
  unfold NoStall
  rw [hch, hr, hlt, he]
  exact fun ha hu hne => h ha hu (hq hne)

/-- A step of the initiation leaves the reactor's work alone, except that it may queue an op. -/
theorem Initiates.reactor {a : Answer} (hst : Initiates s a s') :
    s'.backlog = s.backlog ∧ s'.channel = s.channel ∧ s'.reactor = s.reactor ∧
      s'.lifetime = s.lifetime ∧ (s.edge = true → s'.edge = true) ∧
      ((s'.edge = s.edge ∧ s'.readQueue = s.readQueue) ∨
        s'.edge = (s.edge || (s.readQueue.isEmpty && !s.channel.isEmpty))) := by
  cases hst with
  | guardPassed op hi hs =>
    obtain ⟨sl, hsl⟩ := s.armCmCancellation_frame { op with admitted := true }
    rw [hsl]
    exact ⟨rfl, rfl, rfl, rfl, id, .inl ⟨rfl, rfl⟩⟩
  | waitOpen op hi hs =>
    obtain ⟨sl, hsl⟩ := s.armCmCancellation_frame op
    rw [hsl]
    exact ⟨rfl, rfl, rfl, rfl, id, .inl ⟨rfl, rfl⟩⟩
  | started op hi hr => exact ⟨rfl, rfl, rfl, rfl, fun he => by simp [State.startOp, he], .inr rfl⟩
  | _ => exact ⟨rfl, rfl, rfl, rfl, id, .inl ⟨rfl, rfl⟩⟩

/-- Every step keeps what holds of the backlog; it leaves nothing of an edge behind exactly if it meets
the condition, and then no op is left waiting for an event that is there. -/
theorem edge_step {l : Label} (h : Announced s) (hd : Drained s)
    (hst : (connector cfg).step s l = some s') :
    Announced s' ∧ (Drained s' ↔ drains s l = true) ∧ (NoStall s → Drained s' → NoStall s') := by
  have hside : s'.backlog = s.backlog → s'.channel = s.channel → s'.reactor = s.reactor →
      s'.lifetime = s.lifetime → s'.edge = s.edge → (s'.readQueue ≠ [] → s.readQueue ≠ []) →
      drains s l = true → Announced s' ∧ (Drained s' ↔ drains s l = true) ∧
        (NoStall s → Drained s' → NoStall s') := by
    intro hb hch hr hlt he hq hl
    refine ⟨h.frame hb hch hr hlt fun hed => he.trans hed, iff_of_true ?_ hl,
      fun hn _ => hn.frame hch hr hlt he hq⟩
    unfold Drained
    rw [hr, hb]
    exact hd
  -- the connector is being destroyed, nothing is armed any more
  have hgone : s'.reactor = .unlocked → s'.backlog = 0 → s'.lifetime ≠ .alive → drains s l = true →
      Announced s' ∧ (Drained s' ↔ drains s l = true) ∧ (NoStall s → Drained s' → NoStall s') :=
    fun hr hb hlt hl => ⟨.of_unlocked hr, iff_of_true (fun _ => hb) hl,
      fun _ _ ha => absurd ha hlt⟩
  have hdrain : s.lifetime = .draining → s.reactor = .unlocked ∧ s.backlog = 0 := by
    intro hlt
    have hr : s.reactor = .unlocked := by
      by_contra hne
      rw [(h hne).2.2] at hlt
      cases hlt
    exact ⟨hr, hd hr⟩
  cases Step.of_step hst with
  | event ev hlt =>
    refine ⟨fun hne => ?_, iff_of_true hd rfl, fun _ _ _ _ _ _ => rfl⟩
    obtain ⟨hb, -, ha⟩ := h hne
    refine ⟨?_, fun _ => rfl, ha⟩
    show s.backlog ≤ (s.channel ++ [ev]).length
    rw [List.length_append]
    omega
  | beginConnect addr slot hasCreateQp requestSize replyCap hi hlt =>
    exact hside rfl rfl rfl rfl rfl id rfl
  | beginAccept addr slot hasCreateQp bindFails dataSize hi hlt =>
    exact hside rfl rfl rfl rfl rfl id rfl
  | beginWait addr slot hi hlt => exact hside rfl rfl rfl rfl rfl id rfl
  | initiate a _ hin =>
    obtain ⟨hb, hch, hr, hlt, he, hq⟩ := hin.reactor
    refine ⟨h.frame hb hch hr hlt he, iff_of_true ?_ rfl, fun hn _ => ?_⟩
    · unfold Drained
      rw [hr, hb]
      exact hd
    · rcases hq with ⟨he', hq⟩ | he'
      · exact hn.frame hch hr hlt he' (by rw [hq]; exact id)
      · intro ha hu _ hne
        rw [hr] at hu
        rw [hlt] at ha
        rw [hch] at hne
        rw [he']
        cases hrq : s.readQueue with
        | nil => simp [hne]
        | cons o rest => simp [hn ha hu (by simp [hrq]) hne]
  | performIo he hr hlt =>
    unfold State.nextOp
    split
    · next hq =>
      exact ⟨.of_unlocked rfl, iff_of_true (fun _ => rfl) rfl, fun _ _ _ _ hne => absurd hq hne⟩
    · refine ⟨fun _ => ⟨Nat.le_refl _, fun hlt' => ?_, hlt⟩, iff_of_true (fun hu => by cases hu) rfl,
        fun _ _ _ hu => by cases hu⟩
      exact absurd hlt' (Nat.lt_irrefl _)
  | perform op pc a t r hr hp =>
    have ha := hp.announced h hr
    exact ⟨announced_proceed ha, drained_performs h hr hp, fun _ => noStall_proceed ha.2.1⟩
  | complete i op hop =>
    unfold completeOp at hside ⊢
    split_ifs at hside ⊢ <;> exact hside rfl rfl rfl rfl rfl id rfl
  | enterDisconnect hlt => exact hside rfl rfl rfl rfl rfl id rfl
  | disconnectStep i a _ hd' =>
    cases hd' with
    | cancel old hi hr => exact hside rfl rfl rfl rfl rfl (fun hne => absurd rfl hne) rfl
    | _ => exact hside rfl rfl rfl rfl rfl id rfl
  | emit key hk hr hlt =>
    refine hside rfl rfl rfl rfl rfl (fun hne hq => hne ?_) rfl
    simp [State.cancelOpsByKey, hq]
  | closeForDestruction hlt hi hr hc => exact hgone hr (hd hr) Lifetime.noConfusion rfl
  | drainEstablished ev rest hlt hc he =>
    exact hgone (hdrain hlt).1 (hdrain hlt).2 (by simp [hlt]) rfl
  | drainOther ev rest hlt hc he => exact hgone (hdrain hlt).1 (hdrain hlt).2 (by simp [hlt]) rfl
  | drainEnd hlt hc => exact hgone (hdrain hlt).1 (hdrain hlt).2 Lifetime.noConfusion rfl
  | drainHardError errno hlt => exact hgone (hdrain hlt).1 (hdrain hlt).2 Lifetime.noConfusion rfl

/-! ## Whole runs -/

/-- The drain discipline holds along a run exactly if every step meets the condition: whenever
`perform_io` has given up the descriptor, no event is unread that was in the channel when its edge was
taken. Then no armed op waits for another event while one is unread. -/
theorem edge_drain {ls : List Label} (hr : (connector cfg).run {} ls = some s) :
    ((∀ pre t, pre <+: ls → (connector cfg).run {} pre = some t → Drained t) ↔
      (connector cfg).Meets (fun s l => drains s l = true) {} ls) ∧
    ((connector cfg).Meets (fun s l => drains s l = true) {} ls → NoStall s) := by
  refine ⟨?_, fun hm => ?_⟩
  · exact StepSystem.always_iff_meets (M := connector cfg) (I := Announced)
      (fun _ _ _ h hd hst => (edge_step h hd hst).1) (fun _ _ _ h hd hst => (edge_step h hd hst).2.1)
      hr (.of_unlocked rfl) fun _ => rfl
  · have hinv := StepSystem.invariant_of_meets (M := connector cfg)
      (I := fun t => Announced t ∧ Drained t ∧ NoStall t) ?_ hr hm
      ⟨.of_unlocked rfl, fun _ => rfl, fun _ _ hne => absurd rfl hne⟩
    · exact hinv.2.2
    · rintro t l t' ⟨ha, hd, hn⟩ hc hst
      obtain ⟨ha', hiff, hn'⟩ := edge_step ha hd hst
      exact ⟨ha', hiff.2 hc, hn' hn (hiff.2 hc)⟩

/-- A watcher that ignores an `ADDR_CHANGE` with an edge of its own, before a `DISCONNECTED` arrives. -/
def watchSingly : List Label :=
  [.asyncWaitDisconnect 1 false, .initiate .run, .initiate .run, .initiate .run,
    .event ⟨.addrChange, 0, []⟩, .performIo, .perform .event, .event ⟨.disconnected, 0, []⟩]

/-- The `DISCONNECTED` has its edge announced. -/
theorem edge_drain_watchSingly :
    let s := (connector {}).after {} watchSingly
    s.channel ≠ [] ∧ s.readQueue ≠ [] ∧ s.edge = true ∧
      ∀ pre t, pre <+: watchSingly → (connector {}).run {} pre = some t → Drained t := by
  have hr : (connector {}).run {} watchSingly = some ((connector {}).after {} watchSingly) := rfl
  have h := edge_drain hr
  have hm : (connector {}).Meets (fun s l => drains s l = true) {} watchSingly := by decide
  exact ⟨by decide, by decide, h.2 hm rfl rfl (by decide) (by decide), h.1.2 hm⟩

/-- `DISCONNECTED` behind an event the watcher ignores, under one edge. -/
def watchTwo : List Label :=
  [.asyncWaitDisconnect 1 false, .initiate .run, .initiate .run, .initiate .run,
    .event ⟨.addrChange, 0, []⟩, .event ⟨.disconnected, 0, []⟩, .performIo, .perform .event]

/-- Without the condition the watcher stays armed with `DISCONNECTED` unread and no edge announced. -/
theorem not_edge_drain :
    (¬ ∀ ls s, (connector {}).run {} ls = some s → s.reactor = .unlocked → s.backlog = 0) ∧
      let s := (connector {}).after {} watchTwo
      s.reactor = .unlocked ∧ s.readQueue ≠ [] ∧ s.edge = false ∧
        s.channel = [⟨.disconnected, 0, []⟩] := by
  refine ⟨fun h => ?_, rfl, by decide, rfl, rfl⟩
  have := h watchTwo ((connector {}).after {} watchTwo) rfl rfl
  cases this

end RdmaOnAsio.Ibv
