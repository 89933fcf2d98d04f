import RdmaOnAsio.Ibv.Proofs.Backed

/-!
# Routing of CM events

Whatever op is first in line takes the next event off the channel, and a watcher drops every event it
does not wait for. An event a connect or accept waits for is safe while it meets no watcher at the head
of the line. `routes` lists the steps that could bring the two together: an event that arrives, an op
that is armed, and an op that leaves the head of the line.

What is unread when the connector is destroyed goes to `drain_cm_events`, which reads on until the channel is
empty or `rdma_get_cm_event` fails hard.
-/

namespace RdmaOnAsio.Ibv

open ErrorCode

/-- The events a connect or accept op acts on. -/
def CmEvent.isEstablishing (ev : CmEvent) : Bool :=
  match ev.event with
  | .addrResolved | .addrError | .routeResolved | .routeError | .established | .connectError
  | .unreachable | .rejected => true
  | .connectRequest | .connectResponse | .disconnected | .deviceRemoval | .multicastJoin
  | .multicastError | .addrChange | .timewaitExit => false

/-- No event of a connect or accept is unread while a watcher is first in line. -/
def clear (channel : List CmEvent) (line : List CmOp) : Bool :=
  !channel.any CmEvent.isEstablishing || line.head?.all CmOp.isConn

/-- This step of `do_perform` returns `done`; `c` is the state of the connector. -/
def CmOp.ends (op : CmOp) (pc : PerformPc) (a : Answer) (c : ConnectState) : Bool :=
  match pc, a with
  | .getCmEvent, .event => op.kind == .connect && (op.stage == .done || op.stage == .error)
  | .getCmEvent, .hardError _ => true
  | .advance e _, _ => c != e
  | .claimLoad, _ => c == .closed
  | .claimCas e, .run => c == e || c == .closed
  | .claimCas _, _ => c == .closed
  | .modifyQp, _ | .disconnect, _ | .storePeerClosed, _ => true
  | _, _ => false

/-- The unread events after a step of `do_perform`. -/
def State.unreadAfter (s : State) (a : Answer) : List CmEvent :=
  if a = .event then s.channel.tail else s.channel

/-- The step leaves no event of a connect or accept unread with a watcher first in line: one arrives only
while a connect or accept op is first or nothing is armed, a watcher is armed with nothing before it only
if none is unread, and an op gives way to a watcher only if none is unread. -/
def routes (s : State) : Label → Bool
  | .event ev => clear (s.channel ++ [ev]) s.armed
  | .initiate _ =>
    match s.initiation with
    | .startOp op => clear s.channel (s.armed ++ [op])
    | _ => true
  | .perform a =>
    match s.reactor with
    | .performing op pc =>
      !op.ends pc a s.connectState || clear (s.unreadAfter a) s.readQueue
    | .unlocked => true
  | .emit key => clear s.channel (s.readQueue.filter fun op => op.cancellationKey != some key)
  | _ => true

/-- The drain does not stop at a hard error with an `ESTABLISHED` unread. -/
def drainsOut (s : State) : Label → Bool
  | .drain (.hardError _) => !s.channel.any fun ev => ev.event == .established
  | _ => true

/-- The event an action puts on the channel. -/
def Action.arrival? : Action → Option CmEvent
  | .delivered ev => some ev
  | _ => none

/-- The event an action takes off the channel. -/
def Action.taken? : Action → Option CmEvent
  | .read _ ev => some ev
  | _ => none

/-- `drain_cm_events` takes an `ESTABLISHED`. -/
def Action.drainsEstablished : Action → Bool
  | .read .drain ev => ev.event == .established
  | _ => false

/-- `drain_cm_events` calls `rdma_disconnect`. -/
def Action.drainDisconnects : Action → Bool
  | .rdmaDisconnect .drain => true
  | _ => false

namespace State

/-- The events that have arrived on the channel, in order. -/
def arrivals (s : State) : List CmEvent := s.trace.reverse.filterMap Action.arrival?

/-- The events that were taken off the channel, in order. -/
def taken (s : State) : List CmEvent := s.trace.reverse.filterMap Action.taken?

end State

/-- The channel is a queue, nothing a connect or accept waits for has been dropped by a watcher, and the
drain tears down every connection whose `ESTABLISHED` it finds. -/
structure Routed (s : State) : Prop where
  fifo : s.arrivals = s.taken ++ s.channel
  kept : ∀ ev, .read (.op .wait) ev ∈ s.trace → ev.isEstablishing = false
  drained : s.trace.countP Action.drainsEstablished = s.trace.countP Action.drainDisconnects

variable {cfg : Config} {s t s' : State} {op : CmOp} {pc : PerformPc} {r : CmOp × Outcome}

/-! ## Who is first in line -/

theorem clear_of_subset {ch ch' : List CmEvent} {line : List CmOp} (h : clear ch line = true)
    (hsub : ch' ⊆ ch) : clear ch' line = true := by
  simp only [clear, Bool.or_eq_true, Bool.not_eq_true', List.any_eq_false] at h ⊢
  rcases h with h | h
  · exact .inl fun ev hev => h ev (hsub hev)
  · exact .inr h

theorem clear_cons {ch : List CmEvent} {o o' : CmOp} {rest rest' : List CmOp}
    (h : o.isConn = o'.isConn) : clear ch (o :: rest) = clear ch (o' :: rest') := by
  simp [clear, h]

theorem CmOp.claimRead_ends {e : ConnectState} :
    (op.claimRead e).2 = .ret .done ↔ e = .closed := by
  unfold CmOp.claimRead
  split_ifs with h <;> simp [h]

/-- An event ends an op at once only in a stage that waits for none. -/
theorem CmOp.onEvent_ends {ev : CmEvent} {c : ConnectState} :
    (op.onEvent ev).2 = .ret .done ↔ op.ends .getCmEvent .event c = true := by
  obtain ⟨addr, kind, key, ec, admitted, stage, hasCreateQp, replyCap, reply⟩ := op
  cases kind with
  | connect =>
    cases stage with
    | addrResolve =>
      simp only [CmOp.onEvent, CmOp.doProcess, CmOp.doProcessAddrResolve, CmOp.ends]
      split <;> simp [CmOp.failWith]
    | addrRoute =>
      simp only [CmOp.onEvent, CmOp.doProcess, CmOp.doProcessAddrRoute, CmOp.ends]
      split <;> simp [CmOp.failWith]
    | connect =>
      simp only [CmOp.onEvent, CmOp.doProcess, CmOp.doProcessConnect, CmOp.ends]
      split <;> simp [CmOp.failWith]
    | done => simp [CmOp.onEvent, CmOp.doProcess, CmOp.ends]
    | error => simp [CmOp.onEvent, CmOp.doProcess, CmOp.ends]
  | accept =>
    simp only [CmOp.onEvent, CmOp.acceptEvent, CmOp.ends]
    split <;> simp [CmOp.failWith]
  | wait =>
    simp only [CmOp.onEvent, CmOp.waitEvent, CmOp.ends]
    split <;> simp

/-- `ends` says when an op returns `done`. -/
theorem Performs.ends {a : Answer} (hst : Performs s op pc a t r) :
    r.2 = .ret .done ↔ op.ends pc a s.connectState = true := by
  cases hst with
  | readEvent ev rest hc => exact CmOp.onEvent_ends
  | readAgain hc => simp [CmOp.ends, CmOp.onAgain]
  | readHardError errno hne => simp [CmOp.ends, CmOp.onHardError]
  | advanceWon expected desired hs =>
    unfold CmOp.advanced
    split_ifs <;> simp [CmOp.ends, hs]
  | advanceLost expected desired hs => simp [CmOp.ends, CmOp.abortedByDisconnect, hs]
  | createQp ec =>
    unfold CmOp.createdQp
    split_ifs <;> simp [CmOp.ends, CmOp.failWith]
  | resolveRoute res => cases res <;> simp [CmOp.ends, CmOp.resolvedRoute, CmOp.failWith]
  | connect res => cases res <;> simp [CmOp.ends, CmOp.connectIssued, CmOp.failWith]
  | establishedWon ev hs => simp [CmOp.ends, CmOp.arbitrated]
  | establishedLost ev hs => simp [CmOp.ends, CmOp.arbitrated]
  | modifyQp rc => simp [CmOp.ends, CmOp.modifiedQp]
  | disconnect res => simp [CmOp.ends, CmOp.tornDown]
  | claimLoad => simp [CmOp.claimRead_ends, CmOp.ends]
  | claimWon e hs => simp [CmOp.ends, hs]
  | claimRetry e a ha =>
    rcases ha with ⟨rfl, hne⟩ | rfl
    · simp [CmOp.claimRead_ends, CmOp.ends, hne]
    · simp [CmOp.claimRead_ends, CmOp.ends]
  | peerClosed => simp [CmOp.ends]

theorem Performs.unread {a : Answer} (hst : Performs s op pc a t r) :
    t.channel = s.unreadAfter a ∧ t.readQueue = s.readQueue := by
  cases hst with
  | readEvent ev rest hc => simp [State.unreadAfter, hc]
  | claimRetry e a ha => rcases ha with ⟨rfl, -⟩ | rfl <;> exact ⟨rfl, rfl⟩
  | _ => exact ⟨rfl, rfl⟩

theorem unreadAfter_subset (s : State) (a : Answer) : s.unreadAfter a ⊆ s.channel := by
  unfold State.unreadAfter
  split_ifs
  · exact (List.tail_sublist _).subset
  · exact List.Subset.refl _

/-- A step of `do_perform` keeps the head of the line safe exactly if an op that ends does. -/
theorem clear_performs {a : Answer} (h : clear s.channel s.armed = true)
    (hr : s.reactor = .performing op pc) (hst : Performs s op pc a t r) :
    clear (t.proceed r).channel (t.proceed r).armed = true ↔ routes s (.perform a) = true := by
  obtain ⟨hch, hq⟩ := hst.unread
  have harmed : s.armed = op :: s.readQueue := by rw [State.armed, hr]; rfl
  rw [State.channel_proceed, State.armed_proceed, hch, hq]
  simp only [routes, hr]
  by_cases hd : r.2 = .ret .done
  · have hends := hst.ends.1 hd
    have hkept : kept r = [] := by
      obtain ⟨o, out⟩ := r
      obtain rfl : out = .ret .done := hd
      rfl
    rw [hends, hkept]
    simp
  · have hends : op.ends pc a s.connectState = false := by
      cases he : op.ends pc a s.connectState with
      | true => exact absurd (hst.ends.2 he) hd
      | false => rfl
    have hconn : r.1.isConn = op.isConn := by simp only [CmOp.isConn, hst.same.1]
    rw [hends, kept_not_done hd, List.singleton_append, clear_cons hconn, ← harmed]
    simp [clear_of_subset h (unreadAfter_subset s a)]

/-- A step keeps the head of the line safe exactly if it meets the condition. -/
theorem clear_step {l : Label} (h : clear s.channel s.armed = true)
    (hst : (connector cfg).step s l = some s') :
    clear s'.channel s'.armed = true ↔ routes s l = true := by
  have hsame : s'.channel = s.channel → s'.armed = s.armed → routes s l = true →
      (clear s'.channel s'.armed = true ↔ routes s l = true) := by
    intro hch ha hroutes
    rw [hch, ha]
    exact iff_of_true h hroutes
  have hnone : s'.armed = [] → routes s l = true →
      (clear s'.channel s'.armed = true ↔ routes s l = true) := by
    intro ha hroutes
    rw [ha]
    exact iff_of_true (by simp [clear]) hroutes
  cases Step.of_step hst with
  | event ev hlt => exact Iff.rfl
  | beginConnect addr slot hasCreateQp requestSize replyCap hi hlt => exact hsame rfl rfl rfl
  | beginAccept addr slot hasCreateQp bindFails dataSize hi hlt => exact hsame rfl rfl rfl
  | beginWait addr slot hi hlt => exact hsame rfl rfl rfl
  | initiate a _ hin =>
    have hquiet : (∀ op, s.initiation ≠ .startOp op) → routes s (.initiate a) = true := by
      intro hne
      unfold routes
      cases hi : s.initiation with
      | startOp op => exact absurd hi (hne op)
      | _ => rfl
    cases hin with
    | started op hi hr =>
      simp only [routes, hi]
      have harmed : (s.startOp op).armed = s.armed ++ [op] := by
        simp [State.armed, State.startOp]
      exact Iff.of_eq (congrArg (fun line => clear s.channel line = true) harmed)
    | guardPassed op hi hs =>
      obtain ⟨sl, hsl⟩ := s.armCmCancellation_frame { op with admitted := true }
      rw [hsl] at hsame ⊢
      exact hsame rfl rfl (hquiet (by simp [hi]))
    | waitOpen op hi hs =>
      obtain ⟨sl, hsl⟩ := s.armCmCancellation_frame op
      rw [hsl] at hsame ⊢
      exact hsame rfl rfl (hquiet (by simp [hi]))
    | guardRejected op hi hs => exact hsame rfl rfl (hquiet (by simp [hi]))
    | resolveAddrOk op hi => exact hsame rfl rfl (hquiet (by simp [hi]))
    | resolveAddrFailed op errno hi => exact hsame rfl rfl (hquiet (by simp [hi]))
    | published op hi hs => exact hsame rfl rfl (hquiet (by simp [hi]))
    | publishLost op hi hs => exact hsame rfl rfl (hquiet (by simp [hi]))
    | createQpFailed op ec hi he => exact hsame rfl rfl (hquiet (by simp [hi]))
    | createQpOk op ec hi he => exact hsame rfl rfl (hquiet (by simp [hi]))
    | acceptOk op hi => exact hsame rfl rfl (hquiet (by simp [hi]))
    | acceptFailed op errno hi => exact hsame rfl rfl (hquiet (by simp [hi]))
    | storedClosed op hi => exact hsame rfl rfl (hquiet (by simp [hi]))
    | posted op hi => exact hsame rfl rfl (hquiet (by simp [hi]))
    | latchSet op hi hp => exact hsame rfl rfl (hquiet (by simp [hi]))
    | latchClear op hi hp => exact hsame rfl rfl (hquiet (by simp [hi]))
    | waitClosed op hi hs => exact hsame rfl rfl (hquiet (by simp [hi]))
  | performIo he hr hlt =>
    exact hsame State.channel_nextOp (State.armed_nextOp (s := s.takeEdge) hr) rfl
  | perform op pc a t r hr hp => exact clear_performs h hr hp
  | complete i op hop =>
    unfold completeOp at hsame ⊢
    split_ifs at hsame ⊢ <;> exact hsame rfl rfl rfl
  | enterDisconnect hlt => exact hsame rfl rfl rfl
  | disconnectStep i a _ hd =>
    cases hd with
    | cancel old hi hr =>
      exact hnone (by simp [State.armed, State.cancelOps, hr, Reactor.ops]) rfl
    | _ => exact hsame rfl rfl rfl
  | emit key hk hr hlt =>
    have harmed : (s.cancelOpsByKey key).armed =
        s.readQueue.filter fun op => op.cancellationKey != some key := by
      simp [State.armed, State.cancelOpsByKey, hr, Reactor.ops]
    exact Iff.of_eq (congrArg (fun line => clear s.channel line = true) harmed)
  | closeForDestruction hlt hi hr hc =>
    exact hnone (by simp [State.armed, State.cancelOps, hr, Reactor.ops]) rfl
  | drainEstablished ev rest hlt hc he =>
    refine iff_of_true (clear_of_subset h ?_) rfl
    rw [hc]
    exact List.subset_cons_self ev rest
  | drainOther ev rest hlt hc he =>
    refine iff_of_true (clear_of_subset h ?_) rfl
    rw [hc]
    exact List.subset_cons_self ev rest
  | drainEnd hlt hc => exact hsame rfl rfl rfl
  | drainHardError errno hlt => exact hsame rfl rfl rfl

/-! ## What happens to the events -/

theorem State.arrivals_cons {a : Action} (htr : s'.trace = a :: s.trace) :
    s'.arrivals = s.arrivals ++ a.arrival?.toList := by
  rw [State.arrivals, htr, List.reverse_cons, List.filterMap_append, State.arrivals]
  cases h : a.arrival? <;> simp [h]

theorem State.taken_cons {a : Action} (htr : s'.trace = a :: s.trace) :
    s'.taken = s.taken ++ a.taken?.toList := by
  rw [State.taken, htr, List.reverse_cons, List.filterMap_append, State.taken]
  cases h : a.taken? <;> simp [h]

/-- What takes no event takes no `ESTABLISHED`. -/
theorem Action.drainsEstablished_of_taken? {a : Action} (h : a.taken? = none) :
    a.drainsEstablished = false := by
  cases a with
  | read r ev => cases h
  | _ => rfl

/-- A step that records neither an arrival nor a read keeps the routing. -/
theorem Routed.quiet (h : Routed s) (hch : s'.channel = s.channel) {w : List Action}
    (htr : s'.trace = w ++ s.trace)
    (hw : ∀ a ∈ w, a.arrival? = none ∧ a.taken? = none ∧ a.drainDisconnects = false) :
    Routed s' := by
  have harr : w.reverse.filterMap Action.arrival? = [] :=
    List.filterMap_eq_nil_iff.2 fun a ha => (hw a (List.mem_reverse.1 ha)).1
  have htak : w.reverse.filterMap Action.taken? = [] :=
    List.filterMap_eq_nil_iff.2 fun a ha => (hw a (List.mem_reverse.1 ha)).2.1
  have hdr : w.countP Action.drainsEstablished = 0 := by
    refine List.countP_eq_zero.2 fun a ha hd => ?_
    rw [Action.drainsEstablished_of_taken? (hw a ha).2.1] at hd
    cases hd
  have hdd : w.countP Action.drainDisconnects = 0 :=
    List.countP_eq_zero.2 fun a ha hd => by simp [(hw a ha).2.2] at hd
  refine ⟨?_, fun ev hev => ?_, ?_⟩
  · rw [State.arrivals, State.taken, htr, hch, List.reverse_append, List.filterMap_append,
      List.filterMap_append, harr, htak, List.append_nil, List.append_nil]
    exact h.fifo
  · rw [htr] at hev
    rcases List.mem_append.1 hev with hev | hev
    · have := (hw _ hev).2.1
      cases this
    · exact h.kept ev hev
  · rw [htr, List.countP_append, List.countP_append, hdr, hdd, Nat.zero_add, Nat.zero_add]
    exact h.drained

/-- An event read from the channel keeps the routing if no watcher drops it. -/
theorem Routed.reads (h : Routed s) {r : Reader} {e : CmEvent}
    (hch : s.channel = e :: s'.channel) (htr : s'.trace = .read r e :: s.trace)
    (hwho : r = .op .wait → e.isEstablishing = false)
    (hdr : Action.drainsEstablished (.read r e) = false) : Routed s' := by
  refine ⟨?_, fun ev' hev => ?_, ?_⟩
  · rw [State.arrivals_cons htr, State.taken_cons htr, h.fifo, hch]
    simp [Action.arrival?, Action.taken?]
  · rw [htr] at hev
    rcases List.mem_cons.1 hev with heq | hev
    · injection heq with hw he
      rw [he]
      exact hwho hw.symm
    · exact h.kept ev' hev
  · rw [htr, List.countP_cons_of_neg (by simp [hdr]), List.countP_cons_of_neg (by simp
      [Action.drainDisconnects])]
    exact h.drained

/-- A step of `do_perform` keeps the routing while no watcher comes first with an event it would
drop. -/
theorem Routed.performs (h : Routed s) (hclear : clear s.channel s.armed = true)
    (hr : s.reactor = .performing op pc) {a : Answer} (hst : Performs s op pc a t r) :
    Routed (t.proceed r) := by
  have hto : ∀ {u : State}, Routed u → u.channel = t.channel → u.trace = t.trace →
      Routed (t.proceed r) := by
    intro u hu hch htr
    exact hu.quiet (w := []) (by rw [State.channel_proceed, hch])
      (by rw [State.trace_proceed, htr]; rfl) (by simp)
  have hlog : ∀ a : Action, a.arrival? = none → a.taken? = none → a.drainDisconnects = false →
      t.channel = s.channel → t.trace = a :: s.trace → Routed (t.proceed r) :=
    fun a ha ht hd hch htr =>
      hto (h.quiet (w := [a]) hch htr (by simp [ha, ht, hd])) rfl rfl
  cases hst with
  | readEvent ev rest hc =>
    refine hto (h.reads (r := .op op.kind) (e := ev) hc rfl (fun hw => ?_) rfl) rfl rfl
    -- the op is first in line, so it is no watcher if the event is one it would drop
    have hk : op.kind = .wait := by injection hw
    have harmed : s.armed = op :: s.readQueue := by rw [State.armed, hr]; rfl
    rw [harmed, hc] at hclear
    have hnone : ev.isEstablishing = false ∧ ∀ ev' ∈ rest, ev'.isEstablishing = false := by
      simpa [clear, CmOp.isConn, hk] using hclear
    exact hnone.1
  | advanceWon expected desired hs => exact hlog (.cas op.kind desired) rfl rfl rfl rfl rfl
  | createQp ec => exact hlog (.createQp op.kind) rfl rfl rfl rfl rfl
  | resolveRoute res => exact hlog (.resolveRoute res) rfl rfl rfl rfl rfl
  | connect res => exact hlog (.connect res) rfl rfl rfl rfl rfl
  | establishedWon ev hs => exact hlog (.cas op.kind .connected) rfl rfl rfl rfl rfl
  | disconnect res => exact hlog (.rdmaDisconnect .op) rfl rfl rfl rfl rfl
  | claimWon e hs => exact hlog (.close .op) rfl rfl rfl rfl rfl
  | _ => exact hto h rfl rfl

/-- Every step keeps the routing while no watcher comes first with an event it would drop. -/
theorem Routed.step {l : Label} (h : Routed s) (hclear : clear s.channel s.armed = true)
    (hst : (connector cfg).step s l = some s') : Routed s' := by
  cases Step.of_step hst with
  | event ev hlt =>
    refine ⟨?_, fun ev' hev => h.kept ev' (by simpa using hev), ?_⟩
    · rw [State.arrivals_cons (a := .delivered ev) rfl, State.taken_cons (a := .delivered ev) rfl,
        h.fifo]
      simp [Action.arrival?, Action.taken?]
    · exact (List.countP_cons_of_neg (by simp [Action.drainsEstablished])).trans <|
        h.drained.trans (List.countP_cons_of_neg (by simp [Action.drainDisconnects])).symm
  | beginConnect addr slot hasCreateQp requestSize replyCap hi hlt =>
    exact h.quiet (w := []) rfl rfl (by simp)
  | beginAccept addr slot hasCreateQp bindFails dataSize hi hlt =>
    exact h.quiet (w := []) rfl rfl (by simp)
  | beginWait addr slot hi hlt => exact h.quiet (w := []) rfl rfl (by simp)
  | initiate a _ hin =>
    have hlog : ∀ a : Action, a.arrival? = none → a.taken? = none → a.drainDisconnects = false →
        s'.channel = s.channel → s'.trace = a :: s.trace → Routed s' :=
      fun a ha ht hd hch htr => h.quiet (w := [a]) hch htr (by simp [ha, ht, hd])
    cases hin with
    | guardPassed op hi hs =>
      obtain ⟨sl, hsl⟩ := s.armCmCancellation_frame { op with admitted := true }
      rw [hsl]
      exact h.quiet (w := []) rfl rfl (by simp)
    | waitOpen op hi hs =>
      obtain ⟨sl, hsl⟩ := s.armCmCancellation_frame op
      rw [hsl]
      exact h.quiet (w := []) rfl rfl (by simp)
    | resolveAddrOk op hi => exact hlog (.resolveAddr .ok) rfl rfl rfl rfl rfl
    | resolveAddrFailed op errno hi => exact hlog (.resolveAddr (.fail errno)) rfl rfl rfl rfl rfl
    | published op hi hs => exact hlog (.cas op.kind op.kind.initial) rfl rfl rfl rfl rfl
    | createQpFailed op ec hi he => exact hlog (.createQp op.kind) rfl rfl rfl rfl rfl
    | createQpOk op ec hi he => exact hlog (.createQp op.kind) rfl rfl rfl rfl rfl
    | acceptOk op hi => exact hlog (.accept .ok) rfl rfl rfl rfl rfl
    | acceptFailed op errno hi => exact hlog (.accept (.fail errno)) rfl rfl rfl rfl rfl
    | storedClosed op hi => exact hlog (.close .initiation) rfl rfl rfl rfl rfl
    | _ => exact h.quiet (w := []) rfl rfl (by simp)
  | performIo he hr hlt =>
    exact h.quiet (w := []) State.channel_nextOp State.trace_nextOp (by simp)
  | perform op pc a t r hr hp => exact h.performs hclear hr hp
  | complete i op hop =>
    unfold completeOp
    split_ifs
    · exact h.quiet (w := [.invoked op .closed, .close .completion]) rfl rfl
        (by simp [Action.arrival?, Action.taken?, Action.drainDisconnects])
    · exact h.quiet (w := [.invoked op s.connectState]) rfl rfl
        (by simp [Action.arrival?, Action.taken?, Action.drainDisconnects])
  | enterDisconnect hlt => exact h.quiet (w := []) rfl rfl (by simp)
  | disconnectStep i a _ hd =>
    cases hd with
    | won old hi hs =>
      exact h.quiet (w := [.close (.caller i)]) rfl rfl
        (by simp [Action.arrival?, Action.taken?, Action.drainDisconnects])
    | native res hi =>
      exact h.quiet (w := [.rdmaDisconnect (.caller i)]) rfl rfl
        (by simp [Action.arrival?, Action.taken?, Action.drainDisconnects])
    | _ => exact h.quiet (w := []) rfl rfl (by simp)
  | emit key hk hr hlt => exact h.quiet (w := []) rfl rfl (by simp)
  | closeForDestruction hlt hi hr hc => exact h.quiet (w := []) rfl rfl (by simp)
  | drainEstablished ev rest hlt hc he =>
    refine ⟨?_, fun ev' hev => h.kept ev' (by simpa using hev), ?_⟩
    · rw [State.arrivals_cons (a := .rdmaDisconnect .drain) rfl,
        State.taken_cons (a := .rdmaDisconnect .drain) rfl,
        State.arrivals_cons (s := s) (a := .read .drain ev) rfl,
        State.taken_cons (s := s) (a := .read .drain ev) rfl, h.fifo, hc]
      simp [Action.arrival?, Action.taken?]
    · have hd := h.drained
      simp only [State.log, List.countP_cons, Action.drainsEstablished, Action.drainDisconnects, he]
      simpa using hd
  | drainOther ev rest hlt hc he =>
    exact h.reads (r := .drain) (e := ev) hc rfl Reader.noConfusion
      (by simp [Action.drainsEstablished, he])
  | drainEnd hlt hc => exact h.quiet (w := []) rfl rfl (by simp)
  | drainHardError errno hlt => exact h.quiet (w := []) rfl rfl (by simp)

/-! ## What the drain leaves behind -/

/-- A destroyed connector has been drained: a step of its life after that adds no event, and the drain ends
at an empty channel or at a hard error. -/
theorem destroyed_step {l : Label} (hst : (connector cfg).step s l = some s')
    (hd : s'.lifetime = .destroyed) :
    (s.lifetime = .destroyed ∧ s'.channel ⊆ s.channel) ∨
      (s'.channel = s.channel ∧ (s.channel = [] ∨ ∃ errno, l = .drain (.hardError errno))) := by
  have hsame : s'.lifetime = s.lifetime → s'.channel = s.channel →
      (s.lifetime = .destroyed ∧ s'.channel ⊆ s.channel) ∨
        (s'.channel = s.channel ∧ (s.channel = [] ∨ ∃ errno, l = .drain (.hardError errno))) :=
    fun hl hch => .inl ⟨hl.symm.trans hd, by rw [hch]; exact List.Subset.refl _⟩
  have hmore : s.lifetime ≠ .destroyed → s'.lifetime = s.lifetime → False :=
    fun hne hl => hne (hl.symm.trans hd)
  cases Step.of_step hst with
  | event ev hlt => exact (hmore hlt rfl).elim
  | beginConnect addr slot hasCreateQp requestSize replyCap hi hlt => exact hsame rfl rfl
  | beginAccept addr slot hasCreateQp bindFails dataSize hi hlt => exact hsame rfl rfl
  | beginWait addr slot hi hlt => exact hsame rfl rfl
  | initiate a _ hin => exact hsame hin.not_idle.2.1 hin.not_idle.2.2
  | performIo he hr hlt => exact hsame State.lifetime_nextOp State.channel_nextOp
  | perform op pc a t r hr hp =>
    have hlt : (t.proceed r).lifetime = s.lifetime := State.lifetime_proceed.trans hp.lifetime
    refine .inl ⟨hlt.symm.trans hd, ?_⟩
    rw [State.channel_proceed, hp.unread.1]
    exact unreadAfter_subset s a
  | complete i op hop =>
    unfold completeOp at hsame ⊢
    split_ifs at hsame ⊢ <;> exact hsame rfl rfl
  | enterDisconnect hlt => exact hsame rfl rfl
  | disconnectStep i a _ hdis => exact hsame hdis.not_returned.2.1 hdis.not_returned.2.2
  | emit key hk hr hlt => exact hsame rfl rfl
  | closeForDestruction hlt hi hr hc => cases hd
  | drainEstablished ev rest hlt hc he =>
    have hlt' : s.lifetime = .destroyed := hd
    cases hlt.symm.trans hlt'
  | drainOther ev rest hlt hc he =>
    have hlt' : s.lifetime = .destroyed := hd
    cases hlt.symm.trans hlt'
  | drainEnd hlt hc => exact .inr ⟨rfl, .inl hc⟩
  | drainHardError errno hlt => exact .inr ⟨rfl, .inr ⟨errno, rfl⟩⟩

/-- No connector is destroyed with an `ESTABLISHED` unread. -/
def State.Seen (s : State) : Prop :=
  s.lifetime = .destroyed → ∀ ev ∈ s.channel, ev.event ≠ .established

/-- A step leaves no `ESTABLISHED` behind, exactly if it does not end the drain before it. -/
theorem seen_step {l : Label} (h : s.Seen) (hst : (connector cfg).step s l = some s') :
    s'.Seen ↔ drainsOut s l = true := by
  constructor
  · intro hs'
    cases Step.of_step hst with
    | drainHardError errno hlt =>
      have hnone : ∀ ev ∈ s.channel, ev.event ≠ .established := hs' rfl
      simpa [drainsOut] using hnone
    | _ => rfl
  · intro hc hd
    rcases destroyed_step hst hd with ⟨hds, hsub⟩ | ⟨hch, hempty | ⟨errno, rfl⟩⟩
    · exact fun ev hev => h hds ev (hsub hev)
    · rw [hch, hempty]
      exact fun ev hev => absurd hev List.not_mem_nil
    · rw [hch]
      simpa [drainsOut] using hc

/-- Along a run no connector is destroyed with an `ESTABLISHED` unread, exactly if the drain never stops
before one. -/
theorem seen_iff {ls : List Label} (hr : (connector cfg).run {} ls = some s) :
    (∀ pre t, pre <+: ls → (connector cfg).run {} pre = some t → t.Seen) ↔
      (connector cfg).Meets (fun s l => drainsOut s l = true) {} ls :=
  StepSystem.always_iff_meets (M := connector cfg) (I := fun _ => True)
    (fun _ _ _ _ _ _ => trivial) (fun _ _ _ _ h hst => seen_step h hst) hr trivial
    fun hd => nomatch hd

/-- A drain without hard errors leaves the channel empty. -/
theorem drained_of_run {ls : List Label} (hr : (connector cfg).run {} ls = some s)
    (hno : ∀ errno, .drain (.hardError errno) ∉ ls) (hd : s.lifetime = .destroyed) :
    s.channel = [] := by
  refine StepSystem.invariant_of_meets (M := connector cfg)
    (I := fun t => t.lifetime = .destroyed → t.channel = [])
    (C := fun _ l => ∀ errno, l ≠ .drain (.hardError errno)) (fun t l t' h hc hst hd' => ?_) hr
    (StepSystem.meets_of_mem (fun l hl _ errno => ne_of_mem_of_not_mem hl (hno errno)) _)
    (fun h => nomatch h) hd
  rcases destroyed_step hst hd' with ⟨hdt, hsub⟩ | ⟨hch, hempty | ⟨errno, hl⟩⟩
  · rw [h hdt] at hsub
    exact List.subset_nil.1 hsub
  · rw [hch, hempty]
  · exact absurd hl (hc errno)

/-! ## Whole runs -/

/-- Along a run no watcher comes first with an unread event of a connect or accept, exactly if every step
meets the condition. -/
theorem clear_iff {ls : List Label} (hr : (connector cfg).run {} ls = some s) :
    (∀ pre t, pre <+: ls → (connector cfg).run {} pre = some t →
      clear t.channel t.armed = true) ↔
      (connector cfg).Meets (fun s l => routes s l = true) {} ls :=
  StepSystem.always_iff_meets (M := connector cfg) (I := fun _ => True)
    (fun _ _ _ _ _ _ => trivial) (fun _ _ _ _ h hst => clear_step h hst) hr trivial rfl

/-- No event is misrouted: in every run whose steps meet the condition, each event of a connect or accept
that has arrived is unread in the channel, or was read by a connect or accept op or by the drain, in the
order of arrival; the drain answers every `ESTABLISHED` it finds with `rdma_disconnect`. A destroyed
connector's channel is empty unless its drain was stopped by a hard error, and holds no `ESTABLISHED` exactly
if it was not stopped before one. -/
theorem event_routing {ls : List Label} (hr : (connector cfg).run {} ls = some s)
    (hm : (connector cfg).Meets (fun s l => routes s l = true) {} ls) :
    (∀ ev, .read (.op .wait) ev ∈ s.trace → ev.isEstablishing = false) ∧
      s.arrivals = s.taken ++ s.channel ∧
      s.trace.countP Action.drainsEstablished = s.trace.countP Action.drainDisconnects ∧
      (s.lifetime = .destroyed → (∀ errno, .drain (.hardError errno) ∉ ls) → s.channel = []) ∧
      ((∀ pre t, pre <+: ls → (connector cfg).run {} pre = some t → t.Seen) ↔
        (connector cfg).Meets (fun s l => drainsOut s l = true) {} ls) := by
  have hinv := StepSystem.invariant_of_meets (M := connector cfg)
    (I := fun t => clear t.channel t.armed = true ∧ Routed t)
    (fun t l t' ht hc hst => ⟨(clear_step ht.1 hst).2 hc, ht.2.step ht.1 hst⟩) hr hm
    ⟨rfl, rfl, by simp, rfl⟩
  exact ⟨hinv.2.kept, hinv.2.fifo, hinv.2.drained, fun hd hno => drained_of_run hr hno hd, seen_iff hr⟩

/-- A watcher armed behind a connect op that establishes; the peer's `DISCONNECTED` comes to it. -/
def watchBehind : List Label :=
  [.asyncWaitDisconnect 2 true, .initiate .run, .initiate .run, .initiate .run] ++
    establishConnect.dropLast ++
    [.perform .again, .complete 0,
      .event ⟨.disconnected, 0, []⟩, .performIo, .perform .event, .perform .run, .complete 0]

/-- The connect op in front of the watcher gets its three events. -/
theorem event_routing_watchBehind :
    let s := (connector {}).after {} (armConnect ++ watchBehind)
    (∀ ev, .read (.op .wait) ev ∈ s.trace → ev.isEstablishing = false) ∧
      (s.taken.map CmEvent.event) = [.addrResolved, .routeResolved, .established, .disconnected] ∧
      s.arrivals = s.taken ++ s.channel := by
  have hr : ((connector {}).run {} (armConnect ++ watchBehind)).isSome = true := by decide +kernel
  have h := event_routing (StepSystem.run_after hr) (by decide +kernel)
  exact ⟨h.1, by decide +kernel, h.2.1⟩

/-- A watcher armed before the connect op takes its `ADDR_RESOLVED`. -/
def watchFirst : List Label :=
  [.asyncWaitDisconnect 2 true, .initiate .run, .initiate .run, .initiate .run] ++ armConnect ++
    [.event ⟨.addrResolved, 0, []⟩, .performIo, .perform .event]

/-- Without the condition a watcher drops an event of a connect. -/
theorem not_event_routing :
    ¬ ∀ ls s ev, (connector {}).run {} ls = some s → .read (.op .wait) ev ∈ s.trace →
      ev.isEstablishing = false := by
  intro h
  have := h watchFirst ((connector {}).after {} watchFirst) ⟨.addrResolved, 0, []⟩
    (StepSystem.run_after (by decide +kernel)) (by decide +kernel)
  cases this

end RdmaOnAsio.Ibv
