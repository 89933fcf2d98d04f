import RdmaOnAsio.Nd.Lifetime

/-!
# The pointers captured by nd ops

The pointers an op follows lead to the owner of its connector until the program takes that owner away: it
destroys the implementation, or moves it. The calls that are cancelled on the way complete later, and their
`do_complete` follows the pointers all the same. `outlives` is the condition on the program; where it is not met,
the completion port needs nothing else to follow a pointer that leads nowhere.
-/

namespace RdmaOnAsio.Nd.Lifetime

open ErrorCode

variable {s t u : State} {l : Label} {m m' : Impl} {b : BoundOp} {i j k : Nat} {c : Option Nat}

/-- Whether a `do_complete` will follow the pointers of the op: not that of an accept op which the guards have
turned away. -/
def BoundOp.touches (b : BoundOp) : Bool := b.op.kind != .accept || b.op.started

/-- The pointers of an op: to the implementation, and to its connector. -/
def BoundOp.use (b : BoundOp) : Nat × Option Nat := (b.impl, b.connector)

/-- The pointers that are still to be followed. -/
def State.uses (s : State) : List (Nat × Option Nat) :=
  ((s.pending ++ s.scheduled).filter BoundOp.touches).map BoundOp.use ++
    (s.dispatching.filter fun d => d.2 != .invoke).map fun d => d.1.use

/-- No op holds on to an implementation that a step takes away; an op that was initiated without a connector
needs the implementation only. -/
def outlives (s : State) : Label → Bool
  | .destroy i => s.uses.all fun p => p.1 != i
  | .moveConstruct j => s.uses.all fun p => p.1 != j || p.2.isNone
  | .moveAssign i j => i == j || s.uses.all fun p => (p.1 != i && p.1 != j) || p.2.isNone
  | _ => true

/-- Whether a step is one of the completion port: a call ends, a completion is taken up or goes on. -/
def Label.isPort : Label → Bool
  | .overlapped .. | .dispatch .. | .complete .. => true
  | _ => false

/-- The completion port alone does not make a pointer dangle. -/
def State.Safe (s : State) : Prop :=
  ∀ ls t, (∀ l ∈ ls, l.isPort = true) → lifetimes.run s ls = some t → t.dangling = false

/-- Every pointer that is still to be followed is valid, and none has been followed that was not. -/
structure Sound (s : State) : Prop where
  uses : ∀ p ∈ s.uses, s.valid p.1 p.2 = true
  quiet : s.dangling = false

/-- What holds in every state: an op that may get as far as `CompleteConnect` has a connector, and no two
implementations have the same. -/
structure Coherent (s : State) : Prop where
  pending : ∀ b ∈ s.pending, b.connector.isSome = true
  scheduled : ∀ b ∈ s.scheduled, b.op.kind = .connect → b.op.ec.isError = false → b.connector.isSome = true
  dispatching : ∀ d ∈ s.dispatching, d.2 = .completeConnect → d.1.connector.isSome = true
  fresh : ∀ i m n, s.impl i = some m → m.connector = some n → n < s.connectors
  distinct : ∀ i j m m' n, s.impl i = some m → s.impl j = some m' → m.connector = some n →
    m'.connector = some n → i = j

/-! ## Implementations and pointers -/

theorem lt_of_impl (h : s.impl i = some m) : i < s.impls.length := by
  unfold State.impl at h
  by_contra hge
  rw [List.getElem?_eq_none (Nat.le_of_not_lt hge)] at h
  cases h

theorem impl_setImpl {x : Option Impl} (h : s.impl i = some m) (j : Nat) :
    (s.setImpl i x).impl j = if i = j then x else s.impl j := by
  have hlt := lt_of_impl h
  unfold State.impl State.setImpl
  by_cases hij : i = j
  · subst hij
    simp [hlt]
  · rw [if_neg hij]
    simp [List.getElem?_set_ne hij]

theorem valid_iff : s.valid i c = true ↔ ∃ m, s.impl i = some m ∧ (c = none ∨ m.connector = c) := by
  simp [State.valid, Option.any_eq_true]

theorem valid_self (h : s.impl i = some m) : s.valid i m.connector = true := valid_iff.2 ⟨m, h, .inr rfl⟩

/-- The connector of a valid pointer is owned. -/
theorem owned_of_valid (h : s.valid i c = true) (hc : c.isSome = true) : s.owned c = true := by
  obtain ⟨m, hm, hmc⟩ := valid_iff.1 h
  obtain ⟨n, rfl⟩ := Option.isSome_iff_exists.1 hc
  have hmc : m.connector = some n := hmc.resolve_left nofun
  obtain ⟨o, ho, rfl⟩ : ∃ o, s.impls[i]? = some o ∧ o = some m := by
    unfold State.impl at hm
    cases ho : s.impls[i]? with
    | none =>
      rw [ho] at hm
      cases hm
    | some o =>
      rw [ho] at hm
      exact ⟨o, rfl, hm⟩
  simp only [State.owned, hc, Bool.true_and, List.any_eq_true]
  exact ⟨some m, List.mem_of_getElem? ho, by simp [hmc]⟩

theorem mem_uses {p : Nat × Option Nat} : p ∈ s.uses ↔
    (∃ b, (b ∈ s.pending ∨ b ∈ s.scheduled) ∧ b.touches = true ∧ b.use = p) ∨
      ∃ d ∈ s.dispatching, d.2 ≠ .invoke ∧ d.1.use = p := by
  simp only [State.uses, List.mem_append, List.mem_map, List.mem_filter, bne_iff_ne, and_assoc]

/-! ## What the steps on implementations and ops keep -/

/-- Valid pointers stay valid, and no op gets pointers that it did not have and that are not valid. -/
structure Keeps (s t : State) : Prop where
  valid : ∀ i c, s.valid i c = true → t.valid i c = true
  uses : ∀ p ∈ t.uses, p ∈ s.uses ∨ t.valid p.1 p.2 = true
  quiet : t.dangling = s.dangling
  coherent : Coherent s → Coherent t

theorem Keeps.refl (s : State) : Keeps s s := ⟨fun _ _ h => h, fun _ h => .inl h, rfl, id⟩

theorem Keeps.trans (h : Keeps s t) (h' : Keeps t u) : Keeps s u where
  valid i c hv := h'.valid i c (h.valid i c hv)
  uses p hp := by
    rcases h'.uses p hp with hp | hv
    · exact (h.uses p hp).imp_right (h'.valid p.1 p.2)
    · exact .inr hv
  quiet := h'.quiet.trans h.quiet
  coherent hc := h'.coherent (h.coherent hc)

theorem Keeps.sound (h : Keeps s t) (hs : Sound s) : Sound t := by
  refine ⟨fun p hp => ?_, h.quiet.trans hs.quiet⟩
  rcases h.uses p hp with hp | hv
  · exact h.valid p.1 p.2 (hs.uses p hp)
  · exact hv

/-- Writing an implementation that keeps its connector. -/
theorem Keeps.setImpl (hm : s.impl i = some m) (hc : m'.connector = m.connector) :
    Keeps s (s.setImpl i (some m')) where
  valid j c hv := by
    obtain ⟨mj, hj, hmc⟩ := valid_iff.1 hv
    rw [valid_iff, impl_setImpl hm]
    by_cases hij : i = j
    · subst hij
      obtain rfl := Option.some.inj (hm.symm.trans hj)
      exact ⟨m', by rw [if_pos rfl], hmc.imp_right hc.trans⟩
    · exact ⟨mj, by rw [if_neg hij]; exact hj, hmc⟩
  uses p hp := .inl hp
  quiet := rfl
  coherent h := by
    have hback : ∀ j mj, (s.setImpl i (some m')).impl j = some mj →
        ∃ m₀, s.impl j = some m₀ ∧ m₀.connector = mj.connector := by
      intro j mj hj
      rw [impl_setImpl hm] at hj
      by_cases hij : i = j
      · subst hij
        rw [if_pos rfl] at hj
        obtain rfl := Option.some.inj hj
        exact ⟨m, hm, hc.symm⟩
      · rw [if_neg hij] at hj
        exact ⟨mj, hj, rfl⟩
    refine ⟨h.pending, h.scheduled, h.dispatching, fun j mj n hj hn => ?_, fun j j' mj mj' n hj hj' hn hn' => ?_⟩
    · obtain ⟨m₀, h₀, hc₀⟩ := hback j mj hj
      exact h.fresh j m₀ n h₀ (hc₀.trans hn)
    · obtain ⟨m₀, h₀, hc₀⟩ := hback j mj hj
      obtain ⟨m₁, h₁, hc₁⟩ := hback j' mj' hj'
      exact h.distinct j j' m₀ m₁ n h₀ h₁ (hc₀.trans hn) (hc₁.trans hn')

/-- An implementation without a connector gets a new one. -/
theorem Keeps.opened (hm : s.impl i = some m) (hnone : m.connector = none) : Keeps s (s.opened i m') where
  valid j c hv := by
    obtain ⟨mj, hj, hmc⟩ := valid_iff.1 hv
    rw [valid_iff]
    have hset : (s.opened i m').impl j = if i = j then some { m' with connector := some s.connectors } else
        s.impl j := impl_setImpl hm j
    rw [hset]
    by_cases hij : i = j
    · subst hij
      obtain rfl := Option.some.inj (hm.symm.trans hj)
      exact ⟨_, if_pos rfl, .inl (hmc.elim id fun h => h.symm.trans hnone)⟩
    · exact ⟨mj, by rw [if_neg hij]; exact hj, hmc⟩
  uses p hp := .inl hp
  quiet := rfl
  coherent h := by
    have hback : ∀ j mj n, (s.opened i m').impl j = some mj → mj.connector = some n →
        i = j ∧ n = s.connectors ∨ n < s.connectors ∧ s.impl j = some mj := by
      intro j mj n hj hn
      have hset : (s.opened i m').impl j = if i = j then some { m' with connector := some s.connectors } else
          s.impl j := impl_setImpl hm j
      rw [hset] at hj
      by_cases hij : i = j
      · rw [if_pos hij] at hj
        obtain rfl := Option.some.inj hj
        exact .inl ⟨hij, (Option.some.inj hn).symm⟩
      · rw [if_neg hij] at hj
        exact .inr ⟨h.fresh j mj n hj hn, hj⟩
    refine ⟨h.pending, h.scheduled, h.dispatching, fun j mj n hj hn => ?_, fun j j' mj mj' n hj hj' hn hn' => ?_⟩
    · show n < s.connectors + 1
      rcases hback j mj n hj hn with ⟨-, rfl⟩ | ⟨hlt, -⟩
      · exact Nat.lt_succ_self _
      · omega
    · rcases hback j mj n hj hn with ⟨rfl, hn₀⟩ | ⟨hlt, hj₀⟩
      · rcases hback j' mj' n hj' hn' with ⟨rfl, -⟩ | ⟨hlt, -⟩
        · rfl
        · omega
      · rcases hback j' mj' n hj' hn' with ⟨-, hn₀⟩ | ⟨-, hj₀'⟩
        · omega
        · exact h.distinct j j' mj mj' n hj₀ hj₀' hn hn'

/-- A completion is posted for an op with a valid pointer. -/
theorem Keeps.onCompletion {ec : NdErrorCode} (hv : s.valid b.impl b.connector = true)
    (hc : ec.isError = false → b.connector.isSome = true) : Keeps s (s.onCompletion b ec) where
  valid _ _ h := h
  uses p hp := by
    rcases mem_uses.1 hp with ⟨o, ho, ht, rfl⟩ | ⟨d, hd, hpc, rfl⟩
    · rcases ho with ho | ho
      · exact .inl (mem_uses.2 (.inl ⟨o, .inl ho, ht, rfl⟩))
      · rcases List.mem_append.1 ho with ho | ho
        · exact .inl (mem_uses.2 (.inl ⟨o, .inr ho, ht, rfl⟩))
        · obtain rfl := List.mem_singleton.1 ho
          exact .inr hv
    · exact .inl (mem_uses.2 (.inr ⟨d, hd, hpc, rfl⟩))
  quiet := rfl
  coherent h := by
    refine ⟨h.pending, fun o ho hk he => ?_, h.dispatching, h.fresh, h.distinct⟩
    rcases List.mem_append.1 ho with ho | ho
    · exact h.scheduled o ho hk he
    · obtain rfl := List.mem_singleton.1 ho
      exact hc he

/-- A call is in flight for an op with a valid pointer to a connector. -/
theorem Keeps.onPending (hv : s.valid b.impl b.connector = true) (hc : b.connector.isSome = true) :
    Keeps s (s.onPending b) where
  valid _ _ h := h
  uses p hp := by
    rcases mem_uses.1 hp with ⟨o, ho, ht, rfl⟩ | ⟨d, hd, hpc, rfl⟩
    · rcases ho with ho | ho
      · rcases List.mem_append.1 ho with ho | ho
        · exact .inl (mem_uses.2 (.inl ⟨o, .inl ho, ht, rfl⟩))
        · obtain rfl := List.mem_singleton.1 ho
          exact .inr hv
      · exact .inl (mem_uses.2 (.inl ⟨o, .inr ho, ht, rfl⟩))
    · exact .inl (mem_uses.2 (.inr ⟨d, hd, hpc, rfl⟩))
  quiet := rfl
  coherent h := by
    refine ⟨fun o ho => ?_, h.scheduled, h.dispatching, h.fresh, h.distinct⟩
    rcases List.mem_append.1 ho with ho | ho
    · exact h.pending o ho
    · obtain rfl := List.mem_singleton.1 ho
      exact hc

/-- Marking calls in flight leaves the pointers alone. -/
theorem uses_mark (f : BoundOp → BoundOp) (hf : ∀ b, (f b).use = b.use ∧ (f b).touches = b.touches) :
    { s with pending := s.pending.map f }.uses = s.uses := by
  have htouches : ∀ b, (BoundOp.touches ∘ f) b = b.touches := fun b => (hf b).2
  have huse : ∀ b, (BoundOp.use ∘ f) b = b.use := fun b => (hf b).1
  simp only [State.uses, List.filter_append, List.map_append, List.filter_map, List.map_map,
    funext htouches, funext huse]

/-- Calls in flight are marked. -/
theorem Keeps.mark {pending : List BoundOp}
    (h : ∀ b ∈ pending, ∃ b' ∈ s.pending, b.use = b'.use ∧ b.touches = b'.touches) :
    Keeps s { s with pending := pending } where
  valid _ _ hv := hv
  uses p hp := by
    rcases mem_uses.1 hp with ⟨o, ho | ho, ht, rfl⟩ | ⟨d, hd, hpc, rfl⟩
    · obtain ⟨o', ho', huse, htouches⟩ := h o ho
      exact .inl (mem_uses.2 (.inl ⟨o', .inl ho', htouches ▸ ht, huse.symm⟩))
    · exact .inl (mem_uses.2 (.inl ⟨o, .inr ho, ht, rfl⟩))
    · exact .inl (mem_uses.2 (.inr ⟨d, hd, hpc, rfl⟩))
  quiet := rfl
  coherent hc := by
    refine ⟨fun o ho => ?_, hc.scheduled, hc.dispatching, hc.fresh, hc.distinct⟩
    obtain ⟨o', ho', huse, -⟩ := h o ho
    have hconn : o.connector = o'.connector := congrArg Prod.snd huse
    rw [hconn]
    exact hc.pending o' ho'

theorem Keeps.cancelIoEx (s : State) (c : Option Nat) : Keeps s (s.cancelIoEx c) := by
  refine Keeps.mark fun b hb => ?_
  obtain ⟨b', hb', rfl⟩ := List.mem_map.1 hb
  refine ⟨b', hb', ?_⟩
  split <;> exact ⟨rfl, rfl⟩

/-! ## Initiations -/

/-- The auto-open leaves an implementation at the address, with a connector unless it failed. -/
theorem Keeps.autoOpen (hm : s.impl i = some m) {opened : NdErrorCode} {x : State × Impl × NdErrorCode}
    (hx : autoOpen s i m opened = x) :
    Keeps s x.1 ∧ x.1.impl i = some x.2.1 ∧ (x.2.2.isError = false → x.2.1.connector.isSome = true) := by
  subst hx
  unfold Lifetime.autoOpen
  split_ifs with hsome hreg herr
  · exact ⟨.refl s, hm, fun _ => hsome⟩
  · exact ⟨.refl s, hm, fun h => Bool.noConfusion h⟩
  · exact ⟨.refl s, hm, fun h => Bool.noConfusion (herr.symm.trans h)⟩
  · have hnone : m.connector = none := by simpa using hsome
    refine ⟨.opened hm hnone, ?_, fun _ => rfl⟩
    exact (impl_setImpl hm i).trans (if_pos rfl)

/-- The exchange to `connecting`, and what the native calls answer. -/
theorem Keeps.start (hm : s.impl b.impl = some m) (hb : b.connector = m.connector)
    (hc : m.connector.isSome = true) (bound : NdErrorCode) (hr : Int) : Keeps s (start s m b bound hr) := by
  have hset : Keeps s (s.setImpl b.impl (some { m with connectState := .connecting })) := .setImpl hm rfl
  have hv : (s.setImpl b.impl (some { m with connectState := .connecting })).valid b.impl b.connector =
      true := by
    rw [hb]
    exact hset.valid _ _ (valid_self hm)
  have hconn : b.connector.isSome = true := hb ▸ hc
  unfold Lifetime.start
  dsimp only
  split_ifs
  · exact hset.trans (.onCompletion (b := { b with op := b.op.passGuards }) hv fun _ => hconn)
  · exact hset.trans (.onPending (b := { b with op := b.op.passGuards }) hv hconn)
  · exact hset.trans (.onCompletion (b := { b with op := b.op.passGuards }) hv fun _ => hconn)

theorem Keeps.asyncConnect (hm : s.impl b.impl = some m) (hasQp : Bool) (requestSize : Nat)
    (opened bound : NdErrorCode) (hr : Int) :
    Keeps s (asyncConnect s m b hasQp requestSize opened bound hr) := by
  unfold Lifetime.asyncConnect
  obtain ⟨hopened, himpl, hsome⟩ := Keeps.autoOpen hm (rfl : Lifetime.autoOpen s b.impl m opened = _)
  generalize Lifetime.autoOpen s b.impl m opened = x at hopened himpl hsome
  obtain ⟨s₁, m₁, openEc⟩ := x
  have hv : s₁.valid b.impl m₁.connector = true := valid_self himpl
  -- a guard that posts a code
  have hpost : ∀ ec : NdErrorCode, ec.isError = true →
      Keeps s (s₁.onCompletion { b with connector := m₁.connector } ec) := fun ec herr =>
    hopened.trans (.onCompletion (b := { b with connector := m₁.connector }) hv
      fun h => Bool.noConfusion (herr.symm.trans h))
  dsimp only
  split_ifs with herr hsize hstate hqp
  · exact hpost openEc herr
  · exact hpost _ rfl
  · exact hpost _ rfl
  · exact hpost _ rfl
  · exact hopened.trans (.start (b := { b with connector := m₁.connector }) himpl rfl
      (hsome (Bool.eq_false_iff.2 herr)) bound hr)

theorem Keeps.asyncAccept (hm : s.impl b.impl = some m) (hb : b.connector = m.connector) (hasQp : Bool)
    (bindEc : NdErrorCode) (dataSize : Nat) (hr : Int) :
    Keeps s (asyncAccept s m b hasQp bindEc dataSize hr) := by
  have hv : s.valid b.impl b.connector = true := by
    rw [hb]
    exact valid_self hm
  have hpost : ∀ ec : NdErrorCode, ec.isError = true → Keeps s (s.onCompletion b ec) := fun ec herr =>
    .onCompletion hv fun h => Bool.noConfusion (herr.symm.trans h)
  unfold Lifetime.asyncAccept
  split_ifs with hbind hreg hopen hsize hstate hqp
  · exact hpost bindEc hbind
  · exact hpost _ rfl
  · exact hpost _ rfl
  · exact hpost _ rfl
  · exact hpost _ rfl
  · exact hpost _ rfl
  · exact .start hm hb (by simpa [Option.isSome_iff_ne_none] using hopen) success hr

theorem Keeps.asyncWaitDisconnect (hm : s.impl b.impl = some m) (hb : b.connector = m.connector)
    (hr : Int) : Keeps s (asyncWaitDisconnect s m b hr) := by
  have hv : s.valid b.impl b.connector = true := by
    rw [hb]
    exact valid_self hm
  unfold Lifetime.asyncWaitDisconnect
  split_ifs with hclosed hopen hpending
  · exact .onCompletion hv fun h => Bool.noConfusion h
  · exact .onCompletion hv fun h => Bool.noConfusion h
  · have hsome : b.connector.isSome = true := by
      rw [hb]
      simpa [Option.isSome_iff_ne_none] using hopen
    exact .onPending hv hsome
  · have hsome : b.connector.isSome = true := by
      rw [hb]
      simpa [Option.isSome_iff_ne_none] using hopen
    exact .onCompletion hv fun _ => hsome

theorem Keeps.disconnect (hm : s.impl i = some m) : Keeps s (disconnect s i m) := by
  unfold Lifetime.disconnect
  split_ifs with hclosed
  · exact .refl s
  · have hset : Keeps s (s.setImpl i (some { m with connectState := .closed, peerClosed := true })) :=
      .setImpl hm rfl
    cases m.connectState with
    | connecting => exact hset.trans (.cancelIoEx _ _)
    | connected => exact hset.trans (.cancelIoEx _ _)
    | idle => exact hset
    | closed => exact hset

/-! ## The completion port -/

/-- The call of an op ends. -/
theorem Keeps.overlapped (hb : s.pending[k]? = some b) (r : IoResult) :
    Keeps s ({ s with pending := s.pending.eraseIdx k }.onCompletion b r.ec) := by
  have hmem : b ∈ s.pending := List.mem_of_getElem? hb
  refine ⟨fun _ _ hv => hv, fun p hp => .inl ?_, rfl, fun h => ?_⟩
  · rcases mem_uses.1 hp with ⟨o, ho | ho, ht, rfl⟩ | ⟨d, hd, hpc, rfl⟩
    · exact mem_uses.2 (.inl ⟨o, .inl (List.mem_of_mem_eraseIdx ho), ht, rfl⟩)
    · rcases List.mem_append.1 ho with ho | ho
      · exact mem_uses.2 (.inl ⟨o, .inr ho, ht, rfl⟩)
      · obtain rfl := List.mem_singleton.1 ho
        exact mem_uses.2 (.inl ⟨b, .inl hmem, ht, rfl⟩)
    · exact mem_uses.2 (.inr ⟨d, hd, hpc, rfl⟩)
  · refine ⟨fun o ho => h.pending o (List.mem_of_mem_eraseIdx ho), fun o ho hk he => ?_, h.dispatching,
      h.fresh, h.distinct⟩
    rcases List.mem_append.1 ho with ho | ho
    · exact h.scheduled o ho hk he
    · obtain rfl := List.mem_singleton.1 ho
      exact h.pending b hmem

/-- A `do_complete` follows the pointers of its op, unless it goes straight to the handler. -/
theorem doComplete_touches (b : BoundOp) : b.op.doComplete.2 ≠ .invoke ↔ b.touches = true := by
  unfold CmOp.doComplete BoundOp.touches
  cases hk : b.op.kind with
  | connect =>
    refine iff_of_true ?_ (by simp)
    dsimp only
    unfold CmOp.connectComplete
    split_ifs
    · exact nofun
    · cases b.op.stage <;> exact nofun
  | accept =>
    dsimp only
    unfold CmOp.acceptComplete
    cases hstarted : b.op.started with
    | false => simp
    | true => cases b.op.ec.isError <;> simp
  | wait => exact iff_of_true nofun (by simp)

/-- Only a connect op without an error goes on to `CompleteConnect`. -/
theorem kind_of_completeConnect {op : CmOp} (h : op.doComplete.2 = .completeConnect) :
    op.kind = .connect ∧ op.ec.isError = false := by
  unfold CmOp.doComplete at h
  cases hk : op.kind with
  | connect =>
    rw [hk] at h
    dsimp only at h
    unfold CmOp.connectComplete at h
    cases he : op.ec.isError with
    | false => exact ⟨rfl, rfl⟩
    | true => simp [he] at h
  | accept =>
    rw [hk] at h
    dsimp only at h
    unfold CmOp.acceptComplete at h
    split_ifs at h
  | wait =>
    rw [hk] at h
    cases h

/-- A thread takes up a completion. -/
theorem Keeps.dispatch (hb : s.scheduled[k]? = some b) :
    Keeps s { s with
      scheduled := s.scheduled.eraseIdx k
      dispatching := s.dispatching ++ [({ b with op := b.op.doComplete.1 }, b.op.doComplete.2)] } := by
  have hmem : b ∈ s.scheduled := List.mem_of_getElem? hb
  refine ⟨fun _ _ hv => hv, fun p hp => .inl ?_, rfl, fun h => ?_⟩
  · rcases mem_uses.1 hp with ⟨o, ho | ho, ht, rfl⟩ | ⟨d, hd, hpc, rfl⟩
    · exact mem_uses.2 (.inl ⟨o, .inl ho, ht, rfl⟩)
    · exact mem_uses.2 (.inl ⟨o, .inr (List.mem_of_mem_eraseIdx ho), ht, rfl⟩)
    · rcases List.mem_append.1 hd with hd | hd
      · exact mem_uses.2 (.inr ⟨d, hd, hpc, rfl⟩)
      · obtain rfl := List.mem_singleton.1 hd
        exact mem_uses.2 (.inl ⟨b, .inr hmem, (doComplete_touches b).1 hpc, rfl⟩)
  · refine ⟨h.pending, fun o ho => h.scheduled o (List.mem_of_mem_eraseIdx ho), fun d hd hpc => ?_, h.fresh,
      h.distinct⟩
    rcases List.mem_append.1 hd with hd | hd
    · exact h.dispatching d hd hpc
    · obtain rfl := List.mem_singleton.1 hd
      obtain ⟨hk, he⟩ := kind_of_completeConnect hpc
      exact h.scheduled b hmem hk he

/-- A `do_complete` is over. -/
theorem Keeps.returned (s : State) (k : Nat) : Keeps s { s with dispatching := s.dispatching.eraseIdx k } := by
  refine ⟨fun _ _ hv => hv, fun p hp => .inl ?_, rfl, fun h => ?_⟩
  · rcases mem_uses.1 hp with ⟨o, ho, ht, rfl⟩ | ⟨d, hd, hpc, rfl⟩
    · exact mem_uses.2 (.inl ⟨o, ho, ht, rfl⟩)
    · exact mem_uses.2 (.inr ⟨d, List.mem_of_mem_eraseIdx hd, hpc, rfl⟩)
  · exact ⟨h.pending, h.scheduled, fun d hd => h.dispatching d (List.mem_of_mem_eraseIdx hd), h.fresh,
      h.distinct⟩

/-- A `do_complete` goes on with its op, and not to another `CompleteConnect`. -/
theorem Keeps.goesOn {op : CmOp} {pc : CompletePc} (hv : s.valid b.impl b.connector = true)
    (hpc : pc ≠ .completeConnect) :
    Keeps s { s with dispatching := s.dispatching.set k ({ b with op := op }, pc) } := by
  refine ⟨fun _ _ hv => hv, fun p hp => ?_, rfl, fun h => ?_⟩
  · rcases mem_uses.1 hp with ⟨o, ho, ht, rfl⟩ | ⟨d, hd, hne, rfl⟩
    · exact .inl (mem_uses.2 (.inl ⟨o, ho, ht, rfl⟩))
    · rcases List.mem_or_eq_of_mem_set hd with hd | rfl
      · exact .inl (mem_uses.2 (.inr ⟨d, hd, hne, rfl⟩))
      · exact .inr hv
  · refine ⟨h.pending, h.scheduled, fun d hd hd' => ?_, h.fresh, h.distinct⟩
    rcases List.mem_or_eq_of_mem_set hd with hd | rfl
    · exact h.dispatching d hd hd'
    · exact absurd hd' hpc

/-- No access changes which connector an implementation owns, or leads back to `CompleteConnect`. -/
theorem access_spec {op op' : CmOp} {pc pc' : CompletePc} {a : Answer}
    (h : access m op pc a = some (m', op', pc')) : m'.connector = m.connector ∧ pc' ≠ .completeConnect := by
  unfold access at h
  split at h
  case h_1 =>
    cases h
    exact ⟨rfl, nofun⟩
  case h_2 =>
    split_ifs at h <;> cases h <;> exact ⟨rfl, nofun⟩
  case h_3 =>
    cases h
    exact ⟨rfl, nofun⟩
  case h_4 =>
    cases h
    exact ⟨rfl, nofun⟩
  case h_5 =>
    simp only [Option.some.injEq, Prod.mk.injEq, CmOp.waitComplete] at h
    obtain ⟨rfl, h⟩ := h
    refine ⟨rfl, ?_⟩
    rintro rfl
    split_ifs at h <;> cases h
  case h_6 =>
    cases h
    exact ⟨rfl, nofun⟩
  case h_7 => cases h

/-- `CompleteConnect` is called once in a `do_complete`. -/
theorem connectCompleted_ne {op op' : CmOp} {pd : Option Nat} {hr : Int} {pc : CompletePc}
    (h : op.connectCompleted pd hr = (op', some pc)) : pc ≠ .completeConnect := by
  unfold CmOp.connectCompleted at h
  rintro rfl
  dsimp only at h
  split_ifs at h
  all_goals cases h

/-- The `do_complete` of the model of one connector goes through the same accesses. -/
theorem completeStep_of_access {x : Nd.State} {op op' : CmOp} {pc pc' : CompletePc} {a : Answer}
    (h : access { m with connectState := x.connectState, peerClosed := x.peerClosed } op pc a =
      some (m', op', pc')) :
    ∃ y, Nd.completeStep x op pc a = some y ∧ y.connectState = m'.connectState ∧
      y.peerClosed = m'.peerClosed ∧ y.dispatching = (x.goto (op', pc')).dispatching := by
  unfold access at h
  split at h
  case h_1 =>
    cases h
    exact ⟨_, rfl, rfl, rfl, rfl⟩
  case h_2 =>
    by_cases hstate : x.connectState = .connecting
    · rw [if_pos hstate] at h
      cases h
      exact ⟨_, if_pos hstate, rfl, rfl, rfl⟩
    · rw [if_neg hstate] at h
      cases h
      exact ⟨_, if_neg hstate, rfl, rfl, rfl⟩
  case h_3 =>
    cases h
    exact ⟨_, rfl, rfl, rfl, rfl⟩
  case h_4 =>
    cases h
    exact ⟨_, rfl, rfl, rfl, rfl⟩
  case h_5 =>
    obtain ⟨rfl, hw⟩ := Prod.mk.inj (Option.some.inj h)
    refine ⟨_, rfl, rfl, rfl, ?_⟩
    rw [← hw]
  case h_6 =>
    cases h
    exact ⟨_, rfl, rfl, rfl, rfl⟩
  case h_7 => cases h

/-- Apart from the call of `CompleteConnect` and the handler, a step accesses the implementation the op points
to. -/
theorem completeStep_eq_access {pc : CompletePc} {a : Answer} (hinvoke : pc ≠ .invoke)
    (hcc : pc ≠ .completeConnect) (hv : s.valid b.impl b.connector = true) (hm : s.impl b.impl = some m) :
    completeStep s k b pc a = (access m b.op pc a).map fun x =>
      { s.setImpl b.impl (some x.1) with
        dispatching := s.dispatching.set k ({ b with op := x.2.1 }, x.2.2) } := by
  cases pc with
  | invoke => exact absurd rfl hinvoke
  | completeConnect => exact absurd rfl hcc
  | _ =>
    simp only [completeStep, hv, hm, if_true]
    split
    · next hacc => rw [hacc]; rfl
    · next hacc => rw [hacc]; rfl

/-- A step of a `do_complete` follows valid pointers. -/
theorem Keeps.completeStep {pc : CompletePc} {a : Answer} (hs : Sound s) (hc : Coherent s)
    (hd : s.dispatching[k]? = some (b, pc)) (hst : completeStep s k b pc a = some t) : Keeps s t := by
  have hmem : (b, pc) ∈ s.dispatching := List.mem_of_getElem? hd
  by_cases hinvoke : pc = .invoke
  · subst hinvoke
    cases a with
    | run =>
      obtain rfl := Option.some.inj hst
      exact .returned s k
    | _ => cases hst
  · have hv : s.valid b.impl b.connector = true :=
      hs.uses _ (mem_uses.2 (.inr ⟨(b, pc), hmem, hinvoke, rfl⟩))
    by_cases hcc : pc = .completeConnect
    · subst hcc
      have hsome : b.connector.isSome = true := hc.dispatching _ hmem rfl
      cases a with
      | completeConnect pd hr =>
        simp only [Lifetime.completeStep, owned_of_valid hv hsome, if_true] at hst
        cases hcompleted : b.op.connectCompleted pd hr with
        | mk op pc' =>
          cases pc' with
          | some pc' =>
            rw [hcompleted] at hst
            obtain rfl := Option.some.inj hst
            exact .goesOn hv (connectCompleted_ne hcompleted)
          | none =>
            rw [hcompleted] at hst
            obtain rfl := Option.some.inj hst
            exact (Keeps.returned s k).trans (.onPending (b := { b with op := op }) hv hsome)
      | _ => cases hst
    · obtain ⟨m, hm, -⟩ := valid_iff.1 hv
      rw [completeStep_eq_access hinvoke hcc hv hm, Option.map_eq_some_iff] at hst
      obtain ⟨⟨m', op', pc'⟩, hacc, rfl⟩ := hst
      obtain ⟨hconn, hpc⟩ := access_spec hacc
      have hset : Keeps s (s.setImpl b.impl (some m')) := .setImpl hm hconn
      exact hset.trans (.goesOn (hset.valid _ _ hv) hpc)

/-! ## Moves and destructions -/

theorem impl_append (s : State) (x : Option Impl) (j : Nat) :
    { s with impls := s.impls ++ [x] }.impl j = if j = s.impls.length then x else s.impl j := by
  unfold State.impl
  by_cases hj : j = s.impls.length
  · subst hj
    simp
  · rw [if_neg hj]
    by_cases hlt : j < s.impls.length
    · simp [List.getElem?_append_left hlt]
    · have hge : s.impls.length + 1 ≤ j := by omega
      simp [List.getElem?_eq_none (show (s.impls ++ [x]).length ≤ j by simpa using hge),
        List.getElem?_eq_none (show s.impls.length ≤ j by omega)]

/-- A new implementation takes nothing away. -/
theorem Keeps.construct (s : State) : Keeps s { s with impls := s.impls ++ [some {}] } where
  valid j c hv := by
    obtain ⟨mj, hj, hmc⟩ := valid_iff.1 hv
    have hlt := lt_of_impl hj
    exact valid_iff.2 ⟨mj, by rw [impl_append, if_neg (by omega)]; exact hj, hmc⟩
  uses p hp := .inl hp
  quiet := rfl
  coherent h := by
    have hback : ∀ j mj n, { s with impls := s.impls ++ [some ({} : Impl)] }.impl j = some mj →
        mj.connector = some n → s.impl j = some mj := by
      intro j mj n hj hn
      rw [impl_append] at hj
      by_cases hlast : j = s.impls.length
      · rw [if_pos hlast] at hj
        obtain rfl := Option.some.inj hj
        cases hn
      · rwa [if_neg hlast] at hj
    exact ⟨h.pending, h.scheduled, h.dispatching, fun j mj n hj hn => h.fresh j mj n (hback j mj n hj hn) hn,
      fun j j' mj mj' n hj hj' hn hn' =>
        h.distinct j j' mj mj' n (hback j mj n hj hn) (hback j' mj' n hj' hn') hn hn'⟩

/-- The implementations with a connector are those there were; the one at `src` has gone to `dst`, or away. -/
structure Inherits (dst src : Nat) (s t : State) : Prop where
  pending : t.pending = s.pending
  scheduled : t.scheduled = s.scheduled
  dispatching : t.dispatching = s.dispatching
  connectors : t.connectors = s.connectors
  quiet : t.dangling = s.dangling
  owners : ∀ i m n, t.impl i = some m → m.connector = some n →
    (i = dst ∧ s.impl src = some m) ∨ (i ≠ dst ∧ i ≠ src ∧ s.impl i = some m)

theorem Inherits.uses {dst src : Nat} (h : Inherits dst src s t) : t.uses = s.uses := by
  unfold State.uses
  rw [h.pending, h.scheduled, h.dispatching]

theorem Inherits.coherent {dst src : Nat} (h : Inherits dst src s t) (hc : Coherent s) : Coherent t where
  pending := h.pending ▸ hc.pending
  scheduled := h.scheduled ▸ hc.scheduled
  dispatching := h.dispatching ▸ hc.dispatching
  fresh i m n hi hn := by
    rw [h.connectors]
    rcases h.owners i m n hi hn with ⟨-, hsrc⟩ | ⟨-, -, hsame⟩
    · exact hc.fresh src m n hsrc hn
    · exact hc.fresh i m n hsame hn
  distinct i j m m' n hi hj hn hn' := by
    rcases h.owners i m n hi hn with ⟨rfl, hsrc⟩ | ⟨hdst, hne, hsame⟩
    · rcases h.owners j m' n hj hn' with ⟨rfl, -⟩ | ⟨-, hne', hsame'⟩
      · rfl
      · exact absurd (hc.distinct j src m' m n hsame' hsrc hn' hn) hne'
    · rcases h.owners j m' n hj hn' with ⟨rfl, hsrc'⟩ | ⟨-, -, hsame'⟩
      · exact absurd (hc.distinct i src m m' n hsame hsrc' hn hn') hne
      · exact hc.distinct i j m m' n hsame hsame' hn hn'

/-- Where the ops keep their pointers, what matters is which of them are valid afterwards. -/
theorem sound_iff (hs : Sound s) (huses : t.uses = s.uses) (hquiet : t.dangling = s.dangling)
    {p : Nat × Option Nat → Bool}
    (h : ∀ i c, s.valid i c = true → (t.valid i c = true ↔ p (i, c) = true)) :
    Sound t ↔ s.uses.all p = true := by
  rw [List.all_eq_true]
  constructor
  · intro ht u hu
    exact (h u.1 u.2 (hs.uses u hu)).1 (ht.uses u (huses ▸ hu))
  · intro hall
    refine ⟨fun u hu => ?_, hquiet.trans hs.quiet⟩
    rw [huses] at hu
    exact (h u.1 u.2 (hs.uses u hu)).2 (hall u hu)

theorem uses_cancelIoEx (s : State) (c : Option Nat) : (s.cancelIoEx c).uses = s.uses := by
  refine uses_mark _ fun b => ?_
  split <;> exact ⟨rfl, rfl⟩

theorem destroy_spec (hc : Coherent s) (hs : Sound s) (hm : s.impl i = some m) :
    Coherent ((s.cancelIoEx m.connector).setImpl i none) ∧
      (Sound ((s.cancelIoEx m.connector).setImpl i none) ↔ outlives s (.destroy i) = true) := by
  have himpl : ∀ j, ((s.cancelIoEx m.connector).setImpl i none).impl j =
      if i = j then none else s.impl j := fun j => impl_setImpl (s := s.cancelIoEx m.connector) hm j
  have hinherits : Inherits i i (s.cancelIoEx m.connector)
      ((s.cancelIoEx m.connector).setImpl i none) := by
    refine ⟨rfl, rfl, rfl, rfl, rfl, fun j mj n hj hn => .inr ?_⟩
    rw [himpl] at hj
    by_cases hij : i = j
    · rw [if_pos hij] at hj
      cases hj
    · rw [if_neg hij] at hj
      exact ⟨Ne.symm hij, Ne.symm hij, hj⟩
  refine ⟨hinherits.coherent ((Keeps.cancelIoEx s m.connector).coherent hc), ?_⟩
  refine sound_iff hs (hinherits.uses.trans (uses_cancelIoEx s m.connector)) rfl fun j c hv => ?_
  obtain ⟨mj, hj, hmc⟩ := valid_iff.1 hv
  rw [valid_iff, himpl]
  by_cases hij : i = j
  · rw [if_pos hij]
    refine iff_of_false ?_ (by simp [hij])
    rintro ⟨_, h, -⟩
    cases h
  · rw [if_neg hij]
    exact iff_of_true ⟨mj, hj, hmc⟩ (by simpa using Ne.symm hij)

/-- A pointer to a moved implementation without a connector. -/
theorem left_valid : (∃ m', some { m with connector := none } = some m' ∧
    (c = none ∨ m'.connector = c)) ↔ c.isNone = true := by
  rw [Option.isNone_iff_eq_none]
  constructor
  · rintro ⟨m', hm', h⟩
    obtain rfl := Option.some.inj hm'
    exact h.elim id Eq.symm
  · intro h
    exact ⟨_, rfl, .inl h⟩

theorem moveConstruct_spec (hc : Coherent s) (hs : Sound s) (hm : s.impl j = some m) :
    Coherent { s.leave j m with impls := (s.leave j m).impls ++ [some m] } ∧
      (Sound { s.leave j m with impls := (s.leave j m).impls ++ [some m] } ↔
        outlives s (.moveConstruct j) = true) := by
  have hlen : (s.leave j m).impls.length = s.impls.length := List.length_set ..
  have himpl : ∀ i, { s.leave j m with impls := (s.leave j m).impls ++ [some m] }.impl i =
      if i = s.impls.length then some m else if j = i then some { m with connector := none } else s.impl i := by
    intro i
    rw [impl_append, hlen]
    congr 1
    exact impl_setImpl hm i
  have hinherits : Inherits s.impls.length j s
      { s.leave j m with impls := (s.leave j m).impls ++ [some m] } := by
    refine ⟨rfl, rfl, rfl, rfl, rfl, fun i mi n hi hn => ?_⟩
    rw [himpl] at hi
    by_cases hlast : i = s.impls.length
    · rw [if_pos hlast] at hi
      exact .inl ⟨hlast, hm.trans hi⟩
    · rw [if_neg hlast] at hi
      by_cases hij : j = i
      · rw [if_pos hij] at hi
        obtain rfl := Option.some.inj hi
        cases hn
      · rw [if_neg hij] at hi
        exact .inr ⟨hlast, Ne.symm hij, hi⟩
  refine ⟨hinherits.coherent hc, ?_⟩
  refine sound_iff hs hinherits.uses rfl fun i c hv => ?_
  obtain ⟨mi, hi, hmc⟩ := valid_iff.1 hv
  have hlt := lt_of_impl hi
  rw [valid_iff, himpl, if_neg (by omega)]
  by_cases hij : j = i
  · rw [if_pos hij, left_valid]
    simp [hij]
  · rw [if_neg hij]
    exact iff_of_true ⟨mi, hi, hmc⟩ (by simp [Ne.symm hij])

theorem moveAssign_spec {mi : Impl} (hc : Coherent s) (hs : Sound s) (hi : s.impl i = some mi)
    (hj : s.impl j = some m) (hij : i ≠ j) :
    Coherent (((s.cancelIoEx mi.connector).setImpl i (some m)).leave j m) ∧
      (Sound (((s.cancelIoEx mi.connector).setImpl i (some m)).leave j m) ↔
        outlives s (.moveAssign i j) = true) := by
  have hset : ∀ k, ((s.cancelIoEx mi.connector).setImpl i (some m)).impl k =
      if i = k then some m else s.impl k := fun k => impl_setImpl (s := s.cancelIoEx mi.connector) hi k
  have himpl : ∀ k, (((s.cancelIoEx mi.connector).setImpl i (some m)).leave j m).impl k =
      if j = k then some { m with connector := none } else if i = k then some m else s.impl k := by
    intro k
    have hj' : ((s.cancelIoEx mi.connector).setImpl i (some m)).impl j = some m := by
      rw [hset, if_neg hij]
      exact hj
    rw [← hset]
    exact impl_setImpl hj' k
  have hinherits : Inherits i j (s.cancelIoEx mi.connector)
      (((s.cancelIoEx mi.connector).setImpl i (some m)).leave j m) := by
    refine ⟨rfl, rfl, rfl, rfl, rfl, fun k mk n hk hn => ?_⟩
    rw [himpl] at hk
    by_cases hjk : j = k
    · rw [if_pos hjk] at hk
      obtain rfl := Option.some.inj hk
      cases hn
    · rw [if_neg hjk] at hk
      by_cases hik : i = k
      · rw [if_pos hik] at hk
        exact .inl ⟨hik.symm, hj.trans hk⟩
      · rw [if_neg hik] at hk
        exact .inr ⟨Ne.symm hik, Ne.symm hjk, hk⟩
  refine ⟨hinherits.coherent ((Keeps.cancelIoEx s mi.connector).coherent hc), ?_⟩
  have hout : outlives s (.moveAssign i j) =
      s.uses.all fun p => (p.1 != i && p.1 != j) || p.2.isNone := by
    simp [outlives, hij]
  rw [hout]
  refine sound_iff hs (hinherits.uses.trans (uses_cancelIoEx s mi.connector)) rfl fun k c hv => ?_
  obtain ⟨mk, hk, hmc⟩ := valid_iff.1 hv
  rw [valid_iff, himpl]
  by_cases hjk : j = k
  · rw [if_pos hjk, left_valid]
    simp [hjk]
  · rw [if_neg hjk]
    by_cases hik : i = k
    · -- the target has another connector now
      subst hik
      obtain rfl := Option.some.inj (hi.symm.trans hk)
      rw [if_pos rfl]
      cases c with
      | none => exact iff_of_true ⟨m, rfl, .inl rfl⟩ (by simp)
      | some n =>
        have hn : mi.connector = some n := hmc.resolve_left nofun
        refine iff_of_false ?_ (by simp)
        rintro ⟨m', hm', h⟩
        obtain rfl := Option.some.inj hm'
        exact hij (hc.distinct i j mi m n hi hj hn (h.resolve_left nofun))
    · rw [if_neg hik]
      exact iff_of_true ⟨mk, hk, hmc⟩ (by simp [Ne.symm hik, Ne.symm hjk])

/-! ## Steps -/

/-- A step from a sound state leads to a sound one exactly if nothing the ops hold on to is taken away. -/
theorem step_spec (hc : Coherent s) (hs : Sound s) (hst : lifetimes.step s l = some t) :
    Coherent t ∧ (Sound t ↔ outlives s l = true) := by
  have hkeeps : Keeps s t → outlives s l = true → Coherent t ∧ (Sound t ↔ outlives s l = true) :=
    fun h hout => ⟨h.coherent hc, iff_of_true (h.sound hs) hout⟩
  change Lifetime.step s l = some t at hst
  obtain ⟨-, hst⟩ := Option.ite_none_left_eq_some.1 hst
  cases l with
  | useDevice =>
    obtain rfl := Option.some.inj hst
    refine hkeeps ⟨fun _ _ h => h, fun _ h => .inl h, rfl, fun h => ?_⟩ rfl
    exact ⟨h.pending, h.scheduled, h.dispatching, h.fresh, h.distinct⟩
  | construct =>
    obtain rfl := Option.some.inj hst
    exact hkeeps (.construct s) rfl
  | openConnector i =>
    cases hm : s.impl i with
    | none => simp [hm] at hst
    | some m =>
      simp only [hm] at hst
      obtain ⟨⟨hnone, -⟩, rfl⟩ := Option.ite_some_none_eq_some.1 hst
      exact hkeeps (.opened hm hnone) rfl
  | assign i =>
    cases hm : s.impl i with
    | none => simp [hm] at hst
    | some m =>
      simp only [hm] at hst
      obtain ⟨hnone, rfl⟩ := Option.ite_some_none_eq_some.1 hst
      exact hkeeps (.opened hm hnone) rfl
  | asyncConnect i id hasQp requestSize replyCap opened bound hr =>
    obtain ⟨m, hm, rfl⟩ := Option.map_eq_some_iff.1 hst
    exact hkeeps (.asyncConnect hm ..) rfl
  | asyncAccept i id hasQp bindEc dataSize hr =>
    obtain ⟨m, hm, rfl⟩ := Option.map_eq_some_iff.1 hst
    exact hkeeps (.asyncAccept hm rfl ..) rfl
  | asyncWaitDisconnect i id hr =>
    obtain ⟨m, hm, rfl⟩ := Option.map_eq_some_iff.1 hst
    exact hkeeps (.asyncWaitDisconnect hm rfl hr) rfl
  | disconnect i =>
    obtain ⟨m, hm, rfl⟩ := Option.map_eq_some_iff.1 hst
    exact hkeeps (.disconnect hm) rfl
  | cancel k =>
    obtain rfl := Option.some.inj hst
    refine hkeeps (.mark fun b hb => ?_) rfl
    obtain ⟨n, hn⟩ := List.mem_iff_getElem?.1 hb
    rw [List.getElem?_modify] at hn
    obtain ⟨b', hb', rfl⟩ := Option.map_eq_some_iff.1 hn
    refine ⟨b', List.mem_of_getElem? hb', ?_⟩
    split <;> exact ⟨rfl, rfl⟩
  | overlapped k r =>
    cases hb : s.pending[k]? with
    | none => simp [hb] at hst
    | some b =>
      simp only [hb] at hst
      obtain ⟨-, rfl⟩ := Option.ite_some_none_eq_some.1 hst
      exact hkeeps (.overlapped hb r) rfl
  | dispatch k =>
    cases hb : s.scheduled[k]? with
    | none => simp [hb] at hst
    | some b =>
      simp only [hb] at hst
      obtain rfl := Option.some.inj hst
      exact hkeeps (.dispatch hb) rfl
  | complete k a =>
    cases hd : s.dispatching[k]? with
    | none => simp [hd] at hst
    | some d =>
      simp only [hd] at hst
      exact hkeeps (.completeStep hs hc hd hst) rfl
  | moveConstruct j =>
    obtain ⟨m, hm, rfl⟩ := Option.map_eq_some_iff.1 hst
    exact moveConstruct_spec hc hs hm
  | moveAssign i j =>
    cases hi : s.impl i with
    | none => simp [hi] at hst
    | some mi =>
      cases hj : s.impl j with
      | none => simp [hi, hj] at hst
      | some m =>
        simp only [hi, hj] at hst
        by_cases hij : i = j
        · rw [if_pos hij] at hst
          obtain rfl := Option.some.inj hst
          exact hkeeps (.refl s) (by simp [outlives, hij])
        · rw [if_neg hij] at hst
          obtain rfl := Option.some.inj hst
          exact moveAssign_spec hc hs hi hj hij
  | destroy i =>
    obtain ⟨m, hm, rfl⟩ := Option.map_eq_some_iff.1 hst
    exact destroy_spec hc hs hm

/-! ## What the port does without the owner -/

/-- A step of the port leads to a state that is not safe. -/
theorem State.not_safe_step (hl : l.isPort = true) (hst : lifetimes.step s l = some t) (ht : ¬ t.Safe) :
    ¬ s.Safe := by
  intro hs
  refine ht fun ls u hls hr => ?_
  refine hs (l :: ls) u (fun l' hl' => ?_) (StepSystem.run_cons.2 ⟨t, hst, hr⟩)
  rcases List.mem_cons.1 hl' with rfl | hl'
  · exact hl
  · exact hls l' hl'

/-- A safe state is not dangling itself. -/
theorem State.Safe.quiet (h : s.Safe) : s.dangling = false :=
  h [] s (fun _ hl => absurd hl List.not_mem_nil) rfl

theorem State.not_safe_dangling (s : State) : ¬ { s with dangling := true }.Safe := fun h =>
  Bool.noConfusion h.quiet

/-- A `do_complete` that goes on without the owner of its connector follows the pointer. -/
theorem not_safe_of_dispatching {pc : CompletePc} (hq : s.dangling = false)
    (hd : s.dispatching[k]? = some (b, pc)) (hpc : pc ≠ .invoke)
    (hv : s.valid b.impl b.connector = false) : ¬ s.Safe := by
  -- every access but that of `CompleteConnect` follows the pointer to the implementation
  have hfollow : ∀ {t : State} {o : BoundOp} {q : CompletePc}, t.dangling = false →
      t.dispatching[k]? = some (o, q) → q ≠ .invoke → q ≠ .completeConnect →
      t.valid o.impl o.connector = false → ¬ t.Safe := by
    intro t o q hq' hd' hpc' hcc hv'
    have hst : lifetimes.step t (.complete k .run) = some { t with dangling := true } := by
      cases q with
      | invoke => exact absurd rfl hpc'
      | completeConnect => exact absurd rfl hcc
      | _ => simp [lifetimes, Lifetime.step, hq', hd', Lifetime.completeStep, hv']
    exact t.not_safe_step rfl hst t.not_safe_dangling
  by_cases hcc : pc = .completeConnect
  · subst hcc
    cases howned : s.owned b.connector with
    | false =>
      have hst : lifetimes.step s (.complete k (.completeConnect none (-1))) =
          some { s with dangling := true } := by
        simp [lifetimes, Lifetime.step, hq, hd, Lifetime.completeStep, howned]
      exact s.not_safe_step rfl hst s.not_safe_dangling
    | true =>
      -- the connector has moved: its `CompleteConnect` fails, and the state is stored where it was
      obtain ⟨op, hop⟩ : ∃ op, b.op.connectCompleted none (-1) = (op, some .storeFailed) := ⟨_, rfl⟩
      have hst : lifetimes.step s (.complete k (.completeConnect none (-1))) =
          some { s with dispatching := s.dispatching.set k ({ b with op := op }, .storeFailed) } := by
        simp [lifetimes, Lifetime.step, hq, hd, Lifetime.completeStep, howned, hop]
      have hlt : k < s.dispatching.length := (List.getElem?_eq_some_iff.1 hd).1
      refine s.not_safe_step rfl hst ?_
      exact hfollow (o := { b with op := op }) (q := .storeFailed) hq (by simp [hlt]) nofun nofun hv
  · exact hfollow hq hd hpc hcc hv

/-- A completion that waits is taken up. -/
theorem not_safe_of_scheduled (hq : s.dangling = false) (hb : s.scheduled[k]? = some b)
    (ht : b.touches = true) (hv : s.valid b.impl b.connector = false) : ¬ s.Safe := by
  have hst : lifetimes.step s (.dispatch k) = some { s with
      scheduled := s.scheduled.eraseIdx k
      dispatching := s.dispatching ++ [({ b with op := b.op.doComplete.1 }, b.op.doComplete.2)] } := by
    simp [lifetimes, Lifetime.step, hq, hb]
  refine s.not_safe_step rfl hst ?_
  exact not_safe_of_dispatching (k := s.dispatching.length) (b := { b with op := b.op.doComplete.1 }) hq
    (by simp) ((doComplete_touches b).2 ht) hv

/-- A call in flight may fail at any time. -/
theorem not_safe_of_pending (hq : s.dangling = false) (hb : s.pending[k]? = some b)
    (ht : b.touches = true) (hv : s.valid b.impl b.connector = false) : ¬ s.Safe := by
  have hst : lifetimes.step s (.overlapped k (.failed 1)) =
      some ({ s with pending := s.pending.eraseIdx k }.onCompletion b (IoResult.failed 1).ec) := by
    simp [lifetimes, Lifetime.step, hq, hb, mayEnd, errorOperationAborted]
  refine s.not_safe_step rfl hst ?_
  exact not_safe_of_scheduled (k := s.scheduled.length)
    (b := { b with op := b.op.completeWith (IoResult.failed 1).ec }) hq (by simp [State.onCompletion]) ht hv

/-- The port makes no pointer dangle exactly if all that are still to be followed are valid. -/
theorem safe_iff_sound (hc : Coherent s) : s.Safe ↔ Sound s := by
  constructor
  · intro hsafe
    refine ⟨fun p hp => ?_, hsafe.quiet⟩
    by_contra hnot
    have hv : s.valid p.1 p.2 = false := by simpa using hnot
    rcases mem_uses.1 hp with ⟨b, hb | hb, ht, rfl⟩ | ⟨⟨b, pc⟩, hd, hpc, rfl⟩
    · obtain ⟨n, hn⟩ := List.mem_iff_getElem?.1 hb
      exact not_safe_of_pending hsafe.quiet hn ht hv hsafe
    · obtain ⟨n, hn⟩ := List.mem_iff_getElem?.1 hb
      exact not_safe_of_scheduled hsafe.quiet hn ht hv hsafe
    · obtain ⟨n, hn⟩ := List.mem_iff_getElem?.1 hd
      exact not_safe_of_dispatching hsafe.quiet hn hpc hv hsafe
  · intro hs ls t hls hr
    have hstep : ∀ s l t, Coherent s ∧ Sound s → l.isPort = true → lifetimes.step s l = some t →
        Coherent t ∧ Sound t := by
      intro s l t h hl hst
      obtain ⟨hct, hiff⟩ := step_spec h.1 h.2 hst
      refine ⟨hct, hiff.2 ?_⟩
      cases l with
      | overlapped k r => rfl
      | dispatch k => rfl
      | complete k a => rfl
      | _ => cases hl
    exact (StepSystem.invariant_of_meets hstep hr ((StepSystem.meets_label_iff hr).2 hls) ⟨hc, hs⟩).2.quiet

/-! ## Whole runs -/

theorem coherent_initial : Coherent {} := by
  have hnone : ∀ i m, ({} : State).impl i ≠ some m := by
    intro i m hi
    cases lt_of_impl hi
  exact ⟨fun _ h => absurd h List.not_mem_nil, fun _ h => absurd h List.not_mem_nil,
    fun _ h => absurd h List.not_mem_nil, fun i m _ hi => absurd hi (hnone i m),
    fun i _ m _ _ hi => absurd hi (hnone i m)⟩

theorem sound_initial : Sound {} := ⟨fun _ h => absurd h List.not_mem_nil, rfl⟩

/-- Throughout a run the completion port is kept from following a pointer that leads nowhere, exactly if the
program destroys and moves no implementation that an op, in flight or waiting at the port, still points to. -/
theorem port_safe_iff {ls : List Label} (hr : lifetimes.run {} ls = some s) :
    (∀ pre t, pre <+: ls → lifetimes.run {} pre = some t → t.Safe) ↔
      lifetimes.Meets (fun s l => outlives s l = true) {} ls := by
  refine StepSystem.always_iff_meets (I := Coherent) (fun s l t hc hsafe hst => ?_)
    (fun s l t hc hsafe hst => ?_) hr coherent_initial ((safe_iff_sound coherent_initial).2 sound_initial)
  · exact (step_spec hc ((safe_iff_sound hc).1 hsafe) hst).1
  · obtain ⟨hct, hiff⟩ := step_spec hc ((safe_iff_sound hc).1 hsafe) hst
    exact (safe_iff_sound hct).trans hiff

/-- A connector is destroyed over the wait for its disconnect. -/
def destroyedOverWait : List Label :=
  [.useDevice, .construct, .openConnector 0, .asyncConnect 0 1 true 0 0 success success ndPending,
    .overlapped 0 .ok, .dispatch 0, .complete 0 (.completeConnect none ndSuccess), .complete 0 .run,
    .complete 0 .run, .asyncWaitDisconnect 0 2 ndPending, .moveConstruct 0, .destroy 1]

theorem port_safe_iff_destroyedOverWait :
    ¬ ∀ pre t, pre <+: destroyedOverWait → lifetimes.run {} pre = some t → t.Safe := by
  have hr : (lifetimes.run {} destroyedOverWait).isSome = true := by decide +kernel
  rw [port_safe_iff (StepSystem.run_after hr)]
  decide +kernel

end RdmaOnAsio.Nd.Lifetime
