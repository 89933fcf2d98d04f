import RdmaOnAsio.Ibv.QueuePairs

/-!
# Who holds a native QP, and what it points to

In every run a native QP is held by one queue pair at most, which is bound to the CQ the QP was created
with, and it exists as long as the connector on whose id it was created. Whether the pointers are valid
is up to the program: they are as long as no queue pair is destroyed that a connect op still points to,
and no connector while a queue pair holds its QP.
-/

namespace RdmaOnAsio.Ibv.QueuePairs

variable {s s' : State} {l : Label} {c i j k : Nat} {q : QueuePair} {o : Option QueuePair}

namespace State

/-- The QP of a connector. -/
def qpOf (s : State) (c : Nat) : Option Nat := s.connectors[c]?.bind Connector.qp

/-- The connector has created no QP, and may still do so, now or once it is made. -/
def Early (s : State) (c : Nat) : Prop := s.phase c ≠ some .used ∧ s.phase c ≠ some .gone

end State

/-! ## Objects and connectors after a change -/

theorem lt_of_object (hi : s.object i = some q) : i < s.objects.length := by
  unfold State.object at hi
  by_contra hge
  rw [List.getElem?_eq_none (Nat.le_of_not_lt hge)] at hi
  cases hi

theorem object_setObject (hi : i < s.objects.length) :
    (s.setObject i o).object j = if i = j then o else s.object j := by
  unfold State.object State.setObject
  by_cases hij : i = j
  · subst hij
    simp [hi]
  · rw [if_neg hij]
    simp [List.getElem?_set_ne hij]

theorem object_append (s : State) (o : Option QueuePair) (j : Nat) :
    { s with objects := s.objects ++ [o] }.object j = if j = s.objects.length then o else s.object j := by
  unfold State.object
  by_cases hj : j = s.objects.length
  · subst hj
    simp
  · rw [if_neg hj]
    by_cases hlt : j < s.objects.length
    · simp [List.getElem?_append_left hlt]
    · have hge : s.objects.length + 1 ≤ j := by omega
      simp [List.getElem?_eq_none (show (s.objects ++ [o]).length ≤ j by simpa using hge),
        List.getElem?_eq_none (show s.objects.length ≤ j by omega)]

theorem getElem?_modifyConnector (s : State) (c : Nat) (f : Connector → Connector) (c' : Nat) :
    (s.modifyConnector c f).connectors[c']? =
      if c = c' then (s.connectors[c']?).map f else s.connectors[c']? := by
  unfold State.modifyConnector
  rw [List.getElem?_modify]
  split <;> cases s.connectors[c']? <;> rfl

theorem qpOf_modifyConnector {f : Connector → Connector} {conn : Connector}
    (hc : s.connectors[c]? = some conn) (c' : Nat) :
    (s.modifyConnector c f).qpOf c' = if c = c' then (f conn).qp else s.qpOf c' := by
  unfold State.qpOf
  rw [getElem?_modifyConnector]
  by_cases h : c = c'
  · subst h
    rw [if_pos rfl, if_pos rfl, hc]
    rfl
  · rw [if_neg h, if_neg h]

theorem phase_modifyConnector {f : Connector → Connector} {conn : Connector}
    (hc : s.connectors[c]? = some conn) (c' : Nat) :
    (s.modifyConnector c f).phase c' = if c = c' then some (f conn).phase else s.phase c' := by
  unfold State.phase
  rw [getElem?_modifyConnector]
  by_cases h : c = c'
  · subst h
    rw [if_pos rfl, if_pos rfl, hc]
    rfl
  · rw [if_neg h, if_neg h]

theorem exists_of_phase {p : Phase} (hp : s.phase c = some p) : ∃ conn, s.connectors[c]? = some conn := by
  obtain ⟨conn, hc, -⟩ := Option.map_eq_some_iff.1 hp
  exact ⟨conn, hc⟩

/-- Another phase, and the same QP. -/
theorem qpOf_setPhase (s : State) (c : Nat) (p : Phase) : (s.setPhase c p).qpOf = s.qpOf := by
  funext c'
  unfold State.qpOf State.setPhase
  rw [getElem?_modifyConnector]
  split
  · cases s.connectors[c']? <;> rfl
  · rfl

theorem phase_setPhase {p p' : Phase} (hp : s.phase c = some p) (c' : Nat) :
    (s.setPhase c p').phase c' = if c = c' then some p' else s.phase c' := by
  obtain ⟨conn, hc⟩ := exists_of_phase hp
  exact phase_modifyConnector hc c'

/-! ## The steps -/

/-- The queue pairs that hold a QP are among those that did, at other addresses perhaps. -/
def Inherits (s s' : State) : Prop :=
  ∃ source : Nat → Nat, ∀ i q, s'.object i = some q → q.qp.isSome = true →
    s.object (source i) = some q ∧
      ∀ j q', s'.object j = some q' → q'.qp.isSome = true → source i = source j → i = j

theorem Inherits.refl (h : s'.objects = s.objects) : Inherits s s' := by
  refine ⟨id, fun i q hi _ => ⟨?_, fun _ _ _ _ hij => hij⟩⟩
  rw [State.object, h] at hi
  exact hi

/-- Where every queue pair with a QP stays at its address. -/
theorem Inherits.of_same (h : ∀ i q, s'.object i = some q → q.qp.isSome = true → s.object i = some q) :
    Inherits s s' :=
  ⟨id, fun i q hi hq => ⟨h i q hi hq, fun _ _ _ _ hij => hij⟩⟩

/-- A queue pair has moved from one address to another. -/
theorem Inherits.move (dst src : Nat)
    (h : ∀ k q, s'.object k = some q → q.qp.isSome = true →
      (k = dst ∧ s.object src = some q) ∨ (k ≠ dst ∧ k ≠ src ∧ s.object k = some q)) : Inherits s s' := by
  refine ⟨fun k => if k = dst then src else k, fun k q hk hq => ⟨?_, fun k' q' hk' hq' hsource => ?_⟩⟩
  · rcases h k q hk hq with ⟨rfl, hsrc⟩ | ⟨hne, -, hsame⟩
    · simpa using hsrc
    · simpa [hne] using hsame
  · simp only at hsource
    rcases h k q hk hq with ⟨rfl, -⟩ | ⟨hne, hnsrc, -⟩ <;>
      rcases h k' q' hk' hq' with ⟨rfl, -⟩ | ⟨hne', hnsrc', -⟩
    · rfl
    · rw [if_pos rfl, if_neg hne'] at hsource
      exact absurd hsource.symm hnsrc'
    · rw [if_neg hne, if_pos rfl] at hsource
      exact absurd hsource hnsrc
    · rwa [if_neg hne, if_neg hne'] at hsource

/-- What holds of the QPs in every state. -/
structure Coherent (s : State) : Prop where
  held : ∀ i q k, s.object i = some q → q.qp = some k →
    q.isBound = true ∧ ∃ n, s.qps[k]? = some n ∧ n.attr = q.initAttr
  unique : ∀ i j q q' k, s.object i = some q → s.object j = some q' → q.qp = some k → q'.qp = some k → i = j
  owned : ∀ c k, s.qpOf c = some k → ∃ n, s.qps[k]? = some n ∧ n.connector = c ∧ n.alive = true
  alive : ∀ k n, s.qps[k]? = some n → n.alive = true → s.qpOf n.connector = some k
  early : ∀ (c k : Nat) (n : NativeQp), s.Early c → s.qps[k]? = some n → n.connector ≠ c
  once : ∀ (k k' : Nat) (n n' : NativeQp), s.qps[k]? = some n → s.qps[k']? = some n' →
    n.connector = n'.connector → k = k'

theorem Coherent.initial : Coherent {} := by
  refine ⟨fun i q k h => ?_, fun i j q q' k h => ?_, fun c k h => ?_, fun k n h => ?_, fun c k n _ h => ?_,
    fun k k' n n' h => ?_⟩
  · simp [State.object] at h
  · simp [State.object] at h
  · simp [State.qpOf] at h
  · simp at h
  · simp at h
  · simp at h

theorem Coherent.qpOf_of_early (h : Coherent s) (hearly : s.Early c) : s.qpOf c = none := by
  by_contra hsome
  obtain ⟨k, hk⟩ := Option.ne_none_iff_exists'.1 hsome
  obtain ⟨n, hn, hconn, -⟩ := h.owned c k hk
  exact h.early c k n hearly hn hconn

/-- A connector that is idle, or whose connect op resolves the address. -/
theorem early_of_phase {p : Phase} (hp : s.phase c = some p) (hused : p ≠ .used) (hgone : p ≠ .gone) :
    s.Early c := by
  unfold State.Early
  rw [hp]
  exact ⟨fun h => hused (Option.some.inj h), fun h => hgone (Option.some.inj h)⟩

/-- Steps that destroy nothing. -/
def Label.spares : Label → Bool
  | .destroy _ | .closeConnector _ => false
  | _ => true

/-- What a step can do: to the queue pairs, to the phase of a connector, and to its QP. -/
inductive Moves (s : State) : Label → State → Prop
  | objects {l : Label} (hl : l.spares = true) (os : List (Option QueuePair))
      (hinherits : Inherits s { s with objects := os })
      (hkept : ∀ i, (s.object i).isSome = true → ({ s with objects := os }.object i).isSome = true) :
      Moves s l { s with objects := os }
  | destroy (i : Nat) (q : QueuePair) (hi : s.object i = some q) : Moves s (.destroy i) (s.setObject i none)
  | opened : Moves s .openConnector s.openConnector
  | advance {l : Label} (hl : l.spares = true) (c : Nat) (p p' : Phase) (hp : s.phase c = some p)
      (hearly : s.Early c) (hpointer : ∀ i, p' = .resolving i → (s.object i).isSome = true) :
      Moves s l (s.setPhase c p')
  | create {l : Label} (hl : l.spares = true) (c i : Nat) (p : Phase) (errno : Option UseDevice.Errno)
      (hp : s.phase c = some p) (hearly : s.Early c)
      (hpointer : p = .resolving i ∨ (s.object i).isSome = true) :
      Moves s l ((s.setPhase c .used).createQp c i errno)
  | close (c : Nat) (conn : Connector) (hc : s.connectors[c]? = some conn) :
      Moves s (.closeConnector c)
        { s.modifyConnector c fun _ => ⟨.gone, none⟩ with qps := s.destroyQp conn }

theorem Moves.stay (hl : l.spares = true) : Moves s l s :=
  .objects hl s.objects (.refl rfl) fun _ h => h

/-- `bind` keeps the QP, of which an unbound queue pair has none. -/
theorem qp_bind {target : BindTarget} {q' : QueuePair} (h : q.bind target = .ok q') :
    q.isBound = false ∧ q'.qp = q.qp := by
  unfold QueuePair.bind at h
  split at h
  · cases h
  · next hunbound =>
    refine ⟨by simpa using hunbound, ?_⟩
    cases target with
    | ioContext address registered device cq effective verbsSvc =>
      simp only at h
      split at h
      · cases h
      · obtain rfl := Except.ok.inj h
        rfl
    | completionQueue address device cq effective =>
      obtain rfl := Except.ok.inj h
      rfl

theorem Moves.of_bind {target : BindTarget} (h : Coherent s) (hst : s.step (.bind i target) = some s') :
    Moves s (.bind i target) s' := by
  simp only [State.step] at hst
  split at hst
  · next q hi =>
    split at hst
    · next q' hbind =>
      obtain rfl := Option.some.inj hst
      obtain ⟨hunbound, hqp⟩ := qp_bind hbind
      have hobject := fun j => object_setObject (j := j) (o := some q') (lt_of_object hi)
      -- a queue pair that is not bound has no QP
      have hnone : q'.qp = none := by
        rw [hqp]
        by_contra hsome
        obtain ⟨k, hk⟩ := Option.ne_none_iff_exists'.1 hsome
        rw [(h.held i q k hi hk).1] at hunbound
        cases hunbound
      refine .objects rfl _ (.of_same fun j q'' hj hq'' => ?_) fun j hj => ?_
      · replace hj := (hobject j).symm.trans hj
        split_ifs at hj
        · obtain rfl := Option.some.inj hj
          rw [hnone] at hq''
          cases hq''
        · exact hj
      · refine (congrArg Option.isSome (hobject j)).trans ?_
        split
        · rfl
        · exact hj
    · obtain rfl := Option.some.inj hst
      exact .stay rfl
  · cases hst

theorem Moves.of_moveConstruct (hst : s.step (.moveConstruct j) = some s') : Moves s (.moveConstruct j) s' := by
  simp only [State.step] at hst
  split at hst
  · next q hj =>
    obtain rfl := Option.some.inj hst
    have hobject : ∀ k, { s with objects := s.objects.set j (some {}) ++ [some q] }.object k =
        if k = s.objects.length then some q else if j = k then some {} else s.object k := by
      intro k
      have happ := object_append (s.setObject j (some {})) (some q) k
      rw [object_setObject (lt_of_object hj)] at happ
      rwa [show (s.setObject j (some {})).objects.length = s.objects.length by simp [State.setObject]] at happ
    refine .objects rfl _ (.move s.objects.length j fun k q' hk hq' => ?_) fun k hk => ?_
    · rw [hobject] at hk
      split_ifs at hk with hnew hold
      · obtain rfl := Option.some.inj hk
        exact .inl ⟨hnew, hj⟩
      · obtain rfl := Option.some.inj hk
        cases hq'
      · exact .inr ⟨hnew, Ne.symm hold, hk⟩
    · rw [hobject]
      split_ifs
      · rfl
      · rfl
      · exact hk
  · cases hst

theorem Moves.of_moveAssign (hst : s.step (.moveAssign i j) = some s') : Moves s (.moveAssign i j) s' := by
  simp only [State.step] at hst
  split at hst
  · next q hi hj =>
    split_ifs at hst with hij
    · obtain rfl := Option.some.inj hst
      exact .stay rfl
    · obtain rfl := Option.some.inj hst
      have hobject : ∀ k, ((s.setObject i (some q)).setObject j (some {})).object k =
          if j = k then some {} else if i = k then some q else s.object k := by
        intro k
        rw [object_setObject (by simpa [State.setObject] using lt_of_object hj),
          object_setObject (lt_of_object hi)]
      refine .objects rfl _ (.move i j fun k q' hk hq' => ?_) fun k hk => ?_
      · replace hk := (hobject k).symm.trans hk
        split_ifs at hk with hkj hki
        · obtain rfl := Option.some.inj hk
          cases hq'
        · obtain rfl := Option.some.inj hk
          exact .inl ⟨hki.symm, hj⟩
        · exact .inr ⟨Ne.symm hki, Ne.symm hkj, hk⟩
      · refine (congrArg Option.isSome (hobject k)).trans ?_
        split_ifs
        · rfl
        · rfl
        · exact hk
  · cases hst

theorem Moves.of_step (h : Coherent s) (hst : s.step l = some s') : Moves s l s' := by
  cases l with
  | construct =>
    obtain rfl := Option.some.inj hst
    refine .objects rfl _ (.of_same fun i q hi hq => ?_) fun i hi => ?_
    · rw [object_append] at hi
      split_ifs at hi
      · obtain rfl := Option.some.inj hi
        cases hq
      · exact hi
    · rw [object_append]
      split
      · rfl
      · exact hi
  | bind i target => exact .of_bind h hst
  | moveConstruct j => exact .of_moveConstruct hst
  | moveAssign i j => exact .of_moveAssign hst
  | destroy i =>
    simp only [State.step] at hst
    split at hst
    · next q hi =>
      obtain rfl := Option.some.inj hst
      exact .destroy i q hi
    · cases hst
  | openConnector =>
    obtain rfl := Option.some.inj hst
    exact .opened
  | asyncConnect c i =>
    simp only [State.step] at hst
    split at hst
    · cases hst
    · next q hp hi =>
      obtain rfl := Option.some.inj hst
      refine .advance rfl c .idle _ hp (early_of_phase hp nofun nofun) ?_
      rintro i' ⟨⟩
      rw [hi]
      rfl
    · obtain rfl := Option.some.inj hst
      exact .stay rfl
    · cases hst
  | addrResolved c errno =>
    simp only [State.step] at hst
    split at hst
    · next i hp =>
      obtain rfl := Option.some.inj hst
      exact .create rfl c i _ errno hp (early_of_phase hp nofun nofun) (.inl rfl)
    · cases hst
  | connectEnds c =>
    simp only [State.step] at hst
    split at hst
    · next hp =>
      obtain rfl := Option.some.inj hst
      exact .advance rfl c _ .used hp (early_of_phase hp nofun nofun) nofun
    · cases hst
  | asyncAccept c i errno =>
    simp only [State.step] at hst
    split at hst
    · cases hst
    · next q hp hi =>
      obtain rfl := Option.some.inj hst
      refine .create rfl c i _ errno hp (early_of_phase hp nofun nofun) (.inr ?_)
      rw [hi]
      rfl
    · obtain rfl := Option.some.inj hst
      exact .stay rfl
    · cases hst
  | disconnect c =>
    simp only [State.step] at hst
    split at hst
    · cases hst
    · next hp =>
      obtain rfl := Option.some.inj hst
      exact .advance rfl c .idle .used hp (early_of_phase hp nofun nofun) nofun
    · obtain rfl := Option.some.inj hst
      exact .stay rfl
    · cases hst
  | closeConnector c =>
    simp only [State.step] at hst
    split at hst
    · next conn hc =>
      split_ifs at hst
      obtain rfl := Option.some.inj hst
      exact .close c conn hc
    · cases hst

/-! ## What they do to the QPs -/

/-- What one step does to the QPs and to who has them. -/
inductive Effect (s s' : State) : Prop
  | rearrange (hinherits : Inherits s s') (hqps : s'.qps = s.qps) (hqpOf : s'.qpOf = s.qpOf)
      (hearly : ∀ c, s'.Early c → s.Early c) : Effect s s'
  | create (c i : Nat) (q : QueuePair) (hq : s.object i = some q) (hbound : q.isBound = true)
      (hearly : s.Early c)
      (hobject : ∀ j, s'.object j = if i = j then some { q with qp := some s.qps.length } else s.object j)
      (hqps : s'.qps = s.qps ++ [⟨q.initAttr, c, true⟩])
      (hqpOf : ∀ c', s'.qpOf c' = if c = c' then some s.qps.length else s.qpOf c')
      (hearly' : ∀ c', s'.Early c' → c ≠ c' ∧ s.Early c') : Effect s s'
  | close (c : Nat) (hobjects : s'.objects = s.objects)
      (hqps : ∀ k n, s'.qps[k]? = some n ↔ ∃ n₀, s.qps[k]? = some n₀ ∧
        n = if s.qpOf c = some k then { n₀ with alive := false } else n₀)
      (hqpOf : ∀ c', s'.qpOf c' = if c = c' then none else s.qpOf c')
      (hearly : ∀ c', s'.Early c' → s.Early c') : Effect s s'

theorem Coherent.effect (h : Coherent s) (he : Effect s s') : Coherent s' := by
  cases he with
  | rearrange hinherits hqps hqpOf hearly =>
    obtain ⟨source, hsource⟩ := hinherits
    refine ⟨fun i q k hi hk => ?_, fun i j q q' k hi hj hk hk' => ?_, ?_, ?_, fun c k n hc => ?_, ?_⟩
    · rw [hqps]
      exact h.held (source i) q k (hsource i q hi (by rw [hk]; rfl)).1 hk
    · obtain ⟨hsi, hinj⟩ := hsource i q hi (by rw [hk]; rfl)
      obtain ⟨hsj, -⟩ := hsource j q' hj (by rw [hk']; rfl)
      exact hinj j q' hj (by rw [hk']; rfl) (h.unique _ _ q q' k hsi hsj hk hk')
    · rw [hqps, hqpOf]
      exact h.owned
    · rw [hqps, hqpOf]
      exact h.alive
    · rw [hqps]
      exact h.early c k n (hearly c hc)
    · rw [hqps]
      exact h.once
  | create c i q hq hbound hearly hobject hqps hqpOf hearly' =>
    have hnew : s.qpOf c = none := h.qpOf_of_early hearly
    have hget : ∀ {k n}, s'.qps[k]? = some n →
        s.qps[k]? = some n ∨ k = s.qps.length ∧ n = ⟨q.initAttr, c, true⟩ := by
      intro k n hn
      rw [hqps] at hn
      by_cases hlt : k < s.qps.length
      · rw [List.getElem?_append_left hlt] at hn
        exact .inl hn
      · rw [List.getElem?_append_right (Nat.le_of_not_lt hlt), List.getElem?_singleton] at hn
        split_ifs at hn with h0
        exact .inr ⟨by omega, (Option.some.inj hn).symm⟩
    -- a QP that is held already is not the new one
    have hold : ∀ {j q' k}, s.object j = some q' → q'.qp = some k → k < s.qps.length := by
      intro j q' k hj hk
      obtain ⟨-, n, hn, -⟩ := h.held j q' k hj hk
      exact (List.getElem?_eq_some_iff.1 hn).1
    refine ⟨fun j q' k hj hk => ?_, fun j₁ j₂ q₁ q₂ k hj₁ hj₂ hk₁ hk₂ => ?_, fun c' k hk => ?_,
      fun k n hn halive => ?_, fun c' k n hc' hn => ?_, fun k k' n n' hn hn' hcc => ?_⟩
    · rw [hobject] at hj
      rw [hqps]
      split_ifs at hj with hij
      · obtain rfl := Option.some.inj hj
        obtain rfl := Option.some.inj hk
        exact ⟨hbound, _, List.getElem?_concat_length, rfl⟩
      · obtain ⟨hb, n, hn, hattr⟩ := h.held j q' k hj hk
        exact ⟨hb, n, by rw [List.getElem?_append_left (hold hj hk)]; exact hn, hattr⟩
    · rw [hobject] at hj₁ hj₂
      split_ifs at hj₁ hj₂ with hi₁ hi₂ hi₂
      · rw [← hi₁, ← hi₂]
      · obtain rfl := Option.some.inj hj₁
        obtain rfl := Option.some.inj hk₁
        exact absurd (hold hj₂ hk₂) (Nat.lt_irrefl _)
      · obtain rfl := Option.some.inj hj₂
        obtain rfl := Option.some.inj hk₂
        exact absurd (hold hj₁ hk₁) (Nat.lt_irrefl _)
      · exact h.unique j₁ j₂ q₁ q₂ k hj₁ hj₂ hk₁ hk₂
    · rw [hqpOf] at hk
      rw [hqps]
      split_ifs at hk with hcc
      · obtain rfl := Option.some.inj hk
        exact ⟨_, List.getElem?_concat_length, hcc, rfl⟩
      · obtain ⟨n, hn, hrest⟩ := h.owned c' k hk
        exact ⟨n, by rw [List.getElem?_append_left (List.getElem?_eq_some_iff.1 hn).1]; exact hn, hrest⟩
    · rw [hqpOf]
      rcases hget hn with hn | ⟨rfl, rfl⟩
      · rw [if_neg]
        · exact h.alive k n hn halive
        · intro hcc
          exact h.early c k n hearly hn hcc.symm
      · rw [if_pos rfl]
    · obtain ⟨hne, hc'⟩ := hearly' c' hc'
      rcases hget hn with hn | ⟨-, rfl⟩
      · exact h.early c' k n hc' hn
      · exact hne
    · rcases hget hn with hn | ⟨rfl, rfl⟩ <;> rcases hget hn' with hn' | ⟨rfl, rfl⟩
      · exact h.once k k' n n' hn hn' hcc
      · exact absurd hcc (h.early c k n hearly hn)
      · exact absurd hcc.symm (h.early c k' n' hearly hn')
      · rfl
  | close c hobjects hqps hqpOf hearly =>
    have hobject : ∀ j, s'.object j = s.object j := fun j => by rw [State.object, hobjects]; rfl
    refine ⟨fun j q k hj hk => ?_, fun j₁ j₂ q₁ q₂ k hj₁ hj₂ => ?_, fun c' k hk => ?_,
      fun k n hn halive => ?_, fun c' k n hc' hn => ?_, fun k k' n n' hn hn' hcc => ?_⟩
    · rw [hobject] at hj
      obtain ⟨hb, n, hn, hattr⟩ := h.held j q k hj hk
      refine ⟨hb, _, (hqps k _).2 ⟨n, hn, rfl⟩, ?_⟩
      split <;> exact hattr
    · rw [hobject] at hj₁ hj₂
      exact h.unique j₁ j₂ q₁ q₂ k hj₁ hj₂
    · rw [hqpOf] at hk
      split_ifs at hk with hcc
      obtain ⟨n, hn, hconn, halive⟩ := h.owned c' k hk
      refine ⟨n, (hqps k n).2 ⟨n, hn, ?_⟩, hconn, halive⟩
      rw [if_neg]
      intro hck
      obtain ⟨n', hn', hconn', -⟩ := h.owned c k hck
      rw [hn] at hn'
      obtain rfl := Option.some.inj hn'
      exact hcc (hconn'.symm.trans hconn)
    · obtain ⟨n₀, hn₀, rfl⟩ := (hqps k n).1 hn
      by_cases hck : s.qpOf c = some k
      · rw [if_pos hck] at halive
        cases halive
      · rw [if_neg hck] at halive ⊢
        have howner := h.alive k n₀ hn₀ halive
        rw [hqpOf, if_neg]
        · exact howner
        · intro hcc
          rw [← hcc] at howner
          exact hck howner
    · obtain ⟨n₀, hn₀, rfl⟩ := (hqps k n).1 hn
      have hne := h.early c' k n₀ (hearly c' hc') hn₀
      split <;> exact hne
    · obtain ⟨n₀, hn₀, rfl⟩ := (hqps k n).1 hn
      obtain ⟨n₀', hn₀', rfl⟩ := (hqps k' n').1 hn'
      refine h.once k k' n₀ n₀' hn₀ hn₀' ?_
      split at hcc <;> split at hcc <;> exact hcc

/-! ## Every step has one of these effects -/

theorem qpOf_openConnector (s : State) : s.openConnector.qpOf = s.qpOf := by
  funext c
  unfold State.qpOf State.openConnector
  rcases Nat.lt_trichotomy c s.connectors.length with hlt | rfl | hgt
  · simp [List.getElem?_append_left hlt]
  · simp
  · have hge : (s.connectors ++ [({} : Connector)]).length ≤ c := by
      rw [List.length_append, List.length_singleton]
      omega
    rw [List.getElem?_eq_none hge, List.getElem?_eq_none (Nat.le_of_lt hgt)]

theorem early_openConnector (h : s.openConnector.Early c) : s.Early c := by
  by_cases hlt : c < s.connectors.length
  · unfold State.Early State.phase at h ⊢
    rwa [State.openConnector, List.getElem?_append_left hlt] at h
  · have hnone : s.phase c = none := by
      rw [State.phase, List.getElem?_eq_none (Nat.le_of_not_lt hlt)]
      rfl
    unfold State.Early
    rw [hnone]
    exact ⟨nofun, nofun⟩

/-- A connector that goes on to a phase in which it can create a QP could do so before. -/
theorem early_setPhase {p p' : Phase} (hp : s.phase c = some p)
    (hearly : p' ≠ .used → p' ≠ .gone → s.Early c) (h : (s.setPhase c p').Early j) : s.Early j := by
  unfold State.Early at h
  rw [phase_setPhase hp] at h
  split_ifs at h with hcj
  · subst hcj
    exact hearly (fun hp' => h.1 (congrArg some hp')) fun hp' => h.2 (congrArg some hp')
  · exact h

/-- A step that leaves the queue pairs alone, and the QPs of the connectors. -/
theorem Effect.of_connectors (hobjects : s'.objects = s.objects) (hqps : s'.qps = s.qps)
    (hqpOf : s'.qpOf = s.qpOf) (hearly : ∀ c, s'.Early c → s.Early c) : Effect s s' :=
  .rearrange (.refl hobjects) hqps hqpOf hearly

/-- A step that leaves the connectors alone, and the QPs. -/
theorem Effect.of_objects (hinherits : Inherits s s') (hconn : s'.connectors = s.connectors)
    (hqps : s'.qps = s.qps) : Effect s s' := by
  refine .rearrange hinherits hqps ?_ fun c hc => ?_
  · funext c
    rw [State.qpOf, hconn]
    rfl
  · rw [State.Early, State.phase, hconn] at hc
    exact hc

/-- A connector goes on to another phase. -/
theorem Effect.of_setPhase {p p' : Phase} (hp : s.phase c = some p)
    (hearly : s.Early c) : Effect s (s.setPhase c p') :=
  .of_connectors rfl rfl (qpOf_setPhase s c p') fun _ h => early_setPhase hp (fun _ _ => hearly) h

/-- `create_qp` on the id of a connector that can create a QP, for the only time. -/
theorem Effect.of_createQp {p : Phase} {errno : Option UseDevice.Errno} (hp : s.phase c = some p)
    (hearly : s.Early c) : Effect s ((s.setPhase c .used).createQp c i errno) := by
  have hnothing : Effect s (s.setPhase c .used) := .of_setPhase hp hearly
  have hlater : ∀ c', (s.setPhase c .used).Early c' → c ≠ c' ∧ s.Early c' := by
    intro c' hc'
    refine ⟨?_, early_setPhase hp (fun _ _ => hearly) hc'⟩
    rintro rfl
    unfold State.Early at hc'
    rw [phase_setPhase hp, if_pos rfl] at hc'
    exact hc'.1 rfl
  unfold State.createQp
  cases hq : (s.setPhase c .used).object i with
  | none =>
    exact .of_connectors rfl rfl (qpOf_setPhase s c .used) fun c' h => (hlater c' h).2
  | some q =>
    simp only
    split_ifs with hcan
    · exact hnothing
    · cases errno with
      | some errno => exact hnothing
      | none =>
        have hbound : q.isBound = true := by
          rw [QueuePair.isBound, ← Option.not_isNone, Bool.not_eq_true']
          simp only [Bool.or_eq_true, not_or] at hcan
          exact Bool.eq_false_iff.2 hcan.2
        have hused : (s.setPhase c .used).phase c = some .used := by rw [phase_setPhase hp, if_pos rfl]
        obtain ⟨conn, hconn⟩ := exists_of_phase hused
        refine .create c i q hq hbound hearly (fun j => ?_) rfl (fun c' => ?_) fun c' hc' => ?_
        · exact object_setObject (s := s.setPhase c .used) (lt_of_object hq)
        · have hqpOf := qpOf_modifyConnector (s := (s.setPhase c .used).setObject i
            (some { q with qp := some s.qps.length })) (f := fun conn => { conn with qp := some s.qps.length })
            hconn c'
          refine hqpOf.trans ?_
          split_ifs with hcc
          · rfl
          · exact congrFun (qpOf_setPhase s c .used) c'
        · refine hlater c' ?_
          have hphase := phase_modifyConnector (s := (s.setPhase c .used).setObject i
            (some { q with qp := some s.qps.length })) (f := fun conn => { conn with qp := some s.qps.length })
            hconn c'
          have hsame : ((s.setPhase c .used).addQp c i q).phase c' = (s.setPhase c .used).phase c' := by
            refine hphase.trans ?_
            split_ifs with hcc
            · subst hcc
              rw [State.phase, hconn]
              rfl
            · rfl
          unfold State.Early at hc' ⊢
          rwa [hsame] at hc'

theorem getElem?_destroyQp {conn : Connector} {n : NativeQp} :
    (s.destroyQp conn)[k]? = some n ↔
      ∃ n₀, s.qps[k]? = some n₀ ∧ n = if conn.qp = some k then { n₀ with alive := false } else n₀ := by
  unfold State.destroyQp
  cases conn.qp with
  | none => simp
  | some k' =>
    simp only [List.getElem?_modify, Option.some.injEq, Option.map_eq_map, Option.map_eq_some_iff]
    constructor
    · rintro ⟨n₀, hn₀, rfl⟩
      exact ⟨n₀, hn₀, by split <;> rfl⟩
    · rintro ⟨n₀, hn₀, rfl⟩
      exact ⟨n₀, hn₀, by split <;> rfl⟩

theorem Moves.effect (h : Moves s l s') : Effect s s' := by
  cases h with
  | objects hl os hinherits hkept => exact .of_objects hinherits rfl rfl
  | destroy i q hi =>
    refine .of_objects (.of_same fun j q' hj _ => ?_) rfl rfl
    rw [object_setObject (lt_of_object hi)] at hj
    split_ifs at hj
    exact hj
  | opened => exact .of_connectors rfl rfl (qpOf_openConnector s) fun c hc => early_openConnector hc
  | advance hl c p p' hp hearly hpointer => exact .of_setPhase hp hearly
  | create hl c i p errno hp hearly hpointer => exact .of_createQp hp hearly
  | close c conn hc =>
  have hqpOf := qpOf_modifyConnector (f := fun _ => (⟨.gone, none⟩ : Connector)) hc
  refine .close c rfl (fun k n => ?_) hqpOf fun c' hc' => ?_
  · have hown : s.qpOf c = conn.qp := by
      rw [State.qpOf, hc]
      rfl
    rw [hown]
    exact getElem?_destroyQp
  · have hphase := phase_modifyConnector (f := fun _ => (⟨.gone, none⟩ : Connector)) hc c'
    by_cases hcc : c = c'
    · rw [if_pos hcc] at hphase
      exact absurd hphase hc'.2
    · rw [if_neg hcc] at hphase
      refine ⟨fun h => hc'.1 (hphase.trans h), fun h => hc'.2 (hphase.trans h)⟩

theorem Coherent.run {ls : List Label} (hr : queuePairs.run {} ls = some s) : Coherent s :=
  StepSystem.invariant (M := queuePairs) (fun _ _ _ h hst => h.effect (Moves.of_step h hst).effect) hr .initial

/-- In every run: a queue pair with a QP is bound, to the CQ and under the configuration that the QP was
created with; no other has that QP; the QP exists exactly while it is the one of its connector; and a
connector creates one QP at most. -/
theorem qp_custody {ls : List Label} (hr : queuePairs.run {} ls = some s) :
    (∀ i q k, s.object i = some q → q.qp = some k →
        q.isBound = true ∧ ∃ n, s.qps[k]? = some n ∧ n.attr = q.initAttr) ∧
      (∀ i j q q' k, s.object i = some q → s.object j = some q' → q.qp = some k → q'.qp = some k → i = j) ∧
      (∀ (k : Nat) (n : NativeQp), s.qps[k]? = some n → (n.alive = true ↔ s.qpOf n.connector = some k)) ∧
      ∀ (k k' : Nat) (n n' : NativeQp), s.qps[k]? = some n → s.qps[k']? = some n' →
        n.connector = n'.connector → k = k' := by
  have h := Coherent.run hr
  refine ⟨h.held, h.unique, fun k n hn => ⟨h.alive k n hn, fun howner => ?_⟩, h.once⟩
  obtain ⟨n', hn', -, halive⟩ := h.owned _ k howner
  rw [hn] at hn'
  obtain rfl := Option.some.inj hn'
  exact halive

/-- A queue pair that is moved once its connector has created a QP for it. -/
def connectedAndMoved : List Label :=
  [.construct, .bind 0 (.completionQueue 7 true (some 3) {}), .openConnector, .asyncConnect 0 0,
    .addrResolved 0 none, .moveConstruct 0]

/-- The QP has the CQ that the queue pair was bound to before it was moved. -/
theorem qp_custody_moved :
    ∃ n, (queuePairs.after {} connectedAndMoved).qps[0]? = some n ∧ n.attr.sendCq = some 3 := by
  have hr : (queuePairs.run {} connectedAndMoved).isSome = true := by decide +kernel
  obtain ⟨-, n, hn, hattr⟩ := (qp_custody (StepSystem.run_after hr)).1 1
    { qp := some 0, cq := some 3, device := true, pollCq := some 7 } 0 (by decide +kernel) rfl
  refine ⟨n, hn, ?_⟩
  rw [hattr]
  rfl

/-! ## The pointers -/

/-- Every pointer is to something that exists, and no connect op has used one that was not. -/
structure Sound (s : State) : Prop where
  pointers : ∀ c i, s.phase c = some (.resolving i) → (s.object i).isSome = true
  handles : ∀ i q k, s.object i = some q → q.qp = some k → ∃ n, s.qps[k]? = some n ∧ n.alive = true
  noFault : s.fault = false

/-- No queue pair is destroyed to which a connect op points, and no connector while a queue pair has its
QP. -/
def KeepsPointers (s : State) : Label → Prop
  | .destroy i => ∀ conn ∈ s.connectors, conn.phase ≠ .resolving i
  | .closeConnector c => ∀ k ∈ s.qpOf c, s.holds k = false
  | _ => True

instance (s : State) : ∀ l, Decidable (KeepsPointers s l)
  | .destroy i => inferInstanceAs (Decidable (∀ conn ∈ s.connectors, conn.phase ≠ .resolving i))
  | .closeConnector c => inferInstanceAs (Decidable (∀ k ∈ s.qpOf c, s.holds k = false))
  | .construct | .bind _ _ | .moveConstruct _ | .moveAssign _ _ | .openConnector | .asyncConnect _ _
  | .addrResolved _ _ | .connectEnds _ | .asyncAccept _ _ _ | .disconnect _ => .isTrue trivial

theorem keepsPointers_destroy : KeepsPointers s (.destroy i) ↔ ∀ c, s.phase c ≠ some (.resolving i) := by
  constructor
  · intro h c hc
    obtain ⟨conn, hconn, hphase⟩ := Option.map_eq_some_iff.1 hc
    exact h conn (List.mem_of_getElem? hconn) hphase
  · intro h conn hconn hphase
    obtain ⟨c, hc⟩ := List.mem_iff_getElem?.1 hconn
    refine h c ?_
    rw [State.phase, hc, ← hphase]
    rfl

theorem holds_iff : s.holds k = true ↔ ∃ i q, s.object i = some q ∧ q.qp = some k := by
  unfold State.holds State.object
  rw [List.any_eq_true]
  constructor
  · rintro ⟨o, ho, hq⟩
    obtain ⟨i, hi⟩ := List.mem_iff_getElem?.1 ho
    obtain ⟨q, rfl, hq⟩ := (Option.any_eq_true _ _).1 hq
    exact ⟨i, q, by rw [hi]; rfl, beq_iff_eq.1 hq⟩
  · rintro ⟨i, q, hi, hq⟩
    have hi' := Option.join_eq_some_iff.1 hi
    exact ⟨some q, List.mem_of_getElem? hi', (Option.any_eq_true _ _).2 ⟨q, rfl, beq_iff_eq.2 hq⟩⟩

theorem KeepsPointers.of_spares (hl : l.spares = true) : KeepsPointers s l := by
  cases l with
  | destroy i => cases hl
  | closeConnector c => cases hl
  | _ => trivial

theorem object_createQp {errno : Option UseDevice.Errno} (hj : (s.object j).isSome = true) :
    ((s.createQp c i errno).object j).isSome = true := by
  unfold State.createQp
  cases hi : s.object i with
  | none => exact hj
  | some q =>
    simp only
    split_ifs
    · exact hj
    · cases errno with
      | some errno => exact hj
      | none =>
        refine (congrArg Option.isSome (object_setObject (lt_of_object hi))).trans ?_
        split
        · rfl
        · exact hj

theorem phase_createQp {errno : Option UseDevice.Errno} (c' : Nat) :
    (s.createQp c i errno).phase c' = s.phase c' := by
  unfold State.createQp
  cases s.object i with
  | none => rfl
  | some q =>
    simp only
    split_ifs
    · rfl
    · cases errno with
      | some errno => rfl
      | none =>
        show ((s.setObject i _).modifyConnector c _).phase c' = s.phase c'
        unfold State.phase
        rw [getElem?_modifyConnector]
        split
        · show Option.map _ (Option.map _ s.connectors[c']?) = _
          cases s.connectors[c']? <;> rfl
        · rfl

theorem fault_createQp {errno : Option UseDevice.Errno} (hi : (s.object i).isSome = true) :
    (s.createQp c i errno).fault = s.fault := by
  unfold State.createQp
  cases h : s.object i with
  | none =>
    rw [h] at hi
    cases hi
  | some q =>
    simp only
    split_ifs
    · rfl
    · cases errno <;> rfl

theorem phase_openConnector {i : Nat} (h : s.openConnector.phase c = some (.resolving i)) :
    s.phase c = some (.resolving i) := by
  unfold State.phase State.openConnector at h
  rw [List.getElem?_append] at h
  split at h
  · exact h
  · rw [List.getElem?_singleton] at h
    split_ifs at h
    · cases Option.some.inj h
    · cases h

/-- The QPs that are held stay alive where none is destroyed. -/
theorem Sound.handles_effect (h : Sound s) (he : Effect s s') (hqps : s.qps <+: s'.qps) (hi : s'.object i = some q)
    (hk : q.qp = some k) : ∃ n, s'.qps[k]? = some n ∧ n.alive = true := by
  have hgrow : ∀ {k : Nat} {n : NativeQp}, s.qps[k]? = some n → s'.qps[k]? = some n := by
    intro k n hn
    obtain ⟨rest, hrest⟩ := hqps
    rw [← hrest, List.getElem?_append_left (List.getElem?_eq_some_iff.1 hn).1]
    exact hn
  cases he with
  | rearrange hinherits _ _ _ =>
    obtain ⟨source, hsource⟩ := hinherits
    obtain ⟨n, hn, halive⟩ := h.handles (source i) q k (hsource i q hi (by rw [hk]; rfl)).1 hk
    exact ⟨n, hgrow hn, halive⟩
  | create c j q' _ _ _ hobject hqps' _ _ =>
    rw [hobject] at hi
    split_ifs at hi
    · obtain rfl := Option.some.inj hi
      obtain rfl := Option.some.inj hk
      rw [hqps']
      exact ⟨_, List.getElem?_concat_length, rfl⟩
    · obtain ⟨n, hn, halive⟩ := h.handles i q k hi hk
      exact ⟨n, hgrow hn, halive⟩
  | close c hobjects _ _ _ =>
    rw [State.object, hobjects] at hi
    obtain ⟨n, hn, halive⟩ := h.handles i q k hi hk
    exact ⟨n, hgrow hn, halive⟩

theorem qps_createQp {errno : Option UseDevice.Errno} : s.qps <+: (s.createQp c i errno).qps := by
  unfold State.createQp
  cases s.object i with
  | none => exact List.prefix_rfl
  | some q =>
    simp only
    split_ifs
    · exact List.prefix_rfl
    · cases errno with
      | some errno => exact List.prefix_rfl
      | none => exact List.prefix_append _ _

theorem Sound.step (h : Sound s) (hm : Moves s l s') : Sound s' ↔ KeepsPointers s l := by
  cases id hm with
  | objects hl os hinherits hkept =>
    refine iff_of_true ⟨fun c i hc => hkept i (h.pointers c i hc), fun i q k hi hk => ?_, h.noFault⟩
      (.of_spares hl)
    exact h.handles_effect hm.effect List.prefix_rfl hi hk
  | destroy i q hi =>
    have hobject := fun j => object_setObject (j := j) (o := none) (lt_of_object hi)
    constructor
    · intro h'
      refine keepsPointers_destroy.2 fun c hc => ?_
      have hsome := h'.pointers c i hc
      rw [hobject, if_pos rfl] at hsome
      cases hsome
    · intro hkeep
      refine ⟨fun c j hc => ?_, fun j q' k hj hk => h.handles_effect hm.effect List.prefix_rfl hj hk, h.noFault⟩
      rw [hobject, if_neg]
      · exact h.pointers c j hc
      · rintro rfl
        exact keepsPointers_destroy.1 hkeep c hc
  | opened =>
    refine iff_of_true ⟨fun c i hc => h.pointers c i (phase_openConnector hc), fun i q k hi hk => ?_, h.noFault⟩
      (.of_spares rfl)
    exact h.handles_effect hm.effect List.prefix_rfl hi hk
  | advance hl c p p' hp hearly hpointer =>
    refine iff_of_true ⟨fun c' i hc => ?_, fun i q k hi hk => ?_, h.noFault⟩ (.of_spares hl)
    · rw [phase_setPhase hp] at hc
      split_ifs at hc
      · exact hpointer i (Option.some.inj hc)
      · exact h.pointers c' i hc
    · exact h.handles_effect hm.effect List.prefix_rfl hi hk
  | create hl c i p errno hp hearly hpointer =>
    have hi : (s.object i).isSome = true := by
      rcases hpointer with rfl | hi
      · exact h.pointers c i hp
      · exact hi
    refine iff_of_true ⟨fun c' j hc => ?_, fun j q k hj hk => ?_, ?_⟩ (.of_spares hl)
    · rw [phase_createQp, phase_setPhase hp] at hc
      split_ifs at hc
      · cases Option.some.inj hc
      · exact object_createQp (s := s.setPhase c .used) (h.pointers c' j hc)
    · exact h.handles_effect hm.effect (qps_createQp (s := s.setPhase c .used)) hj hk
    · exact (fault_createQp (s := s.setPhase c .used) hi).trans h.noFault
  | close c conn hc =>
    have hown : s.qpOf c = conn.qp := by
      rw [State.qpOf, hc]
      rfl
    constructor
    · intro h' k hqp
      refine Bool.eq_false_iff.2 fun hholds => ?_
      obtain ⟨i, q, hi, hk⟩ := holds_iff.1 hholds
      obtain ⟨n, hn, halive⟩ := h'.handles i q k hi hk
      obtain ⟨n₀, -, rfl⟩ := getElem?_destroyQp.1 hn
      rw [if_pos (hown.symm.trans hqp)] at halive
      cases halive
    · intro hkeep
      refine ⟨fun c' i hc' => ?_, fun i q k hi hk => ?_, h.noFault⟩
      · have hphase := phase_modifyConnector (f := fun _ => (⟨.gone, none⟩ : Connector)) hc c'
        replace hc' := hphase.symm.trans hc'
        split_ifs at hc'
        · cases Option.some.inj hc'
        · exact h.pointers c' i hc'
      · obtain ⟨n, hn, halive⟩ := h.handles i q k hi hk
        refine ⟨n, getElem?_destroyQp.2 ⟨n, hn, ?_⟩, halive⟩
        rw [if_neg]
        intro hconn
        have hfree := hkeep k (hown.trans hconn)
        rw [holds_iff (s := s) |>.2 ⟨i, q, hi, hk⟩] at hfree
        cases hfree

theorem Sound.initial : Sound {} := by
  refine ⟨fun c i h => ?_, fun i q k h => ?_, rfl⟩
  · simp [State.phase] at h
  · simp [State.object] at h

/-- The pointers between queue pairs and connectors are valid at every moment of a run exactly if the
program destroys no queue pair whose address a connect op still has, and no connector whose QP a queue
pair still has. -/
theorem pointers_valid_iff {ls : List Label} (hr : queuePairs.run {} ls = some s) :
    (∀ pre t, pre <+: ls → queuePairs.run {} pre = some t → Sound t) ↔ queuePairs.Meets KeepsPointers {} ls :=
  StepSystem.always_iff_meets (M := queuePairs) (I := Coherent)
    (fun _ _ _ h _ hst => h.effect (Moves.of_step h hst).effect)
    (fun _ _ _ h hs hst => hs.step (.of_step h hst)) hr .initial .initial

/-- A queue pair that is destroyed while the address of the peer is resolved. -/
def destroyedTooSoon : List Label :=
  [.construct, .bind 0 (.completionQueue 7 true (some 3) {}), .openConnector, .asyncConnect 0 0, .destroy 0,
    .addrResolved 0 none]

theorem pointers_valid_iff_destroyedTooSoon :
    ¬ ∀ pre t, pre <+: destroyedTooSoon → queuePairs.run {} pre = some t → Sound t := by
  have hr : (queuePairs.run {} destroyedTooSoon).isSome = true := by decide +kernel
  rw [pointers_valid_iff (StepSystem.run_after hr)]
  decide +kernel

end RdmaOnAsio.Ibv.QueuePairs
