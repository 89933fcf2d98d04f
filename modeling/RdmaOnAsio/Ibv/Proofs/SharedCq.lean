import Mathlib.Data.List.Nodup
import RdmaOnAsio.Lts.Lists
import RdmaOnAsio.Ibv.SharedCq

/-!
# Queue pairs go before their completion queue

The native calls of a run are in order if no CQ is destroyed before a QP on it, and no completion
channel before its CQ. That is so exactly if, whenever an `io_context` is destroyed, every connector
that has a QP on its CQ lives there and its service was created after `ibv_io_completion_service`.
-/

namespace RdmaOnAsio.Ibv.SharedCq

open SharedCq.NativeCall

variable {s s' t : State} {log w : List NativeCall} {n : NativeCall} {c k q : Nat} {x y : Connector}
  {svc : Service} {svcs : List Service} {l : Label} {p : Connector → Bool}

/-! ## The order of the native calls -/

/-- A native call is in order after the calls of `log`. -/
def Allowed (log : List NativeCall) : NativeCall → Prop
  | .createQp _ k => .destroyCq k ∉ log
  | .destroyCq k => ∀ q, .createQp q k ∈ log → .destroyQp q ∈ log
  | .createCq k => .destroyCompChannel k ∉ log
  | .destroyCompChannel k => .createCq k ∈ log → .destroyCq k ∈ log
  | .createCompChannel _ | .destroyQp _ => True

/-- Every call is in order: a CQ is destroyed after all QPs that are ever created on it, and a
completion channel after its CQ. -/
def Ordered (log : List NativeCall) : Prop := ∀ pre n, pre ++ [n] <+: log → Allowed pre n

theorem ordered_nil : Ordered [] := by
  intro pre n h
  have hlen := h.length_le
  simp at hlen

theorem ordered_concat : Ordered (log ++ [n]) ↔ Ordered log ∧ Allowed log n := by
  constructor
  · intro h
    exact ⟨fun pre m hpre => h pre m (hpre.trans (List.prefix_append ..)),
      h log n (List.prefix_refl _)⟩
  · rintro ⟨h, hn⟩ pre m hpre
    rcases List.prefix_concat_iff.1 hpre with heq | hpre
    · obtain ⟨rfl, hm⟩ := List.append_inj' heq rfl
      rwa [List.head_eq_of_cons_eq hm]
    · exact h pre m hpre

theorem Ordered.of_append (h : Ordered (log ++ w)) : Ordered log :=
  fun pre n hpre => h pre n (hpre.trans (List.prefix_append ..))

/-- QPs can be destroyed at any time. -/
theorem Ordered.append_destroyQp (h : Ordered log) (qs : List (Nat × Nat)) :
    Ordered (log ++ qs.map fun q => .destroyQp q.1) := by
  induction qs generalizing log with
  | nil => simpa using h
  | cons q qs ih =>
    rw [List.map_cons, List.append_cons]
    exact ih (ordered_concat.2 ⟨h, trivial⟩)

/-! ## Who holds which QP -/

/-- Every QP that was created is held by one connector or was destroyed; the numbers in use are below the
counters; and the CQ of an `io_context` belongs to a service it has created. -/
structure Sound (s : State) : Prop where
  ordered : Ordered s.log
  accounted : ∀ q k, .createQp q k ∈ s.log →
    .destroyQp q ∈ s.log ∨ ∃ x ∈ s.connectors, x.qp = some (q, k)
  held : ∀ x ∈ s.connectors, ∀ q k, x.qp = some (q, k) →
    .createQp q k ∈ s.log ∧ .destroyQp q ∉ s.log
  unique : ∀ x ∈ s.connectors, ∀ y ∈ s.connectors, ∀ q k k', x.qp = some (q, k) →
    y.qp = some (q, k') → x = y
  ids : (s.connectors.map Connector.id).Nodup
  createdQp : ∀ q k, .createQp q k ∈ s.log → q < s.nextQp ∧ k < s.nextCq
  destroyedQp : ∀ q, .destroyQp q ∈ s.log → q < s.nextQp
  createdCq : ∀ k, .createCq k ∈ s.log → k < s.nextCq
  destroyedChannel : ∀ k, .destroyCompChannel k ∈ s.log → k < s.nextCq
  cqs : ∀ c k, (s.contexts c).cq = some k →
    k < s.nextCq ∧ .ioCompletion ∈ (s.contexts c).services
  bound : ∀ o k, s.bound o = some k → k < s.nextCq

theorem Sound.fresh : Sound {} where
  ordered := ordered_nil
  accounted _ _ h := by cases h
  held _ h := by cases h
  unique _ h := by cases h
  ids := List.nodup_nil
  createdQp _ _ h := by cases h
  destroyedQp _ h := by cases h
  createdCq _ h := by cases h
  destroyedChannel _ h := by cases h
  cqs _ _ h := by cases h
  bound _ _ h := by cases h

/-- A step that changes the `io_context`s or the queue pair objects only. -/
theorem Sound.frame (h : Sound s) (hconnectors : s'.connectors = s.connectors)
    (hlog : s'.log = s.log) (hqp : s'.nextQp = s.nextQp) (hcq : s'.nextCq = s.nextCq)
    (hcqs : ∀ c k, (s'.contexts c).cq = some k →
      k < s.nextCq ∧ .ioCompletion ∈ (s'.contexts c).services)
    (hbound : ∀ o k, s'.bound o = some k → k < s.nextCq) : Sound s' where
  ordered := hlog ▸ h.ordered
  accounted := by
    rw [hlog, hconnectors]
    exact h.accounted
  held := by
    rw [hlog, hconnectors]
    exact h.held
  unique := hconnectors ▸ h.unique
  ids := hconnectors ▸ h.ids
  createdQp := by
    rw [hlog, hqp, hcq]
    exact h.createdQp
  destroyedQp := by
    rw [hlog, hqp]
    exact h.destroyedQp
  createdCq := by
    rw [hlog, hcq]
    exact h.createdCq
  destroyedChannel := by
    rw [hlog, hcq]
    exact h.destroyedChannel
  cqs := by
    rw [hcq]
    exact hcqs
  bound := by
    rw [hcq]
    exact hbound

/-- An `io_context` changes and keeps its CQ and its services. -/
theorem Sound.setContext (h : Sound s) (c : Nat) {f : Context → Context}
    (hf : ∀ k, (f (s.contexts c)).cq = some k →
      k < s.nextCq ∧ .ioCompletion ∈ (f (s.contexts c)).services) : Sound (s.setContext c f) := by
  refine h.frame rfl rfl rfl rfl (fun d k hk => ?_) h.bound
  by_cases hd : d = c
  · subst hd
    simp only [State.setContext, Function.update_self] at hk ⊢
    exact hf k hk
  · simp only [State.setContext, Function.update_of_ne hd] at hk ⊢
    exact h.cqs d k hk

theorem Sound.useService (h : Sound s) (c : Nat) (svc : Service) : Sound (s.useService c svc) := by
  refine h.setContext c fun k hk => ?_
  by_cases hmem : svc ∈ (s.contexts c).services
  · rw [if_pos hmem] at hk ⊢
    exact h.cqs c k hk
  · rw [if_neg hmem] at hk ⊢
    obtain ⟨hlt, hio⟩ := h.cqs c k hk
    exact ⟨hlt, List.mem_cons_of_mem _ hio⟩

/-- After `use_service` the service is there. -/
theorem mem_services_useService (s : State) (c : Nat) (svc : Service) :
    svc ∈ ((s.useService c svc).contexts c).services := by
  simp only [State.useService, State.setContext, Function.update_self]
  by_cases hmem : svc ∈ (s.contexts c).services
  · rwa [if_pos hmem]
  · rw [if_neg hmem]
    exact List.mem_cons_self

/-- A native call that neither makes nor destroys a QP. -/
theorem Sound.call (h : Sound s) (hn : Allowed s.log n) (hnew : ∀ q k, n ≠ .createQp q k)
    (hold : ∀ q, n ≠ .destroyQp q)
    (hlt : ∀ k, n = .createCq k ∨ n = .destroyCompChannel k → k < s.nextCq) : Sound (s.call n) := by
  have hmem : ∀ {m}, m ∈ (s.call n).log ↔ m ∈ s.log ∨ m = n := fun {m} => by
    simp [State.call]
  refine ⟨ordered_concat.2 ⟨h.ordered, hn⟩, fun q k hq => ?_, fun x hx q k hq => ?_, h.unique, h.ids,
    fun q k hq => ?_, fun q hq => ?_, fun k hk => ?_, fun k hk => ?_, h.cqs, h.bound⟩
  · rcases hmem.1 hq with hq | hq
    · rcases h.accounted q k hq with hd | hx
      · exact .inl (hmem.2 (.inl hd))
      · exact .inr hx
    · exact absurd hq.symm (hnew q k)
  · obtain ⟨hc, hd⟩ := h.held x hx q k hq
    refine ⟨hmem.2 (.inl hc), fun hd' => ?_⟩
    rcases hmem.1 hd' with hd' | hd'
    · exact hd hd'
    · exact hold q hd'.symm
  · rcases hmem.1 hq with hq | hq
    · exact h.createdQp q k hq
    · exact absurd hq.symm (hnew q k)
  · rcases hmem.1 hq with hq | hq
    · exact h.destroyedQp q hq
    · exact absurd hq.symm (hold q)
  · rcases hmem.1 hk with hk | hk
    · exact h.createdCq k hk
    · exact hlt k (.inl hk.symm)
  · rcases hmem.1 hk with hk | hk
    · exact h.destroyedChannel k hk
    · exact hlt k (.inr hk.symm)

theorem Sound.nextCq (h : Sound s) : Sound { s with nextCq := s.nextCq + 1 } where
  ordered := h.ordered
  accounted := h.accounted
  held := h.held
  unique := h.unique
  ids := h.ids
  createdQp q k hq := ⟨(h.createdQp q k hq).1, Nat.lt_succ_of_lt (h.createdQp q k hq).2⟩
  destroyedQp := h.destroyedQp
  createdCq k hk := Nat.lt_succ_of_lt (h.createdCq k hk)
  destroyedChannel k hk := Nat.lt_succ_of_lt (h.destroyedChannel k hk)
  cqs c k hk := ⟨Nat.lt_succ_of_lt (h.cqs c k hk).1, (h.cqs c k hk).2⟩
  bound o k hk := Nat.lt_succ_of_lt (h.bound o k hk)

/-! ## Making a CQ -/

theorem mem_call {m : NativeCall} : m ∈ (s.call n).log ↔ m ∈ s.log ∨ m = n := by
  simp [State.call]

theorem Sound.createCompChannel (h : Sound s) :
    Sound (State.call { s with nextCq := s.nextCq + 1 } (.createCompChannel s.nextCq)) :=
  h.nextCq.call (n := .createCompChannel s.nextCq) trivial nofun nofun nofun

/-- A completion channel and a CQ with a new number. -/
theorem Sound.createCq (h : Sound s) :
    Sound ((State.call { s with nextCq := s.nextCq + 1 } (.createCompChannel s.nextCq)).call
      (.createCq s.nextCq)) := by
  refine h.createCompChannel.call ?_ nofun nofun fun k hk => ?_
  · intro hmem
    rcases mem_call.1 hmem with hmem | hmem
    · exact Nat.lt_irrefl _ (h.destroyedChannel _ hmem)
    · cases hmem
  · rcases hk with hk | hk
    · cases hk
      exact Nat.lt_succ_self _
    · cases hk

theorem Sound.initializeCq (h : Sound s) (hio : .ioCompletion ∈ (s.contexts c).services)
    (channel cq register : NativeResult) : Sound (s.initializeCq c channel cq register).1 := by
  unfold State.initializeCq
  by_cases hcq : (s.contexts c).cq.isSome = true
  · rw [if_pos hcq]
    exact h
  · rw [if_neg hcq]
    cases channel with
    | fail errno => exact h.nextCq
    | ok =>
      cases cq with
      | fail errno =>
        refine h.createCompChannel.call ?_ nofun nofun fun k hk => ?_
        · intro hmem
          rcases mem_call.1 hmem with hmem | hmem
          · exact absurd (h.createdCq _ hmem) (Nat.lt_irrefl _)
          · cases hmem
        · rcases hk with hk | hk
          · cases hk
          · cases hk
            exact Nat.lt_succ_self _
      | ok =>
        cases register with
        | fail errno =>
          have hnone : Allowed ((State.call { s with nextCq := s.nextCq + 1 }
              (.createCompChannel s.nextCq)).call (.createCq s.nextCq)).log (.destroyCq s.nextCq) := by
            intro q hq
            rcases mem_call.1 hq with hq | hq
            · rcases mem_call.1 hq with hq | hq
              · exact absurd (h.createdQp _ _ hq).2 (Nat.lt_irrefl _)
              · cases hq
            · cases hq
          refine (h.createCq.call hnone nofun nofun nofun).call (fun _ => mem_call.2 (.inr rfl)) nofun
            nofun fun k hk => ?_
          · rcases hk with hk | hk
            · cases hk
            · cases hk
              exact Nat.lt_succ_self _
        | ok =>
          refine h.createCq.setContext c (f := fun ctx => { ctx with cq := some s.nextCq }) fun k hk => ?_
          cases hk
          exact ⟨Nat.lt_succ_self _, hio⟩

theorem Sound.useDevice (h : Sound s) (valid : Bool) (channel cq register : NativeResult) :
    Sound (s.useDevice c valid channel cq register) := by
  unfold State.useDevice
  have hdevice := h.useService c .device
  by_cases hg : ((s.useService c .device).contexts c).registered = true ∨ (!valid) = true
  · simp only [if_pos hg]
    exact hdevice
  · simp only [if_neg hg]
    have hinit := (hdevice.useService c .ioCompletion).initializeCq (mem_services_useService ..) channel
      cq register
    split
    · next t heq =>
      rw [heq] at hinit
      exact hinit.setContext c fun k hk => hinit.cqs c k hk
    · next t heq =>
      rw [heq] at hinit
      exact hinit

theorem Sound.bind (h : Sound s) (qp : Nat) : Sound (s.bind qp c) := by
  unfold State.bind
  by_cases hb : (s.bound qp).isSome = true
  · rw [if_pos hb]
    exact h
  · rw [if_neg hb]
    have hdevice := h.useService c .device
    by_cases hr : (!((s.useService c .device).contexts c).registered) = true
    · simp only [if_pos hr]
      exact hdevice
    · simp only [if_neg hr]
      have hall := (hdevice.useService c .ioCompletion).useService c .verbs
      refine hall.frame rfl rfl rfl rfl hall.cqs fun o k hk => ?_
      dsimp only at hk
      by_cases ho : o = qp
      · subst ho
        rw [Function.update_self] at hk
        exact (hall.cqs c k hk).1
      · rw [Function.update_of_ne ho] at hk
        exact hall.bound o k hk

/-! ## Making and destroying QPs -/

/-- Connectors are closed, each with its QP. -/
theorem Sound.closeWhere (h : Sound s) (p : Connector → Bool) : Sound (s.closeWhere p) := by
  have hlog : ∀ {n}, n ∈ (s.closeWhere p).log ↔
      n ∈ s.log ∨ ∃ x ∈ s.connectors, p x = true ∧ ∃ q k, x.qp = some (q, k) ∧ n = .destroyQp q := by
    intro n
    simp only [State.closeWhere, List.mem_append, List.mem_map, List.mem_filterMap, List.mem_filter]
    constructor
    · rintro (hn | ⟨⟨q, k⟩, ⟨x, ⟨hx, hp⟩, hq⟩, rfl⟩)
      · exact .inl hn
      · exact .inr ⟨x, hx, hp, q, k, hq, rfl⟩
    · rintro (hn | ⟨x, hx, hp, q, k, hq, rfl⟩)
      · exact .inl hn
      · exact .inr ⟨(q, k), ⟨x, ⟨hx, hp⟩, hq⟩, rfl⟩
  have hconn : ∀ {y}, y ∈ (s.closeWhere p).connectors → ∀ q k, y.qp = some (q, k) →
      y ∈ s.connectors ∧ p y = false := by
    intro y hy q k hq
    obtain ⟨x, hx, rfl⟩ := List.mem_map.1 hy
    by_cases hp : p x = true
    · rw [if_pos hp] at hq
      cases hq
    · rw [if_neg hp]
      exact ⟨hx, by simpa using hp⟩
  have hids : (s.closeWhere p).connectors.map Connector.id = s.connectors.map Connector.id := by
    refine map_changed ?_ s.connectors
    exact fun _ => rfl
  refine ⟨h.ordered.append_destroyQp _, fun q k hq => ?_, fun y hy q k hq => ?_,
    fun x hx y hy q k k' hq hq' => ?_, hids ▸ h.ids, fun q k hq => ?_, fun q hq => ?_, fun k hk => ?_,
    fun k hk => ?_, h.cqs, h.bound⟩
  · rcases hlog.1 hq with hq | ⟨_, _, _, _, _, _, heq⟩
    · rcases h.accounted q k hq with hd | ⟨x, hx, hxq⟩
      · exact .inl (hlog.2 (.inl hd))
      · by_cases hp : p x = true
        · exact .inl (hlog.2 (.inr ⟨x, hx, hp, q, k, hxq, rfl⟩))
        · exact .inr ⟨x, List.mem_map.2 ⟨x, hx, if_neg hp⟩, hxq⟩
    · cases heq
  · obtain ⟨hmem, hp⟩ := hconn hy q k hq
    obtain ⟨hc, hd⟩ := h.held y hmem q k hq
    refine ⟨hlog.2 (.inl hc), fun hd' => ?_⟩
    rcases hlog.1 hd' with hd' | ⟨x, hx, hpx, q', k', hxq, heq⟩
    · exact hd hd'
    · cases heq
      rw [h.unique x hx y hmem q k' k hxq hq, hp] at hpx
      cases hpx
  · exact h.unique x (hconn hx q k hq).1 y (hconn hy q k' hq').1 q k k' hq hq'
  · rcases hlog.1 hq with hq | ⟨_, _, _, _, _, _, heq⟩
    · exact h.createdQp q k hq
    · cases heq
  · rcases hlog.1 hq with hq | ⟨x, hx, -, q', k, hxq, heq⟩
    · exact h.destroyedQp q hq
    · cases heq
      exact (h.createdQp q k (h.held x hx q k hxq).1).1
  · rcases hlog.1 hk with hk | ⟨_, _, _, _, _, _, heq⟩
    · exact h.createdCq k hk
    · cases heq
  · rcases hlog.1 hk with hk | ⟨_, _, _, _, _, _, heq⟩
    · exact h.destroyedChannel k hk
    · cases heq

/-- Connectors that hold no QP go. -/
theorem Sound.filter (h : Sound s) {p : Connector → Bool}
    (hp : ∀ x ∈ s.connectors, p x = false → x.qp = none) :
    Sound { s with connectors := s.connectors.filter p } where
  ordered := h.ordered
  accounted q k hq := by
    refine (h.accounted q k hq).imp_right ?_
    rintro ⟨x, hx, hxq⟩
    refine ⟨x, List.mem_filter.2 ⟨hx, ?_⟩, hxq⟩
    by_contra hpx
    rw [hp x hx (by simpa using hpx)] at hxq
    cases hxq
  held x hx := h.held x (List.mem_of_mem_filter hx)
  unique x hx y hy := h.unique x (List.mem_of_mem_filter hx) y (List.mem_of_mem_filter hy)
  ids := h.ids.sublist (List.filter_sublist.map _)
  createdQp := h.createdQp
  destroyedQp := h.destroyedQp
  createdCq := h.createdCq
  destroyedChannel := h.destroyedChannel
  cqs := h.cqs
  bound := h.bound

theorem Sound.destroyConnector (h : Sound s) (id : Nat) :
    Sound { s.closeWhere (fun x => x.id == id) with
      connectors := (s.closeWhere fun x => x.id == id).connectors.filter fun x => x.id != id } := by
  refine (h.closeWhere _).filter fun y hy hid => ?_
  obtain ⟨x, -, rfl⟩ := List.mem_map.1 hy
  by_cases hx : (x.id == id) = true
  · rw [if_pos hx, Connector.close]
  · rw [if_neg hx] at hid
    simp only [bne_eq_false_iff_eq] at hid
    exact absurd (beq_iff_eq.2 hid) hx

/-- A connector that has no QP comes. -/
theorem Sound.cons (h : Sound s) (hqp : x.qp = none) (hid : ∀ y ∈ s.connectors, y.id ≠ x.id) :
    Sound { s with connectors := x :: s.connectors } := by
  have hmem : ∀ {y}, y ∈ x :: s.connectors → ∀ {q k}, y.qp = some (q, k) → y ∈ s.connectors := by
    intro y hy q k hq
    rcases List.mem_cons.1 hy with rfl | hy
    · rw [hqp] at hq
      cases hq
    · exact hy
  refine ⟨h.ordered, fun q k hq => (h.accounted q k hq).imp_right ?_,
    fun y hy q k hq => h.held y (hmem hy hq) q k hq,
    fun y hy z hz q k k' hq hq' => h.unique y (hmem hy hq) z (hmem hz hq') q k k' hq hq', ?_,
    h.createdQp, h.destroyedQp, h.createdCq, h.destroyedChannel, h.cqs, h.bound⟩
  · rintro ⟨y, hy, hyq⟩
    exact ⟨y, List.mem_cons_of_mem _ hy, hyq⟩
  · refine List.nodup_cons.2 ⟨fun hx => ?_, h.ids⟩
    obtain ⟨y, hy, heq⟩ := List.mem_map.1 hx
    exact hid y hy heq

/-- Connectors change and keep their QP. -/
theorem Sound.setConnector (h : Sound s) (id : Nat) {f : Connector → Connector}
    (hf : ∀ x, (f x).id = x.id ∧ (f x).qp = x.qp) : Sound (s.setConnector id f) := by
  have hkept : ∀ y : Connector, (if y.id = id then f y else y).id = y.id ∧
      (if y.id = id then f y else y).qp = y.qp := by
    intro y
    split
    · exact hf y
    · exact ⟨rfl, rfl⟩
  refine ⟨h.ordered, fun q k hq => (h.accounted q k hq).imp_right ?_, fun x' hx' q k hq => ?_,
    fun x' hx' y' hy' q k k' hq hq' => ?_, ?_, h.createdQp, h.destroyedQp, h.createdCq,
    h.destroyedChannel, h.cqs, h.bound⟩
  · rintro ⟨x, hx, hxq⟩
    exact ⟨_, List.mem_map.2 ⟨x, hx, rfl⟩, (hkept x).2.trans hxq⟩
  · obtain ⟨x, hx, rfl⟩ := List.mem_map.1 hx'
    exact h.held x hx q k ((hkept x).2.symm.trans hq)
  · obtain ⟨x, hx, rfl⟩ := List.mem_map.1 hx'
    obtain ⟨y, hy, rfl⟩ := List.mem_map.1 hy'
    rw [h.unique x hx y hy q k k' ((hkept x).2.symm.trans hq) ((hkept y).2.symm.trans hq')]
  · have hids : (s.setConnector id f).connectors.map Connector.id = s.connectors.map Connector.id := by
      simp only [State.setConnector, List.map_map]
      exact List.map_congr_left fun y _ => (hkept y).1
    exact hids ▸ h.ids

theorem connector?_eq_some (hx : s.connector? c = some x) : x ∈ s.connectors ∧ x.id = c :=
  ⟨List.mem_of_find?_eq_some hx, by simpa using List.find?_some hx⟩

/-- The connectors have different ids. -/
theorem Sound.eq_of_id (h : Sound s) (hx : x ∈ s.connectors) (hy : y ∈ s.connectors)
    (hid : x.id = y.id) : x = y :=
  List.inj_on_of_nodup_map h.ids hx hy hid

/-- A connector without a QP gets one, on a CQ that was not destroyed. -/
theorem Sound.createQp (h : Sound s) (hx : x ∈ s.connectors) (hnone : x.qp = none)
    (hcq : .destroyCq k ∉ s.log) (hk : k < s.nextCq) : Sound (s.createQp x.id k) := by
  have hlog : ∀ {n}, n ∈ (s.createQp x.id k).log ↔ n ∈ s.log ∨ n = .createQp s.nextQp k := mem_call
  -- a QP in the new state is the new one, or belongs to another connector
  have hconn : ∀ {y}, y ∈ (s.createQp x.id k).connectors → ∀ {q k'}, y.qp = some (q, k') →
      (y = { x with qp := some (s.nextQp, k) } ∧ q = s.nextQp ∧ k' = k) ∨ y ∈ s.connectors := by
    intro y hy q k' hq
    obtain ⟨z, hz, rfl⟩ := List.mem_map.1 hy
    by_cases hid : z.id = x.id
    · obtain rfl := h.eq_of_id hz hx hid
      rw [if_pos rfl] at hq ⊢
      cases hq
      exact .inl ⟨rfl, rfl, rfl⟩
    · rw [if_neg hid]
      exact .inr hz
  have hnew : ∀ {y q k'}, y ∈ s.connectors → y.qp = some (q, k') → q < s.nextQp :=
    fun hy hq => (h.createdQp _ _ (h.held _ hy _ _ hq).1).1
  refine ⟨ordered_concat.2 ⟨h.ordered, hcq⟩, fun q k' hq => ?_, fun y hy q k' hq => ?_,
    fun y hy z hz q k' k'' hq hq' => ?_, ?_, fun q k' hq => ?_, fun q hq => ?_, fun k' hk' => ?_,
    fun k' hk' => ?_, h.cqs, h.bound⟩
  · rcases hlog.1 hq with hq | hq
    · rcases h.accounted q k' hq with hd | ⟨y, hy, hyq⟩
      · exact .inl (hlog.2 (.inl hd))
      · refine .inr ⟨y, List.mem_map.2 ⟨y, hy, if_neg fun hid => ?_⟩, hyq⟩
        rw [h.eq_of_id hy hx hid, hnone] at hyq
        cases hyq
    · cases hq
      exact .inr ⟨_, List.mem_map.2 ⟨x, hx, if_pos rfl⟩, rfl⟩
  · rcases hconn hy hq with ⟨-, rfl, rfl⟩ | hy
    · refine ⟨hlog.2 (.inr rfl), fun hd => ?_⟩
      rcases hlog.1 hd with hd | hd
      · exact Nat.lt_irrefl _ (h.destroyedQp _ hd)
      · cases hd
    · obtain ⟨hc, hd⟩ := h.held y hy q k' hq
      refine ⟨hlog.2 (.inl hc), fun hd' => ?_⟩
      rcases hlog.1 hd' with hd' | hd'
      · exact hd hd'
      · cases hd'
  · rcases hconn hy hq with ⟨hy, hqy, -⟩ | hy
    · rcases hconn hz hq' with ⟨hz, -, -⟩ | hz
      · rw [hy, hz]
      · exact absurd (hnew hz hq') (hqy ▸ Nat.lt_irrefl _)
    · rcases hconn hz hq' with ⟨hz, hqz, -⟩ | hz
      · exact absurd (hnew hy hq) (hqz ▸ Nat.lt_irrefl _)
      · exact h.unique y hy z hz q k' k'' hq hq'
  · have hids : (s.createQp x.id k).connectors.map Connector.id = s.connectors.map Connector.id := by
      refine map_changed ?_ s.connectors
      exact fun _ => rfl
    exact hids ▸ h.ids
  · rcases hlog.1 hq with hq | hq
    · exact ⟨Nat.lt_succ_of_lt (h.createdQp q k' hq).1, (h.createdQp q k' hq).2⟩
    · cases hq
      exact ⟨Nat.lt_succ_self _, hk⟩
  · rcases hlog.1 hq with hq | hq
    · exact Nat.lt_succ_of_lt (h.destroyedQp q hq)
    · cases hq
  · rcases hlog.1 hk' with hk' | hk'
    · exact h.createdCq k' hk'
    · cases hk'
  · rcases hlog.1 hk' with hk' | hk'
    · exact h.destroyedChannel k' hk'
    · cases hk'

/-! ## Destroying the CQ -/

/-- A CQ on which no connector has a QP is destroyed, and its channel after it. -/
theorem Sound.closeCompletion (h : Sound s)
    (hfree : ∀ k, (s.contexts c).cq = some k → ∀ x ∈ s.connectors, ∀ q, x.qp ≠ some (q, k)) :
    Sound (s.closeCompletion c) := by
  unfold State.closeCompletion
  cases hcq : (s.contexts c).cq with
  | none => exact h
  | some k =>
    have hdestroy : Sound (s.call (.destroyCq k)) := by
      refine h.call (fun q hq => ?_) nofun nofun nofun
      rcases h.accounted q k hq with hd | ⟨x, hx, hxq⟩
      · exact hd
      · exact absurd hxq (hfree k hcq x hx q)
    have hlt : k < s.nextCq := (h.cqs c k hcq).1
    have hchannel : Sound ((s.call (.destroyCq k)).call (.destroyCompChannel k)) := by
      refine hdestroy.call (fun _ => mem_call.2 (.inr rfl)) nofun nofun fun k' hk' => ?_
      rcases hk' with hk' | hk'
      · cases hk'
      · cases hk'
        exact hlt
    exact hchannel.setContext c (f := fun ctx => { ctx with cq := none }) nofun

/-- The service `a` was created after `b`. -/
def createdAfter (a b : Service) : List Service → Bool
  | [] => false
  | svc :: svcs => svc != b && (svc == a || createdAfter a b svcs)

theorem createdAfter_cons {a b : Service} :
    createdAfter a b (svc :: svcs) = true ↔ svc ≠ b ∧ (svc = a ∨ createdAfter a b svcs = true) := by
  simp [createdAfter]

/-- `x` is closed before `ibv_io_completion_service` of `c` when `svcs` are shut down. -/
def Connector.ClosedInTime (x : Connector) (c : Nat) (svcs : List Service) : Prop :=
  x.ctx = c ∧ createdAfter (.connector x.ps) .ioCompletion svcs = true

instance (x : Connector) (c : Nat) (svcs : List Service) : Decidable (x.ClosedInTime c svcs) :=
  inferInstanceAs (Decidable (_ ∧ _))

/-- Every connector with a QP on the CQ of `c` is closed before it. -/
def State.ClosesInTime (s : State) (c : Nat) (svcs : List Service) : Prop :=
  ∀ x ∈ s.connectors, ∀ q ∈ x.qp, (s.contexts c).cq = some q.2 → x.ClosedInTime c svcs

instance (s : State) (c : Nat) (svcs : List Service) : Decidable (s.ClosesInTime c svcs) :=
  inferInstanceAs (Decidable (∀ _ ∈ _, ∀ _ ∈ _, _ → _))

theorem Connector.ClosedInTime.tail (h : x.ClosedInTime c (svc :: svcs))
    (hx : ¬ (x.ctx = c ∧ svc = .connector x.ps)) : x.ClosedInTime c svcs := by
  obtain ⟨hctx, hafter⟩ := h
  rcases (createdAfter_cons.1 hafter).2 with rfl | hafter
  · exact absurd ⟨hctx, rfl⟩ hx
  · exact ⟨hctx, hafter⟩

/-- Shutting down one service keeps the CQ, unless it is its own. -/
theorem cq_shutdownService (hsvc : svc ≠ .ioCompletion) :
    ((s.shutdownService c svc).contexts c).cq = (s.contexts c).cq := by
  cases svc with
  | device => simp [State.shutdownService, State.setContext]
  | ioCompletion => exact absurd rfl hsvc
  | verbs => rfl
  | connector ps => rfl

theorem cq_closeCompletion : ((s.closeCompletion c).contexts c).cq = none := by
  unfold State.closeCompletion
  cases hcq : (s.contexts c).cq with
  | none => exact hcq
  | some k => simp [State.setContext]

/-- A connector that still has a QP after a service was shut down has not changed, and did not belong to
that service. -/
theorem mem_shutdownService (hx : x ∈ (s.shutdownService c svc).connectors) (hq : x.qp ≠ none) :
    x ∈ s.connectors ∧ ¬ (x.ctx = c ∧ svc = .connector x.ps) := by
  cases svc with
  | connector ps =>
    obtain ⟨y, hy, rfl⟩ := List.mem_map.1 hx
    by_cases hp : (y.ctx == c && y.ps == ps) = true
    · rw [if_pos hp] at hq
      exact absurd rfl hq
    · rw [if_neg hp]
      refine ⟨hy, ?_⟩
      rintro ⟨hctx, hps⟩
      cases hps
      exact hp (by simp [hctx])
  | device => exact ⟨hx, by simp⟩
  | verbs => exact ⟨hx, by simp⟩
  | ioCompletion =>
    refine ⟨?_, by simp⟩
    revert hx
    simp only [State.shutdownService, State.closeCompletion]
    split <;> exact id

theorem Sound.shutdownService (h : Sound s) (hc : s.ClosesInTime c (svc :: svcs)) :
    Sound (s.shutdownService c svc) := by
  cases svc with
  | device => exact h.setContext c (f := fun ctx => { ctx with registered := false }) (h.cqs c)
  | verbs => exact h
  | connector ps => exact h.closeWhere _
  | ioCompletion =>
    refine h.closeCompletion fun k hk x hx q hq => ?_
    exact (createdAfter_cons.1 (hc x hx (q, k) hq hk).2).1 rfl

theorem State.ClosesInTime.tail (h : s.ClosesInTime c (svc :: svcs)) :
    (s.shutdownService c svc).ClosesInTime c svcs := by
  intro x hx q hq hcq
  obtain ⟨hx', hother⟩ := mem_shutdownService hx fun hnone => by
    rw [hnone] at hq
    cases hq
  by_cases hsvc : svc = .ioCompletion
  · subst hsvc
    rw [State.shutdownService, cq_closeCompletion] at hcq
    cases hcq
  · rw [cq_shutdownService hsvc] at hcq
    exact (h x hx' q hq hcq).tail hother

theorem Sound.foldl_shutdownService (h : Sound s) (hc : s.ClosesInTime c svcs) :
    Sound (svcs.foldl (fun s svc => s.shutdownService c svc) s) := by
  induction svcs generalizing s with
  | nil => exact h
  | cons svc svcs ih => exact ih (h.shutdownService hc) hc.tail

theorem Sound.shutdown (h : Sound s) (hc : s.ClosesInTime c (s.contexts c).services) :
    Sound (s.shutdown c) := by
  have hfold := h.foldl_shutdownService hc
  exact hfold.setContext c (f := fun ctx => { ctx with stopped := true }) (hfold.cqs c)

/-! ## A connector that is closed too late -/

theorem log_shutdownService (s : State) (c : Nat) (svc : Service) :
    ∃ w, (s.shutdownService c svc).log = s.log ++ w := by
  cases svc with
  | device => exact ⟨[], (List.append_nil _).symm⟩
  | verbs => exact ⟨[], (List.append_nil _).symm⟩
  | connector ps => exact ⟨_, rfl⟩
  | ioCompletion =>
    simp only [State.shutdownService, State.closeCompletion]
    split
    · exact ⟨[], (List.append_nil _).symm⟩
    · next k hk => exact ⟨[.destroyCq k, .destroyCompChannel k], List.append_assoc ..⟩

theorem log_foldl_shutdownService (s : State) (c : Nat) (svcs : List Service) :
    ∃ w, (svcs.foldl (fun s svc => s.shutdownService c svc) s).log = s.log ++ w := by
  induction svcs generalizing s with
  | nil => exact ⟨[], (List.append_nil _).symm⟩
  | cons svc svcs ih =>
    obtain ⟨w, hw⟩ := log_shutdownService s c svc
    obtain ⟨w', hw'⟩ := ih (s.shutdownService c svc)
    exact ⟨w ++ w', by rw [List.foldl_cons, hw', hw, List.append_assoc]⟩

/-- The CQ is destroyed under a QP of a connector that is not closed before it. -/
theorem Sound.not_ordered (h : Sound s) (hio : .ioCompletion ∈ svcs) (hx : x ∈ s.connectors)
    (hq : x.qp = some (q, k)) (hcq : (s.contexts c).cq = some k) (hlate : ¬ x.ClosedInTime c svcs) :
    ¬ Ordered (svcs.foldl (fun s svc => s.shutdownService c svc) s).log := by
  induction svcs generalizing s with
  | nil => cases hio
  | cons svc svcs ih =>
    rw [List.foldl_cons]
    by_cases hsvc : svc = .ioCompletion
    · subst hsvc
      obtain ⟨w, hw⟩ := log_foldl_shutdownService (s.shutdownService c .ioCompletion) c svcs
      rw [hw]
      intro hordered
      have hlog : (s.shutdownService c .ioCompletion).log =
          (s.log ++ [NativeCall.destroyCq k]) ++ [NativeCall.destroyCompChannel k] := by
        simp only [State.shutdownService, State.closeCompletion, hcq]
        rfl
      have hdestroy := hordered.of_append
      rw [hlog] at hdestroy
      obtain ⟨hc, hd⟩ := h.held x hx q k hq
      exact hd ((ordered_concat.1 hdestroy.of_append).2 q hc)
    · -- the connector is not one of the service that is shut down, and keeps its QP
      have hkept : x ∈ (s.shutdownService c svc).connectors := by
        cases svc with
        | device => exact hx
        | verbs => exact hx
        | ioCompletion => exact absurd rfl hsvc
        | connector ps =>
          refine List.mem_map.2 ⟨x, hx, if_neg fun hp => hlate ?_⟩
          obtain ⟨hctx, hps⟩ := Bool.and_eq_true_iff.1 hp
          rw [beq_iff_eq] at hctx hps
          subst hps
          exact ⟨hctx, createdAfter_cons.2 ⟨nofun, .inl rfl⟩⟩
      have hsound : Sound (s.shutdownService c svc) := by
        cases svc with
        | device => exact h.setContext c (f := fun ctx => { ctx with registered := false }) (h.cqs c)
        | verbs => exact h
        | ioCompletion => exact absurd rfl hsvc
        | connector ps => exact h.closeWhere _
      refine ih hsound ?_ hkept ?_ ?_
      · rcases List.mem_cons.1 hio with heq | hmem
        · exact absurd heq.symm hsvc
        · exact hmem
      · rw [cq_shutdownService hsvc, hcq]
      · rintro ⟨hctx, hafter⟩
        exact hlate ⟨hctx, createdAfter_cons.2 ⟨hsvc, .inr hafter⟩⟩

/-! ## Runs -/

/-- If the step destroys an `io_context`, every connector with a QP on its CQ is closed in time. -/
def State.destroysInTime (s : State) : Label → Bool
  | .shutdown c => decide (s.ClosesInTime c (s.contexts c).services)
  | _ => true

theorem Sound.step (h : Sound s) (hc : s.destroysInTime l = true) (hs : eventMode.step s l = some s') :
    Sound s' := by
  change SharedCq.step s l = some s' at hs
  cases l with
  | useDevice c valid channel cq register =>
    obtain ⟨-, ⟨⟩⟩ := Option.ite_none_left_eq_some.1 hs
    exact h.useDevice valid channel cq register
  | constructConnector id c ps =>
    obtain ⟨hg, ⟨⟩⟩ := Option.ite_none_left_eq_some.1 hs
    have hid : ∀ y ∈ s.connectors, y.id ≠ id := by
      intro y hy heq
      refine hg (.inr ?_)
      rw [State.connector?, List.find?_isSome]
      exact ⟨y, hy, beq_iff_eq.2 heq⟩
    exact ((h.useService c .device).useService c (.connector ps)).cons (x := { id, ctx := c, ps }) rfl hid
  | openConnector id r =>
    simp only [SharedCq.step] at hs
    split at hs
    · next x hx =>
      split at hs
      · cases hs
      · split at hs
        · cases hs
          exact h.setConnector id fun x => ⟨rfl, rfl⟩
        · cases hs
          exact h
    · cases hs
  | bind qp c =>
    obtain ⟨-, ⟨⟩⟩ := Option.ite_none_left_eq_some.1 hs
    exact h.bind qp
  | createQp id qp r =>
    simp only [SharedCq.step] at hs
    split at hs
    · next x k hx hk =>
      split at hs
      · cases hs
      · next hg =>
        split at hs
        · next hnone =>
          cases hs
          obtain ⟨hmem, rfl⟩ := connector?_eq_some hx
          exact h.createQp hmem hnone.1 (fun hd => hg (.inl hd)) (h.bound qp k hk)
        · cases hs
          exact h
    · cases hs
  | destroyConnector id =>
    cases hs
    exact h.destroyConnector id
  | shutdown c =>
    obtain ⟨-, ⟨⟩⟩ := Option.ite_none_left_eq_some.1 hs
    exact h.shutdown (of_decide_eq_true hc)

theorem Sound.not_ordered_step (h : Sound s) (hc : s.destroysInTime l = false)
    (hs : eventMode.step s l = some s') : ¬ Ordered s'.log := by
  cases l with
  | shutdown c =>
    obtain ⟨-, ⟨⟩⟩ := Option.ite_none_left_eq_some.1 hs
    have hlate := of_decide_eq_false hc
    simp only [State.ClosesInTime, not_forall] at hlate
    obtain ⟨x, hx, ⟨q, k⟩, hq, hcq, hlate⟩ := hlate
    exact h.not_ordered (h.cqs c k hcq).2 hx hq hcq hlate
  | _ => cases hc

/-- In every run the QPs on a CQ are destroyed before it, and the CQ before its completion channel,
exactly if, whenever an `io_context` is destroyed, every connector with a QP on its CQ belongs to a
service of that `io_context` that was created after `ibv_io_completion_service`. -/
theorem ordered_always_iff {ls : List Label} (hr : eventMode.run {} ls = some s) :
    (∀ pre t, pre <+: ls → eventMode.run {} pre = some t → Ordered t.log) ↔
      eventMode.Meets (fun s l => s.destroysInTime l = true) {} ls :=
  StepSystem.always_iff_meets_of_invariant (J := Sound) (fun _ h => h.ordered)
    (fun _ _ _ h hc hs => h.step hc hs) (fun _ _ _ h hc hs => h.not_ordered_step (by simpa using hc) hs)
    hr .fresh

/-- `use_device` comes first; one connector is destroyed before the `io_context`, the other with it. -/
def deviceFirst : List Label :=
  [.useDevice 0 true .ok .ok .ok, .constructConnector 1 0 1, .constructConnector 2 0 1,
    .openConnector 1 .ok, .openConnector 2 .ok, .bind 7 0, .createQp 1 7 .ok, .createQp 2 7 .ok,
    .destroyConnector 1, .shutdown 0, .destroyConnector 2]

theorem ordered_always_iff_deviceFirst : Ordered [createCompChannel 0, createCq 0, createQp 0 0,
    createQp 1 0, destroyQp 0, destroyQp 1, destroyCq 0, destroyCompChannel 0] := by
  have hr := StepSystem.run_after (show (eventMode.run {} deviceFirst).isSome = true by decide)
  exact (ordered_always_iff hr).2 (by decide) deviceFirst _ (List.prefix_refl _) hr

/-- The connector is constructed before `use_device`. -/
def connectorFirst : List Label :=
  [.constructConnector 1 0 1, .useDevice 0 true .ok .ok .ok, .openConnector 1 .ok, .bind 7 0,
    .createQp 1 7 .ok, .shutdown 0]

/-- `ibv_destroy_cq` is called while the QP is still there. -/
theorem not_ordered_connectorFirst :
    ¬ ∀ (ls : List Label) (s : State), eventMode.run {} ls = some s → Ordered s.log := by
  intro h
  have hordered := h connectorFirst _ (StepSystem.run_after (by decide))
  have hdestroy := hordered [createCompChannel 0, createCq 0, createQp 0 0] (destroyCq 0) (by decide) 0
    (by decide)
  revert hdestroy
  decide

end RdmaOnAsio.Ibv.SharedCq
