import RdmaOnAsio.Registry

/-!
# A service lists what is attached to it

The lists of all services share one memory; together they are a partition of the implementations by
service. Every operation keeps it but a move assignment across services, after which the object has a
service that does not list it.
-/

namespace RdmaOnAsio.Registry

variable {σ κ : Type} {s s' : State σ κ} {x y : κ} {svc svc' : σ} {l : List κ} {lbl : Label σ κ}
  {backend : Backend}

theorem State.registered_iff :
    s.Registered ↔ s.links.Partition s.implList s.service := by
  constructor
  · intro h svc
    obtain ⟨l, hl⟩ := h svc
    exact ⟨l, hl.isList, hl.mem⟩
  · intro h svc
    obtain ⟨l, hl, hmem⟩ := h svc
    exact ⟨l, hl, hmem, fun n hn => hl.chain.walk_eq hn⟩

theorem registered_initial (m : Links κ) : (initial m : State σ κ).Registered := by
  refine State.registered_iff.2 fun svc => ⟨[], .nil m, fun x => ?_⟩
  simp [initial]

/-- The head of a list in order is attached to the service. -/
theorem State.Registered.service_head (h : s.Registered) (hx : s.implList svc = some x) :
    s.service x = some svc :=
  (State.registered_iff.1 h).head_owner hx

variable [DecidableEq κ]

theorem State.setService_self (hx : s.service x = some svc) : s.setService x (some svc) = s := by
  rw [setService, ← hx, Function.update_eq_self]

/-- An object that gets another service is not listed by it. -/
theorem State.Registered.not_setService (h : s.Registered) (hx : s.service x = some svc)
    (hne : svc' ≠ svc) : ¬ (s.setService x (some svc')).Registered := by
  intro h'
  obtain ⟨l, hl⟩ := h svc'
  have hmem : x ∈ l :=
    ((State.registered_iff.1 h').mem_iff hl.isList).2 (Function.update_self ..)
  exact hne (Option.some.inj (((hl.mem x).1 hmem).symm.trans hx))

variable [DecidableEq σ]

/-! ## One operation -/

theorem State.Registered.doInsert (h : s.Registered) (hx : s.service x = none) (svc : σ) :
    ((s.doInsert svc x).setService x (some svc)).Registered :=
  State.registered_iff.2 ((State.registered_iff.1 h).insert hx)

theorem State.Registered.doRemove (h : s.Registered) (hx : s.service x = some svc) :
    ((s.doRemove svc x).setService x none).Registered :=
  State.registered_iff.2 ((State.registered_iff.1 h).remove hx)

/-- `move_assign` alone leaves every list as long as it was, whichever the backend. -/
theorem State.Registered.moveAssign (h : s.Registered) (hx : s.service x = some svc)
    (backend : Backend) : (s.moveAssign svc x backend).Registered := by
  cases backend with
  | ibv => exact h
  | nd =>
    have hremoved := h.doRemove hx
    have hnone : ((s.doRemove svc x).setService x none).service x = none := Function.update_self ..
    have hinserted := hremoved.doInsert hnone svc
    -- the service of the object is the same before and after
    have hback : Function.update (Function.update s.service x none) x (some svc) = s.service := by
      rw [Function.update_idem, ← hx, Function.update_eq_self]
    rw [State.registered_iff] at hinserted ⊢
    change Links.Partition _ _ (Function.update (Function.update s.service x none) x (some svc))
      at hinserted
    rwa [hback] at hinserted

@[simp] theorem State.service_moveAssign (s : State σ κ) (svc : σ) (x : κ) (backend : Backend) :
    (s.moveAssign svc x backend).service = s.service := by
  cases backend <;> rfl

/-! ## Runs -/

/-- Every operation within one service keeps the lists in order. -/
theorem State.Registered.step (h : s.Registered) (hc : s.crosses lbl = false)
    (hs : (registry backend).step s lbl = some s') : s'.Registered := by
  change Registry.step backend s lbl = some s' at hs
  cases lbl with
  | construct x svc =>
    cases hx : s.service x with
    | some _ => simp [Registry.step, hx] at hs
    | none =>
      simp only [Registry.step, hx, Option.some.injEq] at hs
      subst hs
      exact h.doInsert hx svc
  | moveConstruct x other =>
    cases hx : s.service x with
    | some _ => simp [Registry.step, hx] at hs
    | none =>
      cases ho : s.service other with
      | none => simp [Registry.step, hx, ho] at hs
      | some svc =>
        simp only [Registry.step, hx, ho, Option.some.injEq] at hs
        subst hs
        exact h.doInsert hx svc
  | moveAssign x other =>
    cases hx : s.service x with
    | none => simp [Registry.step, hx] at hs
    | some svc =>
      have ho : s.service other = some svc := by
        have heq : s.service x = s.service other := by simpa [State.crosses] using hc
        rw [← heq, hx]
      simp only [Registry.step, hx, ho] at hs
      by_cases hxo : x = other
      · rw [if_pos hxo] at hs
        exact Option.some.inj hs ▸ h
      · rw [if_neg hxo] at hs
        have hself : (s.moveAssign svc x backend).service x = some svc := by
          rw [State.service_moveAssign, hx]
        rw [State.setService_self hself] at hs
        exact Option.some.inj hs ▸ h.moveAssign hx backend
  | destroy x =>
    cases hx : s.service x with
    | none => simp [Registry.step, hx] at hs
    | some svc =>
      simp only [Registry.step, hx, Option.some.injEq] at hs
      subst hs
      exact h.doRemove hx

/-- A move assignment across services leaves an object that its service does not list. -/
theorem State.Registered.not_of_crosses (h : s.Registered) (hc : s.crosses lbl = true)
    (hs : (registry backend).step s lbl = some s') : ¬ s'.Registered := by
  change Registry.step backend s lbl = some s' at hs
  cases lbl with
  | moveAssign x other =>
    have hne : s.service x ≠ s.service other := by simpa [State.crosses] using hc
    cases hx : s.service x with
    | none => simp [Registry.step, hx] at hs
    | some svc =>
      cases ho : s.service other with
      | none => simp [Registry.step, hx, ho] at hs
      | some svc' =>
        have hxo : x ≠ other := fun heq => hne (congrArg s.service heq)
        simp only [Registry.step, hx, ho, if_neg hxo, Option.some.injEq] at hs
        subst hs
        have hself : (s.moveAssign svc x backend).service x = some svc := by
          rw [State.service_moveAssign, hx]
        exact (h.moveAssign hx backend).not_setService hself fun heq => hne (by rw [hx, ho, heq])
  | _ => cases hc

/-- In either backend every service lists exactly the implementations attached to it after every
operation of a run, and `base_shutdown` would visit each of them once, exactly if no object is ever
move-assigned from one of another service. -/
theorem registered_always_iff {m : Links κ} {ls : List (Label σ κ)}
    (hr : (registry backend).run (initial m) ls = some s) :
    (∀ pre t, pre <+: ls → (registry backend).run (initial m) pre = some t → t.Registered) ↔
      (registry backend).Meets (fun s lbl => s.crosses lbl = false) (initial m) ls :=
  StepSystem.always_iff_meets_of_invariant (fun _ h => h) (fun _ _ _ h hc hs => h.step hc hs)
    (fun _ _ _ h hc hs => h.not_of_crosses (by simpa using hc) hs) hr (registered_initial m)

/-- Three objects of two services: one is moved, one is assigned within its service, one is destroyed. -/
def withinServices : List (Label Nat Nat) :=
  [.construct 1 10, .construct 2 20, .moveConstruct 3 1, .moveAssign 1 3, .destroy 3, .construct 3 20]

theorem registered_always_iff_withinServices :
    ((registry .nd).after (initial {}) withinServices).Registered := by
  have hr := StepSystem.run_after
    (show ((registry .nd).run (initial {}) withinServices).isSome = true by decide)
  exact (registered_always_iff hr).2 (by decide) withinServices _ (List.prefix_refl _) hr

/-- An object of one service is assigned from one of another service, and destroyed. -/
def acrossServices : List (Label Nat Nat) :=
  [.construct 1 10, .construct 2 20, .moveAssign 1 2, .destroy 1]

/-- The head of the list is left on an implementation that was destroyed, and `base_shutdown` visits it. -/
theorem not_registered_after_acrossServices (backend : Backend) :
    ¬ ((registry backend).after (initial {}) acrossServices).Registered := by
  intro h
  have hhead : ((registry backend).after (initial {}) acrossServices).implList 10 = some 1 := by
    cases backend <;> decide
  have hdead : ((registry backend).after (initial {}) acrossServices).service 1 = none := by
    cases backend <;> decide
  cases hdead.symm.trans (h.service_head hhead)

theorem not_registered_acrossServices :
    (¬ ∀ (ls : List (Label Nat Nat)) (s : State Nat Nat),
      (registry .ibv).run (initial {}) ls = some s → s.Registered) ∧
    ¬ ∀ (ls : List (Label Nat Nat)) (s : State Nat Nat),
      (registry .nd).run (initial {}) ls = some s → s.Registered := by
  constructor
  · intro h
    exact not_registered_after_acrossServices .ibv
      (h acrossServices _ (StepSystem.run_after (by decide)))
  · intro h
    exact not_registered_after_acrossServices .nd
      (h acrossServices _ (StepSystem.run_after (by decide)))

end RdmaOnAsio.Registry
