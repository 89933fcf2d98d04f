import RdmaOnAsio.Lts.Basic

/-!
# Histories of step systems

Two systems that simulate one abstract system are compared through what the abstract system sees of
them. `restrict` cuts a system down to the runs a comparison is about, and `Simulates.agree` says that
equal histories lead both systems to states that belong to the same abstract state, also when one of the
two histories has events the other system does not have.
-/

namespace RdmaOnAsio.StepSystem

universe u v w x

variable {σ σ₁ σ₂ : Type u} {ι ι₁ ι₂ : Type v} {τ : Type w} {κ : Type x}

/-- The system in which only the labels that `c` allows are enabled. -/
def restrict (M : StepSystem σ ι) (c : σ → ι → Bool) : StepSystem σ ι :=
  ⟨fun s l => if c s l then M.step s l else none⟩

theorem restrict_step {M : StepSystem σ ι} {c : σ → ι → Bool} {s s' : σ} {l : ι} :
    (M.restrict c).step s l = some s' ↔ c s l = true ∧ M.step s l = some s' :=
  Option.ite_none_right_eq_some

/-- What is seen of a run if the labels outside `p` are hidden. -/
theorem visible_guard {M : StepSystem σ ι} {p : ι → Bool} {s s' : σ} {ls : List ι}
    (hr : M.run s ls = some s') :
    M.visible (fun _ l => Option.guard p l) s ls = ls.filter p := by
  induction ls generalizing s with
  | nil => rfl
  | cons l ls ih =>
    obtain ⟨t, ht, hrest⟩ := run_cons.1 hr
    simp only [visible, ht, ih hrest]
    cases hp : p l with
    | true => simp [hp]
    | false => simp [hp]

/-- Let two systems simulate `N`, and `N` itself with the labels outside `p` hidden. If one history is the
other without the hidden labels, the two systems end in states of the two abstract runs. -/
theorem Simulates.agree {M₁ : StepSystem σ₁ ι₁} {M₂ : StepSystem σ₂ ι₂} {N : StepSystem τ κ}
    {f₁ : σ₁ → ι₁ → Option κ} {f₂ : σ₂ → ι₂ → Option κ} {R₁ : σ₁ → τ → Prop} {R₂ : σ₂ → τ → Prop}
    {p : κ → Bool} {S : τ → τ → Prop} (h₁ : M₁.Simulates N f₁ R₁) (h₂ : M₂.Simulates N f₂ R₂)
    (hN : N.Simulates N (fun _ k => Option.guard p k) S) {s s' : σ₁} {t t' : σ₂} {ls : List ι₁}
    {ms : List ι₂} {a b : τ} (hs : M₁.run s ls = some s') (ht : M₂.run t ms = some t') (hR₁ : R₁ s b)
    (hR₂ : R₂ t a) (hS : S a b) (hh : M₁.visible f₁ s ls = (M₂.visible f₂ t ms).filter p) :
    ∃ a' b', N.run a (M₂.visible f₂ t ms) = some a' ∧ R₂ t' a' ∧ S a' b' ∧ R₁ s' b' := by
  obtain ⟨a', ha, hRa⟩ := h₂.run ht hR₂
  obtain ⟨b', hb, hSb⟩ := hN.run ha hS
  obtain ⟨c, hc, hRc⟩ := h₁.run hs hR₁
  rw [hh, ← visible_guard ha] at hc
  obtain rfl : b' = c := Option.some.inj (hb.symm.trans hc)
  exact ⟨a', b', ha, hRa, hSb, hRc⟩

end RdmaOnAsio.StepSystem
