import RdmaOnAsio.Lts.Basic

/-!
# Runs without one participant

`own` tells the labels of one participant and `erase` forgets what a state holds of it. If the steps of the
others do not depend on the participant, taking its labels out of a run leaves a run of the others. That
run ends where the whole run does, up to `erase`, exactly as long as the participant's own steps change
nothing that `erase` keeps.
-/

namespace RdmaOnAsio

universe u v

namespace StepSystem

variable {σ : Type u} {ι : Type v} {M : StepSystem σ ι}

/-- After every prefix of the run `ls` from `s`, the others are where they are without the participant. -/
def Undisturbed (M : StepSystem σ ι) (own : ι → Bool) (erase : σ → σ) (s : σ) (ls : List ι) : Prop :=
  ∀ pre t, pre <+: ls → M.run s pre = some t →
    M.run (erase s) (pre.filter fun l => !own l) = some (erase t)

variable {own : ι → Bool} {erase : σ → σ} {s t : σ} {l : ι} {ls : List ι}

theorem undisturbed_nil : M.Undisturbed own erase s [] := by
  intro pre t hpre ht
  obtain rfl := List.prefix_nil.1 hpre
  obtain rfl := Option.some.inj ht
  rfl

/-- A step of the others, which they can take without the participant as well. -/
theorem undisturbed_cons_other (hst : M.step s l = some t) (ho : own l = false)
    (hother : M.step (erase s) l = some (erase t)) :
    M.Undisturbed own erase s (l :: ls) ↔ M.Undisturbed own erase t ls := by
  constructor
  · intro h pre u hpre hu
    have hrun := h (l :: pre) u (List.cons_prefix_cons.2 ⟨rfl, hpre⟩) (run_cons.2 ⟨t, hst, hu⟩)
    rw [List.filter_cons_of_pos (by simp [ho])] at hrun
    obtain ⟨t', ht', hrest⟩ := run_cons.1 hrun
    obtain rfl := Option.some.inj (hother.symm.trans ht')
    exact hrest
  · intro h pre u hpre hu
    cases pre with
    | nil =>
      obtain rfl := Option.some.inj hu
      rfl
    | cons l' pre =>
      obtain ⟨rfl, hpre'⟩ := List.cons_prefix_cons.1 hpre
      obtain ⟨t', ht', hu'⟩ := run_cons.1 hu
      obtain rfl := Option.some.inj (hst.symm.trans ht')
      rw [List.filter_cons_of_pos (by simp [ho])]
      exact run_cons.2 ⟨_, hother, h pre u hpre' hu'⟩

/-- A step of the participant. -/
theorem undisturbed_cons_own (hst : M.step s l = some t) (ho : own l = true) :
    M.Undisturbed own erase s (l :: ls) ↔ erase t = erase s ∧ M.Undisturbed own erase t ls := by
  constructor
  · intro h
    have hone := h [l] t (by simp) (run_cons.2 ⟨t, hst, rfl⟩)
    rw [List.filter_cons_of_neg (by simp [ho])] at hone
    have heq : erase t = erase s := (Option.some.inj hone).symm
    refine ⟨heq, fun pre u hpre hu => ?_⟩
    have hrun := h (l :: pre) u (List.cons_prefix_cons.2 ⟨rfl, hpre⟩) (run_cons.2 ⟨t, hst, hu⟩)
    rwa [List.filter_cons_of_neg (by simp [ho]), ← heq] at hrun
  · rintro ⟨heq, h⟩ pre u hpre hu
    cases pre with
    | nil =>
      obtain rfl := Option.some.inj hu
      rfl
    | cons l' pre =>
      obtain ⟨rfl, hpre'⟩ := List.cons_prefix_cons.1 hpre
      obtain ⟨t', ht', hu'⟩ := run_cons.1 hu
      obtain rfl := Option.some.inj (hst.symm.trans ht')
      rw [List.filter_cons_of_neg (by simp [ho]), ← heq]
      exact h pre u hpre' hu'

/-- Let the others not depend on the participant, and its own steps change nothing that `erase` keeps
exactly if they meet `C`. Then the others are undisturbed by it along a run exactly if the run meets `C`. -/
theorem undisturbed_iff_meets {I : σ → Prop} {D C : σ → ι → Prop}
    (hinv : ∀ s l s', I s → D s l → M.step s l = some s' → I s')
    (hother : ∀ s l s', I s → own l = false → M.step s l = some s' →
      M.step (erase s) l = some (erase s'))
    (hown : ∀ s l s', I s → D s l → own l = true → M.step s l = some s' →
      (erase s' = erase s ↔ C s l))
    (htriv : ∀ s l, own l = false → C s l) {s' : σ} (hr : M.run s ls = some s')
    (hd : M.Meets D s ls) (hi : I s) : M.Undisturbed own erase s ls ↔ M.Meets C s ls := by
  induction ls generalizing s with
  | nil => exact ⟨fun _ => trivial, fun _ => undisturbed_nil⟩
  | cons l ls ih =>
    obtain ⟨t, hst, hrest⟩ := run_cons.1 hr
    obtain ⟨hdl, hdrest⟩ := (meets_cons hst).1 hd
    have hih := ih hrest hdrest (hinv s l t hi hdl hst)
    rw [meets_cons hst]
    cases ho : own l with
    | false =>
      rw [undisturbed_cons_other hst ho (hother s l t hi ho hst), hih]
      exact ⟨fun h => ⟨htriv s l ho, h⟩, And.right⟩
    | true => rw [undisturbed_cons_own hst ho, hih, hown s l t hi hdl ho hst]

end StepSystem

end RdmaOnAsio
