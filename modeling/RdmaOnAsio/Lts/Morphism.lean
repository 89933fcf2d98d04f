import RdmaOnAsio.Lts.Basic

/-!
# Step systems that are the same up to relabelling

A morphism renames the states and labels of one system so that its steps are the steps of the other, enabled
labels and disabled ones. What is known of the runs of the target is then known of the runs of the source,
read through the renaming.
-/

namespace RdmaOnAsio

universe u v w x

namespace StepSystem

variable {σ : Type u} {ι : Type v} {τ : Type w} {κ : Type x}

/-- `f` on states and `g` on labels take every step of `M` to the step of `N`, and every label that is not
enabled to one that is not. -/
def Morphism (M : StepSystem σ ι) (N : StepSystem τ κ) (f : σ → τ) (g : ι → κ) : Prop :=
  ∀ s l, N.step (f s) (g l) = (M.step s l).map f

namespace Morphism

variable {M : StepSystem σ ι} {N : StepSystem τ κ} {f : σ → τ} {g : ι → κ}

theorem run (h : M.Morphism N f g) (s : σ) (ls : List ι) :
    N.run (f s) (ls.map g) = (M.run s ls).map f := by
  induction ls generalizing s with
  | nil => rfl
  | cons l ls ih =>
    simp only [List.map_cons, StepSystem.run, h s l]
    cases M.step s l with
    | none => rfl
    | some t => exact ih t

/-- A run of the source is a run of the target. -/
theorem run_eq_some (h : M.Morphism N f g) {s s' : σ} {ls : List ι} (hr : M.run s ls = some s') :
    N.run (f s) (ls.map g) = some (f s') := by
  rw [h.run, hr]
  rfl

theorem meets_iff (h : M.Morphism N f g) {C : τ → κ → Prop} {s : σ} {ls : List ι} :
    N.Meets C (f s) (ls.map g) ↔ M.Meets (fun s l => C (f s) (g l)) s ls := by
  induction ls generalizing s with
  | nil => exact Iff.rfl
  | cons l ls ih =>
    simp only [List.map_cons, Meets, h s l]
    cases M.step s l with
    | none => exact Iff.rfl
    | some t => exact and_congr_right fun _ => ih

/-- What holds throughout the run of the target holds throughout the run of the source. -/
theorem always_iff (h : M.Morphism N f g) {P : τ → Prop} {s : σ} {ls : List ι} :
    (∀ pre t, pre <+: ls.map g → N.run (f s) pre = some t → P t) ↔
      ∀ pre t, pre <+: ls → M.run s pre = some t → P (f t) := by
  constructor
  · intro hall pre t hpre ht
    exact hall (pre.map g) (f t) (hpre.map g) (h.run_eq_some ht)
  · intro hall pre t hpre ht
    obtain ⟨pre', hpre', rfl⟩ := List.prefix_map_iff.1 hpre
    rw [h.run] at ht
    obtain ⟨t', ht', rfl⟩ := Option.map_eq_some_iff.1 ht
    exact hall pre' t' hpre' ht'

end Morphism

end StepSystem

end RdmaOnAsio
