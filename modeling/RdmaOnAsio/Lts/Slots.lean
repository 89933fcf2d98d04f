import Mathlib.Logic.Function.Basic
import RdmaOnAsio.Lts.Basic
import RdmaOnAsio.Lts.Lists

/-!
# Cancellation slots

Ops live at addresses, and an address is used again once its op is gone. A step may leave a functor that
knows an address in a slot. A signal that is emitted into the slot calls the functor, which cancels what
it finds at the address then.

`signals` runs such a system and counts the ops that were begun at each address, so that a functor is
told by its address and by the number of its op among the ops there. Only with the number of the last
one it can be the functor of an op that still exists.
-/

namespace RdmaOnAsio

universe u v

/-- A system that leaves functors in slots. -/
structure Slotted (σ : Type u) (ι : Type v) where
  system : StepSystem σ ι
  /-- The address of the op that a step begins. -/
  begins : ι → Option Nat
  /-- The addresses in the functors, the last one first. -/
  slots : σ → List Nat
  /-- A functor with this address is called. -/
  emit : Nat → ι
  isEmit : ι → Bool

/-- A state, the number of ops begun at each address, and the functors, the first one first. -/
structure Signals (σ : Type u) where
  state : σ
  begun : Nat → Nat := fun _ => 0
  functors : List (Nat × Nat) := []

/-- A step that is not the call of a functor, or a signal into the `i`-th slot. -/
inductive SignalLabel (ι : Type v)
  | on (l : ι)
  | emit (i : Nat)
deriving DecidableEq, Repr

/-- What it means to abort an op. `aborted s a t` says that `t` is `s` with the op at `a` aborted, and
nothing else. -/
structure Cancellation (σ : Type u) where
  pending : σ → Nat → Prop
  aborted : σ → Nat → σ → Prop

/-- The op at an address is aborted if it is pending, and otherwise nothing happens. -/
def Cancellation.Cancels {σ : Type u} (A : Cancellation σ) (s : σ) (a : Nat) (t : σ) : Prop :=
  (A.pending s a → A.aborted s a t) ∧ (¬ A.pending s a → t = s)

namespace Slotted

variable {σ : Type u} {ι : Type v}

/-- The numbers of ops after a step. -/
def count (M : Slotted σ ι) (begun : Nat → Nat) (l : ι) : Nat → Nat :=
  match M.begins l with
  | some a => Function.update begun a (begun a + 1)
  | none => begun

/-- The functors that a step from `s` to `t` leaves. -/
def armed (M : Slotted σ ι) (s t : σ) : List Nat :=
  (M.slots t).take ((M.slots t).length - (M.slots s).length)

/-- One step. -/
def step (M : Slotted σ ι) (s : Signals σ) : SignalLabel ι → Option (Signals σ)
  | .on l =>
    if M.isEmit l then none
    else
      match M.system.step s.state l with
      | some t =>
        some {
          state := t
          begun := M.count s.begun l
          functors := s.functors ++ (M.armed s.state t).map fun a => (a, M.count s.begun l a) }
      | none => none
  | .emit i =>
    match s.functors[i]? with
    | some f =>
      match M.system.step s.state (M.emit f.1) with
      | some t => some { s with state := t }
      | none => none
    | none => none

/-- The system with its signals. -/
def signals (M : Slotted σ ι) : StepSystem (Signals σ) (SignalLabel ι) := ⟨M.step⟩

/-- A signal cancels the op its functor was left for, and nothing if that op is gone and its address used
again. -/
def CancelsOwn (M : Slotted σ ι) (A : Cancellation σ) (s : Signals σ) : SignalLabel ι → Prop
  | .on _ => True
  | .emit i => ∀ f t, s.functors[i]? = some f → M.system.step s.state (M.emit f.1) = some t →
      if f.2 = s.begun f.1 then A.Cancels s.state f.1 t else t = s.state

/-- A signal does not come while the op of its functor is out of reach, nor when another op can be hit. -/
def inTime (out hit : σ → Nat → Bool) (s : Signals σ) : SignalLabel ι → Bool
  | .on _ => true
  | .emit i => s.functors[i]?.all fun f =>
      if f.2 = s.begun f.1 then !out s.state f.1 else !hit s.state f.1

/-- What the ops of a system do, each told by its address and by whether its slot is connected. At an
address there is one op at a time, and a functor is only left for an op with a slot. -/
structure Lawful (M : Slotted σ ι) (ops : σ → List (Nat × Bool)) (I : σ → Prop) : Prop where
  invariant : ∀ s l t, I s → ((ops s).map Prod.fst).Nodup → M.system.step s l = some t → I t
  begins : ∀ s l t a, I s → M.system.step s l = some t → M.begins l = some a →
    a ∉ (ops s).map Prod.fst ∧ ∃ b, (ops t).Subperm ((a, b) :: ops s)
  keeps : ∀ s l t, I s → M.system.step s l = some t → M.begins l = none → (ops t).Subperm (ops s)
  slots : ∀ s l t, I s → I t → ((ops t).map Prod.fst).Nodup → M.system.step s l = some t →
    M.slots t = M.slots s ∨ ∃ a, M.slots t = a :: M.slots s ∧ ∀ b, (a, b) ∈ ops t → b = true
  emit : ∀ a, M.begins (M.emit a) = none

/-- What a functor does to the op it was left for, and to another op at its address. -/
structure Reaches (M : Slotted σ ι) (ops : σ → List (Nat × Bool)) (I : σ → Prop)
    (A : Cancellation σ) (out hit : σ → Nat → Bool) : Prop where
  own : ∀ s a t, I s → ((ops s).map Prod.fst).Nodup → (∀ b, (a, b) ∈ ops s → b = true) →
    M.system.step s (M.emit a) = some t → (A.Cancels s a t ↔ out s a = false)
  other : ∀ s a t, I s → ((ops s).map Prod.fst).Nodup → M.system.step s (M.emit a) = some t →
    (t = s ↔ hit s a = false)

/-- The functors belong to ops that were begun, and the functor of the last op at an address to an op with a
slot. -/
structure Tracked (ops : σ → List (Nat × Bool)) (I : σ → Prop) (s : Signals σ) : Prop where
  holds : I s.state
  nodup : ((ops s.state).map Prod.fst).Nodup
  begun : ∀ f ∈ s.functors, f.2 ≤ s.begun f.1
  slot : ∀ f ∈ s.functors, f.2 = s.begun f.1 → ∀ b, (f.1, b) ∈ ops s.state → b = true

variable {M : Slotted σ ι} {ops : σ → List (Nat × Bool)} {I : σ → Prop} {A : Cancellation σ}
  {out hit : σ → Nat → Bool} {s t : Signals σ} {l : SignalLabel ι}

theorem nodup_of_subperm {xs ys : List (Nat × Bool)} (h : xs.Subperm ys)
    (hys : (ys.map Prod.fst).Nodup) : (xs.map Prod.fst).Nodup := by
  obtain ⟨zs, hperm, hsub⟩ := subperm_map Prod.fst h
  exact hperm.nodup_iff.1 (hys.sublist hsub)

theorem Lawful.nodup (h : M.Lawful ops I) {s t : σ} {l : ι} (hi : I s)
    (hnd : ((ops s).map Prod.fst).Nodup) (hs : M.system.step s l = some t) :
    ((ops t).map Prod.fst).Nodup := by
  cases hb : M.begins l with
  | none => exact nodup_of_subperm (h.keeps s l t hi hs hb) hnd
  | some a =>
    obtain ⟨hfresh, b, hsub⟩ := h.begins s l t a hi hs hb
    exact nodup_of_subperm hsub (List.nodup_cons.2 ⟨hfresh, hnd⟩)

/-- The functors that were there before a step. -/
theorem Tracked.kept (h : Tracked ops I s) (hM : M.Lawful ops I) {t : σ} {l : ι}
    (hs : M.system.step s.state l = some t) {f : Nat × Nat} (hf : f ∈ s.functors) :
    f.2 ≤ M.count s.begun l f.1 ∧
      (f.2 = M.count s.begun l f.1 → ∀ b, (f.1, b) ∈ ops t → b = true) := by
  have hle := h.begun f hf
  unfold count
  cases hb : M.begins l with
  | none =>
    refine ⟨hle, fun heq b hmem => h.slot f hf heq b ?_⟩
    exact (hM.keeps s.state l t h.holds hs hb).subset hmem
  | some a =>
    obtain ⟨-, b', hsub⟩ := hM.begins s.state l t a h.holds hs hb
    by_cases ha : f.1 = a
    · -- the address is used again, and the functor is not that of the last op any more
      subst ha
      simp only [Function.update_self]
      exact ⟨Nat.le_succ_of_le hle, fun heq => absurd heq (by omega)⟩
    · simp only [Function.update_of_ne ha]
      refine ⟨hle, fun heq b hmem => ?_⟩
      rcases List.mem_cons.1 (hsub.subset hmem) with hnew | hold
      · exact absurd (congrArg Prod.fst hnew) ha
      · exact h.slot f hf heq b hold

theorem Tracked.step (h : Tracked ops I s) (hM : M.Lawful ops I) (hs : M.signals.step s l = some t) :
    Tracked ops I t := by
  change M.step s l = some t at hs
  cases l with
  | on l =>
    cases he : M.isEmit l with
    | true => simp [Slotted.step, he] at hs
    | false =>
      cases hst : M.system.step s.state l with
      | none => simp [Slotted.step, he, hst] at hs
      | some u =>
        simp only [Slotted.step, he, hst, Bool.false_eq_true, if_false, Option.some.injEq] at hs
        subst hs
        have hholds : I u := hM.invariant s.state l u h.holds h.nodup hst
        have hnodup : ((ops u).map Prod.fst).Nodup := hM.nodup h.holds h.nodup hst
        have harmed : ∀ a ∈ M.armed s.state u, ∀ b, (a, b) ∈ ops u → b = true := by
          intro a ha b hmem
          rcases hM.slots s.state l u h.holds hholds hnodup hst with heq | ⟨a', heq, hslot⟩
          · simp [armed, heq] at ha
          · have ha' : a = a' := by simpa [armed, heq] using ha
            exact hslot b (ha' ▸ hmem)
        refine ⟨hholds, hnodup, fun f hf => ?_, fun f hf heq b hmem => ?_⟩
        · rcases List.mem_append.1 hf with hf | hf
          · exact (h.kept hM hst hf).1
          · obtain ⟨a, -, rfl⟩ := List.mem_map.1 hf
            exact Nat.le_refl _
        · rcases List.mem_append.1 hf with hf | hf
          · exact (h.kept hM hst hf).2 heq b hmem
          · obtain ⟨a, ha, rfl⟩ := List.mem_map.1 hf
            exact harmed a ha b hmem
  | emit i =>
    cases hf : s.functors[i]? with
    | none => simp [Slotted.step, hf] at hs
    | some f =>
      cases hst : M.system.step s.state (M.emit f.1) with
      | none => simp [Slotted.step, hf, hst] at hs
      | some u =>
        simp only [Slotted.step, hf, hst, Option.some.injEq] at hs
        subst hs
        have hsub := hM.keeps s.state (M.emit f.1) u h.holds hst (hM.emit f.1)
        exact ⟨hM.invariant s.state _ u h.holds h.nodup hst, nodup_of_subperm hsub h.nodup, h.begun,
          fun g hg heq b hmem => h.slot g hg heq b (hsub.subset hmem)⟩

theorem Tracked.cancelsOwn_iff (h : Tracked ops I s) (hA : M.Reaches ops I A out hit)
    (hs : M.signals.step s l = some t) :
    M.CancelsOwn A s l ↔ inTime out hit s l = true := by
  change M.step s l = some t at hs
  cases l with
  | on l => exact iff_of_true trivial rfl
  | emit i =>
    cases hf : s.functors[i]? with
    | none => simp [Slotted.step, hf] at hs
    | some f =>
      cases hst : M.system.step s.state (M.emit f.1) with
      | none => simp [Slotted.step, hf, hst] at hs
      | some u =>
        have hall : M.CancelsOwn A s (.emit i) ↔
            if f.2 = s.begun f.1 then A.Cancels s.state f.1 u else u = s.state := by
          refine ⟨fun hown => hown f u hf hst, fun hown g v hg hv => ?_⟩
          obtain rfl := Option.some.inj (hf.symm.trans hg)
          obtain rfl := Option.some.inj (hst.symm.trans hv)
          exact hown
        rw [hall]
        simp only [inTime, hf, Option.all_some]
        by_cases heq : f.2 = s.begun f.1
        · simp only [if_pos heq, Bool.not_eq_true']
          exact hA.own s.state f.1 u h.holds h.nodup (h.slot f (List.mem_of_getElem? hf) heq) hst
        · simp only [if_neg heq, Bool.not_eq_true']
          exact hA.other s.state f.1 u h.holds h.nodup hst

/-- Every signal of a run cancels its own op only, exactly if every signal comes in time. -/
theorem cancelsOwn_iff_inTime (hM : M.Lawful ops I) (hA : M.Reaches ops I A out hit) {s : σ}
    {ls : List (SignalLabel ι)} (h0 : I s) (hnone : ops s = [])
    (hr : M.signals.run { state := s } ls = some t) :
    M.signals.Meets (M.CancelsOwn A) { state := s } ls ↔
      M.signals.Meets (fun s l => inTime out hit s l = true) { state := s } ls := by
  have htracked : Tracked ops I { state := s } :=
    ⟨h0, by simp [hnone], nofun, nofun⟩
  exact StepSystem.meets_congr_of_invariant (I := Tracked ops I) (fun _ _ _ h hs => h.step hM hs)
    (fun _ _ _ h hs => h.cancelsOwn_iff hA hs) hr htracked

end Slotted

end RdmaOnAsio
