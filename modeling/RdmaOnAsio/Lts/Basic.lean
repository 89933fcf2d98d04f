import Mathlib.Tactic.Common

/-!
# Labelled step systems

A step system is a partial step function: a label names the actor that moves together with every
choice the environment makes for it (which interleaving, which native result, whether a weak
exchange fails spuriously), so that a run is determined by its list of labels and can be executed.

`run` executes a list of labels, `Meets` says that every step of a run satisfies a side condition on
the state before it and its label. The rules below carry facts about one step over whole runs.
-/

namespace RdmaOnAsio

universe u v w x

/-- A system that moves from state to state under labels; `none` means the label is not enabled. -/
structure StepSystem (σ : Type u) (ι : Type v) where
  /-- The step taken under a label. -/
  step : σ → ι → Option σ

namespace StepSystem

variable {σ : Type u} {ι : Type v} {τ : Type w} {κ : Type x}

/-- The state reached by a list of labels, if each of them is enabled in turn. -/
def run (M : StepSystem σ ι) : σ → List ι → Option σ
  | s, [] => some s
  | s, l :: ls =>
    match M.step s l with
    | some s' => M.run s' ls
    | none => none

/-- The state a run ends in; the start, if the run is not enabled. -/
def after (M : StepSystem σ ι) (s : σ) (ls : List ι) : σ := (M.run s ls).getD s

/-- Every step of the run `ls` from `s` satisfies the condition `C` where it is taken. -/
def Meets (M : StepSystem σ ι) (C : σ → ι → Prop) : σ → List ι → Prop
  | _, [] => True
  | s, l :: ls =>
    C s l ∧
      match M.step s l with
      | some s' => M.Meets C s' ls
      | none => True

instance Meets.decidable (M : StepSystem σ ι) (C : σ → ι → Prop) [∀ s l, Decidable (C s l)] :
    ∀ s ls, Decidable (M.Meets C s ls)
  | _, [] => .isTrue trivial
  | s, l :: ls =>
    have : Decidable (match M.step s l with | some s' => M.Meets C s' ls | none => True) :=
      match M.step s l with
      | some s' => Meets.decidable M C s' ls
      | none => .isTrue trivial
    inferInstanceAs (Decidable (C s l ∧ _))

variable {M : StepSystem σ ι} {C : σ → ι → Prop}

@[simp] theorem run_nil (s : σ) : M.run s [] = some s := rfl

theorem run_cons {s s' : σ} {l : ι} {ls : List ι} :
    M.run s (l :: ls) = some s' ↔ ∃ t, M.step s l = some t ∧ M.run t ls = some s' := by
  simp only [run]
  cases M.step s l <;> simp

theorem run_append {s s' : σ} {ls ls' : List ι} :
    M.run s (ls ++ ls') = some s' ↔ ∃ t, M.run s ls = some t ∧ M.run t ls' = some s' := by
  induction ls generalizing s with
  | nil => simp
  | cons l ls ih =>
    simp only [List.cons_append, run_cons, ih]
    constructor
    · rintro ⟨t, ht, u, hu, hs⟩
      exact ⟨u, ⟨t, ht, hu⟩, hs⟩
    · rintro ⟨u, ⟨t, ht, hu⟩, hs⟩
      exact ⟨t, ht, u, hu, hs⟩

theorem meets_cons {s t : σ} {l : ι} {ls : List ι} (h : M.step s l = some t) :
    M.Meets C s (l :: ls) ↔ C s l ∧ M.Meets C t ls := by
  simp [Meets, h]

/-- A condition on labels is met by every run of labels that satisfy it. -/
theorem meets_of_mem {ls : List ι} (h : ∀ l ∈ ls, ∀ s, C s l) (s : σ) : M.Meets C s ls := by
  induction ls generalizing s with
  | nil => trivial
  | cons l ls ih =>
    refine ⟨h l List.mem_cons_self s, ?_⟩
    cases M.step s l with
    | none => trivial
    | some t => exact ih (fun l' hl => h l' (List.mem_cons_of_mem l hl)) t

/-- A run that is enabled meets a condition on labels exactly if all its labels satisfy it. -/
theorem meets_label_iff {c : ι → Prop} {s s' : σ} {ls : List ι} (hr : M.run s ls = some s') :
    M.Meets (fun _ l => c l) s ls ↔ ∀ l ∈ ls, c l := by
  induction ls generalizing s with
  | nil => simp [Meets]
  | cons l ls ih =>
    obtain ⟨t, ht, hrest⟩ := run_cons.1 hr
    rw [meets_cons ht, ih hrest, List.forall_mem_cons]

theorem Meets.mono {D : σ → ι → Prop} (hCD : ∀ s l, C s l → D s l) {s : σ} {ls : List ι}
    (h : M.Meets C s ls) : M.Meets D s ls := by
  induction ls generalizing s with
  | nil => trivial
  | cons l ls ih =>
    obtain ⟨hc, hrest⟩ := h
    refine ⟨hCD s l hc, ?_⟩
    cases hs : M.step s l with
    | none => trivial
    | some t => exact ih (by simpa [hs] using hrest)

/-- Two conditions that a run meets are met together. -/
theorem Meets.and {D : σ → ι → Prop} {s : σ} {ls : List ι} (hc : M.Meets C s ls)
    (hd : M.Meets D s ls) : M.Meets (fun s l => C s l ∧ D s l) s ls := by
  induction ls generalizing s with
  | nil => trivial
  | cons l ls ih =>
    obtain ⟨hcs, hcrest⟩ := hc
    obtain ⟨hds, hdrest⟩ := hd
    refine ⟨⟨hcs, hds⟩, ?_⟩
    cases hs : M.step s l with
    | none => trivial
    | some t => exact ih (by simpa [hs] using hcrest) (by simpa [hs] using hdrest)

/-- Two conditions that agree on the steps that are enabled where an invariant holds are met by the same
runs. -/
theorem meets_congr_of_invariant {I : σ → Prop} {D : σ → ι → Prop}
    (hinv : ∀ s l s', I s → M.step s l = some s' → I s')
    (h : ∀ s l s', I s → M.step s l = some s' → (C s l ↔ D s l)) {s s' : σ} {ls : List ι}
    (hr : M.run s ls = some s') (h0 : I s) : M.Meets C s ls ↔ M.Meets D s ls := by
  induction ls generalizing s with
  | nil => exact Iff.rfl
  | cons l ls ih =>
    obtain ⟨t, ht, hrest⟩ := run_cons.1 hr
    rw [meets_cons ht, meets_cons ht, h s l t h0 ht, ih hrest (hinv s l t h0 ht)]

/-- Two conditions that agree on the steps that are enabled are met by the same runs. -/
theorem meets_congr {D : σ → ι → Prop} (h : ∀ s l s', M.step s l = some s' → (C s l ↔ D s l))
    {s s' : σ} {ls : List ι} (hr : M.run s ls = some s') : M.Meets C s ls ↔ M.Meets D s ls :=
  meets_congr_of_invariant (I := fun _ => True) (fun _ _ _ h _ => h) (fun s l s' _ => h s l s') hr
    trivial

/-- A run that is enabled ends in the state `after` gives. -/
theorem run_after {s : σ} {ls : List ι} (h : (M.run s ls).isSome = true) :
    M.run s ls = some (M.after s ls) := by
  obtain ⟨s', hs⟩ := Option.isSome_iff_exists.1 h
  rw [after, hs, Option.getD_some]

/-- The part of a run after a prefix still meets the condition. -/
theorem Meets.append {s t : σ} {ls ls' : List ι} (hr : M.run s ls = some t) :
    M.Meets C s (ls ++ ls') ↔ M.Meets C s ls ∧ M.Meets C t ls' := by
  induction ls generalizing s with
  | nil => simp_all [Meets]
  | cons l ls ih =>
    obtain ⟨u, hu, hrest⟩ := run_cons.1 hr
    rw [List.cons_append, meets_cons hu, meets_cons hu, ih hrest, and_assoc]

/-! ## Invariants over runs -/

/-- An invariant that every step meeting `C` preserves holds at the end of every run meeting `C`. -/
theorem invariant_of_meets {I : σ → Prop}
    (hstep : ∀ s l s', I s → C s l → M.step s l = some s' → I s') {s s' : σ} {ls : List ι}
    (hr : M.run s ls = some s') (hm : M.Meets C s ls) (h0 : I s) : I s' := by
  induction ls generalizing s with
  | nil => simp_all
  | cons l ls ih =>
    obtain ⟨t, ht, hrest⟩ := run_cons.1 hr
    obtain ⟨hc, hm'⟩ := (meets_cons ht).1 hm
    exact ih hrest hm' (hstep s l t h0 hc ht)

/-- An invariant that every step preserves holds at the end of every run. -/
theorem invariant {I : σ → Prop} (hstep : ∀ s l s', I s → M.step s l = some s' → I s')
    {s s' : σ} {ls : List ι} (hr : M.run s ls = some s') (h0 : I s) : I s' :=
  invariant_of_meets (C := fun _ _ => True) (fun s l s' hi _ => hstep s l s' hi) hr
    (meets_of_mem (fun _ _ _ => trivial) s) h0

/-- A reflexive and transitive relation that holds over every step holds over every run. -/
theorem run_rel {R : σ → σ → Prop} (hrefl : ∀ s, R s s) (htrans : ∀ s t u, R s t → R t u → R s u)
    (hstep : ∀ s l s', M.step s l = some s' → R s s') {s s' : σ} {ls : List ι}
    (hr : M.run s ls = some s') : R s s' := by
  induction ls generalizing s with
  | nil => simp_all
  | cons l ls ih =>
    obtain ⟨t, ht, hrest⟩ := run_cons.1 hr
    exact htrans s t s' (hstep s l t ht) (ih hrest)

/-- A predicate that no step falsifies keeps holding. -/
theorem stable {P : σ → Prop} (hstep : ∀ s l s', M.step s l = some s' → P s → P s') {s s' : σ}
    {ls : List ι} (hr : M.run s ls = some s') (h : P s) : P s' :=
  run_rel (R := fun s s' => P s → P s') (fun _ h => h) (fun _ _ _ h1 h2 h => h2 (h1 h)) hstep hr h

/-- Let every step under a label with `c` from a state satisfying `I` and `P` keep `I`, and lead to `P`
exactly when it meets `C`. Then `P` holds after every prefix of a run of such labels exactly when the run
meets `C`. -/
theorem always_iff_meets_of_mem {c : ι → Prop} {I P : σ → Prop}
    (hinv : ∀ s l s', c l → I s → P s → M.step s l = some s' → I s')
    (hP : ∀ s l s', c l → I s → P s → M.step s l = some s' → (P s' ↔ C s l)) {s s' : σ} {ls : List ι}
    (hr : M.run s ls = some s') (hl : ∀ l ∈ ls, c l) (hi : I s) (h0 : P s) :
    (∀ pre t, pre <+: ls → M.run s pre = some t → P t) ↔ M.Meets C s ls := by
  induction ls generalizing s with
  | nil =>
    simp only [Meets, iff_true]
    rintro pre t hpre ht
    obtain rfl := List.prefix_nil.1 hpre
    simp_all
  | cons l ls ih =>
    obtain ⟨u, hu, hrest⟩ := run_cons.1 hr
    obtain ⟨hcl, hl'⟩ := List.forall_mem_cons.1 hl
    have hiff := hP s l u hcl hi h0 hu
    rw [meets_cons hu]
    constructor
    · intro hall
      have hPu : P u := hall [l] u (by simp) (run_cons.2 ⟨u, hu, rfl⟩)
      refine ⟨hiff.1 hPu, (ih hrest hl' (hinv s l u hcl hi h0 hu) hPu).1 fun pre t hpre ht => ?_⟩
      exact hall (l :: pre) t (by simpa using hpre) (run_cons.2 ⟨u, hu, ht⟩)
    · rintro ⟨hc, hm⟩ pre t hpre ht
      cases pre with
      | nil => simp_all
      | cons l' pre =>
        obtain ⟨rfl, hpre'⟩ := List.cons_prefix_cons.1 hpre
        obtain ⟨u', hu', ht'⟩ := run_cons.1 ht
        obtain rfl : u' = u := by simp_all
        exact (ih hrest hl' (hinv s l' u' hcl hi h0 hu) (hiff.2 hc)).2 hm pre t hpre' ht'

/-- Let every step from a state satisfying `I` and `P` keep `I`, and lead to `P` exactly when it
meets `C`. Then `P` holds after every prefix of a run exactly when the run meets
`C`. -/
theorem always_iff_meets {I P : σ → Prop}
    (hinv : ∀ s l s', I s → P s → M.step s l = some s' → I s')
    (hP : ∀ s l s', I s → P s → M.step s l = some s' → (P s' ↔ C s l)) {s s' : σ} {ls : List ι}
    (hr : M.run s ls = some s') (hi : I s) (h0 : P s) :
    (∀ pre t, pre <+: ls → M.run s pre = some t → P t) ↔ M.Meets C s ls :=
  always_iff_meets_of_mem (c := fun _ => True) (fun s l s' _ => hinv s l s')
    (fun s l s' _ => hP s l s') hr (fun _ _ => trivial) hi h0

/-- Let an invariant `J` imply `P`, be kept by every step under a label with `c` that meets `C`, and let
every such step that does not meet `C` falsify `P`. Then `P` holds after every prefix of a run of such
labels exactly when the run meets `C`. -/
theorem always_iff_meets_of_invariant_of_mem {c : ι → Prop} {J P : σ → Prop} (hJ : ∀ s, J s → P s)
    (hkeep : ∀ s l s', c l → J s → C s l → M.step s l = some s' → J s')
    (hbreak : ∀ s l s', c l → J s → ¬ C s l → M.step s l = some s' → ¬ P s') {s s' : σ} {ls : List ι}
    (hr : M.run s ls = some s') (hl : ∀ l ∈ ls, c l) (h0 : J s) :
    (∀ pre t, pre <+: ls → M.run s pre = some t → P t) ↔ M.Meets C s ls := by
  refine always_iff_meets_of_mem (c := c) (I := fun s => P s → J s) (fun s l s' hcl hi hp hst hp' => ?_)
    (fun s l s' hcl hi hp hst => ⟨fun hp' => ?_, fun hc => ?_⟩) hr hl (fun _ => h0) (hJ s h0)
  · by_contra hnot
    have hc : ¬ C s l := fun hc => hnot (hkeep s l s' hcl (hi hp) hc hst)
    exact hbreak s l s' hcl (hi hp) hc hst hp'
  · by_contra hc
    exact hbreak s l s' hcl (hi hp) hc hst hp'
  · exact hJ s' (hkeep s l s' hcl (hi hp) hc hst)

/-- Let an invariant `J` imply `P`, be kept by every step that meets `C`, and let every step that does
not meet `C` falsify `P`. Then `P` holds after every prefix of a run exactly when the run meets `C`. -/
theorem always_iff_meets_of_invariant {J P : σ → Prop} (hJ : ∀ s, J s → P s)
    (hkeep : ∀ s l s', J s → C s l → M.step s l = some s' → J s')
    (hbreak : ∀ s l s', J s → ¬ C s l → M.step s l = some s' → ¬ P s') {s s' : σ} {ls : List ι}
    (hr : M.run s ls = some s') (h0 : J s) :
    (∀ pre t, pre <+: ls → M.run s pre = some t → P t) ↔ M.Meets C s ls :=
  always_iff_meets_of_invariant_of_mem (c := fun _ => True) hJ (fun s l s' _ => hkeep s l s')
    (fun s l s' _ => hbreak s l s') hr (fun _ _ => trivial) h0

/-- A run does not leave a state in which nothing is enabled. -/
theorem eq_of_stuck {s s' : σ} {ls : List ι} (hr : M.run s ls = some s')
    (hs : ∀ l, M.step s l = none) : s' = s := by
  cases ls with
  | nil => exact (Option.some.inj hr).symm
  | cons l ls =>
    obtain ⟨t, ht, -⟩ := run_cons.1 hr
    cases (hs l).symm.trans ht

/-- Let `D` be reached once and for all, and `P` hold of a state with `D` exactly if the step that led to it
met `C`. Then `P` holds at the end of a run that ends with `D` exactly if the run meets `C`. -/
theorem end_iff_meets {I D P : σ → Prop} (hinv : ∀ s l s', I s → M.step s l = some s' → I s')
    (hstuck : ∀ s, I s → D s → ∀ l, M.step s l = none)
    (hP : ∀ s l s', I s → ¬ D s → M.step s l = some s' → ((D s' → P s') ↔ C s l)) {s s' : σ}
    {ls : List ι} (hr : M.run s ls = some s') (hi : I s) (h0 : ¬ D s) (hd : D s') :
    P s' ↔ M.Meets C s ls := by
  have hiff := always_iff_meets (M := M) (I := I) (P := fun s => D s → P s) (C := C)
    (fun s l s' hi _ hst => hinv s l s' hi hst)
    (fun s l s' hi _ hst => hP s l s' hi (fun hds => by
      have := hstuck s hi hds l
      rw [hst] at this
      cases this) hst) hr hi (fun hds => absurd hds h0)
  rw [← hiff]
  constructor
  · rintro hPs pre t ⟨post, rfl⟩ ht hdt
    obtain ⟨t', ht', hpost⟩ := run_append.1 hr
    obtain rfl : t' = t := Option.some.inj (ht'.symm.trans ht)
    have hit : I t' := invariant (M := M) (I := I) hinv ht hi
    obtain rfl := eq_of_stuck hpost (hstuck t' hit hdt)
    exact hPs
  · intro hall
    exact hall ls s' (List.prefix_refl ls) hr hd

/-- Let `P` never come back once it fails, and hold after a step from a state with `P` exactly if the
step met `C`. Then `P` holds at the end of a run exactly if the run meets `C`. -/
theorem end_iff_meets_of_stable {I P : σ → Prop}
    (hinv : ∀ s l s', I s → M.step s l = some s' → I s')
    (hP : ∀ s l s', I s → P s → M.step s l = some s' → (P s' ↔ C s l))
    (hgone : ∀ s l s', I s → M.step s l = some s' → P s' → P s) {s s' : σ} {ls : List ι}
    (hr : M.run s ls = some s') (hi : I s) (h0 : P s) : P s' ↔ M.Meets C s ls := by
  rw [← always_iff_meets (M := M) (fun s l s' hi _ hst => hinv s l s' hi hst) hP hr hi h0]
  refine ⟨?_, fun hall => hall ls s' (List.prefix_refl ls) hr⟩
  rintro hPs pre t ⟨post, rfl⟩ hpre
  obtain ⟨t', ht', hpost⟩ := run_append.1 hr
  obtain rfl : t' = t := Option.some.inj (ht'.symm.trans hpre)
  by_contra hnot
  have hit : I t' := invariant (M := M) hinv hpre hi
  exact (invariant (M := M) (I := fun t => ¬ P t ∧ I t)
    (fun s l s' h hst => ⟨fun hp => h.1 (hgone s l s' h.2 hst hp), hinv s l s' h.2 hst⟩) hpost
    ⟨hnot, hit⟩).1 hPs

/-! ## Ranking functions -/

/-- How many steps of a run satisfy `c` where they are taken. -/
def count (M : StepSystem σ ι) (c : σ → ι → Bool) : σ → List ι → Nat
  | _, [] => 0
  | s, l :: ls =>
    (c s l).toNat +
      match M.step s l with
      | some s' => M.count c s' ls
      | none => 0

/-- A rank that falls under every step bounds the length of a run. -/
theorem length_le_of_rank (M : StepSystem σ ι) {v : σ → Nat}
    (hrank : ∀ s l s', M.step s l = some s' → v s' < v s) {s s' : σ} {ls : List ι}
    (hr : M.run s ls = some s') : v s' + ls.length ≤ v s := by
  induction ls generalizing s with
  | nil =>
    obtain rfl := Option.some.inj hr
    exact Nat.le_refl _
  | cons l ls ih =>
    obtain ⟨t, ht, hrest⟩ := run_cons.1 hr
    have hlt := hrank s l t ht
    have hle := ih hrest
    rw [List.length_cons]
    omega

/-- Let `v` fall under every step that satisfies `c`, on the way to `G`, and grow by `d` at most under a
label with `f`. Then a run with more than `v s` such steps, and `d` more for each of these labels, has
reached `G`. -/
theorem reaches_of_rank_of_credit {I G : σ → Prop} {c : σ → ι → Bool} {v : σ → Nat} {d : Nat}
    {f : ι → Bool} (hinv : ∀ s l s', I s → C s l → M.step s l = some s' → I s')
    (hgoal : ∀ s l s', M.step s l = some s' → G s → G s')
    (hrank : ∀ s l s', I s → C s l → M.step s l = some s' →
      G s' ∨ v s' + (c s l).toNat ≤ v s + d * (f l).toNat)
    {s s' : σ} {ls : List ι} (hr : M.run s ls = some s') (hm : M.Meets C s ls) (hi : I s) :
    G s' ∨ v s' + M.count c s ls ≤ v s + d * ls.countP f := by
  induction ls generalizing s with
  | nil =>
    obtain rfl := Option.some.inj hr
    exact .inr (Nat.le_refl _)
  | cons l ls ih =>
    obtain ⟨t, ht, hrest⟩ := run_cons.1 hr
    obtain ⟨hc, hm'⟩ := (meets_cons ht).1 hm
    have hcount : M.count c s (l :: ls) = (c s l).toNat + M.count c t ls := by
      simp only [count, ht]
    have hcredit : d * (l :: ls).countP f = d * ls.countP f + d * (f l).toNat := by
      rw [List.countP_cons, Nat.mul_add]
      cases f l <;> rfl
    rcases hrank s l t hi hc ht with hg | hv
    · exact .inl (stable hgoal hrest hg)
    · rcases ih hrest hm' (hinv s l t hi hc ht) with hg | hle
      · exact .inl hg
      · exact .inr (by omega)

/-- Let `v` not grow on the way to `G`, and fall under every step that satisfies `c`. Then a run with more
than `v s` such steps has reached `G`. -/
theorem reaches_of_rank {I G : σ → Prop} {c : σ → ι → Bool} {v : σ → Nat}
    (hinv : ∀ s l s', I s → C s l → M.step s l = some s' → I s')
    (hgoal : ∀ s l s', M.step s l = some s' → G s → G s')
    (hrank : ∀ s l s', I s → C s l → M.step s l = some s' → G s' ∨ v s' + (c s l).toNat ≤ v s)
    {s s' : σ} {ls : List ι} (hr : M.run s ls = some s') (hm : M.Meets C s ls) (hi : I s) :
    G s' ∨ v s' + M.count c s ls ≤ v s := by
  have h := reaches_of_rank_of_credit (c := c) (v := v) (d := 0) (f := fun _ => false) hinv hgoal
    (fun s l s' hi hc hs => by simpa only [Nat.zero_mul, Nat.add_zero] using hrank s l s' hi hc hs)
    hr hm hi
  rwa [Nat.zero_mul, Nat.add_zero] at h

/-! ## Simulation -/

/-- The abstract state `a` follows to `s'`: it stays where it is if nothing is visible, and takes the
visible step otherwise. -/
def Follows (N : StepSystem τ κ) (R : σ → τ → Prop) (s' : σ) (a : τ) : Option κ → Prop
  | none => R s' a
  | some k => ∃ a', N.step a k = some a' ∧ R s' a'

/-- `R` relates the states of `M` to those of the abstract system `N` so that every step of `M` is
either invisible or the step of `N` under the label `f` gives it. -/
def Simulates (M : StepSystem σ ι) (N : StepSystem τ κ) (f : σ → ι → Option κ)
    (R : σ → τ → Prop) : Prop :=
  ∀ s l s' a, R s a → M.step s l = some s' → N.Follows R s' a (f s l)

/-- One step of the concrete system leaves the two systems related. -/
theorem Simulates.exists_step {N : StepSystem τ κ} {f : σ → ι → Option κ} {R : σ → τ → Prop}
    (h : M.Simulates N f R) {s s' : σ} {l : ι} (hs : M.step s l = some s') (hR : ∃ a, R s a) :
    ∃ a, R s' a := by
  obtain ⟨a, hRa⟩ := hR
  have hstep := h s l s' a hRa hs
  cases hf : f s l with
  | none => exact ⟨a, by simpa only [hf, Follows] using hstep⟩
  | some k =>
    rw [hf] at hstep
    obtain ⟨b, -, hRb⟩ := hstep
    exact ⟨b, hRb⟩

/-- The labels the abstract system sees along a run. -/
def visible (M : StepSystem σ ι) (f : σ → ι → Option κ) : σ → List ι → List κ
  | _, [] => []
  | s, l :: ls =>
    match M.step s l with
    | some s' => (f s l).toList ++ visible M f s' ls
    | none => []

/-- A simulation carries every run of the concrete system to a run of the abstract one. -/
theorem Simulates.run {N : StepSystem τ κ} {f : σ → ι → Option κ} {R : σ → τ → Prop}
    (h : M.Simulates N f R) {s s' : σ} {ls : List ι} (hr : M.run s ls = some s') {a : τ}
    (hR : R s a) : ∃ a', N.run a (M.visible f s ls) = some a' ∧ R s' a' := by
  induction ls generalizing s a with
  | nil => exact ⟨a, rfl, by simp_all⟩
  | cons l ls ih =>
    obtain ⟨t, ht, hrest⟩ := run_cons.1 hr
    have hstep := h s l t a hR ht
    simp only [visible, ht]
    cases hf : f s l with
    | none => exact ih hrest (by simpa only [hf, Follows] using hstep)
    | some k =>
      obtain ⟨b, hb, hRb⟩ : ∃ b, N.step a k = some b ∧ R t b := by
        simpa only [hf, Follows] using hstep
      obtain ⟨a', ha', hR'⟩ := ih hrest hRb
      exact ⟨a', run_cons.2 ⟨b, hb, ha'⟩, hR'⟩

end StepSystem

end RdmaOnAsio
