import Mathlib.Data.List.SplitBy
import Mathlib.Data.List.Perm.Basic
import Mathlib.Order.Basic

/-!
# Grouping a list by a key

`Groups key l groups` says that `groups` collects the elements of `l` by their keys: one group for every
key that occurs, with the elements that have it, each as often as it occurs. Cutting a list where the
key changes groups it as soon as the list is sorted by the key, and what is grouped does not depend on
the order.
-/

namespace RdmaOnAsio

universe u v

variable {α : Type u} {κ : Type v} {key : α → κ} {l l' : List α} {groups : List (List α)}

/-- `groups` are the elements of `l` by their keys. -/
structure Groups (key : α → κ) (l : List α) (groups : List (List α)) : Prop where
  nonempty : ∀ g ∈ groups, g ≠ []
  uniform : ∀ g ∈ groups, ∀ a ∈ g, ∀ b ∈ g, key a = key b
  distinct : groups.Pairwise fun g h => ∀ a ∈ g, ∀ b ∈ h, key a ≠ key b
  perm : groups.flatten.Perm l

namespace Groups

theorem of_perm (h : Groups key l groups) (hp : l.Perm l') : Groups key l' groups :=
  ⟨h.nonempty, h.uniform, h.distinct, h.perm.trans hp⟩

/-- A key occurs in a group exactly if it occurs in the list. -/
theorem exists_group_iff (h : Groups key l groups) (k : κ) :
    (∃ g ∈ groups, ∃ a ∈ g, key a = k) ↔ ∃ a ∈ l, key a = k := by
  constructor
  · rintro ⟨g, hg, a, ha, hk⟩
    exact ⟨a, h.perm.mem_iff.1 (List.mem_flatten.2 ⟨g, hg, ha⟩), hk⟩
  · rintro ⟨a, ha, hk⟩
    obtain ⟨g, hg, hag⟩ := List.mem_flatten.1 (h.perm.mem_iff.2 ha)
    exact ⟨g, hg, a, hag, hk⟩

variable [DecidableEq κ]

/-- The elements with the key of a group are the group. -/
theorem filter_flatten (h : Groups key l groups) {g : List α} (hg : g ∈ groups) {a : α} (ha : a ∈ g) :
    groups.flatten.filter (fun b => key b = key a) = g := by
  obtain ⟨pre, post, rfl⟩ := List.append_of_mem hg
  have hself : g.filter (fun b => key b = key a) = g :=
    List.filter_eq_self.2 fun b hb => decide_eq_true (h.uniform g hg b hb a ha)
  have hdistinct := List.pairwise_append.1 h.distinct
  have hpre : pre.flatten.filter (fun b => key b = key a) = [] := by
    refine List.filter_eq_nil_iff.2 fun b hb => ?_
    obtain ⟨f, hf, hbf⟩ := List.mem_flatten.1 hb
    simpa using hdistinct.2.2 f hf g List.mem_cons_self b hbf a ha
  have hpost : post.flatten.filter (fun b => key b = key a) = [] := by
    refine List.filter_eq_nil_iff.2 fun b hb => ?_
    obtain ⟨f, hf, hbf⟩ := List.mem_flatten.1 hb
    have hne := (List.pairwise_cons.1 hdistinct.2.1).1 f hf a ha b hbf
    simpa using fun he => hne he.symm
  rw [List.flatten_append, List.flatten_cons, List.filter_append, List.filter_append, hpre, hself,
    hpost, List.nil_append, List.append_nil]

/-- A group has the elements of the list with its key, each as often as the list. -/
theorem group_perm (h : Groups key l groups) {g : List α} (hg : g ∈ groups) {a : α} (ha : a ∈ g) :
    g.Perm (l.filter fun b => key b = key a) := by
  have hp := h.perm.filter fun b => key b = key a
  rwa [h.filter_flatten hg ha] at hp

end Groups

/-! ## Cutting a sorted list -/

/-- Two relations that hold along a list hold along it together. -/
theorem isChain_and {R S : α → α → Prop} (hr : l.IsChain R) (hs : l.IsChain S) :
    l.IsChain fun a b => R a b ∧ S a b := by
  induction l with
  | nil => exact .nil
  | cons a l ih =>
    obtain ⟨hra, hrl⟩ := List.isChain_cons.1 hr
    obtain ⟨hsa, hsl⟩ := List.isChain_cons.1 hs
    exact List.isChain_cons.2 ⟨fun b hb => ⟨hra b hb, hsa b hb⟩, ih hrl hsl⟩

/-- A key that does not change along a list is the same for all its elements. -/
theorem eq_of_isChain (h : l.IsChain fun a b => key a = key b) :
    ∀ a ∈ l, ∀ b ∈ l, key a = key b := by
  let R : α → α → Prop := fun a b => key a = key b
  have : Trans R R R := ⟨Eq.trans⟩
  have : Std.Symm R := ⟨fun _ _ => Eq.symm⟩
  have hpair : l.Pairwise R := List.IsChain.pairwise h
  intro a ha b hb
  exact List.Pairwise.forall_of_forall (R := R) (fun _ _ => rfl) hpair ha hb

variable [PartialOrder κ]

/-- All keys of `g` are below those of `h`, which is not empty. -/
def Below (key : α → κ) (g h : List α) : Prop := h ≠ [] ∧ ∀ a ∈ g, ∀ b ∈ h, key a < key b

theorem Below.trans {f g h : List α} (hfg : Below key f g) (hgh : Below key g h) : Below key f h := by
  refine ⟨hgh.1, fun a ha c hc => ?_⟩
  obtain ⟨b, hb⟩ := List.exists_mem_of_ne_nil g hfg.1
  exact (hfg.2 a ha b hb).trans (hgh.2 b hb c hc)

/-- The groups of a sorted list follow one another with growing keys: within a group the key does not
change, and where it changes it grows. -/
theorem pairwise_below_splitBy [DecidableEq κ] (hsorted : l.Pairwise fun a b => key a ≤ key b) :
    (l.splitBy fun a b => key a = key b).Pairwise (Below key) := by
  have hle := hsorted
  rw [← List.flatten_splitBy (fun a b => decide (key a = key b)) l, List.pairwise_flatten] at hle
  have huniform : ∀ g ∈ l.splitBy fun a b => key a = key b, ∀ a ∈ g, ∀ b ∈ g, key a = key b :=
    fun g hg => eq_of_isChain ((List.isChain_of_mem_splitBy hg).imp fun _ _ h => of_decide_eq_true h)
  have hboth := isChain_and hle.2.isChain
    (List.isChain_getLast_head_splitBy (fun a b => decide (key a = key b)) l)
  have hchain : (l.splitBy fun a b => key a = key b).IsChain (Below key) := by
    refine hboth.imp_of_mem_imp fun g h hg hh hgh => ?_
    obtain ⟨hkeys, hgn, hhn, hdiff⟩ := hgh
    refine ⟨hhn, fun a ha b hb => lt_of_le_of_ne (hkeys a ha b hb) fun hab => ?_⟩
    refine of_decide_eq_false hdiff ?_
    rw [huniform g hg _ (List.getLast_mem hgn) a ha, hab, huniform h hh b hb _ (List.head_mem hhn)]
  have : Trans (Below key) (Below key) (Below key) := ⟨Below.trans⟩
  exact hchain.pairwise

/-- A sorted list cut where the key changes is grouped by the key. -/
theorem groups_splitBy [DecidableEq κ] (hsorted : l.Pairwise fun a b => key a ≤ key b) :
    Groups key l (l.splitBy fun a b => key a = key b) where
  nonempty _ := List.ne_nil_of_mem_splitBy
  uniform _ hg := eq_of_isChain ((List.isChain_of_mem_splitBy hg).imp fun _ _ h => of_decide_eq_true h)
  distinct := (pairwise_below_splitBy hsorted).imp fun h a ha b hb => (h.2 a ha b hb).ne
  perm := by rw [List.flatten_splitBy]

end RdmaOnAsio
