import Mathlib.Data.List.Perm.Subperm

/-!
# Lists of actors

The parties of a step system are kept in lists, and a step looks one of them up and replaces it or takes
it away. The facts here say what that does to a count and to the rest, and that it is not seen by a filter
that drops others.
-/

namespace RdmaOnAsio

variable {α β : Type*}

/-- Replacing one entry changes a count by that entry. -/
theorem countP_set_of_getElem? {f : α → Bool} {l : List α} {i : Nat} {a b : α}
    (h : l[i]? = some a) :
    (l.set i b).countP f + (if f a then 1 else 0) = l.countP f + if f b then 1 else 0 := by
  obtain ⟨hi, rfl⟩ := List.getElem?_eq_some_iff.1 h
  have hpos : f l[i] = true → 0 < l.countP f := fun hf =>
    List.countP_pos_iff.2 ⟨l[i], List.getElem_mem hi, hf⟩
  rw [List.countP_set hi]
  split_ifs with h1 h2 h2
  · have := hpos h1
    omega
  · have := hpos h1
    omega
  · omega
  · omega

/-- What a search finds is what the removal takes away. -/
theorem perm_cons_eraseP {p : α → Bool} {a : α} :
    ∀ {l : List α}, l.find? p = some a → l.Perm (a :: l.eraseP p)
  | b :: l, h => by
    by_cases hb : p b = true
    · rw [List.find?_cons_of_pos hb] at h
      obtain rfl := Option.some.inj h
      rw [List.eraseP_cons_of_pos hb]
    · rw [List.find?_cons_of_neg hb] at h
      rw [List.eraseP_cons_of_neg hb]
      exact ((perm_cons_eraseP h).cons b).trans (.swap a b _)

/-- A filter that keeps what a search looks for does not change what it finds. -/
theorem find?_filter_of_imp {p q : α → Bool} {l : List α} (h : ∀ a, q a = true → p a = true) :
    (l.filter p).find? q = l.find? q := by
  rw [List.find?_filter]
  congr 1
  funext a
  cases hq : q a with
  | false => simp
  | true => simp [h a hq]

/-- Nor what its removal takes away. -/
theorem eraseP_filter_of_imp {p q : α → Bool} {l : List α} (h : ∀ a, q a = true → p a = true) :
    (l.filter p).eraseP q = (l.eraseP q).filter p := by
  rw [List.eraseP_filter]
  congr 2
  funext a
  cases hq : q a with
  | false => rfl
  | true => exact h a hq

/-- The removal of what a filter drops is not seen. -/
theorem filter_eraseP_of_not {p q : α → Bool} (h : ∀ a, q a = true → p a = false) :
    ∀ l : List α, (l.eraseP q).filter p = l.filter p
  | [] => rfl
  | a :: l => by
    by_cases hq : q a = true
    · rw [List.eraseP_cons_of_pos hq, List.filter_cons_of_neg (by simp [h a hq])]
    · rw [List.eraseP_cons_of_neg hq, List.filter_cons, List.filter_cons, filter_eraseP_of_not h l]

/-- Fewer entries stay fewer when all are changed. -/
theorem subperm_map {xs ys : List α} (f : α → β) (h : xs.Subperm ys) :
    (xs.map f).Subperm (ys.map f) := by
  obtain ⟨zs, hperm, hsub⟩ := h
  exact ⟨zs.map f, hperm.map f, hsub.map f⟩

/-- A filter for one entry keeps that entry, and the opposite filter the others. -/
theorem filter_append_cons {p : α → Bool} {xs ys : List α} {a : α} (ha : p a = true)
    (h : ∀ b ∈ xs ++ ys, p b = false) :
    (xs ++ a :: ys).filter p = [a] ∧ (xs ++ a :: ys).filter (fun b => !p b) = xs ++ ys := by
  have hxs : ∀ b ∈ xs, p b = false := fun b hb => h b (List.mem_append_left _ hb)
  have hys : ∀ b ∈ ys, p b = false := fun b hb => h b (List.mem_append_right _ hb)
  constructor
  · rw [List.filter_append, List.filter_cons_of_pos ha,
      List.filter_eq_nil_iff.2 fun b hb => by simp [hxs b hb],
      List.filter_eq_nil_iff.2 fun b hb => by simp [hys b hb], List.nil_append]
  · rw [List.filter_append, List.filter_cons_of_neg (by simp [ha]),
      List.filter_eq_self.2 fun b hb => by simp [hxs b hb],
      List.filter_eq_self.2 fun b hb => by simp [hys b hb]]

/-- The other entries differ in what all entries differ in. -/
theorem ne_of_nodup_map {f : α → β} {xs ys : List α} {a b : α}
    (h : ((xs ++ a :: ys).map f).Nodup) (hb : b ∈ xs ++ ys) : f b ≠ f a := by
  rw [(List.perm_middle.map f).nodup_iff, List.map_cons, List.nodup_cons] at h
  intro heq
  exact h.1 (heq ▸ List.mem_map_of_mem hb)

/-- If the entries have different names, and no key but its own name, the name of an entry finds that
entry. -/
theorem filter_key {name : α → β} {key : α → Option β} [BEq β] [LawfulBEq β] {queue xs ys : List α}
    {a : α} (hnames : (queue.map name).Nodup) (hkeys : ∀ b ∈ queue, ∀ k, key b = some k → k = name b)
    (hq : queue = xs ++ a :: ys) (ha : key a = some (name a)) :
    queue.filter (fun b => key b == some (name a)) = [a] ∧
      queue.filter (fun b => !(key b == some (name a))) = xs ++ ys := by
  subst hq
  refine filter_append_cons (beq_iff_eq.2 ha) fun b hb => ?_
  rw [beq_eq_false_iff_ne]
  intro hkey
  refine ne_of_nodup_map hnames hb (hkeys b ?_ _ hkey).symm
  rcases List.mem_append.1 hb with hb | hb
  · exact List.mem_append_left _ hb
  · exact List.mem_append_right _ (List.mem_cons_of_mem _ hb)

/-- Nor does a filter find anything where nothing is to be found. -/
theorem filter_of_not {p : α → Bool} {xs : List α} (h : ∀ b ∈ xs, p b = false) :
    xs.filter p = [] ∧ xs.filter (fun b => !p b) = xs :=
  ⟨List.filter_eq_nil_iff.2 fun b hb => by simp [h b hb],
    List.filter_eq_self.2 fun b hb => by simp [h b hb]⟩

/-- A change of the entries with some property changes nothing if these are as the change would leave
them. -/
theorem map_of_fixed {p : α → Bool} {f : α → α} {xs : List α} (h : ∀ b ∈ xs, p b = true → f b = b) :
    xs.map (fun b => if p b then f b else b) = xs := by
  refine (List.map_congr_left fun b hb => ?_).trans (List.map_id xs)
  by_cases hp : p b = true
  · rw [if_pos hp]
    exact h b hb hp
  · exact if_neg hp

/-- A change of some entries keeps whatever it keeps of each. -/
theorem map_changed {f : α → β} {g : α → α} {p : α → Prop} [DecidablePred p]
    (h : ∀ a, f (g a) = f a) (xs : List α) :
    (xs.map fun a => if p a then g a else a).map f = xs.map f := by
  rw [List.map_map]
  refine List.map_congr_left fun a _ => ?_
  by_cases hp : p a
  · simp only [Function.comp_apply, if_pos hp, h]
  · simp only [Function.comp_apply, if_neg hp]

/-- If the entries have different names, a change of those with the name of an entry changes that entry. -/
theorem map_name {name : α → β} {f : α → α} [BEq β] [LawfulBEq β] {queue xs ys : List α} {a : α}
    (hnames : (queue.map name).Nodup) (hq : queue = xs ++ a :: ys) :
    queue.map (fun b => if name b == name a then f b else b) = xs ++ f a :: ys := by
  subst hq
  have hsame : ∀ b ∈ xs ++ ys, (name b == name a) = true → f b = b := fun b hb heq =>
    absurd (beq_iff_eq.1 heq) (ne_of_nodup_map hnames hb)
  rw [List.map_append, List.map_cons, if_pos (beq_self_eq_true _),
    map_of_fixed (p := fun b => name b == name a) fun b hb => hsame b (List.mem_append_left _ hb),
    map_of_fixed (p := fun b => name b == name a) fun b hb => hsame b (List.mem_append_right _ hb)]

end RdmaOnAsio
