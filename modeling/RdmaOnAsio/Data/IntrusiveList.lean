import Mathlib.Data.List.Basic
import Mathlib.Data.List.Nodup
import Mathlib.Tactic.Common

/-!
# Intrusive doubly linked lists

Nodes that carry their own `next` and `prev`, in a memory from which nothing is ever lost: a node that was
freed still holds its last links. A list is a head; `Chain` says which nodes can be reached from it, and
`insert`, `remove` and `walk` are related to the list of these nodes.
-/

namespace RdmaOnAsio

universe u v

/-- The links of every node. -/
structure Links (κ : Type u) where
  next : κ → Option κ := fun _ => none
  prev : κ → Option κ := fun _ => none

namespace Links

variable {κ : Type u} {m m' : Links κ} {p h e : Option κ} {x y : κ} {l l₁ l₂ : List κ}
  {n : Nat}

/-! ## Reachable nodes -/

/-- `for (x = h; x; x = x->next)`: the nodes in the order they are visited; `none` if `n` steps do not reach
the end. -/
def walk (m : Links κ) : Nat → Option κ → Option (List κ)
  | _, none => some []
  | 0, some _ => none
  | n + 1, some x => (m.walk n (m.next x)).map (x :: ·)

/-- From `h` the nodes of `l` follow each other, the first one with `p` before it. -/
def Chain (m : Links κ) (p h : Option κ) : List κ → Prop
  | [] => h = none
  | x :: l => h = some x ∧ m.prev x = p ∧ m.Chain (some x) (m.next x) l

/-- The list with head `h` is well formed and holds `l`. -/
structure IsList (m : Links κ) (h : Option κ) (l : List κ) : Prop where
  chain : m.Chain none h l
  nodup : l.Nodup

theorem Chain.congr (hn : ∀ y ∈ l, m'.next y = m.next y) (hp : ∀ y ∈ l, m'.prev y = m.prev y)
    (hc : m.Chain p h l) : m'.Chain p h l := by
  induction l generalizing p h with
  | nil => exact hc
  | cons x l ih =>
    obtain ⟨hx, hprev, hrest⟩ := hc
    refine ⟨hx, (hp x List.mem_cons_self).trans hprev, ?_⟩
    rw [hn x List.mem_cons_self]
    exact ih (fun y hy => hn y (List.mem_cons_of_mem x hy)) (fun y hy => hp y (List.mem_cons_of_mem x hy))
      hrest

/-- The head of a chain that is not empty is in it. -/
theorem Chain.head_mem (hc : m.Chain p h l) (hx : h = some x) : x ∈ l := by
  cases l with
  | nil => cases hx.symm.trans hc
  | cons y l =>
    obtain rfl := Option.some.inj (hx.symm.trans hc.1)
    exact List.mem_cons_self

/-- A node of a chain leads to a node of it, or to its end. -/
theorem Chain.next_mem (hc : m.Chain p h l) (hx : x ∈ l) (hy : m.next x = some y) : y ∈ l := by
  induction l generalizing p h with
  | nil => cases hx
  | cons z l ih =>
    rcases List.mem_cons.1 hx with rfl | hx
    · exact List.mem_cons_of_mem x (hc.2.2.head_mem hy)
    · exact List.mem_cons_of_mem z (ih hc.2.2 hx)

/-- Before a node of a chain is a node of it, or what is before the chain. -/
theorem Chain.prev_mem (hc : m.Chain p h l) (hx : x ∈ l) (hy : m.prev x = some y) :
    y ∈ l ∨ p = some y := by
  induction l generalizing p h with
  | nil => cases hx
  | cons z l ih =>
    rcases List.mem_cons.1 hx with rfl | hx
    · exact .inr (hc.2.1.symm.trans hy)
    · rcases ih hc.2.2 hx with hmem | hz
      · exact .inl (List.mem_cons_of_mem z hmem)
      · exact .inl (Option.some.inj hz ▸ List.mem_cons_self)

/-- A walk along a chain visits its nodes, in as many steps as there are nodes. -/
theorem Chain.walk_eq (hc : m.Chain p h l) (hn : l.length ≤ n) : m.walk n h = some l := by
  induction l generalizing p h n with
  | nil =>
    obtain rfl : h = none := hc
    cases n <;> rfl
  | cons x l ih =>
    obtain ⟨rfl, -, hrest⟩ := hc
    cases n with
    | zero => exact absurd hn (Nat.not_succ_le_zero _)
    | succ n => rw [walk, ih hrest (Nat.le_of_succ_le_succ hn), Option.map_some]

/-- A chain is determined by its memory and its head. -/
theorem Chain.unique (hc : m.Chain p h l₁) (hc' : m.Chain p h l₂) : l₁ = l₂ :=
  Option.some.inj ((hc.walk_eq (Nat.le_max_left l₁.length l₂.length)).symm.trans
    (hc'.walk_eq (Nat.le_max_right l₁.length l₂.length)))

theorem IsList.nil (m : Links κ) : m.IsList none [] := ⟨rfl, List.nodup_nil⟩

/-! ## Insertion and removal -/

variable [DecidableEq κ]

/-- `x->next = v`. -/
def setNext (m : Links κ) (x : κ) (v : Option κ) : Links κ :=
  { m with next := fun y => if y = x then v else m.next y }

/-- `x->prev = v`. -/
def setPrev (m : Links κ) (x : κ) (v : Option κ) : Links κ :=
  { m with prev := fun y => if y = x then v else m.prev y }

/-- `if (x) x->next = v`. -/
def setNext? (m : Links κ) (x : Option κ) (v : Option κ) : Links κ :=
  match x with
  | some x => m.setNext x v
  | none => m

/-- `if (x) x->prev = v`. -/
def setPrev? (m : Links κ) (x : Option κ) (v : Option κ) : Links κ :=
  match x with
  | some x => m.setPrev x v
  | none => m

/-- Insertion before the head `h`; the node is the new head. -/
def insert (m : Links κ) (h : Option κ) (x : κ) : Links κ :=
  ((m.setNext x h).setPrev x none).setPrev? h (some x)

/-- The links after the removal of a node. -/
def remove (m : Links κ) (x : κ) : Links κ :=
  (((m.setNext? (m.prev x) (m.next x)).setPrev? (m.next x) (m.prev x)).setNext x none).setPrev x none

/-- The head after the removal of a node from the list with head `h`. -/
def headAfter (m : Links κ) (h : Option κ) (x : κ) : Option κ := if h = some x then m.next x else h

theorem next_insert_of_ne (hy : y ≠ x) : (m.insert h x).next y = m.next y := by
  cases h <;> simp [insert, setNext, setPrev, setPrev?, hy]

theorem prev_insert_of_ne (hy : y ≠ x) (hh : h ≠ some y) : (m.insert h x).prev y = m.prev y := by
  cases h with
  | none => simp [insert, setNext, setPrev, setPrev?, hy]
  | some z =>
    have hz : y ≠ z := fun heq => hh (congrArg some heq.symm)
    simp [insert, setNext, setPrev, setPrev?, hy, hz]

theorem next_remove_of_ne (hy : y ≠ x) :
    (m.remove x).next y = if some y = m.prev x then m.next x else m.next y := by
  cases hp : m.prev x <;> cases hn : m.next x <;>
    simp [remove, setNext, setPrev, setNext?, setPrev?, hp, hn, hy]

theorem prev_remove_of_ne (hy : y ≠ x) :
    (m.remove x).prev y = if some y = m.next x then m.prev x else m.prev y := by
  cases hp : m.prev x <;> cases hn : m.next x <;>
    simp [remove, setNext, setPrev, setNext?, setPrev?, hp, hn, hy]

/-- Insertion puts the node in front. -/
theorem IsList.insert (hl : m.IsList h l) (hx : x ∉ l) : (m.insert h x).IsList (some x) (x :: l) := by
  refine ⟨⟨rfl, ?_, ?_⟩, List.nodup_cons.2 ⟨hx, hl.nodup⟩⟩
  · have hh : h ≠ some x := fun heq => hx (hl.chain.head_mem heq)
    cases h with
    | none => simp [Links.insert, setNext, setPrev, setPrev?]
    | some z =>
      have hz : x ≠ z := fun heq => hh (congrArg some heq.symm)
      simp [Links.insert, setNext, setPrev, setPrev?, hz]
  · have hnext : (m.insert h x).next x = h := by
      cases h <;> simp [Links.insert, setNext, setPrev, setPrev?]
    rw [hnext]
    cases l with
    | nil => exact hl.chain
    | cons z l =>
      obtain ⟨rfl, -, hrest⟩ := hl.chain
      have hne : ∀ y ∈ z :: l, y ≠ x := fun y hy heq => hx (heq ▸ hy)
      have hz := hne z List.mem_cons_self
      refine ⟨rfl, by simp [Links.insert, setNext, setPrev, setPrev?], ?_⟩
      rw [next_insert_of_ne hz]
      refine hrest.congr (fun y hy => next_insert_of_ne (hne y (List.mem_cons_of_mem z hy))) fun y hy => ?_
      refine prev_insert_of_ne (hne y (List.mem_cons_of_mem z hy)) fun heq => ?_
      exact (List.nodup_cons.1 hl.nodup).1 (Option.some.inj heq ▸ hy)

/-- Insertion into a list leaves a list alone that it shares no node with. -/
theorem IsList.insert_other {h' : Option κ} {l' : List κ} (hl : m.IsList h l) (hl' : m.IsList h' l')
    (hx : x ∉ l') (hdisj : ∀ y ∈ l, y ∉ l') : (m.insert h x).IsList h' l' :=
  ⟨hl'.chain.congr (fun _ hy => next_insert_of_ne fun heq => hx (heq ▸ hy)) fun y hy =>
    prev_insert_of_ne (fun heq => hx (heq ▸ hy)) fun heq => hdisj y (hl.chain.head_mem heq) hy, hl'.nodup⟩

/-- A chain without a node, and what the removal of that node writes: nothing if the node's neighbours
are not in the chain either. -/
theorem Chain.remove_other (hc : m.Chain p h l) (hx : x ∉ l) (hp : ∀ y ∈ l, some y ≠ m.prev x)
    (hn : ∀ y ∈ l, some y ≠ m.next x) : (m.remove x).Chain p h l := by
  have hne : ∀ y ∈ l, y ≠ x := fun y hy heq => hx (heq ▸ hy)
  refine hc.congr (fun y hy => ?_) fun y hy => ?_
  · rw [next_remove_of_ne (hne y hy), if_neg (hp y hy)]
  · rw [prev_remove_of_ne (hne y hy), if_neg (hn y hy)]

/-- Removal of a node from a chain: what was before it and what was after it follow each other. -/
theorem Chain.remove (hc : m.Chain p h (l₁ ++ x :: l₂)) (hnd : (l₁ ++ x :: l₂).Nodup)
    (hp : ∀ y, p = some y → y ∉ l₁ ++ x :: l₂) :
    (m.remove x).Chain p (if l₁ = [] then m.next x else h) (l₁ ++ l₂) := by
  induction l₁ generalizing p h with
  | nil =>
    obtain ⟨rfl, hprev, hrest⟩ := hc
    obtain ⟨hx, hnd₂⟩ := List.nodup_cons.1 hnd
    rw [if_pos rfl, List.nil_append]
    cases l₂ with
    | nil => exact hrest
    | cons z l₂ =>
      obtain ⟨hz, -, hrest⟩ := hrest
      have hzx : z ≠ x := fun heq => hx (heq ▸ List.mem_cons_self)
      have hpz : ∀ y ∈ z :: l₂, some y ≠ m.prev x := fun y hy heq =>
        hp y (hprev.symm.trans heq.symm) (List.mem_cons_of_mem x hy)
      refine ⟨hz, ?_, ?_⟩
      · rw [prev_remove_of_ne hzx, if_pos hz.symm, hprev]
      · rw [next_remove_of_ne hzx, if_neg (hpz z List.mem_cons_self)]
        refine hrest.remove_other (fun hmem => hx (List.mem_cons_of_mem z hmem))
          (fun y hy => hpz y (List.mem_cons_of_mem z hy)) fun y hy heq => ?_
        exact (List.nodup_cons.1 hnd₂).1 (Option.some.inj (heq.trans hz) ▸ hy)
  | cons w l₁ ih =>
    obtain ⟨rfl, hprev, hrest⟩ := hc
    obtain ⟨hw, hnd'⟩ := List.nodup_cons.1 hnd
    have hwx : w ≠ x := fun heq => hw (heq ▸ List.mem_append_right _ List.mem_cons_self)
    have hxmem : x ∈ l₁ ++ x :: l₂ := List.mem_append_right _ List.mem_cons_self
    refine ⟨if_neg (List.cons_ne_nil _ _), ?_, ?_⟩
    · rw [prev_remove_of_ne hwx, if_neg (fun heq => hw (hrest.next_mem hxmem heq.symm)), hprev]
    · have hnext : (m.remove x).next w = if l₁ = [] then m.next x else m.next w := by
        rw [next_remove_of_ne hwx]
        by_cases hl : l₁ = []
        · subst hl
          rw [if_pos rfl, if_pos hrest.2.1.symm]
        · -- what is before `x` is in `l₁`
          rw [if_neg hl, if_neg]
          intro heq
          obtain ⟨v, l₁, rfl⟩ := List.exists_cons_of_ne_nil hl
          obtain ⟨-, -, htail⟩ := hrest
          rcases htail.prev_mem (List.mem_append_right _ List.mem_cons_self) heq.symm with hmem | hv
          · exact hw (List.mem_cons_of_mem v hmem)
          · exact hw (Option.some.inj hv ▸ List.mem_cons_self)
      rw [hnext]
      exact ih hrest hnd' fun y hy => Option.some.inj hy ▸ hw

/-- Removal takes out the node. -/
theorem IsList.remove (hl : m.IsList h l) (hx : x ∈ l) :
    (m.remove x).IsList (m.headAfter h x) (l.erase x) := by
  obtain ⟨l₁, l₂, rfl⟩ := List.append_of_mem hx
  have hx₁ : x ∉ l₁ := fun hmem =>
    (List.nodup_append.1 hl.nodup).2.2 x hmem x List.mem_cons_self rfl
  have herase : (l₁ ++ x :: l₂).erase x = l₁ ++ l₂ := by
    rw [List.erase_append_right _ hx₁, List.erase_cons_head]
  have hhead : m.headAfter h x = if l₁ = [] then m.next x else h := by
    cases l₁ with
    | nil => exact if_pos hl.chain.1
    | cons w l₁ =>
      have hne : h ≠ some x := fun heq =>
        hx₁ (Option.some.inj (hl.chain.1.symm.trans heq) ▸ List.mem_cons_self)
      rw [headAfter, if_neg hne, if_neg (List.cons_ne_nil _ _)]
  refine ⟨?_, hl.nodup.erase x⟩
  rw [herase, hhead]
  exact hl.chain.remove hl.nodup fun _ hy => by cases hy

/-- Removal from a list leaves a list alone that it shares no node with. -/
theorem IsList.remove_other {h' : Option κ} {l' : List κ} (hl : m.IsList h l) (hx : x ∈ l)
    (hl' : m.IsList h' l') (hdisj : ∀ y ∈ l, y ∉ l') : (m.remove x).IsList h' l' := by
  refine ⟨hl'.chain.remove_other (hdisj x hx) (fun y hy heq => ?_) fun y hy heq => ?_, hl'.nodup⟩
  · rcases hl.chain.prev_mem hx heq.symm with hmem | hnone
    · exact hdisj y hmem hy
    · cases hnone
  · exact hdisj y (hl.chain.next_mem hx heq.symm) hy

/-! ## Many lists in one memory -/

variable {σ : Type v} {heads : σ → Option κ} {owner : κ → Option σ} {i j : σ}

/-- Every list is well formed and holds exactly the nodes that it owns. -/
def Partition (m : Links κ) (heads : σ → Option κ) (owner : κ → Option σ) : Prop :=
  ∀ i, ∃ l, m.IsList (heads i) l ∧ ∀ x, x ∈ l ↔ owner x = some i

omit [DecidableEq κ] in
/-- A list in one memory with others holds its own nodes only. -/
theorem Partition.mem_iff (h : m.Partition heads owner) (hl : m.IsList (heads i) l) :
    x ∈ l ↔ owner x = some i := by
  obtain ⟨l', hl', hmem⟩ := h i
  rw [hl.chain.unique hl'.chain, hmem]

omit [DecidableEq κ] in
theorem Partition.head_owner (h : m.Partition heads owner) (hx : heads i = some x) :
    owner x = some i := by
  obtain ⟨l, hl, hmem⟩ := h i
  exact (hmem x).1 (hl.chain.head_mem hx)

variable [DecidableEq σ]

/-- A node that no list owns is inserted into one of them. -/
theorem Partition.insert (h : m.Partition heads owner) (hx : owner x = none) :
    (m.insert (heads i) x).Partition (Function.update heads i (some x))
      (Function.update owner x (some i)) := by
  obtain ⟨l, hl, hmem⟩ := h i
  have hnot : ∀ {j : σ} {l' : List κ}, (∀ y, y ∈ l' ↔ owner y = some j) → x ∉ l' := fun hmem' hmx => by
    cases hx.symm.trans ((hmem' x).1 hmx)
  intro j
  by_cases hj : j = i
  · subst hj
    refine ⟨x :: l, ?_, fun y => ?_⟩
    · rw [Function.update_self]
      exact hl.insert (hnot hmem)
    · by_cases hy : y = x
      · simp [hy]
      · rw [Function.update_of_ne hy, List.mem_cons, or_iff_right hy, hmem]
  · obtain ⟨l', hl', hmem'⟩ := h j
    refine ⟨l', ?_, fun y => ?_⟩
    · rw [Function.update_of_ne hj]
      refine hl.insert_other hl' (hnot hmem') fun y hy hy' => hj ?_
      exact Option.some.inj (((hmem' y).1 hy').symm.trans ((hmem y).1 hy))
    · by_cases hy : y = x
      · subst hy
        rw [Function.update_self, iff_false_left (hnot hmem')]
        exact fun heq => hj (Option.some.inj heq).symm
      · rw [Function.update_of_ne hy, hmem']

/-- A node is removed from the list that owns it. -/
theorem Partition.remove (h : m.Partition heads owner) (hx : owner x = some i) :
    (m.remove x).Partition (Function.update heads i (m.headAfter (heads i) x))
      (Function.update owner x none) := by
  obtain ⟨l, hl, hmem⟩ := h i
  have hxl : x ∈ l := (hmem x).2 hx
  intro j
  by_cases hj : j = i
  · subst hj
    refine ⟨l.erase x, ?_, fun y => ?_⟩
    · rw [Function.update_self]
      exact hl.remove hxl
    · by_cases hy : y = x
      · subst hy
        simp [hl.nodup.mem_erase_iff]
      · rw [Function.update_of_ne hy, List.mem_erase_of_ne hy, hmem]
  · obtain ⟨l', hl', hmem'⟩ := h j
    have hdisj : ∀ y ∈ l, y ∉ l' := fun y hy hy' =>
      hj (Option.some.inj (((hmem' y).1 hy').symm.trans ((hmem y).1 hy)))
    refine ⟨l', ?_, fun y => ?_⟩
    · rw [Function.update_of_ne hj]
      exact hl.remove_other hxl hl' hdisj
    · by_cases hy : y = x
      · subst hy
        simp [hdisj y hxl]
      · rw [Function.update_of_ne hy, hmem']

end Links

end RdmaOnAsio
