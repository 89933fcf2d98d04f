import Mathlib.Data.List.Basic

/-!
# Loops that change the first match

A loop that changes the first element of a list that satisfies a predicate, and breaks. Run for every
item of another list, it sends each item to one element, and an element sees the items sent to it in
their order.
-/

namespace RdmaOnAsio

universe u v

variable {α : Type u} {β : Type v}

/-- The loop that changes the first element that satisfies `p`, and breaks. -/
def modifyFirst (p : α → Bool) (f : α → α) : List α → List α
  | [] => []
  | a :: l => if p a then f a :: l else a :: modifyFirst p f l

theorem modifyFirst_eq_modify (p : α → Bool) (f : α → α) (l : List α) :
    modifyFirst p f l = l.modify (l.findIdx p) f := by
  induction l with
  | nil => rfl
  | cons a l ih =>
    rw [modifyFirst, List.findIdx_cons]
    cases p a with
    | true => rfl
    | false => simp [ih]

/-- The element that an item is sent to does not depend on the changes, if these keep what is looked for. -/
theorem findIdx_modifyFirst {p q : α → Bool} {f : α → α} (hf : ∀ a, q (f a) = q a) (l : List α) :
    (modifyFirst p f l).findIdx q = l.findIdx q := by
  induction l with
  | nil => rfl
  | cons a l ih =>
    rw [modifyFirst]
    split
    · rw [List.findIdx_cons, List.findIdx_cons, hf]
    · rw [List.findIdx_cons, List.findIdx_cons, ih]

variable {k : β → α → Bool} {f : β → α → α}

/-- An element of the list is changed by the items that it is the first match of, in their order. -/
theorem getElem?_foldl_modifyFirst (hf : ∀ x y a, k x (f y a) = k x a) (items : List β) (l : List α)
    (i : Nat) :
    (items.foldl (fun l x => modifyFirst (k x) (f x) l) l)[i]? =
      l[i]?.map fun a => (items.filter fun x => l.findIdx (k x) == i).foldl (fun a x => f x a) a := by
  induction items generalizing l with
  | nil => simp
  | cons x items ih =>
    have hidx : ∀ y, (modifyFirst (k x) (f x) l).findIdx (k y) = l.findIdx (k y) :=
      fun y => findIdx_modifyFirst (hf y x) l
    rw [List.foldl_cons, ih, List.filter_cons]
    simp only [hidx]
    rw [modifyFirst_eq_modify, List.getElem?_modify]
    by_cases hx : l.findIdx (k x) = i
    · simp only [hx, beq_self_eq_true, if_true, List.foldl_cons]
      cases l[i]? <;> rfl
    · simp only [hx, beq_eq_false_iff_ne.2 hx, if_false, Bool.false_eq_true]
      cases l[i]? <;> rfl

theorem length_foldl_modifyFirst (items : List β) (l : List α) :
    (items.foldl (fun l x => modifyFirst (k x) (f x) l) l).length = l.length := by
  induction items generalizing l with
  | nil => rfl
  | cons x items ih => rw [List.foldl_cons, ih, modifyFirst_eq_modify, List.length_modify]

end RdmaOnAsio
