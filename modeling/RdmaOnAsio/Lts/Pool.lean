import RdmaOnAsio.Lts.Basic

/-!
# Objects that are moved

The objects of one kind: they are constructed one after another, take steps one at a time, and what one
of them holds can be moved into a new object or into one that exists. An object that was moved from stays
and can be used again.
-/

namespace RdmaOnAsio

universe u v

/-- A kind of object. The two moves take the object moved into, if it exists, and the one moved from, and
give both back; `none` means that the move is not allowed. -/
structure Movable (σ : Type u) (ι : Type v) where
  system : StepSystem σ ι
  construct : σ
  moveConstruct : σ → Option (σ × σ)
  moveAssign : σ → σ → Option (σ × σ)

/-- The steps of a pool of objects, which are told by their index. -/
inductive PoolLabel (ι : Type v)
  | construct
  | moveConstruct (other : Nat)
  | moveAssign (i other : Nat)
  | on (i : Nat) (l : ι)
deriving DecidableEq, Repr

namespace Movable

variable {σ : Type u} {ι : Type v}

/-- One step of the pool. To move an object into itself does nothing. -/
def step (M : Movable σ ι) (s : List σ) : PoolLabel ι → Option (List σ)
  | .construct => some (s ++ [M.construct])
  | .moveConstruct j =>
    match s[j]?.bind M.moveConstruct with
    | some (impl, other) => some (s.set j other ++ [impl])
    | none => none
  | .moveAssign i j =>
    if i = j then some s
    else
      match s[i]?, s[j]? with
      | some impl, some other =>
        match M.moveAssign impl other with
        | some (impl, other) => some ((s.set i impl).set j other)
        | none => none
      | _, _ => none
  | .on i l =>
    match s[i]?.bind fun impl => M.system.step impl l with
    | some impl => some (s.set i impl)
    | none => none

/-- The objects of a kind. -/
def pool (M : Movable σ ι) : StepSystem (List σ) (PoolLabel ι) := ⟨M.step⟩

/-- A condition on the steps of an object, for the steps of the pool. -/
def onSteps (C : σ → ι → Bool) (s : List σ) : PoolLabel ι → Bool
  | .on i l => s[i]?.all fun impl => C impl l
  | .construct | .moveConstruct _ | .moveAssign .. => true

/-- What holds of every step of an object holds of all runs of the pool. -/
theorem meets_onSteps {M : Movable σ ι} {C : σ → ι → Bool} (h : ∀ a l, C a l = true) (s : List σ)
    (ls : List (PoolLabel ι)) : M.pool.Meets (fun s l => onSteps C s l = true) s ls := by
  refine StepSystem.meets_of_mem (fun l _ s => ?_) s
  cases l with
  | on i l =>
    rw [onSteps, Option.all_eq_true]
    exact fun a _ => h a l
  | _ => rfl

/-- Two conditions that agree on the steps an object can take are met by the same runs of the pool. -/
theorem meets_onSteps_congr {M : Movable σ ι} {C D : σ → ι → Bool}
    (h : ∀ a l b, M.system.step a l = some b → C a l = D a l) {s t : List σ} {ls : List (PoolLabel ι)}
    (hr : M.pool.run s ls = some t) :
    M.pool.Meets (fun s l => onSteps C s l = true) s ls ↔
      M.pool.Meets (fun s l => onSteps D s l = true) s ls := by
  refine StepSystem.meets_congr (fun s l s' hst => ?_) hr
  cases l with
  | on i l =>
    change M.step s (.on i l) = some s' at hst
    simp only [step] at hst
    split at hst
    · rename_i b hb
      obtain ⟨a, ha, hab⟩ := Option.bind_eq_some_iff.1 hb
      simp only [onSteps, ha, Option.all_some, h a l b hab]
    · cases hst
  | _ => exact Iff.rfl

end Movable

end RdmaOnAsio
