import Mathlib.Data.List.Basic
import RdmaOnAsio.Lts.Basic

/-!
# Resources owned by objects that are moved

A resource is acquired by the constructor of an object, passes from object to object when they are
moved, and is given up by the destructor of its last owner, or by a move assignment into an object that
still owns one. What the two do to the resource is up to the kind of object. As long as they do the
same, every resource is given up once, in that way, when its owner goes.
-/

namespace RdmaOnAsio

universe u v

/-- A kind of owner. `acquire` is what the constructor gets hold of under the answers of the
environment, if anything and if it does not throw; `destroy` is what the destructor does to the
resource, and `overwrite` what a move assignment does to the one that the target owned. -/
structure Owning (ρ : Type u) (ν : Type v) where
  acquire : ν → Option (Option ρ)
  destroy : ρ → ρ
  overwrite : ρ → ρ

namespace Owning

variable {ρ : Type u} {ν : Type v}

/-- An object: it owns a resource, was moved from, or is gone. -/
inductive Object
  | owner (r : Nat)
  | empty
  | gone
deriving DecidableEq, Repr

/-- The objects, the resources as they are and as they were acquired. -/
structure State (ρ : Type u) where
  objects : List Object := []
  resources : List ρ := []
  acquired : List ρ := []
deriving DecidableEq, Repr

/-- What happens to the objects. -/
inductive Label (ν : Type v)
  | construct (answers : ν)
  | moveConstruct (other : Nat)
  | moveAssign (i other : Nat)
  | destroy (i : Nat)
deriving DecidableEq, Repr

namespace State

/-- The object gives up what it owns. -/
def giveUp (s : State ρ) (f : ρ → ρ) : Object → List ρ
  | .owner r => s.resources.modify r f
  | .empty | .gone => s.resources

end State

/-- One step. A constructor that throws leaves everything as it was, and so does the assignment of an object
to itself. -/
def step (M : Owning ρ ν) (s : State ρ) : Label ν → Option (State ρ)
  | .construct answers =>
    match M.acquire answers with
    | some (some r) =>
      some {
        objects := s.objects ++ [.owner s.resources.length]
        resources := s.resources ++ [r]
        acquired := s.acquired ++ [r] }
    | some none => some { s with objects := s.objects ++ [.empty] }
    | none => some s
  | .moveConstruct j =>
    match s.objects[j]? with
    | some o => if o = .gone then none else some { s with objects := s.objects.set j .empty ++ [o] }
    | none => none
  | .moveAssign i j =>
    match s.objects[i]?, s.objects[j]? with
    | some target, some o =>
      if target = .gone ∨ o = .gone then none
      else if i = j then some s
      else
        some { s with
          objects := (s.objects.set i o).set j .empty
          resources := s.giveUp M.overwrite target }
    | _, _ => none
  | .destroy i =>
    match s.objects[i]? with
    | some o =>
      if o = .gone then none
      else some { s with objects := s.objects.set i .gone, resources := s.giveUp M.destroy o }
    | none => none

/-- The objects of a kind. -/
def objects (M : Owning ρ ν) : StepSystem (State ρ) (Label ν) := ⟨M.step⟩

namespace State

/-- How many objects own the resource. -/
def owners (s : State ρ) (r : Nat) : Nat := s.objects.count (.owner r)

/-- The `i`-th object owns a resource. -/
def owns (s : State ρ) (i : Nat) : Bool :=
  match s.objects[i]? with
  | some (.owner _) => true
  | _ => false

/-- Every resource is owned by one object and as it was acquired, or by none and given up in the way of the
destructor. -/
def Balanced (M : Owning ρ ν) (s : State ρ) : Prop :=
  ∀ r a b, s.acquired[r]? = some a → s.resources[r]? = some b →
    (s.owners r = 1 ∧ b = a) ∨ (s.owners r = 0 ∧ b = M.destroy a)

end State

/-- No object is moved into one that still owns a resource. -/
def spares (s : State ρ) : Label ν → Bool
  | .moveAssign i j => i == j || !s.owns i
  | .construct _ | .moveConstruct _ | .destroy _ => true

/-! ## What a step does to one resource -/

variable {M : Owning ρ ν} {s s' : State ρ} {l : Label ν} {i k r : Nat} {o t : Object}

/-- What an object has of the resource. -/
def Object.share (r : Nat) (o : Object) : Nat := if o = .owner r then 1 else 0

@[simp] theorem Object.share_owner : Object.share r (.owner k) = if k = r then 1 else 0 := by
  simp [Object.share]

@[simp] theorem Object.share_empty : Object.share r .empty = 0 := rfl

@[simp] theorem Object.share_gone : Object.share r .gone = 0 := rfl

theorem count_set {objects : List Object} (hi : objects[i]? = some o) :
    (objects.set i t).count (.owner r) + o.share r = objects.count (.owner r) + t.share r := by
  obtain ⟨hlt, hget⟩ := List.getElem?_eq_some_iff.1 hi
  rw [List.count_set hlt, hget]
  have hpos : (if (o == Object.owner r) = true then 1 else 0) ≤ objects.count (.owner r) := by
    split_ifs with ho
    · exact List.count_pos_iff.2 (List.mem_iff_getElem.2 ⟨i, hlt, hget.trans (eq_of_beq ho)⟩)
    · exact Nat.zero_le _
  simp only [Object.share, beq_iff_eq] at hpos ⊢
  omega

theorem count_append : (s.objects ++ [o]).count (.owner r) = s.owners r + o.share r := by
  by_cases h : o = .owner r <;> simp [State.owners, Object.share, List.count_append, h]

/-- What one step does to the resources and to the numbers of their owners. -/
inductive Effect (M : Owning ρ ν) (s s' : State ρ) : Bool → Prop
  | acquire (answers : ν) (a : ρ) (ha : M.acquire answers = some (some a))
      (hr : s'.resources = s.resources ++ [a]) (hq : s'.acquired = s.acquired ++ [a])
      (ho : ∀ r, s'.owners r = s.owners r + if s.resources.length = r then 1 else 0) :
    Effect M s s' true
  | move (hr : s'.resources = s.resources) (hq : s'.acquired = s.acquired)
      (ho : ∀ r, s'.owners r = s.owners r) : Effect M s s' true
  | destroy (k : Nat) (hr : s'.resources = s.resources.modify k M.destroy)
      (hq : s'.acquired = s.acquired)
      (ho : ∀ r, s'.owners r + (if k = r then 1 else 0) = s.owners r) : Effect M s s' true
  | overwrite (k : Nat) (hr : s'.resources = s.resources.modify k M.overwrite)
      (hq : s'.acquired = s.acquired)
      (ho : ∀ r, s'.owners r + (if k = r then 1 else 0) = s.owners r) : Effect M s s' false

theorem Effect.of_moveConstruct {j : Nat} (hst : M.step s (.moveConstruct j) = some s') :
    Effect M s s' true := by
  simp only [step] at hst
  split at hst
  · next o hj =>
    split_ifs at hst
    obtain rfl := Option.some.inj hst
    refine .move rfl rfl fun r => ?_
    have hset := count_set (r := r) (t := .empty) hj
    show (s.objects.set j .empty ++ [o]).count (.owner r) = s.objects.count (.owner r)
    rw [count_append (s := { s with objects := s.objects.set j .empty })]
    simpa [State.owners] using hset
  · cases hst

theorem Effect.of_moveAssign {j : Nat} (hst : M.step s (.moveAssign i j) = some s') :
    Effect M s s' (spares s (.moveAssign i j : Label ν)) := by
  simp only [step] at hst
  split at hst
  · next target o hi hj =>
    split_ifs at hst with hgone hij
    · obtain rfl := Option.some.inj hst
      rw [spares, show (i == j) = true from beq_iff_eq.2 hij, Bool.true_or]
      exact .move rfl rfl fun _ => rfl
    · obtain rfl := Option.some.inj hst
      have hj' : (s.objects.set i o)[j]? = some o := by
        rw [List.getElem?_set_ne hij]
        exact hj
      have hcount : ∀ r, ((s.objects.set i o).set j .empty).count (.owner r) + target.share r =
          s.objects.count (.owner r) := by
        intro r
        have hset := count_set (r := r) (t := o) hi
        have hset' := count_set (r := r) (t := .empty) hj'
        rw [Object.share_empty] at hset'
        omega
      cases target with
      | gone => exact absurd (.inl rfl) hgone
      | empty =>
        rw [spares, show s.owns i = false by simp [State.owns, hi], Bool.not_false, Bool.or_true]
        exact .move rfl rfl fun r => hcount r
      | owner k =>
        rw [spares, show s.owns i = true by simp [State.owns, hi],
          show (i == j) = false from beq_eq_false_iff_ne.2 hij]
        exact .overwrite k rfl rfl fun r => by
          rw [← Object.share_owner]
          exact hcount r
  · cases hst

theorem Effect.of_destroy (hst : M.step s (.destroy i) = some s') : Effect M s s' true := by
  simp only [step] at hst
  split at hst
  · next o hi =>
    split_ifs at hst with hgone
    obtain rfl := Option.some.inj hst
    have hset := fun r => count_set (r := r) (t := .gone) hi
    cases o with
    | gone => exact absurd rfl hgone
    | empty => exact .move rfl rfl fun r => hset r
    | owner k =>
      refine .destroy k rfl rfl fun r => ?_
      rw [← Object.share_owner]
      exact hset r
  · cases hst

theorem Effect.of_step (hst : M.step s l = some s') : Effect M s s' (spares s l) := by
  cases l with
  | construct answers =>
    simp only [step] at hst
    split at hst <;> obtain rfl := Option.some.inj hst
    · next a ha =>
      refine .acquire answers a ha rfl rfl fun r => ?_
      rw [← Object.share_owner]
      exact count_append
    · exact .move rfl rfl fun r => count_append
    · exact .move rfl rfl fun _ => rfl
  | moveConstruct j => exact .of_moveConstruct hst
  | moveAssign i j => exact .of_moveAssign hst
  | destroy i => exact .of_destroy hst

/-! ## Every resource is given up once -/

/-- Every resource is owned by one object and as it was acquired, or by none and given up in one way or the
other. -/
structure Settled (M : Owning ρ ν) (s : State ρ) : Prop where
  length : s.resources.length = s.acquired.length
  fresh : ∀ r, s.resources.length ≤ r → s.owners r = 0
  acquired : ∀ a ∈ s.acquired, ∃ answers, M.acquire answers = some (some a)
  kept : ∀ r a b, s.acquired[r]? = some a → s.resources[r]? = some b →
    (s.owners r = 1 ∧ b = a) ∨ (s.owners r = 0 ∧ (b = M.destroy a ∨ b = M.overwrite a))

theorem Settled.initial : Settled M {} :=
  ⟨rfl, fun _ _ => rfl, fun _ h => absurd h List.not_mem_nil, fun r a b h => by simp at h⟩

/-- A resource is given up by its owner, which is the only one. -/
theorem Settled.giveUp {f : ρ → ρ} (h : Settled M s) (hf : f = M.destroy ∨ f = M.overwrite)
    (hr : s'.resources = s.resources.modify k f) (hq : s'.acquired = s.acquired)
    (ho : ∀ r, s'.owners r + (if k = r then 1 else 0) = s.owners r) : Settled M s' := by
  refine ⟨by rw [hr, hq, List.length_modify, h.length], fun r hle => ?_, by rw [hq]; exact h.acquired,
    fun r a b ha hb => ?_⟩
  · rw [hr, List.length_modify] at hle
    have hfresh := h.fresh r hle
    have hown := ho r
    omega
  · rw [hq] at ha
    rw [hr, List.getElem?_modify] at hb
    obtain ⟨b', hb', rfl⟩ := Option.map_eq_some_iff.1 hb
    have hown := ho r
    by_cases hk : k = r
    · rw [if_pos hk] at hown ⊢
      rcases h.kept r a b' ha hb' with ⟨hone, rfl⟩ | ⟨hzero, -⟩
      · refine .inr ⟨by omega, ?_⟩
        rcases hf with rfl | rfl
        · exact .inl rfl
        · exact .inr rfl
      · omega
    · rw [if_neg hk] at hown ⊢
      rw [Nat.add_zero] at hown
      rw [hown]
      exact h.kept r a b' ha hb'

theorem Settled.effect {b : Bool} (h : Settled M s) (he : Effect M s s' b) : Settled M s' := by
  cases he with
  | acquire answers a ha hr hq ho =>
    refine ⟨by simp [hr, hq, h.length], fun r hle => ?_, fun x hx => ?_, fun r x b hx hb => ?_⟩
    · rw [hr, List.length_append, List.length_singleton] at hle
      rw [ho, h.fresh r (by omega), if_neg (by omega)]
    · rw [hq] at hx
      rcases List.mem_append.1 hx with hx | hx
      · exact h.acquired x hx
      · exact ⟨answers, by rw [List.mem_singleton.1 hx]; exact ha⟩
    · rw [hq, List.getElem?_append] at hx
      rw [hr, List.getElem?_append, h.length] at hb
      rw [ho, h.length]
      by_cases hlt : r < s.acquired.length
      · rw [if_pos hlt] at hx hb
        rw [if_neg (by omega), Nat.add_zero]
        exact h.kept r x b hx hb
      · rw [if_neg hlt] at hx hb
        obtain ⟨h0, rfl⟩ : r - s.acquired.length = 0 ∧ a = x := by
          cases hd : r - s.acquired.length with
          | zero => simpa [hd] using hx
          | succ n => simp [hd] at hx
        have hlen := h.length
        rw [h0] at hb
        refine .inl ⟨?_, by simpa using hb.symm⟩
        rw [h.fresh r (by omega), if_pos (by omega)]
  | move hr hq ho =>
    refine ⟨by rw [hr, hq, h.length], fun r hle => ?_, by rw [hq]; exact h.acquired, fun r a b ha hb => ?_⟩
    · rw [ho]
      exact h.fresh r (by rwa [hr] at hle)
    · rw [ho]
      exact h.kept r a b (by rwa [hq] at ha) (by rwa [hr] at hb)
  | destroy k hr hq ho => exact h.giveUp (.inl rfl) hr hq ho
  | overwrite k hr hq ho => exact h.giveUp (.inr rfl) hr hq ho

theorem Settled.run {ls : List (Label ν)} (hr : M.objects.run {} ls = some s) : Settled M s :=
  StepSystem.invariant (M := M.objects) (fun _ _ _ h hst => h.effect (.of_step hst)) hr .initial

/-- A resource is what its constructor got hold of, or was given up. -/
theorem Settled.origin {b : ρ} (h : Settled M s) (hb : s.resources[r]? = some b) :
    ∃ answers a, M.acquire answers = some (some a) ∧ s.acquired[r]? = some a := by
  have hlt := (List.getElem?_eq_some_iff.1 hb).1
  obtain ⟨a, ha⟩ : ∃ a, s.acquired[r]? = some a := ⟨_, List.getElem?_eq_getElem (h.length ▸ hlt)⟩
  obtain ⟨answers, hans⟩ := h.acquired a (List.mem_of_getElem? ha)
  exact ⟨answers, a, hans, ha⟩

/-- Where a move assignment gives up what it overwrites as the destructor does, every resource is given
up once and in that way. -/
theorem balanced_of_eq (heq : M.overwrite = M.destroy) {ls : List (Label ν)}
    (hr : M.objects.run {} ls = some s) : s.Balanced M := by
  intro r a b ha hb
  rcases (Settled.run hr).kept r a b ha hb with h | ⟨hzero, hd | hov⟩
  · exact .inl h
  · exact .inr ⟨hzero, hd⟩
  · exact .inr ⟨hzero, by rw [hov, heq]⟩

/-- Nothing is done to a resource that nobody owns. -/
theorem Effect.unowned {b : Bool} {x y : ρ} (he : Effect M s s' b)
    (hlen : s.resources.length = s.acquired.length) (hx : s.acquired[r]? = some x)
    (hy : s.resources[r]? = some y) (hzero : s.owners r = 0) :
    s'.acquired[r]? = some x ∧ s'.resources[r]? = some y ∧ s'.owners r = 0 := by
  have hlt := (List.getElem?_eq_some_iff.1 hy).1
  have hmodify : ∀ {k : Nat} {f : ρ → ρ}, s'.resources = s.resources.modify k f →
      s'.owners r + (if k = r then 1 else 0) = s.owners r →
        s'.resources[r]? = some y ∧ s'.owners r = 0 := by
    intro k f hr hown
    have hk : k ≠ r := fun hk => by
      rw [if_pos hk] at hown
      omega
    rw [if_neg hk] at hown
    exact ⟨by simp [hr, hk, hy], hown.trans hzero⟩
  cases he with
  | acquire answers a ha hr hq ho =>
    refine ⟨?_, ?_, ?_⟩
    · rw [hq, List.getElem?_append_left (hlen ▸ hlt)]
      exact hx
    · rw [hr, List.getElem?_append_left hlt]
      exact hy
    · rw [ho, hzero, if_neg (by omega)]
  | move hr hq ho => exact ⟨hq ▸ hx, hr ▸ hy, (ho r).trans hzero⟩
  | destroy k hr hq ho => exact ⟨hq ▸ hx, hmodify hr (ho r)⟩
  | overwrite k hr hq ho => exact ⟨hq ▸ hx, hmodify hr (ho r)⟩

/-- A resource that was overwritten stays so. -/
theorem Effect.unbalanced {b : Bool} (h : Settled M s) (he : Effect M s s' b) (hb : s'.Balanced M) :
    s.Balanced M := by
  intro r x y hx hy
  rcases h.kept r x y hx hy with hown | ⟨hzero, -⟩
  · exact .inl hown
  · obtain ⟨hx', hy', hzero'⟩ := he.unowned h.length hx hy hzero
    rcases hb r x y hx' hy' with ⟨hone, -⟩ | ⟨-, hd⟩
    · omega
    · exact .inr ⟨hzero, hd⟩

/-- A step that spares every owner keeps the balance: it is a step of owners that never overwrite. -/
theorem Effect.balanced (h : Settled M s) (he : Effect M s s' true) (hb : s.Balanced M) :
    s'.Balanced M := by
  have hs : Settled { M with overwrite := M.destroy } s :=
    ⟨h.length, h.fresh, h.acquired, fun r a b ha hb' =>
      (hb r a b ha hb').imp_right fun hgone => ⟨hgone.1, .inl hgone.2⟩⟩
  have he' : Effect { M with overwrite := M.destroy } s s' true := by
    cases he with
    | acquire answers a ha hr hq ho => exact .acquire answers a ha hr hq ho
    | move hr hq ho => exact .move hr hq ho
    | destroy k hr hq ho => exact .destroy k hr hq ho
  intro r a b ha hb'
  exact ((hs.effect he').kept r a b ha hb').imp_right fun hgone => ⟨hgone.1, hgone.2.elim id id⟩

/-- Overwriting an owner gives its resource up in another way than the destructor does. -/
theorem Effect.overwritten (hne : ∀ answers a, M.acquire answers = some (some a) → M.overwrite a ≠ M.destroy a)
    (h : Settled M s) (he : Effect M s s' false) : ¬ s'.Balanced M := by
  cases he with
  | overwrite k hr hq ho =>
    have hown := ho k
    rw [if_pos rfl] at hown
    have hlt : k < s.resources.length := by
      by_contra hge
      have := h.fresh k (Nat.le_of_not_lt hge)
      omega
    obtain ⟨x, hx⟩ : ∃ x, s.acquired[k]? = some x :=
      ⟨_, List.getElem?_eq_getElem (h.length ▸ hlt)⟩
    obtain ⟨y, hy⟩ : ∃ y, s.resources[k]? = some y := ⟨_, List.getElem?_eq_getElem hlt⟩
    intro hb
    rcases h.kept k x y hx hy with ⟨hone, rfl⟩ | ⟨hzero, -⟩
    · have hy' : s'.resources[k]? = some (M.overwrite y) := by simp [hr, hy]
      obtain ⟨answers, ha⟩ := h.acquired y (List.mem_of_getElem? hx)
      rcases hb k y _ (hq ▸ hx) hy' with ⟨hone', -⟩ | ⟨-, hd⟩
      · omega
      · exact hne answers y ha hd
    · omega

/-- Where it does not, every resource is given up once and in the destructor's way exactly along the runs in
which no object is moved into one that owns a resource. -/
theorem balanced_iff (hne : ∀ answers a, M.acquire answers = some (some a) → M.overwrite a ≠ M.destroy a)
    {ls : List (Label ν)} (hr : M.objects.run {} ls = some s) :
    s.Balanced M ↔ M.objects.Meets (fun s l => spares s l = true) {} ls := by
  refine StepSystem.end_iff_meets_of_stable (M := M.objects) (I := Settled M) (P := State.Balanced M)
    (fun _ _ _ h hst => h.effect (.of_step hst)) (fun s l s' h hb hst => ?_)
    (fun s l s' h hst hb => (Effect.of_step hst).unbalanced h hb) hr .initial
    fun r a b ha => by simp at ha
  have he : Effect M s s' (spares s l) := .of_step hst
  cases hs : spares s l with
  | true => exact iff_of_true ((hs ▸ he).balanced h hb) rfl
  | false => exact iff_of_false ((hs ▸ he).overwritten hne h) Bool.noConfusion

end Owning

end RdmaOnAsio
