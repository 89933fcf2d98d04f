import RdmaOnAsio.Lts.Owners
import RdmaOnAsio.Nd.CmOp

/-!
# Who deregisters a memory region

`ibv_memory_region` and `nd_memory_region` as owners of a native registration. The first holds it in a
`unique_ptr` whose deleter deregisters; the second deregisters in its destructor, and its defaulted move
assignment only releases the interface that the target held.
-/

namespace RdmaOnAsio

open ErrorCode

/-! ## ibv -/

namespace Ibv

/-- An `ibv_mr`, by the number of times it was given to `ibv_dereg_mr`. -/
structure Registration where
  deregistered : Nat := 0
deriving DecidableEq, Repr

/-- What the constructor of an `ibv_memory_region` finds: whether the device and its PD are there, and the
`errno` of `ibv_reg_mr` if it returns null. -/
structure RegisterAnswers where
  device : Bool := true
  pd : Bool := true
  errno : Option Int := none
deriving DecidableEq, Repr

/-- `verbs_ops::reg_mr`. -/
def regMr (a : RegisterAnswers) : ErrorCode × Option Registration :=
  match a.errno with
  | some errno => (makeSystemErrorCode errno, none)
  | none => (success, some {})

/-- `throw_reg_mr`. -/
def throwRegMr (a : RegisterAnswers) : Except ErrorCode (Option Registration) :=
  if !a.device || !a.pd then
    .error (.rdma .invalidDevice)
  else
    let (ec, mr) := regMr a
    if ec.isError then .error ec else .ok mr

/-- `ibv_mr_deleter`. -/
def mrDeleter (mr : Registration) : Registration := { mr with deregistered := mr.deregistered + 1 }

/-- The objects of type `ibv_memory_region`. A `unique_ptr` that is assigned to calls its deleter. -/
def memoryRegions : Owning Registration RegisterAnswers where
  acquire a := (throwRegMr a).toOption
  destroy := mrDeleter
  overwrite := mrDeleter

end Ibv

/-! ## nd -/

namespace Nd

/-- An `IND2MemoryRegion`, by the references to it and the number of calls of `Deregister`. -/
structure Registration where
  references : Nat
  deregistered : Nat := 0
deriving DecidableEq, Repr

/-- What the constructor of an `nd_memory_region` finds: whether the device is there, and what
`CreateMemoryRegion`, `Register` and `GetOverlappedResult` return. -/
structure RegisterAnswers where
  device : Bool := true
  create : Int := ndSuccess
  register : Int := ndSuccess
  overlappedResult : Int := ndSuccess
deriving DecidableEq, Repr

/-- `verbs_ops::reg_mr`. The interface it gives up on an error is released by the local `result`; the one it
returns was detached with the one reference `CreateMemoryRegion` made. -/
def regMr (a : RegisterAnswers) : NdErrorCode × Option Registration :=
  let ec := NdErrorCode.ndErrc a.create
  if ec.isError then
    (ec, none)
  else
    let ec :=
      if a.register = ndSuccess then .common success
      else if a.register = ndPending then .ndErrc a.overlappedResult
      else .ndErrc a.register
    if ec.isError then (ec, none) else (ec, some ⟨1, 0⟩)

/-- `throw_reg_mr`. A `ComPtr` that is constructed from a pointer takes a reference of its own. -/
def throwRegMr (a : RegisterAnswers) : Except NdErrorCode (Option Registration) :=
  if !a.device then
    .error (.common (.rdma .invalidDevice))
  else
    let (ec, result) := regMr a
    let result := result.map fun mr => { mr with references := mr.references + 1 }
    if ec.isError then .error ec else .ok result

/-- A `ComPtr` gives up its interface. -/
def Registration.release (mr : Registration) : Registration := { mr with references := mr.references - 1 }

/-- `~nd_memory_region`, where `mr_` is not null, and then that of `mr_`. -/
def destroyRegion (mr : Registration) : Registration :=
  { mr with deregistered := mr.deregistered + 1 }.release

/-- The objects of type `nd_memory_region`. Their move assignment is that of their members. -/
def memoryRegions : Owning Registration RegisterAnswers where
  acquire a := (throwRegMr a).toOption
  destroy := destroyRegion
  overwrite := Registration.release

end Nd

/-! ## How often a region is deregistered -/

open Owning

namespace Ibv

variable {ls : List (Owning.Label RegisterAnswers)} {s : Owning.State Registration}

theorem eq_of_acquire {a : RegisterAnswers} {mr : Registration}
    (h : memoryRegions.acquire a = some (some mr)) : mr = {} := by
  obtain ⟨device, pd, errno⟩ := a
  cases errno with
  | none => cases device <;> cases pd <;> simp_all [memoryRegions, throwRegMr, regMr, Except.toOption]
  | some errno =>
    cases he : (makeSystemErrorCode errno).isError <;> cases device <;> cases pd <;>
      simp [memoryRegions, throwRegMr, regMr, he, Except.toOption] at h

/-- Every registration of an `ibv_memory_region` is in place as long as it has an owner, which is one
object, and is deregistered once when it has none. -/
theorem regions_deregistered_once (hr : memoryRegions.objects.run {} ls = some s) :
    ∀ r mr, s.resources[r]? = some mr →
      (s.owners r = 1 ∧ mr.deregistered = 0) ∨ (s.owners r = 0 ∧ mr.deregistered = 1) := by
  intro r mr hmr
  obtain ⟨answers, a, hans, ha⟩ := (Settled.run hr).origin hmr
  obtain rfl := eq_of_acquire hans
  rcases balanced_of_eq rfl hr r _ mr ha hmr with ⟨hone, rfl⟩ | ⟨hzero, rfl⟩
  · exact .inl ⟨hone, rfl⟩
  · exact .inr ⟨hzero, rfl⟩

/-- A region is moved into a vector's slot that holds another one, and both are destroyed. -/
def reassigned : List (Owning.Label RegisterAnswers) :=
  [.construct {}, .construct {}, .construct ⟨true, true, some 12⟩, .moveAssign 0 1, .destroy 1, .destroy 0]

theorem regions_deregistered_once_reassigned :
    let s := memoryRegions.objects.after {} reassigned
    ∀ r mr, s.resources[r]? = some mr →
      (s.owners r = 1 ∧ mr.deregistered = 0) ∨ (s.owners r = 0 ∧ mr.deregistered = 1) := by
  have hr : (memoryRegions.objects.run {} reassigned).isSome = true := by decide
  exact regions_deregistered_once (StepSystem.run_after hr)

end Ibv

namespace Nd

variable {ls : List (Owning.Label RegisterAnswers)} {s : Owning.State Registration}

/-- A region that is constructed has two references: its own, and the one that was detached for it. -/
theorem eq_of_acquire {a : RegisterAnswers} {mr : Registration}
    (h : memoryRegions.acquire a = some (some mr)) : mr = ⟨2, 0⟩ := by
  obtain ⟨device, create, register, overlappedResult⟩ := a
  simp only [memoryRegions, throwRegMr, regMr] at h
  cases device with
  | false => simp [Except.toOption] at h
  | true =>
    cases hc : (NdErrorCode.ndErrc create).isError with
    | true => simp [hc, Except.toOption] at h
    | false =>
      -- the code that `Register` or `GetOverlappedResult` leaves
      generalize hcode : (if register = ndSuccess then NdErrorCode.common success
        else if register = ndPending then .ndErrc overlappedResult else .ndErrc register) = code at h
      cases he : code.isError with
      | true => simp [hc, he, Except.toOption] at h
      | false =>
        simp only [hc, he, Except.toOption, Bool.not_true, Bool.false_eq_true, if_false,
          Option.map_some, Option.some.injEq] at h
        exact h.symm

/-- Every registration of an `nd_memory_region` is in place as long as it has an owner and deregistered once
when it has none, exactly if no region is moved into one that is still registered. Whichever way its owner
goes, one reference to the interface is left. -/
theorem regions_deregistered_iff (hr : memoryRegions.objects.run {} ls = some s) :
    ((∀ r mr, s.resources[r]? = some mr →
        (s.owners r = 1 ∧ mr.deregistered = 0) ∨ (s.owners r = 0 ∧ mr.deregistered = 1)) ↔
      memoryRegions.objects.Meets (fun s l => spares s l = true) {} ls) ∧
    ∀ r mr, s.resources[r]? = some mr → mr.references = s.owners r + 1 := by
  have hs := Settled.run hr
  refine ⟨?_, fun r mr hmr => ?_⟩
  · rw [← balanced_iff (fun answers a ha => ?_) hr]
    · constructor
      · intro h r a b ha hb
        obtain ⟨answers, a', hans, ha'⟩ := hs.origin hb
        obtain rfl : a = a' := Option.some.inj (ha.symm.trans ha')
        obtain rfl := eq_of_acquire hans
        rcases hs.kept r _ b ha hb with hown | ⟨hzero, rfl | rfl⟩
        · exact .inl hown
        · exact .inr ⟨hzero, rfl⟩
        · rcases h r _ hb with ⟨hone, -⟩ | ⟨-, hd⟩
          · omega
          · cases hd
      · intro h r b hb
        obtain ⟨answers, a, hans, ha⟩ := hs.origin hb
        obtain rfl := eq_of_acquire hans
        rcases h r _ b ha hb with ⟨hone, rfl⟩ | ⟨hzero, rfl⟩
        · exact .inl ⟨hone, rfl⟩
        · exact .inr ⟨hzero, rfl⟩
    · obtain rfl := eq_of_acquire ha
      decide
  · obtain ⟨answers, a, hans, ha⟩ := hs.origin hmr
    obtain rfl := eq_of_acquire hans
    rcases hs.kept r _ mr ha hmr with ⟨hone, rfl⟩ | ⟨hzero, rfl | rfl⟩
    · rw [hone]
    · rw [hzero]
      rfl
    · rw [hzero]
      rfl

/-- A region is moved into one that is registered, and both are destroyed: the first is never
deregistered. -/
def reassigned : List (Owning.Label RegisterAnswers) :=
  [.construct {}, .construct ⟨true, ndSuccess, ndPending, ndSuccess⟩, .moveAssign 0 1, .destroy 1,
    .destroy 0]

theorem regions_deregistered_iff_reassigned :
    let s := memoryRegions.objects.after {} reassigned
    ¬ ∀ r mr, s.resources[r]? = some mr →
      (s.owners r = 1 ∧ mr.deregistered = 0) ∨ (s.owners r = 0 ∧ mr.deregistered = 1) := by
  have hr : (memoryRegions.objects.run {} reassigned).isSome = true := by decide
  exact fun h => absurd ((regions_deregistered_iff (StepSystem.run_after hr)).1.1 h) (by decide)

end Nd

end RdmaOnAsio
