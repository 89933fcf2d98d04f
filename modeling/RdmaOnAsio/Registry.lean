import RdmaOnAsio.Data.IntrusiveList
import RdmaOnAsio.Lts.Basic

/-!
# The registries of live implementations

`ibv_service_base` and `nd_service_base` keep the implementations of their connectors or listeners in an
intrusive list, for `base_shutdown`. The objects are asio's `io_object_impl`: an object holds the address of
its service, its members call that service, and a move assignment takes over the service of the source.

The services of one kind (one for each `io_context`) and the addresses of the implementations are
arbitrary types. An implementation that was destroyed leaves its links in the memory, and its address
can be used again.
-/

namespace RdmaOnAsio

/-- The two backends; they differ in what `move_assign` does to the list. -/
inductive Backend
  | ibv
  | nd
deriving DecidableEq, Repr

namespace Registry

variable {σ κ : Type}

/-- The services of one kind and the implementations they may list. -/
structure State (σ κ : Type) where
  /-- `next_` and `prev_` of every implementation. -/
  links : Links κ
  /-- `impl_list_` of every service. -/
  implList : σ → Option κ := fun _ => none
  /-- `service_` of every object; none if there is no object at the address. -/
  service : κ → Option σ := fun _ => none

/-- What is done to the objects. -/
inductive Label (σ κ : Type)
  /-- An object is made on an `io_context`. -/
  | construct (x : κ) (svc : σ)
  | moveConstruct (x other : κ)
  | moveAssign (x other : κ)
  | destroy (x : κ)
deriving DecidableEq, Repr

namespace State

/-- `base_shutdown`: the implementations in the order the destroyer is called on them; `none` if the
list does not end within `n` of them. -/
def baseShutdown (s : State σ κ) (n : Nat) (svc : σ) : Option (List κ) := s.links.walk n (s.implList svc)

variable [DecidableEq σ] [DecidableEq κ]

/-- `do_insert`. -/
def doInsert (s : State σ κ) (svc : σ) (x : κ) : State σ κ :=
  { s with
    links := s.links.insert (s.implList svc) x
    implList := Function.update s.implList svc (some x) }

/-- `do_remove`. -/
def doRemove (s : State σ κ) (svc : σ) (x : κ) : State σ κ :=
  { s with
    links := s.links.remove x
    implList := Function.update s.implList svc (s.links.headAfter (s.implList svc) x) }

/-- `base_construct`. -/
def baseConstruct (s : State σ κ) (svc : σ) (x : κ) : State σ κ := s.doInsert svc x

/-- `base_move_construct`; it does not use the other implementation. -/
def baseMoveConstruct (s : State σ κ) (svc : σ) (x _other : κ) : State σ κ := s.doInsert svc x

/-- `base_destroy`. -/
def baseDestroy (s : State σ κ) (svc : σ) (x : κ) : State σ κ := s.doRemove svc x

/-- What `move_assign` of the service `svc` does to its list. Neither backend uses `other_service` for
it. -/
def moveAssign (s : State σ κ) (svc : σ) (x : κ) : Backend → State σ κ
  | .ibv => s
  | .nd => (s.baseDestroy svc x).baseConstruct svc x

/-- The object at `x` has the service `svc` from now on. -/
def setService (s : State σ κ) (x : κ) (svc : Option σ) : State σ κ :=
  { s with service := Function.update s.service x svc }

end State

variable [DecidableEq σ] [DecidableEq κ]

/-- The lifecycle of the objects. `io_object_impl` does nothing when an object is assigned to itself. -/
def step (backend : Backend) (s : State σ κ) : Label σ κ → Option (State σ κ)
  | .construct x svc =>
    match s.service x with
    | none => some ((s.baseConstruct svc x).setService x (some svc))
    | some _ => none
  | .moveConstruct x other =>
    match s.service x, s.service other with
    | none, some svc => some ((s.baseMoveConstruct svc x other).setService x (some svc))
    | _, _ => none
  | .moveAssign x other =>
    match s.service x, s.service other with
    | some svc, some otherService =>
      if x = other then
        some s
      else
        some ((s.moveAssign svc x backend).setService x (some otherService))
    | _, _ => none
  | .destroy x =>
    match s.service x with
    | some svc => some ((s.baseDestroy svc x).setService x none)
    | none => none

/-- Services without implementations, over any memory. -/
def initial (m : Links κ) : State σ κ := { links := m }

/-- The registries as a step system. -/
def registry (backend : Backend) : StepSystem (State σ κ) (Label σ κ) := ⟨step backend⟩

/-- The list of the service holds exactly the implementations of the objects that have this service, and
`base_shutdown` calls the destroyer on each of them once. -/
structure State.Lists (s : State σ κ) (svc : σ) (l : List κ) : Prop where
  isList : s.links.IsList (s.implList svc) l
  mem : ∀ x, x ∈ l ↔ s.service x = some svc
  visits : ∀ n, l.length ≤ n → s.baseShutdown n svc = some l

/-- Every service lists what is attached to it. -/
def State.Registered (s : State σ κ) : Prop := ∀ svc, ∃ l, s.Lists svc l

/-- A move assignment across two services. -/
def State.crosses (s : State σ κ) : Label σ κ → Bool
  | .moveAssign x other => s.service x != s.service other
  | _ => false

end Registry

end RdmaOnAsio
