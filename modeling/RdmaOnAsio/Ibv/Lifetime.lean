import Mathlib.Logic.Function.Basic
import RdmaOnAsio.Ibv.Connector

/-!
# The lifetimes of connector implementations

Any number of connector implementations, their `cm_id`s and the ops they have started. An op keeps the
address of the implementation it was initiated on (its `state_` or `peer_closed_` points in there) and
its `cm_id`; a cancellation functor keeps the address of the implementation's reactor data. The
descriptor, and with it the queue of the armed ops, belongs to the `cm_id`: `move_descriptor` hands it
over, `deregister_descriptor` ends it.

A call of the user (a constructor, an initiation, a move, a destructor) is one step. `do_perform` is cut
at its shared accesses, and holds the lock of its descriptor from the first to the last. Which events
arrive, and when an armed op is performed, is left to the labels.
-/

namespace RdmaOnAsio.Ibv

open ErrorCode

namespace Lifetime

/-- `ibv_connector_service::implementation_type`; `cmId` stands for the `cm_id`, its channel and the
registered descriptor. -/
structure Impl where
  cmId : Option Nat := none
  connectState : ConnectState := .idle
  peerClosed : Bool := false
deriving DecidableEq, Repr

/-- An op with the pointers it has captured: into the implementation at `impl`, and to `cmId`. -/
structure BoundOp where
  op : CmOp
  impl : Nat
  cmId : Option Nat
deriving DecidableEq, Repr

/-- `cm_op_cancellation`: `reactor_data_` points into the implementation at `impl`. -/
structure CmOpCancellation where
  key : Nat
  impl : Nat
  cmId : Option Nat
deriving DecidableEq, Repr

/-- The implementations by address, the ops on the descriptors (the armed ones in order, and those being
performed), the posted completions and the functors in slots. `dangling` is set once a pointer has been
followed that does not lead to the owner of the op's `cm_id`; nothing is said about what happens
then. -/
structure State where
  impls : Nat → Option Impl := fun _ => none
  nextCmId : Nat := 0
  armed : List BoundOp := []
  performing : List (BoundOp × PerformPc) := []
  scheduled : List BoundOp := []
  functors : List CmOpCancellation := []
  dangling : Bool := false

/-- The accesses of `do_perform` that follow `state_` or `peer_closed_`. -/
def derefs : PerformPc → Bool
  | .advance _ _ | .established _ | .claimLoad | .claimCas _ | .storePeerClosed => true
  | .getCmEvent | .createQp | .resolveRoute | .connect | .modifyQp | .disconnect => false

/-- An access to the implementation, and how `do_perform` goes on after it. -/
def access (m : Impl) (op : CmOp) (pc : PerformPc) (a : Answer) : Option (Impl × CmOp × Outcome) :=
  match pc, a with
  | .advance expected desired, .run =>
    if m.connectState = expected then
      some ({ m with connectState := desired }, op.advanced desired)
    else
      some (m, op.abortedByDisconnect)
  | .established ev, .run =>
    if m.connectState = .connecting then
      some ({ m with connectState := .connected }, op.arbitrated ev true)
    else
      some (m, op.arbitrated ev false)
  | .claimLoad, .run => some (m, op.claimRead m.connectState)
  | .claimCas e, .run =>
    if m.connectState = e then
      some ({ m with connectState := .closed }, op, .ret .done)
    else
      some (m, op.claimRead m.connectState)
  | .claimCas _, .spurious => some (m, op.claimRead m.connectState)
  | .storePeerClosed, .run => some ({ m with peerClosed := true }, op, .ret .done)
  | _, _ => none

/-- A native call, and how `do_perform` goes on after it. -/
def nativeCall (op : CmOp) (pc : PerformPc) (a : Answer) : Option (CmOp × Outcome) :=
  match pc, a with
  | .getCmEvent, .again => some op.onAgain
  | .getCmEvent, .hardError errno =>
    if errno ≠ 0 ∧ errno ≠ eagain then some (op.onHardError errno) else none
  | .createQp, .created ec => some (op.createdQp ec)
  | .resolveRoute, .native r => some (op.resolvedRoute r)
  | .connect, .native r => some (op.connectIssued r)
  | .modifyQp, .modified rc => some (op.modifiedQp rc)
  | .disconnect, .native _ => some op.tornDown
  | _, _ => none

namespace State

/-- A pointer into the implementation at `impl` leads to the owner of `cmId`; an op that was initiated
without a `cm_id` needs the implementation only. -/
def valid (s : State) (impl : Nat) (cmId : Option Nat) : Bool :=
  (s.impls impl).any fun m => cmId.isNone || m.cmId == cmId

def setImpl (s : State) (i : Nat) (m : Option Impl) : State :=
  { s with impls := Function.update s.impls i m }

/-- Nothing is being performed on the descriptor of `cmId`. -/
def unlocked (s : State) (cmId : Option Nat) : Bool :=
  s.performing.all fun b => b.1.cmId != cmId

/-- `post_immediate_completion`. -/
def post (s : State) (b : BoundOp) (ec : ErrorCode) : State :=
  { s with scheduled := s.scheduled ++ [{ b with op := { b.op with ec := ec } }] }

/-- `arm_cm_cancellation`. -/
def armCmCancellation (s : State) (b : BoundOp) : State :=
  match b.op.cancellationKey with
  | some key => { s with functors := ⟨key, b.impl, b.cmId⟩ :: s.functors }
  | none => s

/-- `start_op`, with the code cleared. -/
def startOp (s : State) (b : BoundOp) : State :=
  { s with armed := s.armed ++ [{ b with op := { b.op with ec := success } }] }

/-- Takes the armed ops of `cmId` that satisfy `p` off the descriptor and posts them with
`operation_aborted`. -/
def abortOps (s : State) (cmId : Option Nat) (p : BoundOp → Bool) : State :=
  { s with
    armed := s.armed.filter fun b => !(b.cmId == cmId && p b)
    scheduled := s.scheduled ++ (s.armed.filter fun b => b.cmId == cmId && p b).map
      fun b => { b with op := b.op.abort } }

/-- `close_for_destruction`: the descriptor is deregistered; without a channel there is none. -/
def closeForDestruction (s : State) (m : Impl) : State :=
  if m.cmId.isSome then s.abortOps m.cmId fun _ => true else s

/-- The end of a piece of the `do_perform` that is the `k`-th being performed. -/
def resume (s : State) (k : Nat) (b : BoundOp) : CmOp × Outcome → State
  | (op, .goto pc) => { s with performing := s.performing.set k ({ b with op := op }, pc) }
  | (op, .ret .done) =>
    { s with
      performing := s.performing.eraseIdx k, scheduled := s.scheduled ++ [{ b with op := op }] }
  | (op, .ret .notDone) =>
    { s with performing := s.performing.eraseIdx k, armed := { b with op := op } :: s.armed }

/-- `addr` is not the address of an op that still exists. -/
def freshAddr (s : State) (addr : Nat) : Bool :=
  (s.armed ++ s.performing.map Prod.fst ++ s.scheduled).all fun b => b.op.addr != addr

/-- A new `cm_id` on its own channel: `open`, or `assign` of a handle. -/
def opened (s : State) (i : Nat) : State :=
  { s.setImpl i (some { cmId := some s.nextCmId }) with nextCmId := s.nextCmId + 1 }

end State

/-- The steps of the system. -/
inductive Label
  | construct (i : Nat)
  /-- `open` or `assign` of a connector that is not open. -/
  | openConnector (i : Nat)
  /-- `async_connect`; `opened` is the result of the auto-open, `resolve` the one of `resolve_addr`. -/
  | asyncConnect (i addr : Nat) (slot hasCreateQp : Bool) (requestSize replyCap : Nat)
      (opened resolve : NativeResult)
  /-- `async_accept`, or `async_move_accept` when `bindFails` is its `bind_ec`. -/
  | asyncAccept (i addr : Nat) (slot hasCreateQp bindFails : Bool) (dataSize : Nat)
      (created : ErrorCode) (accept : NativeResult)
  | asyncWaitDisconnect (i addr : Nat) (slot : Bool)
  /-- The reactor takes up the `k`-th armed op, the first one of its descriptor. -/
  | performIo (k : Nat)
  /-- `get_cm_event` returns an event to the `k`-th op being performed. -/
  | readEvent (k : Nat) (ev : CmEvent)
  /-- Any other step of the `k`-th op being performed. -/
  | perform (k : Nat) (a : Answer)
  /-- The scheduler runs the `k`-th posted completion. -/
  | complete (k : Nat)
  /-- A signal is emitted into the slot with the `k`-th functor. -/
  | emit (k : Nat)
  | moveConstruct (i j : Nat)
  | moveAssign (i j : Nat)
  | destroy (i : Nat)
deriving DecidableEq, Repr

/-- The result of the auto-open of `async_connect`: the implementation it goes on with, or the code. -/
def autoOpen (cfg : Config) (s : State) (i : Nat) (m : Impl) (opened : NativeResult) :
    State × Impl × Option ErrorCode :=
  if m.cmId.isSome then (s, m, none)
  else if !cfg.deviceRegistered then (s, m, some (.rdma .deviceNotRegistered))
  else
    match opened with
    | .ok => (s.opened i, { cmId := some s.nextCmId }, none)
    | .fail errno => (s, m, some (makeSystemErrorCode errno))

/-- `async_connect`. -/
def asyncConnect (cfg : Config) (s : State) (m : Impl) (b : BoundOp) (requestSize : Nat)
    (opened resolve : NativeResult) : State :=
  let (s, m, openEc) := autoOpen cfg s b.impl m opened
  let b := { b with cmId := m.cmId }
  match openEc with
  | some ec => s.post b ec
  | none =>
    if requestSize > maxOutgoingPrivateData then s.post b (.rdma .privateDataTooLarge)
    else if m.connectState ≠ .idle then s.post b (.rdma .connectorTerminal)
    else
      let s := s.armCmCancellation b
      match resolve with
      | .ok => (s.setImpl b.impl (some { m with connectState := .addrResolve })).startOp b
      | .fail errno =>
        (s.setImpl b.impl (some { m with connectState := .closed })).post b
          (makeSystemErrorCode errno)

/-- `async_accept` and `async_move_accept`. -/
def asyncAccept (cfg : Config) (s : State) (m : Impl) (b : BoundOp) (bindFails : Bool)
    (dataSize : Nat) (created : ErrorCode) (accept : NativeResult) : State :=
  if bindFails then s.post b (.rdma .deviceNotRegistered)
  else if !cfg.deviceRegistered then s.post b (.rdma .deviceNotRegistered)
  else if m.cmId.isNone then s.post b (.rdma .invalidHandle)
  else if dataSize > maxOutgoingPrivateData then s.post b (.rdma .privateDataTooLarge)
  else if m.connectState ≠ .idle then s.post b (.rdma .connectorTerminal)
  else
    let s := s.armCmCancellation b
    let failed := s.setImpl b.impl (some { m with connectState := .closed })
    if b.op.hasCreateQp ∧ created.isError then failed.post b created
    else
      match accept with
      | .ok => (s.setImpl b.impl (some { m with connectState := .connecting })).startOp b
      | .fail errno => failed.post b (makeSystemErrorCode errno)

/-- `async_wait_disconnect`. -/
def asyncWaitDisconnect (s : State) (m : Impl) (b : BoundOp) : State :=
  if m.peerClosed ∨ m.connectState = .closed then s.post b (.rdma .disconnected)
  else if m.cmId.isNone then s.post b (.rdma .invalidHandle)
  else (s.armCmCancellation b).startOp b

/-- A step of the `k`-th op being performed. -/
def performStep (s : State) (k : Nat) (a : Answer) : Option State :=
  match s.performing[k]? with
  | none => none
  | some (b, pc) =>
    if derefs pc then
      if s.valid b.impl b.cmId then
        match s.impls b.impl with
        | none => none
        | some m =>
          match access m b.op pc a with
          | some (m', r) => some ((s.setImpl b.impl (some m')).resume k b r)
          | none => none
      else some { s with dangling := true }
    else
      match nativeCall b.op pc a with
      | some r => some (s.resume k b r)
      | none => none

/-- `do_complete`: a connect or accept op that ends with `operation_aborted` stores `closed` through its
`state_`. -/
def completeOp (cfg : Config) (s : State) (b : BoundOp) : State :=
  if b.op.isConn ∧ b.op.ec.isAborted cfg.aliased then
    if s.valid b.impl b.cmId then
      s.setImpl b.impl ((s.impls b.impl).map fun m => { m with connectState := .closed })
    else { s with dangling := true }
  else s

/-- The members of a moved implementation go over, and leave the source without a `cm_id`. -/
def moved (s : State) (i j : Nat) (m : Impl) : State :=
  (s.setImpl i (some m)).setImpl j (some { m with cmId := none })

/-- The step system of the lifetimes. Nothing happens after a pointer has dangled. -/
def step (cfg : Config) (s : State) (l : Label) : Option State :=
  if s.dangling then none
  else
    match l with
    | .construct i => if s.impls i = none then some (s.setImpl i (some {})) else none
    | .openConnector i =>
      match s.impls i with
      | some m => if m.cmId = none then some (s.opened i) else none
      | none => none
    | .asyncConnect i addr slot hasCreateQp requestSize replyCap opened resolve =>
      match s.impls i with
      | some m =>
        if s.freshAddr addr then
          some (asyncConnect cfg s m ⟨.newConnect addr slot hasCreateQp replyCap, i, m.cmId⟩
            requestSize opened resolve)
        else none
      | none => none
    | .asyncAccept i addr slot hasCreateQp bindFails dataSize created accept =>
      match s.impls i with
      | some m =>
        if s.freshAddr addr then
          some (asyncAccept cfg s m ⟨.newAccept addr slot hasCreateQp, i, m.cmId⟩ bindFails dataSize
            created accept)
        else none
      | none => none
    | .asyncWaitDisconnect i addr slot =>
      match s.impls i with
      | some m =>
        if s.freshAddr addr then
          some (asyncWaitDisconnect s m ⟨.newWait addr slot, i, m.cmId⟩)
        else none
      | none => none
    | .performIo k =>
      match s.armed[k]? with
      | some b =>
        if s.unlocked b.cmId ∧ (s.armed.take k).all fun o => o.cmId != b.cmId then
          some { s with
            armed := s.armed.eraseIdx k, performing := s.performing ++ [(b, .getCmEvent)] }
        else none
      | none => none
    | .readEvent k ev =>
      match s.performing[k]? with
      | some (b, .getCmEvent) => some (s.resume k b (b.op.onEvent ev))
      | _ => none
    | .perform k a => performStep s k a
    | .complete k =>
      match s.scheduled[k]? with
      | some b => some (completeOp cfg { s with scheduled := s.scheduled.eraseIdx k } b)
      | none => none
    | .emit k =>
      match s.functors[k]? with
      | some f =>
        if s.valid f.impl f.cmId then
          if s.unlocked f.cmId then
            some (s.abortOps f.cmId fun b => b.op.cancellationKey == some f.key)
          else none
        else some { s with dangling := true }
      | none => none
    | .moveConstruct i j =>
      match s.impls i, s.impls j with
      | none, some m => some (moved s i j m)
      | _, _ => none
    | .moveAssign i j =>
      match s.impls i, s.impls j with
      | some mi, some m =>
        if i ≠ j ∧ s.unlocked mi.cmId then some (moved (s.closeForDestruction mi) i j m) else none
      | _, _ => none
    | .destroy i =>
      match s.impls i with
      | some m =>
        if s.unlocked m.cmId then some ((s.closeForDestruction m).setImpl i none) else none
      | none => none

/-- Any number of connector implementations. -/
def connectors (cfg : Config) : StepSystem State Label := ⟨step cfg⟩

end Lifetime

end RdmaOnAsio.Ibv
