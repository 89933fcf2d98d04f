import RdmaOnAsio.Lts.Slots
import RdmaOnAsio.Ibv.Connector
import RdmaOnAsio.Ibv.Listener

/-!
# Cancelling one ibv op

`cm_op_cancellation` holds the address of the op it was armed for, which is the key `cancel_ops_by_key`
looks for on the descriptor. An op can be aborted from the moment its functor is in the slot until it is
finished; the functor reaches it while it is in the queue of the descriptor.
-/

namespace RdmaOnAsio.Ibv

/-- The address of the op that a step initiates. -/
def Label.initiates : Label → Option Nat
  | .asyncConnect addr _ _ _ _ | .asyncAccept addr _ _ _ _ | .asyncWaitDisconnect addr _ => some addr
  | _ => none

def Label.isEmit : Label → Bool
  | .emit _ => true
  | _ => false

/-- The connector and the slots of its ops. -/
def slotted (cfg : Config) : Slotted State Label :=
  ⟨connector cfg, Label.initiates, State.slots, .emit, Label.isEmit⟩

/-- The op that the initiating thread has armed the slot of and has not started yet, unless it has
failed. -/
def InitPc.starting : InitPc → Option CmOp
  | .resolveAddr op | .publish op | .createQp op | .accept op | .startOp op => some op
  | .idle | .guardState _ | .storeClosed _ | .post _ | .waitLatch _ | .waitState _ => none

/-- An op is aborted if it leaves the queue and is posted with `operation_aborted`. -/
def cancellation : Cancellation State where
  pending s addr := ∃ op ∈ s.initiation.starting.toList ++ s.armed, op.addr = addr
  aborted s addr t := ∃ before op after, s.readQueue = before ++ op :: after ∧ op.addr = addr ∧
    t = { s with readQueue := before ++ after, scheduled := s.scheduled ++ [op.abort] }

/-- The initiation of the op at `addr` has not returned. -/
def State.initiatingAt (s : State) (addr : Nat) : Bool :=
  s.initiation.starting.any fun op => op.addr == addr

/-- The op at `addr` is queued with a connected slot. -/
def State.queuedAt (s : State) (addr : Nat) : Bool :=
  s.readQueue.any fun op => op.cancellationKey == some addr

namespace Listener

/-- The address of the op that a step initiates. -/
def Label.initiates : Label → Option Nat
  | .asyncGetConnectionRequest addr _ => some addr
  | _ => none

def Label.isEmit : Label → Bool
  | .emit _ => true
  | _ => false

/-- The listener and the slots of its ops. -/
def slotted : Slotted State Label :=
  ⟨listener, Label.initiates, State.slots, .emit, Label.isEmit⟩

/-- An op is aborted if it leaves the queue and is posted with `operation_aborted`. -/
def cancellation : Cancellation State where
  pending s addr := ∃ op ∈ s.performing.toList ++ s.readQueue, op.addr = addr
  aborted s addr t := ∃ before op after, s.readQueue = before ++ op :: after ∧ op.addr = addr ∧
    t = { s with
      readQueue := before ++ after
      scheduled := s.scheduled ++ [{ op with ec := ErrorCode.operationAborted }] }

/-- The op at `addr` is queued with a connected slot. -/
def State.queuedAt (s : State) (addr : Nat) : Bool :=
  s.readQueue.any fun op => op.cancellationKey == some addr

end Listener

end RdmaOnAsio.Ibv
