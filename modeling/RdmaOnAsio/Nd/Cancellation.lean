import RdmaOnAsio.Lts.Slots
import RdmaOnAsio.Nd.Connector
import RdmaOnAsio.Nd.Listener

/-!
# Cancelling one nd op

`nd_cm_op_cancellation` holds the address of the `OVERLAPPED` of the op it was armed for, and calls
`CancelIoEx` on the call in flight there. A connect op has no call in flight between the end of
`Connect` and `CompleteConnect`.
-/

namespace RdmaOnAsio.Nd

/-- The address of the op that a step initiates. -/
def Label.initiates : Label → Option Nat
  | .asyncConnect _ addr _ _ _ _ _ | .asyncAccept _ addr _ _ _ _ | .asyncWaitDisconnect _ addr _ =>
    some addr
  | _ => none

def Label.isEmit : Label → Bool
  | .emit _ => true
  | _ => false

/-- The connector and the slots of its ops. -/
def slotted : Slotted State Label := ⟨connector, Label.initiates, State.slots, .emit, Label.isEmit⟩

/-- A connect op goes on with `CompleteConnect` when its completion runs. -/
def CmOp.goesOn (op : CmOp) : Bool :=
  op.kind == .connect && op.stage == .connecting && !op.ec.isError

/-- The connect op at `addr` is between its two calls. -/
def State.betweenCallsAt (s : State) (addr : Nat) : Bool :=
  (s.scheduled.any fun op => op.addr == addr && op.goesOn) ||
    s.dispatching.any fun d => d.1.addr == addr && d.2 == .completeConnect

/-- An op is aborted if its call in flight is marked by `CancelIoEx`. -/
def cancellation : Cancellation State where
  pending s addr := s.betweenCallsAt addr = true ∨ ∃ op ∈ s.pending, op.addr = addr
  aborted s addr t := ∃ before op after, s.pending = before ++ op :: after ∧ op.addr = addr ∧
    t = { s with pending := before ++ { op with canceled := true } :: after }

/-- The op at `addr` has a call in flight that is not marked. -/
def State.inFlightAt (s : State) (addr : Nat) : Bool :=
  s.pending.any fun op => op.addr == addr && !op.canceled

namespace Listener

/-- The address of the op that a step initiates. -/
def Label.initiates : Label → Option Nat
  | .asyncGetConnectionRequest addr _ _ _ _ => some addr
  | _ => none

def Label.isEmit : Label → Bool
  | .emit _ => true
  | _ => false

/-- The listener and the slots of its ops. -/
def slotted : Slotted State Label := ⟨listener, Label.initiates, State.slots, .emit, Label.isEmit⟩

/-- An op is aborted if its call in flight is marked by `CancelIoEx`. -/
def cancellation : Cancellation State where
  pending s addr := ∃ op ∈ s.pending, op.addr = addr
  aborted s addr t := ∃ before op after, s.pending = before ++ op :: after ∧ op.addr = addr ∧
    t = { s with pending := before ++ { op with canceled := true } :: after }

/-- The op at `addr` has a call in flight that is not marked. -/
def State.inFlightAt (s : State) (addr : Nat) : Bool :=
  s.pending.any fun op => op.addr == addr && !op.canceled

end Listener

end RdmaOnAsio.Nd
