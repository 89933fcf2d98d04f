import RdmaOnAsio.Lts.Pool
import RdmaOnAsio.Nd.Connector

/-!
# Construction and moves of nd connectors

`construct`, `move_construct` and `move_assign` of `nd_connector_service`. The native handles move and
with them the armed cancellation functors, which hold the handle; `connect_state_` and `peer_closed_` are
copied and stay behind.
-/

namespace RdmaOnAsio.Nd

/-- No op and no `disconnect()` call is in flight. -/
def State.quiescent (s : State) : Bool :=
  s.initiation == .idle && s.pending.isEmpty && s.scheduled.isEmpty && s.dispatching.isEmpty &&
    s.callers.all DisconnectPc.isReturned

/-- What is left of an implementation whose handles have been moved away. -/
def State.movedFrom (s : State) : State := { s with isOpen := false, slots := [] }

/-- `move_construct`. -/
def moveConstruct (other : State) : Option (State × State) :=
  if other.quiescent then
    some
      ({ deviceRegistered := other.deviceRegistered, isOpen := other.isOpen,
         connectState := other.connectState, peerClosed := other.peerClosed, slots := other.slots },
        other.movedFrom)
  else none

/-- `move_assign`; closing the handle of `impl` cancels its calls in flight. -/
def moveAssign (impl other : State) : Option (State × State) :=
  if other.quiescent ∧ impl.initiation = .idle ∧ impl.callers.all DisconnectPc.isReturned then
    some
      ({ impl.cancelIoEx fun _ => true with
         isOpen := other.isOpen, connectState := other.connectState, peerClosed := other.peerClosed,
         slots := other.slots },
        other.movedFrom)
  else none

/-- The implementations of `nd_connector_service`; `use_device` is a step of each of them. -/
def implementations : Movable State Label where
  system := connector
  construct := {}
  moveConstruct := moveConstruct
  moveAssign := moveAssign

end RdmaOnAsio.Nd
