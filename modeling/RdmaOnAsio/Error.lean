import Mathlib.Tactic.Common

/-!
# Error codes

`asio::error_code` is a category with a value. Three categories occur: `std::system_category` (built
by `make_system_error_code` from an `errno`), the category of `asio::error::basic_errors`, and the
library's own `rdma_errc`. Whether asio's category *is* `std::system_category` is decided in asio and
not in this repository, so comparisons with `operation_aborted` take that as a parameter.
-/

namespace RdmaOnAsio

/-- `rdma_errc`. -/
inductive RdmaErrc
  | noAvailableDevice
  | invalidDevice
  | invalidHandle
  | alreadyRegistered
  | deviceNotRegistered
  | disconnected
  | deviceRemoved
  | connectorTerminal
  | tooManySge
  | privateDataTooLarge
  | addressFamilyNotSupported
  | bufferTooLarge
  | invalidConfig
deriving DecidableEq, Repr

/-- The `asio::error::basic_errors` the library assigns. -/
inductive BasicErrors
  | operationAborted
  | connectionAborted
  | connectionRefused
  | connectionReset
  | hostUnreachable
deriving DecidableEq, Repr

/-- `asio::error_code`. -/
inductive ErrorCode
  | system (value : Int)
  | basic (e : BasicErrors)
  | rdma (e : RdmaErrc)
deriving DecidableEq, Repr

namespace ErrorCode

/-- `asio::error_code{}`. -/
def success : ErrorCode := .system 0

/-- `ec.operator bool`. -/
def isError : ErrorCode → Bool
  | .system v => v != 0
  | .basic _ => true
  | .rdma _ => true

/-- `make_system_error_code`. -/
def makeSystemErrorCode (e : Int) : ErrorCode := .system e

/-- `asio::error::operation_aborted`. -/
def operationAborted : ErrorCode := .basic .operationAborted

/-- `EHOSTUNREACH`. -/
def ehostunreach : Int := 113

/-- `EAGAIN`. -/
def eagain : Int := 11

/-- `ECANCELED`, the value of `operation_aborted`. -/
def ecanceled : Int := 125

/-- `ec == asio::error::operation_aborted`; `aliased` says that asio's category for basic errors is
`std::system_category`, in which case a native `ECANCELED` compares equal as well. -/
def isAborted (aliased : Bool) (ec : ErrorCode) : Bool :=
  ec == operationAborted || (aliased && ec == makeSystemErrorCode ecanceled)

@[simp] theorem isError_success : success.isError = false := rfl

@[simp] theorem isError_operationAborted : operationAborted.isError = true := rfl

@[simp] theorem isError_basic (e : BasicErrors) : (ErrorCode.basic e).isError = true := rfl

@[simp] theorem isError_rdma (e : RdmaErrc) : (ErrorCode.rdma e).isError = true := rfl

@[simp] theorem isAborted_operationAborted (aliased : Bool) :
    operationAborted.isAborted aliased = true := by
  simp [isAborted]

@[simp] theorem isAborted_success (aliased : Bool) : success.isAborted aliased = false := by
  cases aliased <;> rfl

@[simp] theorem isAborted_rdma (aliased : Bool) (e : RdmaErrc) :
    (ErrorCode.rdma e).isAborted aliased = false := by
  cases aliased <;> rfl

end ErrorCode

end RdmaOnAsio
