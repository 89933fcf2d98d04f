import RdmaOnAsio.Detail.Verbs
import RdmaOnAsio.Nd.CmOp

/-!
# The data plane of the nd backend

`fill_native_sge`, the post wrappers of `verbs_ops`, the `do_post_*` of `nd_verbs_service`, and the two
places that resolve an `ND2_RESULT`: `resolve_wc` for event mode and `dispatch_completion` for poll
mode.
-/

namespace RdmaOnAsio.Nd.Verbs

open ErrorCode
open Ibv (OpType Mode)

/-- `ND2_SGE`. -/
structure NativeSge where
  buffer : UInt64 := 0
  bufferLength : UInt32 := 0
  memoryRegionToken : UInt32 := 0
deriving DecidableEq, Repr

instance : Inhabited NativeSge := ⟨{}⟩

/-- `fill_native_sge`; the length is cast to 32 bits. -/
def fillNativeSge (b : MrBuffer) : NativeSge := ⟨b.addr, b.length.toUInt32, b.lkey⟩

/-- `build_native_sglist` on an `nd_sglist_t`. -/
def buildNativeSglist (bs : List MrBuffer) (sglist : SmallSglist NativeSge 8) (maxSge : UInt32) :
    BuiltSglist × SmallSglist NativeSge 8 :=
  RdmaOnAsio.buildNativeSglist fillNativeSge bs sglist maxSge

/-- The calls on an `IND2QueuePair`, with the SGEs in memory. The flag of a send, a read and a write is
0. -/
inductive NativeRequest
  | send (requestContext : Nat) (sges : List NativeSge) (count : UInt32)
  | receive (requestContext : Nat) (sges : List NativeSge) (count : UInt32)
  | read (requestContext : Nat) (sges : List NativeSge) (count : UInt32) (remoteAddr : UInt64)
      (remoteToken : UInt32)
  | write (requestContext : Nat) (sges : List NativeSge) (count : UInt32) (remoteAddr : UInt64)
      (remoteToken : UInt32)
deriving DecidableEq, Repr

/-- A post wrapper: the call, and `ec = static_cast<nd_errc>(hr)`. -/
def postWith (native : NativeRequest → Int) (request : List NativeSge → UInt32 → NativeRequest)
    (sgeList : List NativeSge) (sgeCount : Nat) : NativeRequest × NdErrorCode :=
  let wr := request (sgeList.take sgeCount) (UInt32.ofNat sgeCount)
  (wr, .ndErrc (native wr))

/-- `post_send`. -/
def postSend (native : NativeRequest → Int) (requestContext : Nat) :
    List NativeSge → Nat → NativeRequest × NdErrorCode :=
  postWith native (.send requestContext)

/-- `post_recv`. -/
def postRecv (native : NativeRequest → Int) (requestContext : Nat) :
    List NativeSge → Nat → NativeRequest × NdErrorCode :=
  postWith native (.receive requestContext)

/-- `post_read`. -/
def postRead (native : NativeRequest → Int) (requestContext : Nat) (remote : RemoteAddr) :
    List NativeSge → Nat → NativeRequest × NdErrorCode :=
  postWith native fun sges count => .read requestContext sges count remote.addr remote.token

/-- `post_write`. -/
def postWrite (native : NativeRequest → Int) (requestContext : Nat) (remote : RemoteAddr) :
    List NativeSge → Nat → NativeRequest × NdErrorCode :=
  postWith native fun sges count => .write requestContext sges count remote.addr remote.token

/-- What the `do_post_*` of this backend share. -/
def params (sgeMax : UInt32) (setsPostedBytes : Bool)
    (post : List NativeSge → Nat → NativeRequest × NdErrorCode) :
    PostParams NativeSge NativeRequest NdErrorCode where
  fill := fillNativeSge
  sgeMax := sgeMax
  setsPostedBytes := setsPostedBytes
  ofRdma := fun e => .common (.rdma e)
  isError := NdErrorCode.isError
  post := post

/-- `do_post_send` of the op at address `addr`. -/
def doPostSend (cfg : SgeConfig) (native : NativeRequest → Int) (addr : Nat) :
    DataOp NdErrorCode → MrBufferSequence → PostOutcome NativeRequest NdErrorCode :=
  (params cfg.maxSendSge true (postSend native addr)).doPost

/-- `do_post_recv`. -/
def doPostRecv (cfg : SgeConfig) (native : NativeRequest → Int) (addr : Nat) :
    DataOp NdErrorCode → MrBufferSequence → PostOutcome NativeRequest NdErrorCode :=
  (params cfg.maxRecvSge false (postRecv native addr)).doPost

/-- `do_post_read`. -/
def doPostRead (cfg : SgeConfig) (native : NativeRequest → Int) (addr : Nat) (remote : RemoteAddr) :
    DataOp NdErrorCode → MrBufferSequence → PostOutcome NativeRequest NdErrorCode :=
  (params cfg.maxSendSge false (postRead native addr remote)).doPost

/-- `do_post_write`. -/
def doPostWrite (cfg : SgeConfig) (native : NativeRequest → Int) (addr : Nat) (remote : RemoteAddr) :
    DataOp NdErrorCode → MrBufferSequence → PostOutcome NativeRequest NdErrorCode :=
  (params cfg.maxSendSge true (postWrite native addr remote)).doPost

/-- The `do_post_*` of an op. -/
def doPost (kind : OpType) (cfg : SgeConfig) (native : NativeRequest → Int) (addr : Nat)
    (remote : RemoteAddr) :
    DataOp NdErrorCode → MrBufferSequence → PostOutcome NativeRequest NdErrorCode :=
  match kind with
  | .postSend => doPostSend cfg native addr
  | .postRecv => doPostRecv cfg native addr
  | .remoteRead => doPostRead cfg native addr remote
  | .remoteWrite => doPostWrite cfg native addr remote

/-! ## Completions -/

/-- `ND2_REQUEST_TYPE`. -/
inductive RequestType
  | receive
  | send
  | bind
  | invalidate
  | read
  | write
deriving DecidableEq, Repr

/-- `ND2_RESULT`, as far as it is read. -/
structure Nd2Result where
  requestContext : Nat
  status : Int := ndSuccess
  requestType : RequestType := .send
  bytesTransferred : Nat := 0
deriving DecidableEq, Repr

/-- `ND_CANCELED`, as an `HRESULT`. -/
def ndCanceled : Int := -1073741536

/-- `completion_status_to_error`. -/
def completionStatusToError (status : Int) : NdErrorCode :=
  if status = ndSuccess then .common success
  else if status = ndCanceled then .common operationAborted
  else .ndErrc status

/-- `resolve_wc`: the op it returns. -/
def resolveWc (result : Nd2Result) (op : DataOp NdErrorCode) : Option (DataOp NdErrorCode) :=
  if result.requestContext = 0 then
    none
  else
    let op := { op with ec := completionStatusToError result.status }
    if !op.ec.isError then
      -- the bytes of a send and of a write are set when it is posted
      if result.requestType ≠ .send ∧ result.requestType ≠ .write then
        some { op with bytesTransferred := result.bytesTransferred }
      else
        some op
    else
      some { op with bytesTransferred := 0 }

/-- `poll_and_dispatch`, of one result: the handler's arguments. -/
def pollAndDispatch (kind : OpType) (result : Nd2Result) (op : DataOp NdErrorCode) :
    Option (NdErrorCode × Nat) :=
  (resolveWc result op).map (·.handlerArgs NdErrorCode.isError kind)

/-- `dispatch_completion`: the handler's arguments. -/
def dispatchCompletion (kind : OpType) (wc : Nd2Result) (op : DataOp NdErrorCode) :
    Option (NdErrorCode × Nat) :=
  if wc.requestContext = 0 then
    none
  else
    let op := { op with ec := completionStatusToError wc.status }
    let op :=
      if !op.ec.isError then
        if wc.requestType ≠ .send ∧ wc.requestType ≠ .write then
          { op with bytesTransferred := wc.bytesTransferred }
        else
          op
      else
        { op with bytesTransferred := 0 }
    some (op.handlerArgs NdErrorCode.isError kind)

/-- The completion of a posted op, in either mode. -/
def deliver (mode : Mode) (kind : OpType) (result : Nd2Result) (op : DataOp NdErrorCode) :
    Option (NdErrorCode × Nat) :=
  match mode with
  | .event => pollAndDispatch kind result op
  | .poll => dispatchCompletion kind result op

/-- What the handler of an op gets: an immediate completion goes through the scheduler or `ready_` to
`complete`, a posted op is resolved from its result. -/
def outcome (mode : Mode) (kind : OpType) (cfg : SgeConfig) (native : NativeRequest → Int) (addr : Nat)
    (remote : RemoteAddr) (bs : MrBufferSequence) (result : Nd2Result) : Option (NdErrorCode × Nat) :=
  let posted := doPost kind cfg native addr remote { ec := .common success } bs
  if posted.immediate then
    some (posted.op.handlerArgs NdErrorCode.isError kind)
  else
    deliver mode kind result posted.op

end RdmaOnAsio.Nd.Verbs
