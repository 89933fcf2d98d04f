import RdmaOnAsio.Detail.Verbs

/-!
# The data plane of the ibv backend

`fill_native_sge`, the post wrappers of `verbs_ops` and the `do_post_*` of `ibv_verbs_service`, with the
machine integers of the source.
-/

namespace RdmaOnAsio.Ibv.Verbs

open ErrorCode

/-- `ibv_sge`. -/
structure NativeSge where
  addr : UInt64 := 0
  length : UInt32 := 0
  lkey : UInt32 := 0
deriving DecidableEq, Repr

instance : Inhabited NativeSge := ⟨{}⟩

/-- `fill_native_sge`; the length is cast to 32 bits. -/
def fillNativeSge (b : MrBuffer) : NativeSge := ⟨b.addr, b.length.toUInt32, b.lkey⟩

/-- `build_native_sglist` on an `ibv_sglist_t`. -/
def buildNativeSglist (bs : List MrBuffer) (sglist : SmallSglist NativeSge 8) (maxSge : UInt32) :
    RdmaOnAsio.BuiltSglist × SmallSglist NativeSge 8 :=
  RdmaOnAsio.buildNativeSglist fillNativeSge bs sglist maxSge

/-- `ibv_wr_opcode`. -/
inductive WrOpcode
  | send
  | rdmaRead
  | rdmaWrite
deriving DecidableEq, Repr

/-- `ibv_recv_wr` or `ibv_send_wr`, with the SGEs in memory at `sg_list`. A send is signaled. -/
inductive NativeWr
  | recv (wrId : Nat) (sgList : List NativeSge) (numSge : Int32)
  | send (wrId : Nat) (sgList : List NativeSge) (numSge : Int32) (opcode : WrOpcode) (remoteAddr : UInt64)
      (rkey : UInt32)
deriving DecidableEq, Repr

/-- What the post wrappers leave in `ec` after the native call returned `rc`. -/
def postEc (rc : Int) : ErrorCode := if rc ≠ 0 then makeSystemErrorCode rc else success

/-- `post_recv`. -/
def postRecv (native : NativeWr → Int) (requestContext : Nat) (sgeList : List NativeSge) (sgeCount : Nat) :
    NativeWr × ErrorCode :=
  let wr := .recv requestContext (sgeList.take sgeCount) (Int32.ofNat sgeCount)
  (wr, postEc (native wr))

/-- `post_send`. -/
def postSend (native : NativeWr → Int) (requestContext : Nat) (sgeList : List NativeSge) (sgeCount : Nat) :
    NativeWr × ErrorCode :=
  let wr := .send requestContext (sgeList.take sgeCount) (Int32.ofNat sgeCount) .send 0 0
  (wr, postEc (native wr))

/-- `post_rdma`. -/
def postRdma (native : NativeWr → Int) (requestContext : Nat) (opcode : WrOpcode) (remote : RemoteAddr)
    (sgeList : List NativeSge) (sgeCount : Nat) : NativeWr × ErrorCode :=
  let wr := .send requestContext (sgeList.take sgeCount) (Int32.ofNat sgeCount) opcode remote.addr
    remote.token
  (wr, postEc (native wr))

/-- What the `do_post_*` of this backend share. -/
def params (sgeMax : UInt32) (setsPostedBytes : Bool)
    (post : List NativeSge → Nat → NativeWr × ErrorCode) : PostParams NativeSge NativeWr ErrorCode where
  fill := fillNativeSge
  sgeMax := sgeMax
  setsPostedBytes := setsPostedBytes
  ofRdma := .rdma
  isError := isError
  post := post

/-- `do_post_send` of the op at address `addr`. -/
def doPostSend (cfg : SgeConfig) (native : NativeWr → Int) (addr : Nat) :
    DataOp ErrorCode → MrBufferSequence → PostOutcome NativeWr ErrorCode :=
  (params cfg.maxSendSge true (postSend native addr)).doPost

/-- `do_post_recv`. -/
def doPostRecv (cfg : SgeConfig) (native : NativeWr → Int) (addr : Nat) :
    DataOp ErrorCode → MrBufferSequence → PostOutcome NativeWr ErrorCode :=
  (params cfg.maxRecvSge false (postRecv native addr)).doPost

/-- `do_post_read`. -/
def doPostRead (cfg : SgeConfig) (native : NativeWr → Int) (addr : Nat) (remote : RemoteAddr) :
    DataOp ErrorCode → MrBufferSequence → PostOutcome NativeWr ErrorCode :=
  (params cfg.maxSendSge false (postRdma native addr .rdmaRead remote)).doPost

/-- `do_post_write`. -/
def doPostWrite (cfg : SgeConfig) (native : NativeWr → Int) (addr : Nat) (remote : RemoteAddr) :
    DataOp ErrorCode → MrBufferSequence → PostOutcome NativeWr ErrorCode :=
  (params cfg.maxSendSge true (postRdma native addr .rdmaWrite remote)).doPost

/-- The `do_post_*` of an op. -/
def doPost (kind : OpType) (cfg : SgeConfig) (native : NativeWr → Int) (addr : Nat) (remote : RemoteAddr) :
    DataOp ErrorCode → MrBufferSequence → PostOutcome NativeWr ErrorCode :=
  match kind with
  | .postSend => doPostSend cfg native addr
  | .postRecv => doPostRecv cfg native addr
  | .remoteRead => doPostRead cfg native addr remote
  | .remoteWrite => doPostWrite cfg native addr remote

/-! ## Completions -/

/-- `resolve_verbs_op`: the op it returns. -/
def resolve (wc : Wc) (o : DataOp ErrorCode) : Option (DataOp ErrorCode) :=
  (resolveVerbsOp wc).map fun r =>
    { ec := r.ec.getD o.ec, bytesTransferred := r.bytesTransferred.getD o.bytesTransferred }

/-- `poll_into` and `on_poll_complete`, of one work completion: the handler's arguments. -/
def pollInto (kind : OpType) (wc : Wc) (o : DataOp ErrorCode) : Option (ErrorCode × Nat) :=
  (resolve wc o).map (·.handlerArgs isError kind)

/-- `ibv_completion_queue::dispatch`: the handler's arguments. -/
def dispatch (kind : OpType) (wc : Wc) (o : DataOp ErrorCode) : Option (ErrorCode × Nat) :=
  (resolve wc o).map (·.handlerArgs isError kind)

/-- The completion of a posted op, in either mode. -/
def deliver (mode : Mode) (kind : OpType) (wc : Wc) (o : DataOp ErrorCode) : Option (ErrorCode × Nat) :=
  match mode with
  | .event => pollInto kind wc o
  | .poll => dispatch kind wc o

/-- What the handler of an op gets: an immediate completion goes through the scheduler or `ready_` to
`complete`, a posted op is resolved from its CQE. -/
def outcome (mode : Mode) (kind : OpType) (cfg : SgeConfig) (native : NativeWr → Int) (addr : Nat)
    (remote : RemoteAddr) (bs : MrBufferSequence) (wc : Wc) : Option (ErrorCode × Nat) :=
  let posted := doPost kind cfg native addr remote { ec := success } bs
  if posted.immediate then
    some (posted.op.handlerArgs isError kind)
  else
    deliver mode kind wc posted.op

end RdmaOnAsio.Ibv.Verbs
