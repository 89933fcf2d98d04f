import RdmaOnAsio.Detail.Sglist
import RdmaOnAsio.Ibv.Submit

/-!
# Posting and completing a data-plane op

The bodies of `do_post_send`, `do_post_recv`, `do_post_read` and `do_post_write`, which the two backends
write out eight times, and the completion of the op they leave. A backend supplies its native SGE, its
work request and its error codes.
-/

namespace RdmaOnAsio

open Ibv (OpType)

universe u v w

/-- The buffer sequences that `is_single_buffer_sequence_v` tells apart. -/
inductive MrBufferSequence
  | single (b : MrBuffer)
  | sequence (bs : List MrBuffer)
deriving DecidableEq, Repr

/-- The buffers of a sequence. -/
def MrBufferSequence.buffers : MrBufferSequence → List MrBuffer
  | .single b => [b]
  | .sequence bs => bs

/-- `rdma_verbs_op_base`: the fields a completion is reported through. -/
structure DataOp (ε : Type w) where
  ec : ε
  bytesTransferred : Nat := 0
deriving DecidableEq, Repr

/-- The fields of the effective config that `do_post_*` reads. -/
structure SgeConfig where
  maxSendSge : UInt32 := 0
  maxRecvSge : UInt32 := 0
deriving DecidableEq, Repr

/-- What a `do_post_*` does: its result, the op as it leaves it, and the work request it hands to the native
post, if it comes to that. -/
structure PostOutcome (ω : Type v) (ε : Type w) where
  immediate : Bool
  op : DataOp ε
  wr : Option ω
deriving DecidableEq, Repr

/-- `exceeds_sge_limit`. -/
def exceedsSgeLimit (sgeCount : Nat) (sgeMax : UInt32) : Bool := sgeMax != 0 && sgeMax.toNat < sgeCount

/-- `exceeds_buffer_limit`. -/
def exceedsBufferLimit (length : UInt64) : Bool := maxOperation < length

/-- What a `do_post_*` takes from its backend and from the op it is for. `post` is the wrapper of
`verbs_ops`: the work request for a list in memory and a count, and the code it assigns to `ec`. -/
structure PostParams (σ : Type u) (ω : Type v) (ε : Type w) where
  fill : MrBuffer → σ
  sgeMax : UInt32
  setsPostedBytes : Bool
  ofRdma : RdmaErrc → ε
  isError : ε → Bool
  post : List σ → Nat → ω × ε

variable {σ : Type u} {ω : Type v} {ε : Type w}

/-- `set_posted_bytes`, in the ops that call it. -/
def PostParams.setPosted (P : PostParams σ ω ε) (op : DataOp ε) (bytes : UInt64) : DataOp ε :=
  if P.setsPostedBytes then { op with bytesTransferred := bytes.toNat } else op

/-- The native post and what follows it. -/
def PostParams.submit (P : PostParams σ ω ε) (op : DataOp ε) (sges : List σ) (count : Nat) :
    PostOutcome ω ε :=
  let (wr, ec) := P.post sges count
  ⟨P.isError ec, { op with ec := ec }, some wr⟩

/-- The return of an op that is not posted, with the error assigned to `ec_`. -/
def PostParams.refuse (P : PostParams σ ω ε) (op : DataOp ε) (e : RdmaErrc) : PostOutcome ω ε :=
  ⟨true, { op with ec := P.ofRdma e }, none⟩

/-- The common body of `do_post_*`. -/
def PostParams.doPost [Inhabited σ] (P : PostParams σ ω ε) (op : DataOp ε) :
    MrBufferSequence → PostOutcome ω ε
  | .single b =>
    if b.length = 0 then
      ⟨true, op, none⟩
    else if exceedsSgeLimit 1 P.sgeMax then
      P.refuse op .tooManySge
    else if exceedsBufferLimit b.length then
      P.refuse op .bufferTooLarge
    else
      P.submit (P.setPosted op b.length) [P.fill b] 1
  | .sequence bs =>
    let (built, sglist) := buildNativeSglist P.fill bs ({} : SmallSglist σ 8) P.sgeMax
    if built.tooManySge then
      P.refuse op .tooManySge
    else if built.bufferTooLarge then
      P.refuse op .bufferTooLarge
    else if built.allEmpty then
      ⟨true, op, none⟩
    else
      P.submit (P.setPosted op built.totalBytes) sglist.active built.count

/-- `do_complete` of the op: what it binds to the handler. -/
def DataOp.handlerArgs (isError : ε → Bool) (kind : OpType) (o : DataOp ε) : ε × Nat :=
  (o.ec, if kind.clearsBytes && isError o.ec then 0 else o.bytesTransferred)

end RdmaOnAsio
