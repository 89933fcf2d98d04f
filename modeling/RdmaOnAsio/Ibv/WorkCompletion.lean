import RdmaOnAsio.Error

/-!
# Work completions and verbs ops

What `ibv_poll_cq` hands out, the part of `rdma_verbs_op_base` it is resolved into, and how the four kinds
of ops pass it to their handlers.
-/

namespace RdmaOnAsio.Ibv

open ErrorCode

/-- `ibv_wc_status`. -/
inductive WcStatus
  | success
  | wrFlushErr
  | other (code : Nat)
deriving DecidableEq, Repr

/-- `ibv_wc_opcode`. -/
inductive WcOpcode
  | send
  | rdmaWrite
  | rdmaRead
  | recv
  | other (code : Nat)
deriving DecidableEq, Repr

/-- `ibv_wc`, as far as it is read. `wrId` is the address of the op that was posted. -/
structure Wc where
  wrId : Nat
  status : WcStatus := .success
  opcode : WcOpcode := .send
  byteLen : Nat := 0
deriving DecidableEq, Repr

/-- `wc_status_to_ec`. -/
def wcStatusToEc : WcStatus → ErrorCode
  | .success => success
  | .wrFlushErr => operationAborted
  | .other _ => .basic .connectionReset

/-- `rdma_verbs_op_base`: the fields a completion is reported through. -/
structure VerbsOp where
  ec : ErrorCode := success
  bytesTransferred : Nat := 0
deriving DecidableEq, Repr

/-- What `resolve_verbs_op` returns, the op at address `op`, with what it assigns to its `ec_` and
`bytes_transferred_`; `none` is a field it leaves alone. -/
structure Resolved where
  op : Nat
  ec : Option ErrorCode := none
  bytesTransferred : Option Nat := none
deriving DecidableEq, Repr

/-- `resolve_verbs_op`. -/
def resolveVerbsOp (wc : Wc) : Option Resolved :=
  if wc.wrId = 0 then
    none
  else if wc.status = .success then
    -- a send or a write does not report its length
    if wc.opcode = .send ∨ wc.opcode = .rdmaWrite then
      some { op := wc.wrId }
    else
      some { op := wc.wrId, bytesTransferred := some wc.byteLen }
  else
    some { op := wc.wrId, ec := some (wcStatusToEc wc.status), bytesTransferred := some 0 }

/-- The assignments of `resolve_verbs_op`. -/
def Resolved.stamp (r : Resolved) (o : VerbsOp) : VerbsOp :=
  { ec := r.ec.getD o.ec, bytesTransferred := r.bytesTransferred.getD o.bytesTransferred }

variable {wc : Wc} {r : Resolved}

theorem resolveVerbsOp_isSome : (resolveVerbsOp wc).isSome = true ↔ wc.wrId ≠ 0 := by
  unfold resolveVerbsOp
  split_ifs <;> simp_all

/-- Completions of posted ops are resolved one by one. -/
theorem map_resolveVerbsOp {wcs : List Wc} (h : ∀ wc ∈ wcs, wc.wrId ≠ 0) :
    (wcs.filterMap resolveVerbsOp).map some = wcs.map resolveVerbsOp := by
  induction wcs with
  | nil => rfl
  | cons wc wcs ih =>
    obtain ⟨r, hr⟩ := Option.isSome_iff_exists.1 (resolveVerbsOp_isSome.2 (h wc List.mem_cons_self))
    rw [List.filterMap_cons_some hr, List.map_cons, List.map_cons, hr,
      ih fun wc' hwc => h wc' (List.mem_cons_of_mem wc hwc)]

/-- A completion is resolved to the op that was posted. -/
theorem op_of_resolveVerbsOp (h : resolveVerbsOp wc = some r) : r.op = wc.wrId := by
  unfold resolveVerbsOp at h
  split_ifs at h <;> obtain rfl := Option.some.inj h <;> rfl

end RdmaOnAsio.Ibv
