import Mooncake.Read.Buffer
import Mooncake.Read.Into
import Mooncake.Read.Multi

/-!
# The reads that a batch issues

Which replica each transfer, file read and offload request of a batch read is for.  Nothing is
assumed about the answers of the master or about the buffers here: the replicas of a key may
have any order, type, status and size.
-/

namespace Mooncake.Read

open Library.Keyed

/-- A read that is issued for a key, by the replica it names. -/
structure Issued where
  index : Nat
  key : ObjectKey
  replica : Replica
  deriving DecidableEq, Repr

/-- The first LOCAL_DISK replica, whatever its status. -/
def firstLocalDiskReplica (query : QueryResult) : Option Replica :=
  query.replicas.find? Replica.isLocalDiskReplica

/-- The reads that a `BatchGet` call starts: each is for the replica that is found first. -/
def issuedBy (ops : List ReadOp) (call : BatchReadCall) : List Issued :=
  call.events.filterMap fun event =>
    match event with
    | .transferred position _ _ =>
      ops[position]?.bind fun op =>
        (findFirstCompleteReplica op.query.replicas).toOption.map fun replica =>
          ⟨op.index, op.key, replica⟩
    | _ => none

def offloadIssue (op : ReadOp) : Option Issued :=
  (firstLocalDiskReplica op.query).map fun replica => ⟨op.index, op.key, replica⟩

namespace Inquiry

variable (inquiry : Inquiry) (world : World)

/-! ## `batch_get_buffer` -/

end Inquiry

/-! ## `batch_get_into` -/

namespace IntoInquiry

variable (inquiry : IntoInquiry) (world : World)

def issued : List Issued :=
  if !world.connected || !inquiry.aligned then []
  else
    issuedBy inquiry.directOps (inquiry.directCall world) ++
      issuedBy ((inquiry.diskReads world).map StagedRead.op) (inquiry.diskCall world) ++
      (world.walk ReadOp.key inquiry.localDiskOps).filterMap offloadIssue

end IntoInquiry

/-! ## `batch_get_into_multi_buffers` -/

namespace MultiInquiry

variable (inquiry : MultiInquiry) (world : World)

/-- The reads of a call with `prefer_alloc_in_same_node` off, which is the default. -/
def issued : List Issued :=
  if !world.connected || !inquiry.aligned then []
  else
    issuedBy inquiry.directOps (batchRead world 0 inquiry.directOps false) ++
      (inquiry.offloadPairs world).filterMap (fun pair => offloadIssue pair.2) ++
      issuedBy ((inquiry.diskReads world).map StagedRead.op)
        (batchRead world 1 ((inquiry.diskReads world).map StagedRead.op) false)

end MultiInquiry

end Mooncake.Read
