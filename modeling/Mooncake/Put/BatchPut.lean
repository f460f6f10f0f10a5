import Mooncake.Put.FinalizePlan
import Mooncake.Put.SameNode

/-!
# Batch put

`BatchPut` starts all operations, transfers their replicas one by one or merged
by segment, and finalizes them.
-/

namespace Mooncake.Put

/-- One run of `BatchPut`: the operations as `BatchPutStart` answered them, as
they were when finalize began, the requests sent, and the results. -/
structure PutRun where
  started : List PutOperation := []
  transferred : List PutOperation := []
  finalization : PutFinalization := {}
  results : List (Expected Unit)

/-- Finalize the transferred operations and collect their results. -/
def finishBatchPut (client : Client) (answers : Answers)
    (started transferred : List PutOperation) : PutRun :=
  let finalization := finalizeBatchPut client answers transferred
  { started := started
    transferred := transferred
    finalization := finalization
    results := collectResults finalization.ops }

def batchPut (client : Client) (answers : Answers) (keys : List ObjectKey)
    (batchedSlices : List (List Slice)) (config : ReplicateConfig) : PutRun :=
  let clientConfig := putConfig client config
  let ops := createPutOperations keys batchedSlices
  if clientConfig.preferAllocInSameNode then
    if 0 < clientConfig.nofReplicaNum then
      { results := keys.map fun _ => .error .invalidParams }
    else if clientConfig.replicaNum ≠ 1 then
      { results := keys.map fun _ => .error .invalidParams }
    else
      let started := startBatchPut client answers ops clientConfig
      finishBatchPut client answers started (transferBySegment client answers started)
  else
    let started := startBatchPut client answers ops clientConfig
    finishBatchPut client answers started
      (waitForTransfers (submitTransfers client answers started))

end Mooncake.Put
