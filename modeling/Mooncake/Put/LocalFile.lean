import Mooncake.Library.Threads
import Mooncake.Put.Grants
import Mooncake.Put.Single

/-!
# The local file of a DISK replica

`Put` and the default path of `BatchPut` copy the slices of an operation with a DISK
replica and hand them to the write pool.  The task stores the object and then ends or
revokes the DISK replica, while the call goes on to its own End and Revoke requests.
A call is the thread of its statements here, a task is the thread it forks; the pool
may run its tasks in any order.
-/

namespace Mooncake.Put

open Library.Threads

/-- An operation: the call it belongs to and its index there. -/
structure OpRef where
  call : Nat
  index : Nat
  deriving DecidableEq, Repr

/-- What reaches the storage backend and the master, with the operation it is for. -/
inductive StoreEvent where
  | storeObject (op : OpRef) (path : String) (value : List UInt8) (key : ObjectKey)
      (stored : Bool)
  | batchEvictDiskReplica (op : OpRef) (keys : List ObjectKey)
  | putEnd (op : OpRef) (key : ObjectKey) (replicaType : ReplicaType)
  | putRevoke (op : OpRef) (key : ObjectKey) (replicaType : ReplicaType)
  deriving DecidableEq, Repr

/-- The storage backend of a client and the outcomes of one call: the bytes of a slice,
or a failed copy from the device, and for each operation the evicted keys or the error of
`StoreObject`. -/
structure LocalFiles where
  storageBackend : Bool
  copyToHost : Slice → Option (List UInt8)
  storeObject : Nat → Expected (List ObjectKey)

/-- The bytes of the slices, unless one of them cannot be copied. -/
def LocalFiles.stage (files : LocalFiles) (slices : List Slice) : Option (List UInt8) :=
  (slices.mapM files.copyToHost).map List.flatten

/-! ## The task -/

/-- The task that `PutToLocalFile` hands to the write pool. -/
def storeTask (files : LocalFiles) (op : OpRef) (key : ObjectKey) (value : List UInt8)
    (path : String) : List StoreEvent :=
  match files.storeObject op.index with
  | .error _ => [.storeObject op path value key false, .putRevoke op key .disk]
  | .ok evicted =>
    .storeObject op path value key true ::
      ((if evicted = [] then [] else [.batchEvictDiskReplica op evicted]) ++
        [.putEnd op key .disk])

def putToLocalFile (files : LocalFiles) (op : OpRef) (key : ObjectKey) (slices : List Slice)
    (descriptor : DiskDescriptor) : List (Statement StoreEvent) :=
  if !files.storageBackend then []
  else
    match files.stage slices with
    | none => [.act (.putRevoke op key .disk)]
    | some value => [.fork (storeTask files op key value descriptor.filePath)]

/-- The last DISK replica, which the loops find from the end. -/
def diskDescriptor? (replicas : List Replica) : Option DiskDescriptor :=
  replicas.reverse.findSome? fun replica =>
    match replica.descriptor with
    | .disk descriptor => some descriptor
    | _ => none

/-- The loop over the replicas that looks for the DISK replica. -/
def storeDiskReplica (files : LocalFiles) (op : OpRef) (key : ObjectKey) (slices : List Slice)
    (replicas : List Replica) : List (Statement StoreEvent) :=
  if files.storageBackend then
    match diskDescriptor? replicas with
    | none => []
    | some descriptor => putToLocalFile files op key slices descriptor
  else []

/-! ## The calls -/

inductive PutRequest where
  | put (key : ObjectKey) (slices : List Slice) (config : ReplicateConfig)
  | batchPut (keys : List ObjectKey) (batchedSlices : List (List Slice))
      (config : ReplicateConfig)

structure StoreCall where
  client : Client
  answers : Answers
  files : LocalFiles
  request : PutRequest

def PutCall.events (op : OpRef) (key : ObjectKey) (call : PutCall) : List StoreEvent :=
  (call.ended.map fun ended => StoreEvent.putEnd op key ended.1).toList ++
    (call.revoked.map fun revoked => StoreEvent.putRevoke op key revoked.1).toList

def FinalizeRequest.events (call : Nat) (request : FinalizeRequest) : List StoreEvent :=
  request.group.entries.map fun entry =>
    if request.name.isEnd then .putEnd ⟨call, entry.2⟩ entry.1 request.name.replicaType
    else .putRevoke ⟨call, entry.2⟩ entry.1 request.name.replicaType

/-- `SubmitTransfers` stores the DISK replica of an operation that it does not skip. -/
def submitLocalFile (files : LocalFiles) (call : Nat) (entry : PutOperation × Nat) :
    List (Statement StoreEvent) :=
  if entry.1.isResolved then []
  else if entry.1.replicas = [] then []
  else storeDiskReplica files ⟨call, entry.2⟩ entry.1.key entry.1.slices entry.1.replicas

/-- The statements of a call for the DISK replicas of its operations.  The path of
`BatchPut` with one replica for each node has none. -/
def StoreCall.fileStatements (run : StoreCall) (call : Nat) : List (Statement StoreEvent) :=
  match run.request with
  | .put key slices config =>
    storeDiskReplica run.files ⟨call, 0⟩ key slices
      ((put run.client run.answers key slices config).replicas.getD [])
  | .batchPut keys batchedSlices config =>
    if (putConfig run.client config).preferAllocInSameNode then []
    else if !run.client.transferSubmitter then []
    else (batchPut run.client run.answers keys batchedSlices config).started.zipIdx.flatMap
      (submitLocalFile run.files call)

def StoreCall.finalizeEvents (run : StoreCall) (call : Nat) : List StoreEvent :=
  match run.request with
  | .put key slices config =>
    (put run.client run.answers key slices config).events ⟨call, 0⟩ key
  | .batchPut keys batchedSlices config =>
    (batchPut run.client run.answers keys batchedSlices
      config).finalization.requests.flatMap (FinalizeRequest.events call)

def StoreCall.program (run : StoreCall) (call : Nat) : List (Statement StoreEvent) :=
  run.fileStatements call ++ (run.finalizeEvents call).map .act

def startCalls (calls : List StoreCall) : Pool StoreEvent where
  threads := calls.mapIdx fun call run => run.program call

/-! ## The objects of a call -/

/-- The objects of a call with the start responses for them. -/
def StoreCall.grants (run : StoreCall) : List Grant :=
  match run.request with
  | .put key slices config =>
    [⟨key, slices,
      run.answers.putStart key (slices.map Slice.size) (putConfig run.client config)⟩]
  | .batchPut keys batchedSlices config =>
    batchGrants run.client run.answers keys batchedSlices config

def StoreCall.hasDisk (run : StoreCall) (index : Nat) : Bool :=
  run.grants[index]?.any fun grant => grant.replicas.any Replica.isDiskReplica

def StoreCall.data (run : StoreCall) (index : Nat) : Option (List UInt8) :=
  run.grants[index]?.bind fun grant => run.files.stage grant.slices

/-- The object was granted the replicas that were asked for and is kept as a whole: outside
flexible mode all of its transfers were successful, in flexible mode one of each type. -/
def StoreCall.keepsAll (run : StoreCall) (index : Nat) (grant : Grant) : Bool :=
  match run.request with
  | .put _ slices config =>
    allocationExpected run.client (putConfig run.client config) grant.replicas &&
      decide (fate run.client (putConfig run.client config) grant.replicas.zipIdx (fun entry =>
        decide (transferWrite run.client run.answers slices entry = .ok)) = .whole)
  | .batchPut _ _ config =>
    decide (grant.fate run.client run.answers (putConfig run.client config) run.grants index =
      .whole)

end Mooncake.Put
