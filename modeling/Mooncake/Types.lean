import Mathlib.Algebra.Order.Ring.Int
import Mathlib.Data.List.Basic

/-!
# Shared data of the store client

Object keys, endpoints and file paths are the source's strings, sizes and
addresses are natural numbers.  `tl::expected<T, ErrorCode>` is `Expected T`.
Only the fields that a modelled function reads are kept.
-/

namespace Mooncake

/-- The codes named by the client, and every other code of the master. -/
inductive ErrorCode where
  | ok
  | internalError
  | rpcFail
  | invalidParams
  | invalidReplica
  | noAvailableHandle
  | objectAlreadyExists
  | objectNotFound
  | objectHasLease
  | replicaIsNotReady
  | replicaNotInLocalMemory
  | transferFail
  | leaseExpired
  | segmentNotFound
  | unavailableInCurrentStatus
  | other (code : Int)
  deriving DecidableEq, Repr

abbrev Expected (α : Type) := Except ErrorCode α

abbrev ObjectKey := String

/-- `Slice`: a memory range handed to a transfer. -/
structure Slice where
  ptr : Nat
  size : Nat
  deriving DecidableEq, Repr

/-- A sum in `size_t`. -/
def wordSum (sizes : List Nat) : Nat :=
  sizes.foldl (fun total size => (total + size) % 2 ^ 64) 0

def calculateSliceSize (slices : List Slice) : Nat :=
  wordSum (slices.map Slice.size)

theorem foldl_word {sizes : List Nat} {start : Nat} (word : start < 2 ^ 64) :
    sizes.foldl (fun total size => (total + size) % 2 ^ 64) start =
      (start + sizes.sum) % 2 ^ 64 := by
  induction sizes generalizing start with
  | nil => exact (Nat.mod_eq_of_lt word).symm
  | cons size rest ih =>
    rw [List.foldl_cons, ih (Nat.mod_lt _ (by decide)), List.sum_cons, Nat.mod_add_mod,
      Nat.add_assoc]

theorem wordSum_eq (sizes : List Nat) : wordSum sizes = sizes.sum % 2 ^ 64 := by
  rw [wordSum, foldl_word (by decide), Nat.zero_add]

theorem wordSum_le {sizes : List Nat} : wordSum sizes ≤ sizes.sum :=
  wordSum_eq sizes ▸ Nat.mod_le _ _

inductive ReplicaStatus where
  | undefined
  | initialized
  | processing
  | complete
  | removed
  | failed
  deriving DecidableEq, Repr

inductive ReplicaType where
  | all
  | memory
  | nofSsd
  | disk
  deriving DecidableEq, Repr

structure BufferDescriptor where
  transportEndpoint : String
  bufferAddress : Nat
  size : UInt64
  deriving DecidableEq, Repr

structure DiskDescriptor where
  filePath : String
  objectSize : UInt64
  deriving DecidableEq, Repr

structure LocalDiskDescriptor where
  transportEndpoint : String
  objectSize : UInt64
  deriving DecidableEq, Repr

/-- The variant held by a `Replica::Descriptor`. -/
inductive DescriptorVariant where
  | memory (buffer : BufferDescriptor)
  | nof (buffer : BufferDescriptor)
  | disk (descriptor : DiskDescriptor)
  | localDisk (descriptor : LocalDiskDescriptor)
  deriving DecidableEq, Repr

structure Replica where
  status : ReplicaStatus
  descriptor : DescriptorVariant
  deriving DecidableEq, Repr

namespace Replica

def isMemoryReplica (replica : Replica) : Bool :=
  match replica.descriptor with
  | .memory _ => true
  | _ => false

def isNofReplica (replica : Replica) : Bool :=
  match replica.descriptor with
  | .nof _ => true
  | _ => false

def isDiskReplica (replica : Replica) : Bool :=
  match replica.descriptor with
  | .disk _ => true
  | _ => false

def isLocalDiskReplica (replica : Replica) : Bool :=
  match replica.descriptor with
  | .localDisk _ => true
  | _ => false

/-- The replicas that the client itself writes through the transfer engine. -/
def isTransferred (replica : Replica) : Bool :=
  replica.isMemoryReplica || replica.isNofReplica

/-- The type under which a transferred replica is recorded. -/
def transferType (replica : Replica) : ReplicaType :=
  if replica.isMemoryReplica then .memory else .nofSsd

theorem memory_transferred_iff (replica : Replica) :
    (replica.isTransferred = true ∧ replica.transferType = .memory) ↔
      replica.isMemoryReplica = true := by
  unfold isTransferred transferType isMemoryReplica isNofReplica
  cases replica.descriptor <;> simp

theorem nof_transferred_iff (replica : Replica) :
    (replica.isTransferred = true ∧ replica.transferType = .nofSsd) ↔
      replica.isNofReplica = true := by
  unfold isTransferred transferType isMemoryReplica isNofReplica
  cases replica.descriptor <;> simp

theorem isMemoryReplica_not_isNofReplica {replica : Replica}
    (memory : replica.isMemoryReplica = true) : replica.isNofReplica = false := by
  unfold isMemoryReplica at memory
  unfold isNofReplica
  split at memory <;> simp_all

end Replica

/-- The fields of `ReplicateConfig` that the client reads, with its defaults. -/
structure ReplicateConfig where
  replicaNum : Nat := 1
  nofReplicaNum : Nat := 0
  preferredSegment : String := ""
  preferAllocInSameNode : Bool := false
  deriving DecidableEq, Repr

inductive ReplicaWriteMode where
  | reliable
  | flexibleDualReplica
  deriving DecidableEq, Repr

/-- A submitted transfer; `outcome` is what its `get()` will return. -/
structure TransferFuture where
  outcome : ErrorCode
  deriving DecidableEq, Repr

end Mooncake
