import Mooncake.Library.ByteMemory
import Mooncake.Read.Transfers

/-!
# Batch requests of the real client

What the three batch reads of `RealClient` share: the choice of a replica, the
call of `BatchGet` over a map from key to slices, and the read of LOCAL_DISK
objects from their owner.  Transfers and copies are writes to a byte memory,
each on behalf of the index it was started for.  A `Batch` is the input of a
read; a `World` is everything that the calls below it may answer.
-/

namespace Mooncake.Read

open Library.Indexed Library.Keyed Library.ByteMemory List

/-! ## Choosing a replica -/

/-- The first loop of `SelectBestReplica`. -/
def selectTransferred (localEndpoints : List String) :
    List Replica → Option Replica → Option Replica → Option Replica
  | [], firstMemory, firstNof => firstMemory <|> firstNof
  | replica :: rest, firstMemory, firstNof =>
    if replica.status ≠ .complete then
      selectTransferred localEndpoints rest firstMemory firstNof
    else
      match replica.descriptor with
      | .memory buffer =>
        if buffer.transportEndpoint ∈ localEndpoints then some replica
        else selectTransferred localEndpoints rest (firstMemory <|> some replica) firstNof
      | .nof buffer =>
        if buffer.transportEndpoint ∈ localEndpoints then some replica
        else selectTransferred localEndpoints rest firstMemory (firstNof <|> some replica)
      | _ => selectTransferred localEndpoints rest firstMemory firstNof

/-- The second loop: LOCAL_DISK always overrides DISK. -/
def selectStored : List Replica → Option Replica → Option Replica
  | [], best => best
  | replica :: rest, best =>
    if replica.status ≠ .complete then selectStored rest best
    else
      match replica.descriptor with
      | .localDisk _ => selectStored rest (some replica)
      | .disk _ => selectStored rest (best <|> some replica)
      | _ => selectStored rest best

def selectBestReplica (replicas : List Replica) (localEndpoints : List String) :
    Option Replica :=
  selectTransferred localEndpoints replicas none none <|> selectStored replicas none

def filterQueryResult (query : QueryResult) (replica : Replica) : QueryResult :=
  ⟨[replica], query.leaseTimeout⟩

def Usable (replicas : List Replica) (replica : Replica) : Prop :=
  replica ∈ replicas ∧ replica.status = .complete

variable {replicas : List Replica} {replica : Replica} {localEndpoints : List String}

section Kept

variable {kept : Replica → Prop} {best : Option Replica}

theorem kept_orElse (before : ∀ other ∈ best, kept other) (own : kept replica) :
    ∀ other ∈ best <|> some replica, kept other := by
  intro other present
  cases best with
  | none => exact Option.mem_some.mp present ▸ own
  | some chosen => exact before other present

theorem selectTransferred_kept {firstMemory firstNof : Option Replica}
    (own : ∀ other ∈ replicas, other.status = .complete → other.isTransferred = true → kept other)
    (memory : ∀ other ∈ firstMemory, kept other) (nof : ∀ other ∈ firstNof, kept other)
    (selected : selectTransferred localEndpoints replicas firstMemory firstNof = some replica) :
    kept replica := by
  induction replicas generalizing firstMemory firstNof with
  | nil =>
    cases firstMemory with
    | none => exact nof replica selected
    | some other => exact memory replica selected
  | cons first rest ih =>
    have tail := fun other later => own other (mem_cons_of_mem _ later)
    unfold selectTransferred at selected
    split at selected
    · exact ih tail memory nof selected
    · rename_i status
      have found := own first mem_cons_self (by simpa using status)
      split at selected
      · rename_i kind
        have self := found (by simp [Replica.isTransferred, Replica.isMemoryReplica, kind])
        split at selected
        · exact Option.some.inj selected ▸ self
        · exact ih tail (kept_orElse memory self) nof selected
      · rename_i kind
        have self := found (by simp [Replica.isTransferred, Replica.isNofReplica, kind])
        split at selected
        · exact Option.some.inj selected ▸ self
        · exact ih tail memory (kept_orElse nof self) selected
      · exact ih tail memory nof selected

theorem selectStored_kept (own : ∀ other ∈ replicas, other.status = .complete → kept other)
    (before : ∀ other ∈ best, kept other) (selected : selectStored replicas best = some replica) :
    kept replica := by
  induction replicas generalizing best with
  | nil => exact before replica selected
  | cons first rest ih =>
    have tail := fun other later => own other (mem_cons_of_mem _ later)
    unfold selectStored at selected
    split at selected
    · exact ih tail before selected
    · rename_i status
      have self := own first mem_cons_self (by simpa using status)
      split at selected
      · exact ih tail (fun other present => Option.mem_some.mp present ▸ self) selected
      · exact ih tail (kept_orElse before self) selected
      · exact ih tail before selected

end Kept

theorem selectBestReplica_usable
    (selected : selectBestReplica replicas localEndpoints = some replica) :
    Usable replicas replica := by
  unfold selectBestReplica at selected
  cases transferred : selectTransferred localEndpoints replicas none none with
  | some chosen =>
    rw [transferred] at selected
    cases selected
    exact selectTransferred_kept (fun _ present complete _ => ⟨present, complete⟩) (by simp)
      (by simp) transferred
  | none =>
    rw [transferred] at selected
    exact selectStored_kept (fun _ present complete => ⟨present, complete⟩) (by simp) selected

/-- A chosen replica alone is found again by `BatchGet`. -/
theorem findFirstCompleteReplica_filterQueryResult (query : QueryResult)
    (complete : replica.status = .complete) :
    findFirstCompleteReplica (filterQueryResult query replica).replicas = .ok replica := by
  simp [findFirstCompleteReplica, filterQueryResult, complete]

/-! ## Requests -/

/-- The addresses of a list of slices, in the order of the bytes. -/
def addresses (slices : List Slice) : List Nat :=
  slices.flatMap fun slice => List.range' slice.ptr slice.size

theorem addresses_single (ptr size : Nat) : addresses [⟨ptr, size⟩] = List.range' ptr size := by
  simp [addresses]

theorem addresses_whole (replica : Replica) (ptr : Nat) :
    addresses [⟨ptr, totalSize replica⟩] = List.range' ptr (totalSize replica) :=
  addresses_single ptr _

/-- The keys of a batch read and what the master answers about them. -/
structure Inquiry where
  keys : List ObjectKey
  query : Nat → Expected QueryResult
  localEndpoints : List String
  allocateSlices : Replica → Nat → List Slice

/-- All replicas of an object have the size of the object.  `allocateSlices` covers as many
bytes as the replica has, from the given address on. -/
structure Batch extends Inquiry where
  objectSize : ObjectKey → Nat
  sized : ∀ (index : Nat) (key : ObjectKey) (result : QueryResult),
    keys[index]? = some key → query index = .ok result →
      ∀ replica ∈ result.replicas, totalSize replica = objectSize key
  covers : ∀ replica ptr, addresses (allocateSlices replica ptr) =
    List.range' ptr (totalSize replica)

def Batch.sizeAt (batch : Batch) (index : Nat) : Nat :=
  (batch.keys[index]?.map batch.objectSize).getD 0

structure Planned where
  index : Nat
  key : ObjectKey
  query : QueryResult
  replica : Replica

section Plan

variable (inquiry : Inquiry)

/-- The first checks of the loop over the keys. -/
def Inquiry.choose (index : Nat) (key : ObjectKey) : Expected Planned :=
  match inquiry.query index with
  | .error error => .error error
  | .ok result =>
    if result.replicas = [] then .error .invalidReplica
    else
      match selectBestReplica result.replicas inquiry.localEndpoints with
      | none => .error .invalidReplica
      | some replica =>
        .ok { index := index, key := key, query := result, replica := replica }

/-- The checks of a read into memory of the caller, which has the given capacity
for each index. -/
def Inquiry.planWithin (capacity : Nat → Nat) (index : Nat) (key : ObjectKey) :
    Expected Planned :=
  match inquiry.choose index key with
  | .error error => .error error
  | .ok planned =>
    if capacity index < totalSize planned.replica then .error .invalidParams
    else .ok planned

variable {inquiry} {capacity : Nat → Nat} {planned : Planned} {index : Nat} {key : ObjectKey}

theorem choose_ok :
    inquiry.choose index key = .ok planned ↔
      planned.index = index ∧ planned.key = key ∧ inquiry.query index = .ok planned.query ∧
        selectBestReplica planned.query.replicas inquiry.localEndpoints = some planned.replica := by
  constructor
  · intro chosen
    unfold Inquiry.choose at chosen
    split at chosen
    · cases chosen
    · rename_i result queried
      split at chosen
      · cases chosen
      · split at chosen
        · cases chosen
        · rename_i replica selected
          cases chosen
          exact ⟨rfl, rfl, queried, selected⟩
  · rintro ⟨rfl, rfl, queried, selected⟩
    have listed : planned.query.replicas ≠ [] := ne_nil_of_mem (selectBestReplica_usable selected).1
    simp [Inquiry.choose, queried, listed, selected]

theorem planWithin_ok :
    inquiry.planWithin capacity index key = .ok planned ↔
      inquiry.choose index key = .ok planned ∧ totalSize planned.replica ≤ capacity index := by
  unfold Inquiry.planWithin
  cases inquiry.choose index key with
  | error error => simp
  | ok other =>
    by_cases small : capacity index < totalSize other.replica
    · simp only [small, if_true, reduceCtorEq, false_iff, not_and, Except.ok.injEq]
      rintro rfl
      omega
    · simp only [small, if_false, Except.ok.injEq]
      exact ⟨fun same => ⟨same, by subst same; omega⟩, And.left⟩

theorem choose_named (index : Nat) (key : ObjectKey) (planned : Planned)
    (chosen : inquiry.choose index key = .ok planned) :
    planned.index = index ∧ planned.key = key := by
  obtain ⟨indexed, keyed, -⟩ := choose_ok.mp chosen
  exact ⟨indexed, keyed⟩

theorem planWithin_named (index : Nat) (key : ObjectKey) (planned : Planned)
    (accepted : inquiry.planWithin capacity index key = .ok planned) :
    planned.index = index ∧ planned.key = key :=
  choose_named index key planned (planWithin_ok.mp accepted).1

end Plan

/-- The keys that pass the checks of a loop over all keys. -/
def plannedReads (plan : Nat → ObjectKey → Expected Planned) (keys : List ObjectKey) :
    List Planned :=
  (keys.mapIdx plan).filterMap Except.toOption

/-- The operations of a loop that prepares planned keys. -/
def preparedReads {α : Type} (prepare : Planned → Expected α) (ops : List Planned) : List α :=
  ops.filterMap fun planned => (prepare planned).toOption

def prepareFailures {α : Type} (prepare : Planned → Expected α) (ops : List Planned) :
    List (Nat × ErrorCode) :=
  ops.filterMap fun planned =>
    match prepare planned with
    | .error error => some (planned.index, error)
    | .ok _ => none

/-! ## The environment of a batch read -/

/-- The reply of an owner to `batch_get_offload_object`. -/
structure OffloadResponse where
  pointers : Nat
  gcTtlMs : Nat

/-- What happens during one read from the owner of LOCAL_DISK objects. -/
structure OffloadAnswer where
  response : Expected OffloadResponse
  transfer : Expected Unit
  elapsedMs : Nat

structure Handle where
  ptr : Nat
  size : Nat
  deriving DecidableEq, Repr

/-- Everything around one call: the client, the answers to each of its
`BatchGet` calls, the allocator, the host copies, the owners of LOCAL_DISK
objects, the order in which maps are walked, the memory and the objects.
`residue` is what a failed access leaves behind; `movedFrom` is a handle whose
block was given away. -/
structure World where
  connected : Bool := true
  reader : Reader
  answers : Nat → ReadAnswers
  allocate : Nat → Option Nat
  scatter : Nat → Nat → Expected Unit
  offload : String → OffloadAnswer
  order : List String → List String
  order_perm : ∀ names, (order names).Perm names
  memory : Memory
  object : ObjectKey → Nat → UInt8
  residue : Nat → Memory → Nat → UInt8
  movedFrom : Handle

/-- The blocks handed out by the allocator overlap neither each other nor the
memory of the caller. -/
structure World.Fresh (world : World) (size : Nat → Nat) (caller : Nat → List Nat) : Prop where
  apart : ∀ index ptr, world.allocate index = some ptr →
    ∀ address ∈ List.range' ptr (size index), ∀ other, address ∉ caller other
  separate : ∀ first second ptr ptr', first ≠ second → world.allocate first = some ptr →
    world.allocate second = some ptr' →
      ∀ address ∈ List.range' ptr (size first), address ∉ List.range' ptr' (size second)

/-- The elements of a map with distinct keys, in the order of the walk. -/
def World.walk {α : Type} (world : World) (key : α → String) (values : List α) : List α :=
  (world.order (values.map key)).flatMap fun name => values.filter fun value => key value = name

theorem World.mem_walk {α : Type} (world : World) (key : α → String) {values : List α} {value : α} :
    value ∈ world.walk key values ↔ value ∈ values := by
  unfold World.walk
  simp only [mem_flatMap, (world.order_perm _).mem_iff, mem_map, mem_filter, decide_eq_true_eq]
  constructor
  · rintro ⟨_, -, present, -⟩
    exact present
  · intro present
    exact ⟨key value, ⟨value, present, rfl⟩, present, rfl⟩

theorem World.walk_perm {α : Type} (world : World) {key : α → String} {values : List α}
    (distinct : (values.map key).Nodup) : (world.walk key values).Perm values := by
  have walked : (world.order (values.map key)).Perm
      ((values.map fun value => (key value, value)).foldl appendTo
        (∅ : Groups String α)).keys := by
    refine (world.order_perm _).trans ((perm_ext_iff_of_nodup distinct
      (AList.keys_nodup _)).mpr fun name => ?_)
    rw [← AList.mem_keys, mem_foldl_appendTo]
    simp
  have grouped := flatMap_group_perm _ walked
  rw [map_map, show Prod.snd ∘ (fun value => (key value, value)) = id from rfl, map_id] at grouped
  refine (List.Perm.of_eq (flatMap_congr fun name _ => ?_)).trans grouped
  rw [group_foldl_appendTo]
  simp [group, filter_map, Function.comp_def]

/-! ## Reads as writes to memory -/

/-- A key with the slices that shall receive its object. -/
structure ReadOp where
  index : Nat
  key : ObjectKey
  query : QueryResult
  slices : List Slice
  totalSize : Nat

/-- A transfer of the object of an operation into slices.  It moves the bytes
of the object, so slices beyond its size are not touched. -/
def transferWrite (world : World) (op : ReadOp) (slices : List Slice) (succeeded : Bool) :
    Write where
  behalf := op.index
  domain := (addresses slices).take op.totalSize
  value := fun memory address =>
    if succeeded then world.object op.key ((addresses slices).idxOf address)
    else world.residue op.index memory address

/-- A host copy, `scatter_host_to_maybe_device`. -/
def copyWrite (world : World) (index dst src size : Nat) (succeeded : Bool) : Write where
  behalf := index
  domain := List.range' dst size
  value := fun memory address =>
    if succeeded then memory (src + (address - dst)) else world.residue index memory address

/-- `batch_keys`, `batch_query_results` and `batch_slices`, handed to `BatchGet`. -/
def batchRead (world : World) (call : Nat) (ops : List ReadOp) (preferAllocInSameNode : Bool) :
    BatchReadCall :=
  batchGet world.reader (world.answers call) (ops.map ReadOp.key) (ops.map ReadOp.query)
    (assignAll ReadOp.key ReadOp.slices ops) preferAllocInSameNode

def batchWrites (world : World) (ops : List ReadOp) (call : BatchReadCall) : List Write :=
  call.events.filterMap fun event =>
    match event with
    | .transferred position target outcome =>
      ops[position]?.map fun op =>
        transferWrite world op target (outcome = .ok)
    | _ => none

/-- The loop over `batch_get_results`. -/
def batchFailures (ops : List ReadOp) (call : BatchReadCall) : List (Nat × ErrorCode) :=
  (ops.zip call.results).filterMap fun entry =>
    match entry.2 with
    | .error error => some (entry.1.index, error)
    | .ok () => none

def batchGetIntoOffloadObjectInternal (answer : OffloadAnswer) (objects : Nat) :
    Expected Unit :=
  match answer.response with
  | .error error => .error error
  | .ok response =>
    if response.pointers ≠ objects then .error .invalidParams
    else
      match answer.transfer with
      | .error error => .error error
      | .ok () =>
        if response.gcTtlMs ≤ answer.elapsedMs then .error .objectHasLease else .ok ()

/-- The writes of such a read: it transfers only after the reply was checked. -/
def offloadWrites (world : World) (answer : OffloadAnswer) (objects : List ReadOp) :
    List Write :=
  match answer.response with
  | .error _ => []
  | .ok response =>
    if response.pointers ≠ objects.length then []
    else objects.map fun op =>
      transferWrite world op op.slices answer.transfer.isOk

/-- Writes together with the results they lead to. -/
structure ReadOutcome where
  writes : List Write := []
  failures : List (Nat × ErrorCode) := []

/-- The read of one owner, with the error given to each of its keys. -/
def offloadEndpoint (world : World) (endpoint : String) (objects : List ReadOp) :
    ReadOutcome where
  writes := offloadWrites world (world.offload endpoint) objects
  failures := match batchGetIntoOffloadObjectInternal (world.offload endpoint) objects.length with
    | .error error => objects.map fun op => (op.index, error)
    | .ok () => []

/-- The loop over `offload_objects`, filled with operations under their endpoints. -/
def offloadReads (world : World) (pairs : List (String × ReadOp)) : List ReadOutcome :=
  let offloadObjects := pairs.foldl appendTo ∅
  (world.order offloadObjects.keys).map fun endpoint =>
    offloadEndpoint world endpoint (world.walk ReadOp.key (group offloadObjects endpoint))

/-- What the read of one owner returns in that loop. -/
def offloadResult (world : World) (pairs : List (String × ReadOp)) (endpoint : String) :
    Expected Unit :=
  batchGetIntoOffloadObjectInternal (world.offload endpoint)
    (world.walk ReadOp.key (group (pairs.foldl appendTo ∅) endpoint)).length

/-! ## Temporary blocks -/

/-- A DISK operation with the temporary block that its slices cover. -/
structure StagedRead where
  temp : Nat
  op : ReadOp

def Inquiry.stageDisk (inquiry : Inquiry) (planned : Planned) (replica : Replica) (temp : Nat) :
    StagedRead where
  temp := temp
  op :=
    { index := planned.index
      key := planned.key
      query := filterQueryResult planned.query replica
      slices := inquiry.allocateSlices replica temp
      totalSize := totalSize planned.replica }

/-- `disk_temp_handles`; a block that finds its key taken is released at once. -/
def tempHandles (reads : List StagedRead) : List StagedRead :=
  emplaceAll (fun read => read.op.key) reads

def tempOf (reads : List StagedRead) (key : ObjectKey) : Nat :=
  (((tempHandles reads).find? fun read => read.op.key = key).map StagedRead.temp).getD 0

def heldBlocks (reads : List StagedRead) (index : Nat) : List Slice :=
  ((tempHandles reads).filter fun read => read.op.index = index).map
    fun read => ⟨read.temp, read.op.totalSize⟩

/-- The loop over `disk_results`. -/
def scatterAll (scatter : StagedRead → ReadOutcome) (reads : List StagedRead)
    (call : BatchReadCall) : List ReadOutcome :=
  (reads.zip call.results).map fun entry =>
    match entry.2 with
    | .error error => { failures := [(entry.1.op.index, error)] }
    | .ok () => scatter entry.1

/-! ## Routes -/

inductive Route where
  | direct
  | disk
  | localDisk
  deriving DecidableEq, Repr

def Planned.route (planned : Planned) : Route :=
  if planned.replica.isLocalDiskReplica then .localDisk
  else if planned.replica.isDiskReplica then .disk
  else .direct

/-- The endpoint of the first LOCAL_DISK replica, whatever its status. -/
def localDiskEndpoint (query : QueryResult) : Option String :=
  query.replicas.findSome? fun replica =>
    match replica.descriptor with
    | .localDisk descriptor => some descriptor.transportEndpoint
    | _ => none

/-- The first DISK replica, whatever its status. -/
def firstDiskReplica (query : QueryResult) : Option Replica :=
  query.replicas.find? Replica.isDiskReplica

/-! ## Index correctness -/

/-- A batch read into memory of the caller: the result of each index, the
writes, and the temporary blocks that are still held for each index. -/
structure BatchRun where
  results : List (Expected Nat)
  writes : List Write
  held : Nat → List Slice

/-- The preset results after the errors of every phase. -/
def settledResults (plan : Nat → ObjectKey → Expected Planned) (keys : List ObjectKey)
    (failures : List (Nat × ErrorCode)) : List (Expected Nat) :=
  assignAt (failures.map fun failure => (failure.1, .error failure.2))
    ((keys.mapIdx plan).map fun result => result.map fun planned => totalSize planned.replica)

/-- A success at an index means that the memory given for the index holds the
object, and what is written for an index is memory given for it: that of the
caller, or a temporary block held for the index. -/
structure BatchRun.IndexCorrect (run : BatchRun) (batch : Batch) (world : World)
    (target : Nat → List Slice) : Prop where
  holds : ∀ (index size : Nat) (key : ObjectKey), run.results[index]? = some (.ok size) →
    batch.keys[index]? = some key → size = batch.objectSize key ∧
      Holds (applyAll run.writes world.memory) (addresses (target index)) size
        (world.object key)
  confined : ∀ write ∈ run.writes, ∀ address ∈ write.domain,
    address ∈ addresses (target write.behalf) ∨
      address ∈ addresses (run.held write.behalf)

end Mooncake.Read
