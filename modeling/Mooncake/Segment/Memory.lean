import Mooncake.Library.Ownership
import Mooncake.Library.Runs
import Mooncake.Segment.Client

/-!
# Memory of the mounted segments

`RealClient` obtains the memory of a segment, chunk by chunk, from a file mapping or from the
allocator, mounts it through the store client and releases it when the mount fails, when the
segment is unmounted, or in the cleanup callback of a graceful unmount.  A call is cut where
it leaves the lock of the store client, and the timers of graceful unmounts act at every cut.
-/

namespace Mooncake.Segment

open Library.Ownership Library.Runs

/-- Where the memory of a segment comes from: `mmap` or `allocate_buffer_allocator_memory`. -/
inductive MemoryKind where
  | mapped
  | allocated
  deriving DecidableEq, Repr

/-- `UuidToString` and `StringToUuid`; the text of an id is read back as that id. -/
structure UuidText where
  uuidToString : UUID → String
  stringToUuid : String → Option UUID
  stringToUuid_uuidToString : ∀ id, stringToUuid (uuidToString id) = some id

/-- `globalConfig().max_mr_size`, the page size and the slab size of the process. -/
structure Limits where
  maxMrSize : Nat
  pageSize : Nat
  slabSize : Nat
  pageSize_pos : 0 < pageSize
  slabSize_pos : 0 < slabSize

/-! ## State -/

/-- A chunk that a mount call has mounted, with the registrations that stood when its memory
was obtained. -/
structure Chunk where
  segmentId : String
  region : Region
  prior : List Region

/-- The value a call returns: `0`, `-1` or an error code of the store client. -/
inductive ReturnCode where
  | zero
  | minusOne
  | code (error : ErrorCode)
  deriving DecidableEq, Repr

/-- Where the current call stands: in the loop over the chunks, in the loop that rolls the
mounted ones back, or in the two loops of an unmount. -/
inductive Control where
  | idle
  | mounting (kind : MemoryKind) (alignedMaxChunk remaining : Nat) (mounted : List Chunk)
      (outAllocatedSize : Option Nat)
  | rollingBack (mounted : List Chunk)
  | unmounting (kind : MemoryKind) (gracePeriodMs : Nat) (firstError : ReturnCode)
      (toUnmount : List (String × UUID)) (toCleanup : List (String × Region))

/-- The memory was unmapped or freed in this state of the store client; `prior` is set for a
release by a mount call. -/
structure Release where
  region : Region
  client : ClientState MemoryKind
  prior : Option (List Region)

/-- What a call gives back; the out parameters that it leaves alone are `none`. -/
structure Reply where
  code : ReturnCode
  outSegmentIds : Option (List String)
  outAllocatedSize : Option Nat

/-- `taken` are the cleanup callbacks that timers are about to run, `generated` the ids of the
store client so far, and `setupSegments` the segments mounted at setup, whose memory is kept. -/
structure RealClient where
  initialized : Bool := true
  client : ClientState MemoryKind
  mountedSegmentRecords : AList fun _ : String => Region := ∅
  allocatedSegmentRecords : AList fun _ : String => Region := ∅
  setupSegments : List (UUID × Region)
  control : Control := .idle
  taken : List (MemoryKind × UUID) := []
  generated : List UUID
  releases : List Release := []
  replies : List Reply := []

namespace RealClient

def records (state : RealClient) : MemoryKind → AList fun _ : String => Region
  | .mapped => state.mountedSegmentRecords
  | .allocated => state.allocatedSegmentRecords

def withRecords (state : RealClient) (kind : MemoryKind)
    (records : AList fun _ : String => Region) : RealClient :=
  match kind with
  | .mapped => { state with mountedSegmentRecords := records }
  | .allocated => { state with allocatedSegmentRecords := records }

/-- `munmap` or `free_memory`, unless the pointer is null. -/
def release (state : RealClient) (region : Region) (prior : Option (List Region)) : RealClient :=
  if region.base = 0 then state
  else { state with releases := state.releases ++ [⟨region, state.client, prior⟩] }

def reply (state : RealClient) (reply : Reply) : RealClient :=
  { state with control := .idle, replies := state.replies ++ [reply] }

end RealClient

namespace Control

/-- The chunks that the current call has mounted and neither recorded nor rolled back. -/
def chunks : Control → List Chunk
  | .mounting _ _ _ mounted _ => mounted
  | .rollingBack mounted => mounted
  | _ => []

def toCleanup : Control → List (String × Region)
  | .unmounting _ _ _ _ toCleanup => toCleanup
  | _ => []

def toUnmount : Control → List (String × UUID)
  | .unmounting _ _ _ toUnmount _ => toUnmount
  | _ => []

/-- The memory in the hands of the current call. -/
def owners (control : Control) : List (String × Region) :=
  control.chunks.map (fun chunk => (chunk.segmentId, chunk.region)) ++ control.toCleanup

end Control

/-- The memory of the records and of the segments mounted at setup. -/
def RealClient.stored (text : UuidText) (state : RealClient) : List (String × Region) :=
  ownersOf state.mountedSegmentRecords ++ ownersOf state.allocatedSegmentRecords ++
    state.setupSegments.map fun segment => (text.uuidToString segment.1, segment.2)

/-- The memory that is in use, by segment id. -/
def RealClient.owners (text : UuidText) (state : RealClient) : List (String × Region) :=
  state.control.owners ++ state.stored text

/-! ## Mount calls -/

inductive FileAnswer where
  | openFailed
  | fstatFailed
  | opened (fileSize : Nat)

/-- The checks of `mountSegment`; the size of a chunk is page-aligned. -/
def mountSegmentChunk (limits : Limits) (file : FileAnswer) (offset size : Nat) : Option Nat :=
  if limits.maxMrSize = 0 then none
  else if limits.maxMrSize < limits.pageSize then none
  else
    match file with
    | .openFailed => none
    | .fstatFailed => none
    | .opened fileSize =>
      if fileSize < offset ∨ fileSize - offset < size then none
      else if offset % limits.pageSize ≠ 0 then none
      else some (limits.maxMrSize / limits.pageSize * limits.pageSize)

/-- The checks of `allocateAndMountSegment`: the size of a chunk and the total size, both
multiples of the slab size. -/
def allocateSegmentChunk (limits : Limits) (size : Nat) : Option (Nat × Nat) :=
  if limits.maxMrSize = 0 then none
  else if size = 0 then none
  else if limits.maxMrSize < limits.pageSize then none
  else
    let alignedMaxChunk := limits.maxMrSize / limits.pageSize * limits.pageSize
    if alignedMaxChunk < limits.slabSize then none
    else if 2 ^ 64 - 1 - (limits.slabSize - 1) < size then none
    else
      some (alignedMaxChunk / limits.slabSize * limits.slabSize,
        (size + limits.slabSize - 1) / limits.slabSize * limits.slabSize)

namespace RealClient

def refuse (state : RealClient) : RealClient :=
  state.reply ⟨.minusOne, none, none⟩

def mountSegment (limits : Limits) (state : RealClient) (file : FileAnswer)
    (offset size : Nat) : RealClient :=
  if ¬ state.initialized then state.refuse
  else
    match mountSegmentChunk limits file offset size with
    | none => state.refuse
    | some alignedMaxChunk =>
      { state with control := .mounting .mapped alignedMaxChunk size [] none }

def allocateAndMountSegment (limits : Limits) (state : RealClient) (size : Nat) : RealClient :=
  if ¬ state.initialized then state.refuse
  else
    match allocateSegmentChunk limits size with
    | none => state.refuse
    | some (alignedMaxChunk, alignedTotalSize) =>
      { state with
        control := .mounting .allocated alignedMaxChunk alignedTotalSize []
          (some alignedTotalSize) }

/-- One round of the loop over the chunks.  Memory that is handed out is not in use, and
`generate_uuid` does not repeat an id. -/
def mountChunk (text : UuidText) (limits : Limits) (state : RealClient) (obtained : Option Nat)
    (answers : MountAnswers) : Option RealClient :=
  match state.control with
  | .mounting kind alignedMaxChunk remaining mounted outAllocatedSize =>
    let chunkSize := min remaining alignedMaxChunk
    if remaining = 0 then none
    else if chunkSize = 0 then some { state with control := .rollingBack mounted }
    else
      match obtained with
      | none => some { state with control := .rollingBack mounted }
      | some base =>
        let region : Region := ⟨base, chunkSize⟩
        if base = 0 ∨ (∃ owner ∈ state.owners text, owner.2.Overlaps region) ∨
            answers.uuid ∈ state.generated then none
        else
          match mountSegmentAndGetId limits.maxMrSize answers state.client base chunkSize with
          | (.error _, client) =>
            some
              (({ state with client := client, control := .rollingBack mounted }
                : RealClient).release region (some state.client.registered))
          | (.ok id, client) =>
            some
              { state with
                client := client
                control := .mounting kind alignedMaxChunk (remaining - chunkSize)
                  (mounted ++ [⟨text.uuidToString id, region, state.client.registered⟩])
                  outAllocatedSize
                generated := id :: state.generated }
  | _ => none

/-- One round of the rollback: the result of the unmount is not looked at. -/
def rollbackChunk (text : UuidText) (state : RealClient) (answers : UnmountAnswers) :
    Option RealClient :=
  match state.control with
  | .rollingBack (chunk :: rest) =>
    let client := match text.stringToUuid chunk.segmentId with
      | none => state.client
      | some id => (unmountSegmentById answers state.client id 0 none).2
    some
      (({ state with client := client, control := .rollingBack rest } : RealClient).release
        chunk.region (some chunk.prior))
  | _ => none

end RealClient

/-! ## Unmount calls -/

/-- The ids to unmount, in order, and whether one was skipped: it is no id, or has no record. -/
def selectToUnmount (text : UuidText) (records : AList fun _ : String => Region)
    (segmentIds : List String) : ReturnCode × List (String × UUID) :=
  segmentIds.foldl
    (fun selected segmentId =>
      match text.stringToUuid segmentId with
      | none => (.minusOne, selected.2)
      | some id =>
        if segmentId ∈ records then (selected.1, selected.2 ++ [(segmentId, id)])
        else (.minusOne, selected.2))
    (.zero, [])

namespace RealClient

/-- The head of an unmount call; the grace period is in the arithmetic of `uint64_t`. -/
def startUnmount (text : UuidText) (kind : MemoryKind) (state : RealClient)
    (segmentIds : List String) (gracePeriodSeconds : Nat) : RealClient :=
  if ¬ state.initialized then state.refuse
  else
    let selected := selectToUnmount text (state.records kind) segmentIds
    { state with
      control := .unmounting kind (gracePeriodSeconds * 1000 % 2 ^ 64) selected.1 selected.2 [] }

def unmountSegment (text : UuidText) (state : RealClient) (segmentIds : List String)
    (gracePeriodSeconds : Nat) : RealClient :=
  state.startUnmount text .mapped segmentIds gracePeriodSeconds

def unmountAndFreeSegment (text : UuidText) (state : RealClient) (segmentIds : List String)
    (gracePeriodSeconds : Nat) : RealClient :=
  state.startUnmount text .allocated segmentIds gracePeriodSeconds

/-- One round of the loop over the ids.  After an immediate unmount the record moves to those
to clean up; a graceful one leaves it to the callback. -/
def unmountNext (state : RealClient) (answers : UnmountAnswers) : Option RealClient :=
  match state.control with
  | .unmounting kind gracePeriodMs firstError ((segmentId, id) :: rest) toCleanup =>
    let cleanupCallback := if gracePeriodMs ≠ 0 then some kind else none
    match unmountSegmentById answers state.client id gracePeriodMs cleanupCallback with
    | (.error error, client) =>
      let firstError := if firstError = .zero then .code error else firstError
      some
        { state with
          client := client
          control := .unmounting kind gracePeriodMs firstError rest toCleanup }
    | (.ok (), client) =>
      let state := { state with client := client }
      match if gracePeriodMs = 0 then (state.records kind).lookup segmentId else none with
      | none =>
        some
          { state with
            control := .unmounting kind gracePeriodMs firstError rest toCleanup }
      | some record =>
        some
          ({ state with
            control := .unmounting kind gracePeriodMs firstError rest
              (toCleanup ++ [(segmentId, record)]) }.withRecords kind
            ((state.records kind).erase segmentId))
  | _ => none

/-- One round of the loop that releases the records. -/
def cleanupNext (state : RealClient) : Option RealClient :=
  match state.control with
  | .unmounting kind gracePeriodMs firstError [] ((_, record) :: rest) =>
    some
      (({ state with control := .unmounting kind gracePeriodMs firstError [] rest }
        : RealClient).release record none)
  | _ => none

/-- The call returns.  A mount call whose chunks are all mounted stores their records first. -/
def leave (state : RealClient) : Option RealClient :=
  match state.control with
  | .mounting kind _ 0 mounted outAllocatedSize =>
    let records := mounted.foldl
      (fun records chunk => records.insert chunk.segmentId chunk.region) (state.records kind)
    some
      ((state.withRecords kind records).reply
        ⟨.zero, some (mounted.map Chunk.segmentId), outAllocatedSize⟩)
  | .rollingBack [] => some (state.reply ⟨.minusOne, some [], none⟩)
  | .unmounting _ _ firstError [] [] => some (state.reply ⟨firstError, none, none⟩)
  | _ => none

/-! ## Timers -/

/-- The critical section of a timer once the master has removed the segment. -/
def finishTimer (state : RealClient) (id : UUID) (unregister : UnregisterOutcome) : RealClient :=
  let (callback, client) := finishGracefulUnmount state.client id unregister
  { state with
    client := client
    taken := state.taken ++ (callback.map fun kind => (kind, id)).toList }

def releaseSegmentRecord (kind : MemoryKind) (state : RealClient) (segmentId : String) :
    RealClient :=
  match (state.records kind).lookup segmentId with
  | none => state
  | some record =>
    (state.withRecords kind ((state.records kind).erase segmentId)).release record none

def releaseMountedSegmentRecord (state : RealClient) (segmentId : String) : RealClient :=
  state.releaseSegmentRecord .mapped segmentId

def releaseAllocatedSegmentRecord (state : RealClient) (segmentId : String) : RealClient :=
  state.releaseSegmentRecord .allocated segmentId

/-- A timer runs the callback that it has taken. -/
def runCallback (text : UuidText) (state : RealClient) (index : Nat) : Option RealClient :=
  match state.taken[index]? with
  | none => none
  | some (kind, id) =>
    let state := { state with taken := state.taken.eraseIdx index }
    match kind with
    | .mapped => some (state.releaseMountedSegmentRecord (text.uuidToString id))
    | .allocated => some (state.releaseAllocatedSegmentRecord (text.uuidToString id))

end RealClient

/-! ## Runs -/

inductive Call where
  | mountSegment (file : FileAnswer) (offset size : Nat)
  | allocateAndMountSegment (size : Nat)
  | unmountSegment (segmentIds : List String) (gracePeriodSeconds : Nat)
  | unmountAndFreeSegment (segmentIds : List String) (gracePeriodSeconds : Nat)

inductive MemoryAction where
  | call (call : Call)
  | mountChunk (obtained : Option Nat) (answers : MountAnswers)
  | rollbackChunk (answers : UnmountAnswers)
  | unmountNext (answers : UnmountAnswers)
  | cleanupNext
  | leave
  | finishTimer (id : UUID) (unregister : UnregisterOutcome)
  | runCallback (index : Nat)

def RealClient.enter (text : UuidText) (limits : Limits) (state : RealClient) : Call → RealClient
  | .mountSegment file offset size => state.mountSegment limits file offset size
  | .allocateAndMountSegment size => state.allocateAndMountSegment limits size
  | .unmountSegment segmentIds gracePeriodSeconds =>
    state.unmountSegment text segmentIds gracePeriodSeconds
  | .unmountAndFreeSegment segmentIds gracePeriodSeconds =>
    state.unmountAndFreeSegment text segmentIds gracePeriodSeconds

/-- Calls come one after the other. -/
def RealClient.step (text : UuidText) (limits : Limits) (state : RealClient) :
    MemoryAction → Option RealClient
  | .call call =>
    match state.control with
    | .idle => some (state.enter text limits call)
    | _ => none
  | .mountChunk obtained answers => state.mountChunk text limits obtained answers
  | .rollbackChunk answers => state.rollbackChunk text answers
  | .unmountNext answers => state.unmountNext answers
  | .cleanupNext => state.cleanupNext
  | .leave => state.leave
  | .finishTimer id unregister => some (state.finishTimer id unregister)
  | .runCallback index => state.runCallback text index

/-- The segments mounted at setup, on memory of their own. -/
structure SetupSegments where
  segments : AList fun _ : UUID => Region
  apart : segments.entries.Pairwise fun first second => ¬ first.2.Overlaps second.2
  nonempty : ∀ entry ∈ segments.entries, 0 < entry.2.size

/-- The client after setup; the transfer engine holds any registrations. -/
def RealClient.start (setup : SetupSegments) (registered : List Region) : RealClient where
  client := { mountedSegments := setup.segments, registered := registered }
  setupSegments := ownersOf setup.segments
  generated := setup.segments.keys

end Mooncake.Segment
