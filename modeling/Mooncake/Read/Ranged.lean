import Mooncake.Read.Request

/-!
# Reads of a part of an object

`execute_ranged_read` reads `size` bytes from `src_offset` on into a buffer at
`dst_offset`.  A read of the whole object and a partial one take different ways for
each kind of replica; what comes from a disk into a block of the client is copied to
the buffer afterwards.  A run records what it asked for, the part of the object that
was moved and where it was written.
-/

namespace Mooncake.Read

open Library.ByteMemory List

/-! ## Metadata -/

/-- `RangedReadMetadata`: the replica is complete, and the size is that of the replica. -/
structure RangedReadMetadata where
  query : QueryResult
  replica : Replica
  totalSize : Nat
  complete : replica.status = .complete
  sized : totalSize = Read.totalSize replica

def buildRangedReadMetadataFromQueryResult (localEndpoints : List String)
    (queryResult : Expected QueryResult) : Expected RangedReadMetadata :=
  match queryResult with
  | .error error => .error error
  | .ok query =>
    if query.replicas = [] then .error .invalidParams
    else
      match selected : selectBestReplica query.replicas localEndpoints with
      | none => .error .invalidReplica
      | some replica =>
        .ok ⟨query, replica, totalSize replica, (selectBestReplica_usable selected).2, rfl⟩

variable {localEndpoints : List String} {query : QueryResult} {replica : Replica} {reader : Reader}
  {answers : ReadAnswers} {index : Nat} {slices target : List Slice} {outcome : ErrorCode}

theorem buildRangedReadMetadata_ok {queryResult : Expected QueryResult}
    {metadata : RangedReadMetadata}
    (built : buildRangedReadMetadataFromQueryResult localEndpoints queryResult = .ok metadata) :
    queryResult = .ok metadata.query ∧
      selectBestReplica metadata.query.replicas localEndpoints = some metadata.replica := by
  unfold buildRangedReadMetadataFromQueryResult at built
  split at built
  · cases built
  · split at built
    · cases built
    · split at built
      · cases built
      · rename_i selected
        cases built
        exact ⟨rfl, selected⟩

theorem buildRangedReadMetadata_of_selected
    (selected : selectBestReplica query.replicas localEndpoints = some replica) :
    ∃ metadata, buildRangedReadMetadataFromQueryResult localEndpoints (.ok query) =
      .ok metadata ∧ metadata.query = query ∧ metadata.replica = replica := by
  have listed : query.replicas ≠ [] := by
    intro empty
    have usable := (selectBestReplica_usable selected).1
    rw [empty] at usable
    cases usable
  unfold buildRangedReadMetadataFromQueryResult
  dsimp only
  rw [if_neg listed]
  split
  · rename_i none
    rw [selected] at none
    cases none
  · rename_i other same
    rw [selected] at same
    cases same
    exact ⟨_, rfl, rfl, rfl⟩

/-! ## Events and the environment -/

/-- What a ranged read does.  A fetch moves the bytes `[start, start + length)` of the
object, as stored in the replica, into slices; a hot-cache copy of a MEMORY replica may
serve it. -/
inductive RangedEvent where
  | offloadRequest (replica : Replica)
  | fetched (replica : Replica) (start length : Nat) (slices : List Slice) (succeeded : Bool)
  | scattered (dst src size : Nat) (succeeded : Bool)
  deriving DecidableEq, Repr

/-- The client that reads.  `allocateSlices` covers as many bytes as the replica has,
from the given address on. -/
structure RangedClient where
  reader : Reader
  allocateSlices : Replica → Nat → List Slice
  covers : ∀ replica ptr, addresses (allocateSlices replica ptr) =
    List.range' ptr (totalSize replica)

/-- The environment of one read.  `allocate` gives a block of the asked size; `residue`
is what a failed access leaves behind. -/
structure FragmentAnswers where
  reads : ReadAnswers
  allocate : Nat → Option Nat
  offload : OffloadAnswer
  scatter : Expected Unit
  object : Nat → UInt8
  residue : Memory → Nat → UInt8

structure RangedRead where
  result : Expected Nat
  events : List RangedEvent := []

/-- A call below a ranged read. -/
structure Fetch where
  result : Expected Unit
  events : List RangedEvent

/-! ## The read -/

/-- The transfers of a `Get` call, which are for the replica it finds first. -/
def fetchedBy (query : QueryResult) (start length : Nat) (call : ReadCall) : Fetch where
  result := call.result
  events := match findFirstCompleteReplica query.replicas with
    | .error _ => []
    | .ok replica =>
      call.events.filterMap fun event =>
        match event with
        | .transferred _ slices outcome =>
          some (.fetched replica start length slices (outcome = .ok))
        | _ => none

/-- `batch_get_into_offload_object_internal` for one object. -/
def offloadObject (answer : OffloadAnswer) (replica : Replica) (slices : List Slice) : Fetch where
  result := batchGetIntoOffloadObjectInternal answer 1
  events := .offloadRequest replica ::
    match answer.response with
    | .error _ => []
    | .ok response =>
      if response.pointers ≠ 1 then []
      else [.fetched replica 0 (slices.map Slice.size).sum slices answer.transfer.isOk]

section Execute

variable (client : RangedClient) (answers : FragmentAnswers) (key : ObjectKey)
  (metadata : RangedReadMetadata)

/-- A call whose success is reported as a number of bytes. -/
def Fetch.reported (fetch : Fetch) (size : Nat) : RangedRead where
  result := fetch.result.map fun _ => size
  events := fetch.events

/-- `Get` of the whole object from the chosen replica alone. -/
def fetchWhole (ptr : Nat) : Fetch :=
  let filtered := filterQueryResult metadata.query metadata.replica
  fetchedBy filtered 0 metadata.totalSize
    (get client.reader answers.reads key filtered (client.allocateSlices metadata.replica ptr))

/-- `Get` of a range from the query result as it is. -/
def fetchRange (ptr srcOffset size : Nat) : Fetch :=
  fetchedBy metadata.query srcOffset size
    (getRange client.reader answers.reads metadata.query [⟨ptr, size⟩] srcOffset)

/-- `partial_disk_read`, and the full read of a DISK replica: a block of the client is
filled, and `[srcOffset, srcOffset + size)` of it is copied. -/
def stagedRead (dst srcOffset size bufSize : Nat) (readOp : Nat → Fetch) : RangedRead :=
  match answers.allocate bufSize with
  | none => { result := .error .noAvailableHandle }
  | some temp =>
    let fetch := readOp temp
    match fetch.result with
    | .error error => { result := .error error, events := fetch.events }
    | .ok () =>
      match answers.scatter with
      | .error error =>
        { result := .error error
          events := fetch.events ++ [.scattered dst (temp + srcOffset) size false] }
      | .ok () =>
        { result := .ok size
          events := fetch.events ++ [.scattered dst (temp + srcOffset) size true] }

def readWhole (dst : Nat) : RangedRead :=
  if metadata.replica.isLocalDiskReplica then
    (offloadObject answers.offload metadata.replica [⟨dst, metadata.totalSize⟩]).reported
      metadata.totalSize
  else if metadata.replica.isDiskReplica then
    stagedRead answers dst 0 metadata.totalSize metadata.totalSize
      (fetchWhole client answers key metadata)
  else (fetchWhole client answers key metadata dst).reported metadata.totalSize

def readPart (dst srcOffset size : Nat) : RangedRead :=
  if metadata.replica.isLocalDiskReplica then
    stagedRead answers dst srcOffset size (srcOffset + size) fun temp =>
      offloadObject answers.offload metadata.replica [⟨temp, srcOffset + size⟩]
  else if metadata.replica.isDiskReplica then
    stagedRead answers dst srcOffset size metadata.totalSize
      (fetchWhole client answers key metadata)
  else if !metadata.replica.isMemoryReplica then { result := .error .invalidReplica }
  else (fetchRange client answers metadata dst srcOffset size).reported size

def readChecked (dst srcOffset size : Nat) : RangedRead :=
  if srcOffset = 0 ∧ size = metadata.totalSize then readWhole client answers key metadata dst
  else readPart client answers key metadata dst srcOffset size

def executeRangedRead (buffer dstOffset srcOffset size : Nat) (sizeIsBufferCapacity : Bool) :
    RangedRead :=
  if sizeIsBufferCapacity then
    if size < metadata.totalSize then { result := .error .invalidParams }
    else
      readChecked client answers key metadata (buffer + dstOffset) srcOffset metadata.totalSize
  else if metadata.totalSize < size ∨ metadata.totalSize - size < srcOffset then
    { result := .error .invalidParams }
  else readChecked client answers key metadata (buffer + dstOffset) srcOffset size

end Execute

/-- `get_into_range_internal`; `queryResult` is what the query of the key returns. -/
def getIntoRangeInternal (client : RangedClient) (answers : FragmentAnswers) (connected : Bool)
    (localEndpoints : List String) (queryResult : Expected QueryResult) (key : ObjectKey)
    (buffer dstOffset srcOffset size : Nat) (sizeIsBufferCapacity : Bool) : RangedRead :=
  if !connected then { result := .error .invalidParams }
  else
    match buildRangedReadMetadataFromQueryResult localEndpoints queryResult with
    | .error error => { result := .error error }
    | .ok metadata =>
      executeRangedRead client answers key metadata buffer dstOffset srcOffset size
        sizeIsBufferCapacity

/-- `get_into` of the real client: the size is the capacity of the buffer. -/
def getInto (client : RangedClient) (answers : FragmentAnswers) (connected : Bool)
    (localEndpoints : List String) (queryResult : Expected QueryResult) (key : ObjectKey)
    (buffer size : Nat) : RangedRead :=
  getIntoRangeInternal client answers connected localEndpoints queryResult key buffer 0 0 size
    true

/-! ## Reads as writes to memory -/

def RangedEvent.write (answers : FragmentAnswers) : RangedEvent → Option Write
  | .offloadRequest _ => none
  | .fetched _ start _ slices succeeded =>
    some
      { behalf := 0
        domain := addresses slices
        value := fun memory address =>
          if succeeded then answers.object (start + (addresses slices).idxOf address)
          else answers.residue memory address }
  | .scattered dst src size succeeded =>
    some
      { behalf := 0
        domain := List.range' dst size
        value := fun memory address =>
          if succeeded then memory (src + (address - dst))
          else answers.residue memory address }

def RangedRead.writes (read : RangedRead) (answers : FragmentAnswers) : List Write :=
  read.events.filterMap (RangedEvent.write answers)

/-! ## The transfers of one call -/

theorem transferred_mem_getHead {key : ObjectKey} {transferEvents : List ReadEvent}
    (present : .transferred index slices outcome ∈
      getHead reader answers key replica transferEvents) :
    .transferred index slices outcome ∈ transferEvents := by
  simp only [getHead, mem_append, mem_singleton, reduceCtorEq, or_false] at present
  rcases present with (redirected | moved) | released
  · cases redirectToHotCache_ofCache _ redirected
  · exact moved
  · cases releaseIfUsed_ofCache _ released

theorem transferred_mem_get {key : ObjectKey}
    (present : .transferred index target outcome ∈ (get reader answers key query slices).events) :
    target = slices := by
  cases complete : findFirstCompleteReplica query.replicas with
  | error error => simp [get, complete] at present
  | ok replica =>
    rcases get_cases reader answers key slices complete with
      ⟨error, events, moved, failed⟩ | ⟨-, passed⟩
    · rw [failed] at present
      obtain ⟨_, same⟩ := moved _ (transferred_mem_getHead present)
      cases same
      rfl
    · rw [passed] at present
      simp only [mem_append, mem_singleton, reduceCtorEq, or_false] at present
      rcases present with head | filled
      · cases mem_singleton.mp (transferred_mem_getHead head)
        rfl
      · cases fillIfAdmitted_ofCache _ filled

theorem transferred_mem_getRange {srcOffset : Nat}
    (present : .transferred index target outcome ∈
      (getRange reader answers query slices srcOffset).events) : target = slices := by
  unfold getRange at present
  split at present
  · cases present
  · split at present
    · cases present
    · rename_i replica _ _
      have moved : ∀ event ∈ (transferReadRange reader answers replica slices srcOffset).2,
          ∃ code, event = .transferred 0 slices code := by
        unfold transferReadRange
        split
        · simp
        · split <;> simp
      have read : .transferred index target outcome ∈
          (transferReadRange reader answers replica slices srcOffset).2 := by
        dsimp only at present
        split at present
        · simpa using present
        · split at present <;> simpa using present
      obtain ⟨_, same⟩ := moved _ read
      cases same
      rfl

theorem mem_fetchedBy {start length : Nat} {call : ReadCall} {event : RangedEvent}
    (present : event ∈ (fetchedBy query start length call).events) :
    ∃ replica index slices outcome, findFirstCompleteReplica query.replicas = .ok replica ∧
      .transferred index slices outcome ∈ call.events ∧
      event = .fetched replica start length slices (outcome = .ok) := by
  unfold fetchedBy at present
  dsimp only at present
  split at present
  · cases present
  · rename_i replica complete
    obtain ⟨original, happened, converted⟩ := mem_filterMap.mp present
    cases original with
    | transferred index slices outcome =>
      cases converted
      exact ⟨replica, index, slices, outcome, complete, happened, rfl⟩
    | _ => cases converted

/-! ## What a read asks for and where it writes -/

section Placement

variable {client : RangedClient} {answers : FragmentAnswers} {key : ObjectKey}
  {metadata : RangedReadMetadata} {dst srcOffset size : Nat} {event : RangedEvent}

theorem mem_fetchWhole {ptr : Nat}
    (present : event ∈ (fetchWhole client answers key metadata ptr).events) :
    ∃ succeeded, event = .fetched metadata.replica 0 metadata.totalSize
      (client.allocateSlices metadata.replica ptr) succeeded := by
  obtain ⟨replica, index, slices, outcome, first, moved, rfl⟩ := mem_fetchedBy present
  rw [findFirstCompleteReplica_filterQueryResult metadata.query metadata.complete] at first
  cases first
  exact ⟨_, by rw [transferred_mem_get moved]⟩

theorem mem_fetchRange {ptr : Nat}
    (present : event ∈ (fetchRange client answers metadata ptr srcOffset size).events) :
    ∃ replica succeeded, findFirstCompleteReplica metadata.query.replicas = .ok replica ∧
      event = .fetched replica srcOffset size [⟨ptr, size⟩] succeeded := by
  obtain ⟨replica, index, slices, outcome, first, moved, rfl⟩ := mem_fetchedBy present
  exact ⟨replica, _, first, by rw [transferred_mem_getRange moved]⟩

theorem mem_offloadObject {answer : OffloadAnswer}
    (present : event ∈ (offloadObject answer replica slices).events) :
    event = .offloadRequest replica ∨
      ∃ succeeded, event = .fetched replica 0 (slices.map Slice.size).sum slices succeeded := by
  unfold offloadObject at present
  rcases mem_cons.mp present with request | fetched
  · exact .inl request
  · split at fetched
    · cases fetched
    · split at fetched
      · cases fetched
      · exact .inr ⟨_, mem_singleton.mp fetched⟩

theorem mem_stagedRead {bufSize : Nat} {readOp : Nat → Fetch}
    (present : event ∈ (stagedRead answers dst srcOffset size bufSize readOp).events) :
    ∃ temp, answers.allocate bufSize = some temp ∧
      (event ∈ (readOp temp).events ∨
        ∃ succeeded, event = .scattered dst (temp + srcOffset) size succeeded) := by
  unfold stagedRead at present
  split at present
  · cases present
  · rename_i temp allocated
    dsimp only at present
    refine ⟨temp, allocated, ?_⟩
    split at present
    · exact .inl present
    · split at present
      all_goals
        rcases mem_append.mp present with fetched | copied
        · exact .inl fetched
        · exact .inr ⟨_, mem_singleton.mp copied⟩

end Placement

end Mooncake.Read
