import Mooncake.Read.BatchWrites
import Mooncake.Read.Ranged

/-!
# Where a ranged read writes

A read writes to its destination, and before that, for replicas on a disk, to a block of
the client.  What it moves is the asked range; through a block it moves the part of the
object that the block holds, from the first byte on.
-/

namespace Mooncake.Read

open Library.ByteMemory List

/-- The size of the block through which a replica on a disk is read: `LOCAL_DISK` is read up
to the end of the range, `DISK` is read whole. -/
def RangedReadMetadata.stagingSize (metadata : RangedReadMetadata) (srcOffset size : Nat) : Nat :=
  if metadata.replica.isLocalDiskReplica then srcOffset + size else metadata.totalSize

def RangedReadMetadata.onDisk (metadata : RangedReadMetadata) : Bool :=
  metadata.replica.isLocalDiskReplica || metadata.replica.isDiskReplica

/-- The bytes of the block at `temp` of a read through a block. -/
def RangedReadMetadata.Staging (metadata : RangedReadMetadata) (answers : FragmentAnswers)
    (srcOffset size temp : Nat) : Prop :=
  metadata.onDisk = true ∧ answers.allocate (metadata.stagingSize srcOffset size) = some temp

/-- What a read of `[srcOffset, srcOffset + size)` to `dst` may do. -/
inductive RangedEvent.Placed (answers : FragmentAnswers) (metadata : RangedReadMetadata)
    (dst srcOffset size : Nat) : RangedEvent → Prop
  | request (replica : Replica) :
    Placed answers metadata dst srcOffset size (.offloadRequest replica)
  | direct (replica : Replica) (slices : List Slice) (succeeded : Bool)
      (exact : addresses slices = List.range' dst size) :
      Placed answers metadata dst srcOffset size
        (.fetched replica srcOffset size slices succeeded)
  | staged (replica : Replica) (slices : List Slice) (succeeded : Bool) (temp : Nat)
      (block : metadata.Staging answers srcOffset size temp)
      (exact : addresses slices = List.range' temp (metadata.stagingSize srcOffset size)) :
      Placed answers metadata dst srcOffset size
        (.fetched replica 0 (metadata.stagingSize srcOffset size) slices succeeded)
  | copied (succeeded : Bool) (temp : Nat)
      (block : metadata.Staging answers srcOffset size temp) :
      Placed answers metadata dst srcOffset size
        (.scattered dst (temp + srcOffset) size succeeded)

/-- The read keeps to its places, and a success has written the whole destination. -/
structure RangedRead.Placed (read : RangedRead) (answers : FragmentAnswers)
    (metadata : RangedReadMetadata) (dst srcOffset size : Nat) : Prop where
  events : ∀ event ∈ read.events, event.Placed answers metadata dst srcOffset size
  done : ∀ count, read.result = .ok count →
    count = size ∧ ∃ write ∈ read.writes answers, write.domain = List.range' dst size

section Places

variable {client : RangedClient} {answers : FragmentAnswers} {key : ObjectKey}
  {metadata : RangedReadMetadata} {dst srcOffset size : Nat}

variable {read : RangedRead} {reads : ReadAnswers} {length : Nat}

theorem placed_of_error {error : ErrorCode} (failed : read = { result := .error error }) :
    read.Placed answers metadata dst srcOffset size := by
  subst failed
  refine ⟨fun event present => ?_, fun count done => ?_⟩
  · cases present
  · cases done

variable {query : QueryResult} {slices : List Slice} {replica : Replica}

theorem transferred_of_get_ok {reader : Reader}
    (done : (get reader reads key query slices).result = .ok ()) :
    .transferred 0 slices .ok ∈ (get reader reads key query slices).events := by
  cases complete : findFirstCompleteReplica query.replicas with
  | error error => simp [get, complete] at done
  | ok replica =>
    rcases get_cases reader reads key slices complete with
      ⟨error, events, -, failed⟩ | ⟨-, passed⟩
    · rw [failed] at done
      cases done
    · rw [passed]
      simp [getHead]

theorem transferred_of_getRange_ok {reader : Reader}
    (done : (getRange reader reads query slices srcOffset).result = .ok ()) :
    .transferred 0 slices .ok ∈ (getRange reader reads query slices srcOffset).events := by
  rcases getRange_cases reader reads query slices srcOffset with ⟨error, events, -, failed⟩ | passed
  · rw [failed] at done
    cases done
  · rw [passed]
    simp

theorem mem_fetchedBy_of_transferred {start index : Nat} {call : ReadCall}
    (complete : findFirstCompleteReplica query.replicas = .ok replica)
    (moved : .transferred index slices .ok ∈ call.events) :
    .fetched replica start length slices true ∈ (fetchedBy query start length call).events := by
  simp only [fetchedBy, complete]
  exact mem_filterMap.mpr ⟨_, moved, by simp⟩

theorem written_of_fetched {start : Nat} {succeeded : Bool}
    (present : .fetched replica start length slices succeeded ∈ read.events)
    (exact : addresses slices = List.range' dst size) :
    ∃ write ∈ read.writes answers, write.domain = List.range' dst size :=
  ⟨_, mem_filterMap.mpr ⟨_, present, rfl⟩, exact⟩

/-- A call that fetches the range into the destination. -/
theorem reported_placed {fetch : Fetch}
    (direct : ∀ event ∈ fetch.events, (∃ replica, event = .offloadRequest replica) ∨
      ∃ replica slices succeeded, addresses slices = List.range' dst size ∧
        event = .fetched replica srcOffset size slices succeeded)
    (done : fetch.result = .ok () → ∃ replica slices succeeded,
      .fetched replica srcOffset size slices succeeded ∈ fetch.events) :
    (fetch.reported size).Placed answers metadata dst srcOffset size := by
  refine ⟨fun event present => ?_, fun count succeeded => ?_⟩
  · rcases direct event present with ⟨replica, rfl⟩ | ⟨replica, slices, ok, exact, rfl⟩
    · exact .request replica
    · exact .direct replica slices ok exact
  · cases result : fetch.result with
    | error error => simp [Fetch.reported, result, Except.map] at succeeded
    | ok _ =>
      have same : size = count := by simpa [Fetch.reported, result, Except.map] using succeeded
      obtain ⟨replica, slices, ok, present⟩ := done result
      rcases direct _ present with ⟨_, impossible⟩ | ⟨_, _, _, exact, fetched⟩
      · cases impossible
      · cases fetched
        exact ⟨same.symm, written_of_fetched present exact⟩

/-- A read through a block that is filled from the first byte of the object on. -/
theorem stagedRead_placed (disk : metadata.onDisk = true) {bufSize : Nat}
    (sized : bufSize = metadata.stagingSize srcOffset size) {readOp : Nat → Fetch}
    (fills : ∀ temp, ∀ event ∈ (readOp temp).events, (∃ replica, event = .offloadRequest replica) ∨
      ∃ replica slices succeeded, addresses slices = List.range' temp bufSize ∧
        event = .fetched replica 0 bufSize slices succeeded) :
    (stagedRead answers dst srcOffset size bufSize readOp).Placed answers metadata dst srcOffset
      size := by
  subst sized
  refine ⟨fun event present => ?_, fun count succeeded => ?_⟩
  · obtain ⟨temp, allocated, filled | ⟨ok, rfl⟩⟩ := mem_stagedRead present
    · rcases fills temp event filled with ⟨replica, rfl⟩ | ⟨replica, slices, ok, exact, rfl⟩
      · exact .request replica
      · exact .staged replica slices ok temp ⟨disk, allocated⟩ exact
    · exact .copied ok temp ⟨disk, allocated⟩
  · unfold stagedRead at succeeded ⊢
    split at succeeded
    · cases succeeded
    · rename_i temp allocated
      dsimp only at succeeded ⊢
      split at succeeded
      · cases succeeded
      · split at succeeded
        · cases succeeded
        · cases succeeded
          exact ⟨rfl, _, mem_filterMap.mpr ⟨_, mem_append_right _
            (mem_singleton.mpr rfl), rfl⟩, rfl⟩

/-! ## The ways of a read -/

theorem fetchWhole_fills (ptr : Nat) :
    ∀ event ∈ (fetchWhole client answers key metadata ptr).events,
      (∃ replica, event = .offloadRequest replica) ∨
        ∃ replica slices succeeded, addresses slices = List.range' ptr metadata.totalSize ∧
          event = .fetched replica 0 metadata.totalSize slices succeeded := by
  intro event present
  obtain ⟨succeeded, rfl⟩ := mem_fetchWhole present
  exact .inr ⟨_, _, succeeded, by rw [client.covers, metadata.sized], rfl⟩

theorem offloadObject_fills {answer : OffloadAnswer} (ptr : Nat) :
    ∀ event ∈ (offloadObject answer replica [⟨ptr, length⟩]).events,
      (∃ replica, event = .offloadRequest replica) ∨
        ∃ replica slices succeeded, addresses slices = List.range' ptr length ∧
          event = .fetched replica 0 length slices succeeded := by
  intro event present
  rcases mem_offloadObject present with request | ⟨succeeded, rfl⟩
  · exact .inl ⟨_, request⟩
  · exact .inr ⟨replica, _, succeeded, addresses_single ptr length, by simp⟩

theorem fetched_of_offloadObject_ok {answer : OffloadAnswer} {ptr : Nat}
    (done : (offloadObject answer replica [⟨ptr, length⟩]).result = .ok ()) :
    .fetched replica 0 length [⟨ptr, length⟩] true ∈
      (offloadObject answer replica [⟨ptr, length⟩]).events := by
  obtain ⟨response, replied, counted, moved⟩ := transfer_ok_of_read_ok done
  simp [offloadObject, replied, counted, moved, Except.isOk, Except.toBool]

theorem readWhole_placed :
    (readWhole client answers key metadata dst).Placed answers metadata dst 0
      metadata.totalSize := by
  unfold readWhole
  split
  · exact reported_placed (offloadObject_fills _)
      fun done => ⟨_, _, _, fetched_of_offloadObject_ok done⟩
  · rename_i notLocal
    split
    · rename_i disk
      refine stagedRead_placed (by simp [RangedReadMetadata.onDisk, disk]) ?_ fetchWhole_fills
      simp [RangedReadMetadata.stagingSize, notLocal]
    · refine reported_placed (fetchWhole_fills dst) fun done => ?_
      exact ⟨_, _, _, mem_fetchedBy_of_transferred
        (findFirstCompleteReplica_filterQueryResult metadata.query metadata.complete)
        (transferred_of_get_ok done)⟩

theorem readPart_placed :
    (readPart client answers key metadata dst srcOffset size).Placed answers metadata dst
      srcOffset size := by
  unfold readPart
  split
  · rename_i owned
    refine stagedRead_placed (by simp [RangedReadMetadata.onDisk, owned]) ?_
      fun temp => offloadObject_fills temp
    simp [RangedReadMetadata.stagingSize, owned]
  · rename_i notLocal
    split
    · rename_i disk
      refine stagedRead_placed (by simp [RangedReadMetadata.onDisk, disk]) ?_ fetchWhole_fills
      simp [RangedReadMetadata.stagingSize, notLocal]
    · split
      · exact placed_of_error rfl
      · refine reported_placed (fun event present => ?_) fun done => ?_
        · obtain ⟨replica, succeeded, -, rfl⟩ := mem_fetchRange present
          exact .inr ⟨replica, _, succeeded, addresses_single dst size, rfl⟩
        · have moved := transferred_of_getRange_ok done
          cases complete : findFirstCompleteReplica metadata.query.replicas with
          | error error => simp [getRange, complete] at moved
          | ok replica => exact ⟨_, _, _, mem_fetchedBy_of_transferred complete moved⟩

/-- A read of an exact size keeps to its places, and what it reads is in the object. -/
theorem executeRangedRead_placed (buffer dstOffset : Nat) :
    let read := executeRangedRead client answers key metadata buffer dstOffset srcOffset size false
    read.Placed answers metadata (buffer + dstOffset) srcOffset size ∧
      (read.events ≠ [] → srcOffset + size ≤ metadata.totalSize) := by
  unfold executeRangedRead
  rw [if_neg (by simp)]
  by_cases beyond : metadata.totalSize < size ∨ metadata.totalSize - size < srcOffset
  · rw [if_pos beyond]
    exact ⟨placed_of_error rfl, fun events => absurd rfl events⟩
  · rw [if_neg beyond]
    refine ⟨?_, fun _ => by omega⟩
    unfold readChecked
    split
    · rename_i whole
      rw [whole.1, whole.2]
      exact readWhole_placed
    · exact readPart_placed

end Places

/-! ## An environment in which every access succeeds -/

/-- One slice for each object, and no hot cache. -/
def plainRangedClient : RangedClient where
  reader := { hotCache := false }
  allocateSlices := fun replica ptr => [⟨ptr, totalSize replica⟩]
  covers := addresses_whole

/-- Every access succeeds before the lease of the query result ends; blocks are at 500. -/
def timelyAnswers (query : QueryResult) : FragmentAnswers where
  reads := { willingAnswers with clock := fun _ => query.leaseTimeout - 1 }
  allocate := fun _ => some 500
  offload := ⟨.ok ⟨1, 1⟩, .ok (), 0⟩
  scatter := .ok ()
  object := fun _ => 0
  residue := fun memory address => memory address

section Timely

variable {key : ObjectKey} {metadata : RangedReadMetadata} {dst srcOffset size : Nat}

theorem isLeaseExpired_timely (query : QueryResult) (replicas : List Replica) :
    QueryResult.isLeaseExpired ⟨replicas, query.leaseTimeout⟩
      ((timelyAnswers query).reads.clock 2) = false := by
  have before : ¬query.leaseTimeout ≤ query.leaseTimeout - 1 := by omega
  exact decide_eq_false before

theorem fetchWhole_timely (ptr : Nat) :
    (fetchWhole plainRangedClient (timelyAnswers metadata.query) key metadata ptr).result =
      .ok () := by
  have timely := isLeaseExpired_timely metadata.query [metadata.replica]
  have first := findFirstCompleteReplica_filterQueryResult metadata.query metadata.complete
  simp only [fetchWhole, fetchedBy, Read.get, first]
  rw [redirectToHotCache_of_off rfl]
  have whole : calculateSliceSize [⟨ptr, totalSize metadata.replica⟩] =
      totalSize metadata.replica := by
    rw [calculateSliceSize, wordSum_eq]
    exact Nat.mod_eq_of_lt (totalSize_lt metadata.replica)
  simp [transferRead, plainRangedClient, whole, filterQueryResult, timely,
    show (timelyAnswers metadata.query).reads.submit = fun _ _ _ => some ⟨.ok⟩ from rfl]

theorem stagedRead_timely {query : QueryResult} {bufSize : Nat} {readOp : Nat → Fetch}
    (filled : ∀ temp, (readOp temp).result = .ok ()) :
    (stagedRead (timelyAnswers query) dst srcOffset size bufSize readOp).result = .ok size := by
  simp [stagedRead, timelyAnswers, filled]

theorem readWhole_timely :
    (readWhole plainRangedClient (timelyAnswers metadata.query) key metadata dst).result =
      .ok metadata.totalSize := by
  unfold readWhole
  split
  · rfl
  · split
    · exact stagedRead_timely fetchWhole_timely
    · simp [Fetch.reported, fetchWhole_timely, Except.map]

theorem fetchRange_timely {replica : Replica} {ptr : Nat}
    (first : findFirstCompleteReplica metadata.query.replicas = .ok replica)
    (memory : replica.isMemoryReplica = true) :
    (fetchRange plainRangedClient (timelyAnswers metadata.query) metadata ptr srcOffset size) =
      ⟨.ok (), [.fetched replica srcOffset size [⟨ptr, size⟩] true]⟩ := by
  have timely := isLeaseExpired_timely metadata.query metadata.query.replicas
  have moved : transferReadRange plainRangedClient.reader (timelyAnswers metadata.query).reads
      replica [⟨ptr, size⟩] srcOffset = (.ok, [.transferred 0 [⟨ptr, size⟩] .ok]) := rfl
  simp [fetchRange, fetchedBy, getRange, first, memory, moved, timely]

theorem fetchRange_refused {client : RangedClient} {answers : FragmentAnswers} {ptr : Nat}
    (refused : ∀ replica, findFirstCompleteReplica metadata.query.replicas = .ok replica →
      replica.isMemoryReplica = false) :
    fetchRange client answers metadata ptr srcOffset size = ⟨.error .invalidReplica, []⟩ := by
  cases first : findFirstCompleteReplica metadata.query.replicas with
  | error error =>
    have code : error = .invalidReplica := by
      unfold findFirstCompleteReplica at first
      split at first
      · cases first
      · cases first
        rfl
    simp [fetchRange, fetchedBy, getRange, first, code]
  | ok replica => simp [fetchRange, fetchedBy, getRange, first, refused replica first]

/-- A part of an object is read, or the replica does not allow it. -/
theorem readPart_timely :
    (readPart plainRangedClient (timelyAnswers metadata.query) key metadata dst srcOffset
        size).result = .ok size ∨
      (readPart plainRangedClient (timelyAnswers metadata.query) key metadata dst srcOffset
        size).result = .error .invalidReplica := by
  unfold readPart
  split
  · exact .inl (stagedRead_timely fun _ => rfl)
  · split
    · exact .inl (stagedRead_timely fetchWhole_timely)
    · split
      · exact .inr rfl
      · by_cases readable : ∃ replica, findFirstCompleteReplica metadata.query.replicas =
            .ok replica ∧ replica.isMemoryReplica = true
        · obtain ⟨replica, first, memory⟩ := readable
          exact .inl (by simp [Fetch.reported, fetchRange_timely first memory, Except.map])
        · refine .inr ?_
          rw [fetchRange_refused fun replica first => by
            simpa using fun memory => readable ⟨replica, first, memory⟩]
          rfl

end Timely

end Mooncake.Read
