import Mooncake.Read.RangedPlaces
import Mooncake.Read.RangesRun

/-!
# Ranged reads stay in bounds

Both entries of `get_into_ranges` finish without an access outside a vector, for requests
of any shape and any words.  What an executed fragment writes is its destination, which
lies in the registered region or in the shared memory of the client, and, for replicas on
a disk, a block of the client; what it reads is its range, or the part of the object that
goes through the block.
-/

namespace Mooncake.Read

open Library.Loops Shm List

/-- What the read of `[srcOffset, srcOffset + size)` to `dst` touches. -/
structure RangedRead.InBounds (read : RangedRead) (answers : FragmentAnswers)
    (metadata : RangedReadMetadata) (dst srcOffset size : Nat) : Prop where
  writes : ∀ write ∈ read.writes answers, ∀ address ∈ write.domain,
    address ∈ List.range' dst size ∨
      ∃ temp, metadata.Staging answers srcOffset size temp ∧
        address ∈ List.range' temp (metadata.stagingSize srcOffset size)
  reads : ∀ replica start length slices succeeded,
    .fetched replica start length slices succeeded ∈ read.events →
      start + length ≤ metadata.totalSize ∧
        (start = srcOffset ∧ length = size ∨
          metadata.onDisk = true ∧ start = 0 ∧ length = metadata.stagingSize srcOffset size)
  copies : ∀ target source length succeeded,
    .scattered target source length succeeded ∈ read.events →
      ∃ temp, metadata.Staging answers srcOffset size temp ∧ source = temp + srcOffset ∧
        length = size ∧ srcOffset + size ≤ metadata.stagingSize srcOffset size
  done : ∀ count, read.result = .ok count →
    count = size ∧ ∃ write ∈ read.writes answers, write.domain = List.range' dst size

/-- A run over a number of buffers; `room` tells where a fragment of a buffer may write. -/
structure RangesRun.InBounds (run : RangesRun) (input : RangesInput)
    (cache : Option QueryResultCache) (answers : RangesAnswers) (bufferCount : Nat)
    (room : Nat → Reading → Prop) : Prop where
  shaped : lengths run = input.shape bufferCount ∨
    input.connected = false ∧ lengths run = lengths
      (buildRangedReadInternalErrorResults bufferCount input.toRangesRequest .invalidParams)
  refused : ∀ i j k fragment, at3 run i j k = some fragment → fragment.read = none →
    ∃ error, fragment.result = .error error
  executed : ∀ i j k fragment read, at3 run i j k = some fragment → fragment.read = some read →
    fragment.result = read.result ∧
      ∃ reading : Reading, at2 input.allKeys i j = some reading.key ∧
        at3 input.allDstOffsets i j k = some reading.dstOffset ∧
        at3 input.allSrcOffsets i j k = some reading.srcOffset ∧
        at3 input.allSizes i j k = some reading.size ∧
        input.metadataFor cache reading.key = .ok reading.metadata ∧
        room i reading ∧
        read.InBounds (answers i j k) reading.metadata (reading.buffer + reading.dstOffset.toNat)
          reading.srcOffset.toNat reading.size.toNat

/-- A fragment of a direct call lies in the rest of the region registered for its buffer. -/
def RegisteredRoom (input : RangesInput) (buffers : List Nat) (i : Nat) (reading : Reading) :
    Prop :=
  buffers[i]? = some reading.buffer ∧
    ∃ region, resolveWritableBufferRegion input.registered input.localBuffer reading.buffer =
        some region ∧
      ((region.base, region.size) ∈ input.registered ∨
        input.localBuffer = some (region.base, region.size)) ∧
      region.base + region.offset = reading.buffer ∧
      (0 < reading.size.toNat →
        reading.dstOffset.toNat + reading.size.toNat ≤ region.size - region.offset)

/-- A fragment of a helper call lies in shared memory that is mapped for the client. -/
def MappedRoom (context : Option (List MappedShm)) (dummyBuffers : List UInt64) (i : Nat)
    (reading : Reading) : Prop :=
  ∃ mappedShms dummy shm, context = some mappedShms ∧ shm ∈ mappedShms ∧
    dummyBuffers[i]? = some dummy ∧ reading.buffer = (dummy + shm.shmAddrOffset).toNat ∧
    (0 < reading.size.toNat →
      shm.Contains (reading.buffer + reading.dstOffset.toNat) reading.size.toNat)

/-! ## One fragment -/

variable {metadata : RangedReadMetadata}

theorem stagingSize_le {srcOffset size : Nat} (inside : srcOffset + size ≤ metadata.totalSize) :
    srcOffset + size ≤ metadata.stagingSize srcOffset size ∧
      metadata.stagingSize srcOffset size ≤ metadata.totalSize := by
  unfold RangedReadMetadata.stagingSize
  split <;> omega

theorem inBounds_of_placed {read : RangedRead} {answers : FragmentAnswers}
    {dst srcOffset size : Nat} (placed : read.Placed answers metadata dst srcOffset size)
    (inside : read.events ≠ [] → srcOffset + size ≤ metadata.totalSize) :
    read.InBounds answers metadata dst srcOffset size := by
  have object : ∀ {event}, event ∈ read.events → srcOffset + size ≤ metadata.totalSize :=
    fun present => inside (ne_nil_of_mem present)
  refine ⟨?_, ?_, ?_, placed.done⟩
  · intro write written address touched
    obtain ⟨event, present, wrote⟩ := mem_filterMap.mp written
    cases placed.events event present with
    | request replica => cases wrote
    | direct replica slices succeeded exact =>
      cases wrote
      rw [exact] at touched
      exact .inl touched
    | staged replica slices succeeded temp block exact =>
      cases wrote
      rw [exact] at touched
      exact .inr ⟨temp, block, touched⟩
    | copied succeeded temp block =>
      cases wrote
      exact .inl touched
  · intro replica start length slices succeeded present
    have within := object present
    have staging := (stagingSize_le within).2
    cases placed.events _ present with
    | direct => exact ⟨within, .inl ⟨rfl, rfl⟩⟩
    | staged _ _ _ temp block => exact ⟨by omega, .inr ⟨block.1, rfl, rfl⟩⟩
  · intro target source length succeeded present
    cases placed.events _ present with
    | copied _ temp block =>
      exact ⟨temp, block, rfl, rfl, (stagingSize_le (object present)).1⟩

theorem Reading.execute_inBounds (reading : Reading) (client : RangedClient)
    (answers : FragmentAnswers) :
    (reading.execute client answers).InBounds answers reading.metadata
      (reading.buffer + reading.dstOffset.toNat) reading.srcOffset.toNat reading.size.toNat := by
  have placed := @executeRangedRead_placed client answers reading.key reading.metadata
    reading.srcOffset.toNat reading.size.toNat reading.buffer reading.dstOffset.toNat
  exact inBounds_of_placed placed.1 placed.2

theorem ends_of_not_overflows {capacity : Nat} {dstOffset size : UInt64}
    (fits : RangesInput.overflows capacity dstOffset size = false) (nonempty : 0 < size.toNat) :
    dstOffset.toNat + size.toNat ≤ capacity := by
  have positive : (0 : UInt64) < size := by simpa [UInt64.lt_iff_toNat_lt] using nonempty
  simp only [RangesInput.overflows, positive, decide_true, Bool.true_and, Bool.or_eq_false_iff,
    decide_eq_false_iff_not] at fits
  omega

/-! ## Runs -/

section Runs

variable {input : RangesInput} {client : RangedClient} {answers : RangesAnswers}
  {cache : Option QueryResultCache} {bufferCount : Nat} {room : Nat → Reading → Prop}

theorem lengths_unread (results : RangedResults) : lengths (unread results) = lengths results := by
  simp [lengths, unread, Function.comp_def]

variable {results : RangedResults} {i : Nat} {error : ErrorCode} {region : WritableBufferRegion}
  {buffers : List Nat} {reading : Reading} {mappedShms : List MappedShm}
  {dummyBuffers realBuffers : List UInt64}

theorem at3_unread {j k : Nat} {fragment : FragmentRun}
    (present : at3 (unread results) i j k = some fragment) :
    fragment.read = none ∧ at3 results i j k = some fragment.result := by
  obtain ⟨row, place, third⟩ := at3_eq_some.mp present
  obtain ⟨rows, first, second⟩ := at2_eq_some.mp place
  rw [unread, getElem?_map] at first
  obtain ⟨rows', found, rfl⟩ := Option.map_eq_some_iff.mp first
  rw [getElem?_map] at second
  obtain ⟨row', found', rfl⟩ := Option.map_eq_some_iff.mp second
  rw [getElem?_map] at third
  obtain ⟨result, read, rfl⟩ := Option.map_eq_some_iff.mp third
  exact ⟨rfl, at3_eq_some.mpr ⟨row', at2_eq_some.mpr ⟨rows', found, found'⟩, read⟩⟩

theorem unread_inBounds {results : RangedResults}
    (shaped : lengths results = input.shape bufferCount ∨
      input.connected = false ∧ lengths results = lengths
        (buildRangedReadInternalErrorResults bufferCount input.toRangesRequest .invalidParams))
    (errors : ∀ (i j k : Nat) (result : Expected Nat), at3 results i j k = some result →
      ∃ error, result = .error error) :
    (unread results).InBounds input cache answers bufferCount room := by
  refine ⟨by rw [lengths_unread]; exact shaped, fun i j k fragment present _ => ?_,
    fun i j k fragment read present executed => ?_⟩
  · exact errors i j k fragment.result (at3_unread present).2
  · rw [(at3_unread present).1] at executed
    cases executed

theorem filled_inBounds {results : RangedResults} {error : ErrorCode}
    (shaped : lengths results = input.shape bufferCount ∨
      input.connected = false ∧ lengths results = lengths
        (buildRangedReadInternalErrorResults bufferCount input.toRangesRequest .invalidParams)) :
    (unread (fillRangedReadResultsWithError results error)).InBounds input cache answers
      bufferCount room := by
  have same : lengths (fillRangedReadResultsWithError results error) = lengths results := by
    simp [lengths, fillRangedReadResultsWithError, Function.comp_def]
  refine unread_inBounds (by rw [same]; exact shaped) fun i j k result present => ?_
  obtain ⟨row, place, third⟩ := at3_eq_some.mp present
  obtain ⟨rows, first, second⟩ := at2_eq_some.mp place
  rw [fillRangedReadResultsWithError, getElem?_map] at first
  obtain ⟨_, -, rfl⟩ := Option.map_eq_some_iff.mp first
  rw [getElem?_map] at second
  obtain ⟨_, -, rfl⟩ := Option.map_eq_some_iff.mp second
  rw [getElem?_map] at third
  obtain ⟨_, -, rfl⟩ := Option.map_eq_some_iff.mp third
  exact ⟨error, rfl⟩

theorem buildErrors_are_errors {request : RangesRequest} {error : ErrorCode} {i j k : Nat}
    {result : Expected Nat}
    (present : at3 (buildRangedReadInternalErrorResults bufferCount request error) i j k =
      some result) : result = .error error := by
  obtain ⟨row, place, third⟩ := at3_eq_some.mp present
  obtain ⟨rows, first, second⟩ := at2_eq_some.mp place
  rw [buildRangedReadInternalErrorResults, getElem?_map] at first
  obtain ⟨_, -, rfl⟩ := Option.map_eq_some_iff.mp first
  rw [getElem?_map] at second
  obtain ⟨_, -, rfl⟩ := Option.map_eq_some_iff.mp second
  exact (mem_replicate.mp (mem_of_getElem? third)).2

theorem unreadErrors_inBounds
    (shaped : input.topLevelValid bufferCount = false ∨ input.connected = false) :
    (unread (buildRangedReadInternalErrorResults bufferCount input.toRangesRequest
      .invalidParams)).InBounds input cache answers bufferCount room := by
  refine unread_inBounds ?_ fun i j k result present => ⟨_, buildErrors_are_errors present⟩
  rcases shaped with mismatched | disconnected
  · exact .inl (by rw [RangesRequest.shape, if_neg (by simp [mismatched])])
  · exact .inr ⟨disconnected, rfl⟩

theorem settled_inBounds {run : RangesRun} {destination : Destination}
    (shaped : lengths run = input.shape bufferCount)
    (settled : ∀ i j k fragment, at3 run i j k = some fragment →
      input.Settles client answers cache destination i j k fragment)
    (admitted : ∀ i reading, destination.Admits i reading → room i reading) :
    run.InBounds input cache answers bufferCount room := by
  refine ⟨.inl shaped, fun i j k fragment present none => ?_,
    fun i j k fragment read present executed => ?_⟩
  · rcases settled i j k fragment present with ⟨reading, -, rfl⟩ | ⟨-, error, rfl, -⟩
    · cases none
    · exact ⟨error, rfl⟩
  · rcases settled i j k fragment present with ⟨reading, reads, rfl⟩ | ⟨-, error, rfl, -⟩
    · cases executed
      exact ⟨rfl, reading, reads.key, reads.dstOffset, reads.srcOffset, reads.size,
        reads.metadata, admitted i reading reads.admitted,
        reading.execute_inBounds client (answers i j k)⟩
    · cases executed

/-! ## The direct call -/

theorem regionAt_spec {buffer base size : Nat} (found : regionAt buffer base size = some region) :
    region.base = base ∧ region.size = size ∧ base + region.offset = buffer ∧
      region.offset < size := by
  unfold regionAt at found
  split at found
  · rename_i inside
    cases found
    exact ⟨rfl, rfl, by dsimp only; omega, inside.2⟩
  · cases found

theorem resolveWritableBufferRegion_spec {registered : List (Nat × Nat)}
    {localBuffer : Option (Nat × Nat)} {buffer : Nat}
    (resolved : resolveWritableBufferRegion registered localBuffer buffer = some region) :
    ((region.base, region.size) ∈ registered ∨
        localBuffer = some (region.base, region.size)) ∧
      region.base + region.offset = buffer := by
  unfold resolveWritableBufferRegion at resolved
  rcases Option.or_eq_some_iff.mp resolved with found | ⟨-, found⟩
  · obtain ⟨⟨base, size⟩, listed, placed⟩ := exists_of_findSome?_eq_some found
    obtain ⟨rfl, rfl, offset, -⟩ := regionAt_spec placed
    exact ⟨.inl listed, offset⟩
  · obtain ⟨⟨base, size⟩, held, placed⟩ := Option.bind_eq_some_iff.mp found
    obtain ⟨rfl, rfl, offset, -⟩ := regionAt_spec placed
    exact ⟨.inr held, offset⟩

def RangesInput.directDestination (input : RangesInput) (buffers : List Nat) : Destination where
  buffers := buffers
  capacities := input.resolvedCapacities buffers
  given := false
  aligned := length_map _

theorem registeredRoom_of_admits (admitted : (input.directDestination buffers).Admits i reading) :
    RegisteredRoom input buffers i reading := by
  obtain ⟨buffered, capacity, room, written, fits⟩ := admitted
  refine ⟨buffered, ?_⟩
  dsimp only [RangesInput.directDestination] at buffered room written
  simp only [RangesInput.resolvedCapacities, getElem?_map, buffered,
    Option.map_some, Option.some.injEq] at room
  cases resolved : resolveWritableBufferRegion input.registered input.localBuffer
      reading.buffer with
  | none =>
    rw [resolved] at room
    exact absurd ⟨room.symm, rfl⟩ written
  | some region =>
    rw [resolved] at room
    dsimp only at room
    obtain ⟨known, offset⟩ := resolveWritableBufferRegion_spec resolved
    exact ⟨region, rfl, known, offset, fun nonempty =>
      room ▸ ends_of_not_overflows fits nonempty⟩

/-- A direct call whose outer lengths agree settles every fragment, and has a result for
each valid one. -/
theorem getIntoRanges_settles (connected : input.connected = true)
    (aligned : input.topLevelValid buffers.length = true) :
    ∃ run, input.getIntoRanges client answers buffers cache = some run ∧
      lengths run = input.shape buffers.length ∧
      (∀ i j k, input.ValidFragment i j k → ∃ fragment, at3 run i j k = some fragment) ∧
      ∀ i j k fragment, at3 run i j k = some fragment →
        input.Settles client answers cache (input.directDestination buffers) i j k fragment := by
  obtain ⟨prepared, ran, valid, sound⟩ := RangesRequest.prepareRangedReadRequest_sound aligned
  have placed : input.toRangesRequest.PreparedSound
      (input.directDestination buffers).buffers.length prepared := sound
  obtain ⟨run, read, shaped, settled⟩ := RangesInput.readPrepared_settles placed aligned
  refine ⟨run, ?_, shaped, fun i j k legal => ?_, settled⟩
  · rw [RangesInput.getIntoRanges, RangesInput.getIntoRangesInternal, if_neg (by simp [connected])]
    simpa [ran, valid, RangesInput.directDestination] using read
  · exact at3_of_lengths_eq (sound.masked.trans shaped.symm) ((sound.mask i j k).mpr legal)

theorem getIntoRanges_refused
    (refused : ¬(input.connected = true ∧ input.topLevelValid buffers.length = true)) :
    input.getIntoRanges client answers buffers cache = some (unread
      (buildRangedReadInternalErrorResults buffers.length input.toRangesRequest
        .invalidParams)) := by
  unfold RangesInput.getIntoRanges RangesInput.getIntoRangesInternal
  by_cases connected : input.connected = true
  · have mismatched : input.topLevelValid buffers.length = false := by
      simpa [connected] using refused
    simp [connected, RangesRequest.prepareRangedReadRequest, mismatched]
  · rw [if_pos (by simpa using connected)]

theorem getIntoRanges_bounded (buffers : List Nat) :
    ∃ run, input.getIntoRanges client answers buffers cache = some run ∧
      run.InBounds input cache answers buffers.length (RegisteredRoom input buffers) := by
  by_cases started : input.connected = true ∧ input.topLevelValid buffers.length = true
  · obtain ⟨run, ran, shaped, -, settled⟩ := getIntoRanges_settles started.1 started.2
    exact ⟨run, ran, settled_inBounds shaped settled fun i reading => registeredRoom_of_admits⟩
  · refine ⟨_, getIntoRanges_refused started, unreadErrors_inBounds ?_⟩
    by_cases connected : input.connected = true
    · exact .inl (by simpa [connected] using started)
    · exact .inr (by simpa using connected)

/-! ## The helper -/

/-- The buffers of a helper call, after the translation of their addresses. -/
def mappedDestination (realBuffers required : List UInt64)
    (aligned : required.length = realBuffers.length) : Destination where
  buffers := realBuffers.map UInt64.toNat
  capacities := required.map UInt64.toNat
  given := true
  aligned := by simpa using aligned

theorem mappedRoom_of_admits {required : List UInt64}
    (mapped : mapDummyAddrsToRealPtrs mappedShms dummyBuffers required = .ok realBuffers)
    (aligned : required.length = realBuffers.length)
    (admitted : (mappedDestination realBuffers required aligned).Admits i reading) :
    MappedRoom (some mappedShms) dummyBuffers i reading := by
  obtain ⟨buffered, capacity, room, -, fits⟩ := admitted
  dsimp only [mappedDestination] at buffered room
  rw [getElem?_map] at buffered room
  obtain ⟨real, found, same⟩ := Option.map_eq_some_iff.mp buffered
  obtain ⟨size, needed, rfl⟩ := Option.map_eq_some_iff.mp room
  obtain ⟨dummy, size', shm, address, needed', listed, translated⟩ :=
    (mapDummyAddrsToRealPtrs_spec mapped).2 i real found
  rw [needed] at needed'
  cases needed'
  refine ⟨mappedShms, dummy, shm, rfl, listed, address, ?_, fun nonempty => ?_⟩
  · rw [← same, mapDummyRangeInShm_eq translated, UInt64.add_zero]
  · have ends := ends_of_not_overflows fits nonempty
    obtain ⟨starts, limit⟩ := mapDummyRangeInShm_contains translated (by omega)
    rw [← same]
    exact ⟨by omega, by omega⟩

/-- The call that the helper makes once the addresses are translated. -/
theorem mappedCall_bounded {prepared : PreparedRangedReadRequest}
    (aligned : input.topLevelValid dummyBuffers.length = true)
    (sound : input.toRangesRequest.PreparedSound dummyBuffers.length prepared)
    (mapped : mapDummyAddrsToRealPtrs mappedShms dummyBuffers prepared.requiredBufferSizes =
      .ok realBuffers) :
    ∃ run, input.getIntoRangesInternal client answers (realBuffers.map UInt64.toNat)
        (some (prepared.requiredBufferSizes.map UInt64.toNat, prepared)) cache = some run ∧
      run.InBounds input cache answers dummyBuffers.length
        (MappedRoom (some mappedShms) dummyBuffers) := by
  have length := (mapDummyAddrsToRealPtrs_spec mapped).1
  have required : prepared.requiredBufferSizes.length = realBuffers.length :=
    sound.required.trans length.symm
  unfold RangesInput.getIntoRangesInternal
  by_cases connected : input.connected = true
  · have count : (mappedDestination realBuffers prepared.requiredBufferSizes
        required).buffers.length = dummyBuffers.length := by
      simpa [mappedDestination] using length
    obtain ⟨run, read, shaped, settled⟩ :=
      RangesInput.readPrepared_settles (count.symm ▸ sound) (count.symm ▸ aligned)
    rw [count] at shaped
    refine ⟨run, ?_, settled_inBounds shaped settled fun i reading =>
      mappedRoom_of_admits mapped required⟩
    simpa [connected, required, mappedDestination] using read
  · rw [if_pos (by simpa using connected), length_map, length]
    exact ⟨_, rfl, unreadErrors_inBounds (.inr (by simpa using connected))⟩

theorem getIntoRangesShmHelper_bounded (context : Option (List MappedShm))
    (dummyBuffers : List UInt64) (cachedQueryResults : CachedQueryResults) (received : Int) :
    ∃ run, input.getIntoRangesShmHelper client answers context dummyBuffers cachedQueryResults
        received = some run ∧
      run.InBounds input (forwardedCache cachedQueryResults received) answers
        dummyBuffers.length (MappedRoom context dummyBuffers) := by
  unfold RangesInput.getIntoRangesShmHelper
  by_cases aligned : input.topLevelValid dummyBuffers.length = true
  · obtain ⟨prepared, ran, valid, sound⟩ := RangesRequest.prepareRangedReadRequest_sound aligned
    have failed : ∀ (i j k : Nat) (result : Expected Nat),
        at3 prepared.results i j k = some result → ∃ error, result = .error error :=
      fun i j k result present => ⟨_, sound.errors i j k result present⟩
    simp only [ran, valid, Option.bind_eq_bind, Option.bind_some, Bool.not_true,
      Bool.false_eq_true, if_false]
    cases context with
    | none => exact ⟨_, rfl, filled_inBounds (.inl sound.shaped)⟩
    | some mappedShms =>
      dsimp only
      split
      · exact ⟨_, rfl, unread_inBounds (.inl sound.shaped) failed⟩
      · cases mapped : mapDummyAddrsToRealPtrs mappedShms dummyBuffers
            prepared.requiredBufferSizes with
        | error error => exact ⟨_, rfl, filled_inBounds (.inl sound.shaped)⟩
        | ok realBuffers => exact mappedCall_bounded aligned sound mapped
  · refine ⟨unread (buildRangedReadInternalErrorResults dummyBuffers.length input.toRangesRequest
      .invalidParams), by simp [RangesRequest.prepareRangedReadRequest, aligned], ?_⟩
    exact unreadErrors_inBounds (.inl (by simpa using aligned))

end Runs

/-- When the lengths of a request agree down to its keys, there is one result for each
fragment. -/
theorem shape_of_aligned {request : RangesRequest} {bufferCount : Nat}
    (topLevel : request.topLevelValid bufferCount = true)
    (keyed : ∀ i < bufferCount, request.keysAligned i = true) :
    request.shape bufferCount = lengths request.allDstOffsets := by
  have outer := (RangesRequest.topLevelValid_iff.mp topLevel).2.1
  rw [RangesRequest.shape, if_pos topLevel, lengths]
  refine ext_getElem (by simpa using outer) fun i bound _ => ?_
  have inside : i < bufferCount := by simpa using bound
  simp [RangesRequest.shapeRow, keyed i inside, getD_eq_getElem?_getD, outer ▸ inside]

/-- Both entries of `get_into_ranges` stay in bounds, for every request and every
environment. -/
theorem getIntoRanges_stays_in_bounds (input : RangesInput) (client : RangedClient)
    (answers : RangesAnswers) :
    (∀ (buffers : List Nat) (cache : Option QueryResultCache),
      ∃ run, input.getIntoRanges client answers buffers cache = some run ∧
        run.InBounds input cache answers buffers.length (RegisteredRoom input buffers)) ∧
    (∀ (context : Option (List MappedShm)) (dummyBuffers : List UInt64)
        (cachedQueryResults : CachedQueryResults) (received : Int),
      ∃ run, input.getIntoRangesShmHelper client answers context dummyBuffers
          cachedQueryResults received = some run ∧
        run.InBounds input (forwardedCache cachedQueryResults received) answers
          dummyBuffers.length (MappedRoom context dummyBuffers)) ∧
    (∀ bufferCount, input.topLevelValid bufferCount = true →
      (∀ i < bufferCount, input.keysAligned i = true) →
        input.shape bufferCount = lengths input.allDstOffsets) :=
  ⟨fun buffers _ => getIntoRanges_bounded buffers, getIntoRangesShmHelper_bounded,
    fun _ topLevel keyed => shape_of_aligned topLevel keyed⟩

/-! ## A partial read of a file -/

def fileReplica : Replica where
  status := .complete
  descriptor := .disk ⟨"/store/object", 3⟩

/-- The second byte of the object, to a buffer of four bytes at address 100. -/
def secondByte : RangesInput where
  allKeys := [["key"]]
  allDstOffsets := [[[0]]]
  allSrcOffsets := [[[1]]]
  allSizes := [[[1]]]
  registered := [(100, 4)]
  localBuffer := none
  localEndpoints := []
  query := fun _ => .ok ⟨[fileReplica], 10⟩
  now := 0

/-- Its lengths agree, so it has one result. -/
theorem secondByte_has_one_result :
    secondByte.topLevelValid 1 = true ∧ secondByte.shape 1 = [[1]] :=
  ⟨rfl, (getIntoRanges_stays_in_bounds secondByte plainRangedClient
    fun _ _ _ => timelyAnswers ⟨[], 10⟩).2.2 1 rfl (by decide)⟩

/-- Two destinations for the key, and no sources. -/
def withoutSources : RangesInput :=
  { secondByte with allDstOffsets := [[[0, 1]]], allSrcOffsets := [[]] }

/-- A read of one byte of a file moves the whole object, into a block that is not part of
the buffer; and a key whose vectors do not agree has one result for two fragments. -/
theorem partialFileRead_moves_whole_object :
    (∃ run fragment read, secondByte.getIntoRanges plainRangedClient
          (fun _ _ _ => timelyAnswers ⟨[], 10⟩) [100] none = some run ∧
        at3 run 0 0 0 = some fragment ∧ fragment.result = .ok 1 ∧ fragment.read = some read ∧
        .fetched fileReplica 0 3 [⟨500, 3⟩] true ∈ read.events) ∧
      ∃ run, withoutSources.getIntoRanges plainRangedClient
          (fun _ _ _ => timelyAnswers ⟨[], 10⟩) [100] none = some run ∧
        lengths run = [[1]] ∧ lengths withoutSources.allDstOffsets = [[2]] :=
  ⟨⟨_, _, _, rfl, rfl, rfl, rfl, mem_cons_self⟩, ⟨_, rfl, rfl, rfl⟩⟩

end Mooncake.Read
