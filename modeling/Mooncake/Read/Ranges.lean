import Mooncake.Library.Loops
import Mooncake.Read.CachedLease
import Mooncake.Read.Ranged
import Mooncake.Shm.Mapping

/-!
# Nested ranged reads

`get_into_ranges` takes, for each buffer, a list of keys, and for each key a list of
fragments.  The lengths of the nested vectors need not agree: `prepare_ranged_read_request`
sorts out what can be read, and `get_into_ranges_internal` trusts the masks it leaves.
Every access of a vector is checked here, and `none` is an access outside.  Offsets and
sizes of a request are 64-bit words.
-/

namespace Mooncake.Read

open Library.Keyed Library.Loops Shm

/-! ## Requests -/

structure RangesRequest where
  allKeys : List (List ObjectKey)
  allDstOffsets : List (List (List UInt64))
  allSrcOffsets : List (List (List UInt64))
  allSizes : List (List (List UInt64))

abbrev RangedResults := List (List (List (Expected Nat)))

def buildRangedReadInternalErrorResults (bufferCount : Nat) (request : RangesRequest)
    (error : ErrorCode) : RangedResults :=
  (List.range bufferCount).map fun i =>
    (List.range ((request.allKeys[i]?.map List.length).getD 1)).map fun j =>
      List.replicate (max (((at2 request.allDstOffsets i j).map List.length).getD 1) 1)
        (.error error)

def fillRangedReadResultsWithError (results : RangedResults) (error : ErrorCode) :
    RangedResults :=
  results.map fun rows => rows.map fun row => row.map fun _ => .error error

/-! ## Preparation -/

def sizeTMax : UInt64 := 0xFFFFFFFFFFFFFFFF

structure PreparedKey where
  results : List (Expected Nat)
  validFragments : List Bool
  required : UInt64

structure PreparedBuffer where
  results : List (List (Expected Nat))
  validFragments : List (List Bool)
  required : UInt64

structure PreparedRangedReadRequest where
  results : RangedResults
  validFragments : List (List (List Bool))
  requiredBufferSizes : List UInt64
  topLevelValid : Bool
  hasAnyValidFragment : Bool

/-- The mask of a fragment, and the end of its destination. -/
def checkDestination (dstOffset fragmentSize : UInt64) : Bool × UInt64 :=
  if sizeTMax - fragmentSize < dstOffset then (false, 0) else (true, dstOffset + fragmentSize)

namespace RangesRequest

variable (request : RangesRequest)

/-- One round of the innermost loop. -/
def prepareFragment (i j k : Nat) : Option (Bool × UInt64) := do
  let dstOffset ← at3 request.allDstOffsets i j k
  let fragmentSize ← at3 request.allSizes i j k
  return checkDestination dstOffset fragmentSize

def prepareKey (i j : Nat) : Option PreparedKey := do
  let dstOffsets ← at2 request.allDstOffsets i j
  let srcOffsets ← at2 request.allSrcOffsets i j
  let sizes ← at2 request.allSizes i j
  let results := List.replicate dstOffsets.length (.error .invalidParams)
  if dstOffsets.length ≠ srcOffsets.length ∨ dstOffsets.length ≠ sizes.length then
    return ⟨results, List.replicate dstOffsets.length false, 0⟩
  else
    let fragments ← tabulate (request.prepareFragment i j) dstOffsets.length
    return ⟨results, fragments.map Prod.fst, (fragments.map Prod.snd).foldl max 0⟩

def prepareBuffer (i : Nat) : Option PreparedBuffer := do
  let keys ← request.allKeys[i]?
  let dstOffsets ← request.allDstOffsets[i]?
  let srcOffsets ← request.allSrcOffsets[i]?
  let sizes ← request.allSizes[i]?
  if keys.length ≠ dstOffsets.length ∨ keys.length ≠ srcOffsets.length ∨
      keys.length ≠ sizes.length then
    return ⟨List.replicate keys.length [.error .invalidParams],
      List.replicate keys.length [false], 0⟩
  else
    let rows ← tabulate (request.prepareKey i) keys.length
    return ⟨rows.map PreparedKey.results, rows.map PreparedKey.validFragments,
      (rows.map PreparedKey.required).foldl max 0⟩

def topLevelValid (bufferCount : Nat) : Bool :=
  bufferCount = request.allKeys.length && bufferCount = request.allDstOffsets.length &&
    bufferCount = request.allSrcOffsets.length && bufferCount = request.allSizes.length

def prepareRangedReadRequest (bufferCount : Nat) : Option PreparedRangedReadRequest :=
  if !request.topLevelValid bufferCount then
    some
      { results := buildRangedReadInternalErrorResults bufferCount request .invalidParams
        validFragments := List.replicate bufferCount []
        requiredBufferSizes := List.replicate bufferCount 0
        topLevelValid := false
        hasAnyValidFragment := false }
  else
    (tabulate request.prepareBuffer bufferCount).map fun rows =>
      { results := rows.map PreparedBuffer.results
        validFragments := rows.map PreparedBuffer.validFragments
        requiredBufferSizes := rows.map PreparedBuffer.required
        topLevelValid := true
        hasAnyValidFragment := rows.any fun row => row.validFragments.any fun mask => mask.any id }

end RangesRequest

/-! ## Capacities -/

structure WritableBufferRegion where
  base : Nat
  size : Nat
  offset : Nat
  deriving DecidableEq, Repr

/-- A region with the offset of an address in it. -/
def regionAt (buffer base size : Nat) : Option WritableBufferRegion :=
  if base ≤ buffer ∧ buffer - base < size then some ⟨base, size, buffer - base⟩ else none

/-- `resolve_writable_buffer_region`; `registered` holds `registered_buffer_sizes_` in the
order in which the map is walked. -/
def resolveWritableBufferRegion (registered : List (Nat × Nat)) (localBuffer : Option (Nat × Nat))
    (buffer : Nat) : Option WritableBufferRegion :=
  (registered.findSome? fun region => regionAt buffer region.1 region.2).or
    (localBuffer.bind fun region => regionAt buffer region.1 region.2)

/-! ## Reading -/

/-- A ranged request with the state of the client that it meets: the registered regions,
the answers to queries, the given cache of query results and the reading of the clock. -/
structure RangesInput extends RangesRequest where
  connected : Bool := true
  registered : List (Nat × Nat)
  localBuffer : Option (Nat × Nat)
  localEndpoints : List String
  query : ObjectKey → Expected QueryResult
  now : Int

/-- The outcome of a fragment, with the read that was executed for it. -/
structure FragmentRun where
  result : Expected Nat
  read : Option RangedRead := none

abbrev RangesRun := List (List (List FragmentRun))

def unread (results : RangedResults) : RangesRun :=
  results.map fun rows => rows.map fun row => row.map fun result => { result := result }

abbrev MetadataCache := AList fun _ : ObjectKey => Expected RangedReadMetadata

/-- The entry made from a given query result; an expired one is skipped. -/
def reusableMetadata (localEndpoints : List String) (now : Int)
    (queryResult : Expected QueryResult) : Option (Expected RangedReadMetadata) :=
  match queryResult with
  | .error error => some (.error error)
  | .ok query =>
    if query.isLeaseExpired now then none
    else some (buildRangedReadMetadataFromQueryResult localEndpoints (.ok query))

/-- The cache that a helper passes on; an empty one is left out. -/
def forwardedCache (cachedQueryResults : CachedQueryResults) (received : Int) :
    Option QueryResultCache :=
  let cache := buildQueryResultCacheFromCachedResults cachedQueryResults received
  if cache.entries.isEmpty then none else some cache

/-- The environment of the fragment `(i, j, k)`. -/
abbrev RangesAnswers := Nat → Nat → Nat → FragmentAnswers

namespace RangesInput

section Model

variable (input : RangesInput) (client : RangedClient) (answers : RangesAnswers)

def queriedMetadata (key : ObjectKey) : Expected RangedReadMetadata :=
  buildRangedReadMetadataFromQueryResult input.localEndpoints (input.query key)

def initialMetadata (cache : Option QueryResultCache) : MetadataCache :=
  match cache with
  | none => ∅
  | some cache => rebuild (reusableMetadata input.localEndpoints input.now) cache

/-- The lookup in `metadata_cache`, which queries a key that is not there. -/
def findMetadata (key : ObjectKey) (metadata : MetadataCache) :
    Expected RangedReadMetadata × MetadataCache :=
  match metadata.lookup key with
  | some found => (found, metadata)
  | none => (input.queriedMetadata key, metadata.insert key (input.queriedMetadata key))

/-- The check of a fragment against the capacity of its buffer. -/
def overflows (capacity : Nat) (dstOffset size : UInt64) : Bool :=
  0 < size && (capacity < dstOffset.toNat || capacity - dstOffset.toNat < size.toNat)

def readFragment (prepared : PreparedRangedReadRequest) (buffer capacity : Nat) (key : ObjectKey)
    (metadata : Expected RangedReadMetadata) (i j k : Nat) : Option FragmentRun := do
  let initial ← at3 prepared.results i j k
  let valid ← at3 prepared.validFragments i j k
  if !valid then return { result := initial }
  else
    let size ← at3 input.allSizes i j k
    let dstOffset ← at3 input.allDstOffsets i j k
    if overflows capacity dstOffset size then return { result := initial }
    else
      let srcOffset ← at3 input.allSrcOffsets i j k
      match metadata with
      | .error error => return { result := .error error }
      | .ok metadata =>
        let read := executeRangedRead client (answers i j k) key metadata buffer
          dstOffset.toNat srcOffset.toNat size.toNat false
        return { result := read.result, read := some read }

def readKey (prepared : PreparedRangedReadRequest) (buffer capacity i j : Nat)
    (metadata : MetadataCache) : Option (List FragmentRun × MetadataCache) := do
  let key ← at2 input.allKeys i j
  let found := input.findMetadata key metadata
  let row ← at2 prepared.results i j
  let fragments ← tabulate
    (input.readFragment client answers prepared buffer capacity key found.1 i j) row.length
  return (fragments, found.2)

/-- One round of the outer loop; a buffer that is not writable is passed over. -/
def readBuffer (prepared : PreparedRangedReadRequest) (buffers capacities : List Nat)
    (given : Bool) (i : Nat) (metadata : MetadataCache) :
    Option (List (List FragmentRun) × MetadataCache) := do
  let rows ← prepared.results[i]?
  let capacity ← capacities[i]?
  if capacity = 0 ∧ 0 < rows.length ∧ given = false then
    return (rows.map fun row => row.map fun result => { result := result }, metadata)
  else
    let buffer ← buffers[i]?
    collect (input.readKey client answers prepared buffer capacity i) (List.range rows.length)
      metadata

def resolvedCapacities (buffers : List Nat) : List Nat :=
  buffers.map fun buffer =>
    match resolveWritableBufferRegion input.registered input.localBuffer buffer with
    | none => 0
    | some region => region.size - region.offset

/-- The loops of `get_into_ranges_internal`. -/
def readPrepared (prepared : PreparedRangedReadRequest) (buffers capacities : List Nat)
    (given : Bool) (cache : Option QueryResultCache) : Option RangesRun := do
  let ran ← collect (input.readBuffer client answers prepared buffers capacities given)
    (List.range buffers.length) (input.initialMetadata cache)
  return ran.1

/-- `get_into_ranges_internal`.  The capacities come with a request that is prepared
already. -/
def getIntoRangesInternal (buffers : List Nat)
    (given : Option (List Nat × PreparedRangedReadRequest)) (cache : Option QueryResultCache) :
    Option RangesRun :=
  if !input.connected then
    some (unread (buildRangedReadInternalErrorResults buffers.length input.toRangesRequest
      .invalidParams))
  else
    match given with
    | none => do
        let prepared ← input.prepareRangedReadRequest buffers.length
        if !prepared.topLevelValid then return unread prepared.results
        else
          input.readPrepared client answers prepared buffers (input.resolvedCapacities buffers)
            false cache
    | some (capacities, prepared) =>
      if capacities.length ≠ buffers.length then
        some (unread (buildRangedReadInternalErrorResults buffers.length input.toRangesRequest
          .invalidParams))
      else input.readPrepared client answers prepared buffers capacities true cache

def getIntoRanges (buffers : List Nat) (cache : Option QueryResultCache) : Option RangesRun :=
  input.getIntoRangesInternal client answers buffers none cache

/-- `get_into_ranges_shm_helper`; `context` holds the mappings of the client, if it has
any, and `received` is the reading of the clock when the cache is rebuilt. -/
def getIntoRangesShmHelper (context : Option (List MappedShm)) (dummyBuffers : List UInt64)
    (cachedQueryResults : CachedQueryResults) (received : Int) : Option RangesRun := do
  let prepared ← input.prepareRangedReadRequest dummyBuffers.length
  if !prepared.topLevelValid then return unread prepared.results
  else
    match context with
    | none =>
      return unread (fillRangedReadResultsWithError prepared.results .invalidParams)
    | some mappedShms =>
      if !prepared.hasAnyValidFragment then return unread prepared.results
      else
        match mapDummyAddrsToRealPtrs mappedShms dummyBuffers prepared.requiredBufferSizes with
        | .error error =>
          return unread (fillRangedReadResultsWithError prepared.results error)
        | .ok realBuffers =>
          input.getIntoRangesInternal client answers (realBuffers.map UInt64.toNat)
            (some (prepared.requiredBufferSizes.map UInt64.toNat, prepared))
            (forwardedCache cachedQueryResults received)

end Model

end RangesInput

end Mooncake.Read
