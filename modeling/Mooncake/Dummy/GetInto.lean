import Mooncake.Dummy.GetBuffer
import Mooncake.Read.RangedPlaces
import Mooncake.Shm.Mapping

/-!
# Reads into a buffer of the dummy client

`get_into` of the real client takes its size as the capacity of the buffer and reads the
whole object.  `get_into` of the dummy client sends its size as the exact length of the
range that starts at the first byte.  The two agree in every environment exactly when
the size is that of the object, or when there is nothing to read.
-/

namespace Mooncake.Dummy

open Read Shm Library.ByteMemory

/-! ## The calls -/

/-- The state of the real client that a read of a key meets. -/
structure KeyState where
  connected : Bool := true
  localEndpoints : List String
  queryResult : Expected QueryResult

/-- `get_into_range_shm_helper`; `context` holds the mappings of the client, if it has any. -/
def getIntoRangeShmHelper (client : RangedClient) (answers : FragmentAnswers) (state : KeyState)
    (context : Option (List MappedShm)) (key : ObjectKey)
    (dummyBuffer dstOffset srcOffset size : UInt64) : RangedRead :=
  match context with
  | none => { result := .error .invalidParams }
  | some mappedShms =>
    match mapDummyBufferRangeToReal mappedShms dummyBuffer dstOffset size with
    | none => { result := .error .invalidParams }
    | some realBuffer =>
      getIntoRangeInternal client answers state.connected state.localEndpoints
        state.queryResult key realBuffer.toNat 0 srcOffset.toNat size.toNat false

/-- `get_into` of the dummy client, with what becomes of its request. -/
def getInto (dummy : DummyClient) (rpc : RpcOutcome) (client : RangedClient)
    (answers : FragmentAnswers) (state : KeyState) (context : Option (List MappedShm))
    (key : ObjectKey) (buffer size : UInt64) : RangedRead :=
  if !dummy.connected then { result := .error .rpcFail }
  else
    let served := getIntoRangeShmHelper client answers state context key buffer 0 0 size
    match rpc with
    | .refused => { result := .error .rpcFail }
    | .lost => { result := .error .rpcFail, events := served.events }
    | .delivered => served

def realGetInto (client : RangedClient) (answers : FragmentAnswers) (state : KeyState)
    (key : ObjectKey) (buffer size : UInt64) : RangedRead :=
  Read.getInto client answers state.connected state.localEndpoints state.queryResult key
    buffer.toNat size.toNat

/-- The numbers of the error codes: those of failures are negative, and the two failures of
a range have numbers of their own. -/
structure ReturnCodes where
  toInt : ErrorCode → Int
  negative : ∀ error, error ≠ .ok → toInt error < 0
  apart : toInt .invalidReplica ≠ toInt .invalidParams

def toPyRet (codes : ReturnCodes) : Expected Nat → Int
  | .ok size => size
  | .error error => codes.toInt error

def memoryAfter (read : RangedRead) (answers : FragmentAnswers) (memory : Memory) : Memory :=
  applyAll (read.writes answers) memory

/-- Two reads return the same number and leave the same bytes in a buffer. -/
def SameRead (codes : ReturnCodes) (answers : FragmentAnswers) (memory : Memory)
    (buffer size : UInt64) (first second : RangedRead) : Prop :=
  toPyRet codes first.result = toPyRet codes second.result ∧
    ∀ address ∈ List.range' buffer.toNat size.toNat,
      memoryAfter first answers memory address = memoryAfter second answers memory address

/-! ## When the two agree -/

section Agreement

variable {client : RangedClient} {answers : FragmentAnswers} {key : ObjectKey}
  {metadata : RangedReadMetadata} {buffer size : Nat}

/-- A capacity and an exact length mean the same when they are the size of the object. -/
theorem executeRangedRead_of_exact (exact : size = metadata.totalSize) :
    executeRangedRead client answers key metadata buffer 0 0 size false =
      executeRangedRead client answers key metadata buffer 0 0 size true := by
  simp [executeRangedRead, exact]

/-- A buffer that is too small is refused by the real client, and filled by the helper if
the replica allows it. -/
theorem executeRangedRead_of_less (less : size < metadata.totalSize) :
    (executeRangedRead client answers key metadata buffer 0 0 size true).result =
        .error .invalidParams ∧
      ((executeRangedRead plainRangedClient (timelyAnswers metadata.query) key metadata buffer 0 0
          size false).result = .ok size ∨
        (executeRangedRead plainRangedClient (timelyAnswers metadata.query) key metadata buffer 0 0
          size false).result = .error .invalidReplica) := by
  refine ⟨by simp [executeRangedRead, less], ?_⟩
  have checked : ¬(metadata.totalSize < size ∨ metadata.totalSize - size < 0) := by omega
  have part : size ≠ metadata.totalSize := by omega
  simp only [executeRangedRead, Bool.false_eq_true, if_false, if_neg checked, readChecked, part,
    and_false]
  exact readPart_timely

/-- A buffer with room to spare is refused by the helper, and filled by the real client. -/
theorem executeRangedRead_of_greater (greater : metadata.totalSize < size) :
    (executeRangedRead client answers key metadata buffer 0 0 size false).result =
        .error .invalidParams ∧
      (executeRangedRead plainRangedClient (timelyAnswers metadata.query) key metadata buffer 0 0
          size true).result = .ok metadata.totalSize := by
  have enough : ¬size < metadata.totalSize := by omega
  refine ⟨by simp [executeRangedRead, greater], ?_⟩
  simp only [executeRangedRead, if_true, if_neg enough, readChecked, and_self]
  exact readWhole_timely

theorem toPyRet_ne_of_ne {codes : ReturnCodes} (different : size ≠ metadata.totalSize) :
    toPyRet codes (executeRangedRead plainRangedClient (timelyAnswers metadata.query) key metadata
        buffer 0 0 size false).result ≠
      toPyRet codes (executeRangedRead plainRangedClient (timelyAnswers metadata.query) key
        metadata buffer 0 0 size true).result := by
  have refused : codes.toInt .invalidParams < 0 := codes.negative _ (by simp)
  rcases Nat.lt_or_gt_of_ne different with less | greater
  · obtain ⟨real, filled | failed⟩ := @executeRangedRead_of_less plainRangedClient
      (timelyAnswers metadata.query) key metadata buffer size less
    · rw [real, filled, toPyRet, toPyRet]
      omega
    · rw [real, failed, toPyRet, toPyRet]
      exact codes.apart
  · obtain ⟨dummy, real⟩ := @executeRangedRead_of_greater plainRangedClient
      (timelyAnswers metadata.query) key metadata buffer size greater
    rw [real, dummy, toPyRet, toPyRet]
    omega

end Agreement

section Calls

variable {dummy : DummyClient} {rpc : RpcOutcome} {state : KeyState} {key : ObjectKey}
  {mappedShms : List MappedShm} {buffer size realBuffer : UInt64}

theorem getInto_of_mapped (connected : dummy.connected = true) (delivered : rpc = .delivered)
    (mapped : mapDummyBufferRangeToReal mappedShms buffer 0 size = some realBuffer)
    (client : RangedClient) (answers : FragmentAnswers) :
    getInto dummy rpc client answers state (some mappedShms) key buffer size =
      getIntoRangeInternal client answers state.connected state.localEndpoints state.queryResult
        key realBuffer.toNat 0 0 size.toNat false := by
  simp [getInto, getIntoRangeShmHelper, connected, delivered, mapped]

theorem getIntoRangeInternal_of_metadata {client : RangedClient} {answers : FragmentAnswers}
    {metadata : RangedReadMetadata} (connected : state.connected = true)
    (built : buildRangedReadMetadataFromQueryResult state.localEndpoints state.queryResult =
      .ok metadata) (capacity : Bool) :
    getIntoRangeInternal client answers state.connected state.localEndpoints state.queryResult key
        realBuffer.toNat 0 0 size.toNat capacity =
      executeRangedRead client answers key metadata realBuffer.toNat 0 0 size.toNat capacity := by
  simp [getIntoRangeInternal, connected, built]

/-- `get_into` of the dummy client agrees with that of the real client in every environment
exactly when the size is that of the object, or there is no replica to read. -/
theorem dummyGetInto_eq_realGetInto_iff (codes : ReturnCodes) (connected : dummy.connected = true)
    (delivered : rpc = .delivered)
    (mapped : mapDummyBufferRangeToReal mappedShms buffer 0 size = some realBuffer) :
    (∀ (client : RangedClient) (answers : FragmentAnswers) (memory : Memory),
      SameRead codes answers memory realBuffer size
        (getInto dummy rpc client answers state (some mappedShms) key buffer size)
        (realGetInto client answers state key realBuffer size)) ↔
      (state.connected = true → ∀ query replica, state.queryResult = .ok query →
        selectBestReplica query.replicas state.localEndpoints = some replica →
          size.toNat = totalSize replica) := by
  constructor
  · intro same ready query replica queried selected
    obtain ⟨metadata, built, rfl, rfl⟩ := buildRangedReadMetadata_of_selected selected
    rw [← queried] at built
    by_contra different
    rw [← metadata.sized] at different
    have equal := (same plainRangedClient (timelyAnswers metadata.query) fun _ => 0).1
    rw [getInto_of_mapped connected delivered mapped, realGetInto, Read.getInto,
      getIntoRangeInternal_of_metadata ready built,
      getIntoRangeInternal_of_metadata ready built] at equal
    exact toPyRet_ne_of_ne different equal
  · intro exact client answers memory
    rw [getInto_of_mapped connected delivered mapped]
    have agree : getIntoRangeInternal client answers state.connected state.localEndpoints
        state.queryResult key realBuffer.toNat 0 0 size.toNat false =
          realGetInto client answers state key realBuffer size := by
      unfold realGetInto Read.getInto getIntoRangeInternal
      split
      · rfl
      · rename_i ready
        cases built : buildRangedReadMetadataFromQueryResult state.localEndpoints
            state.queryResult with
        | error error => rfl
        | ok metadata =>
          obtain ⟨queried, selected⟩ := buildRangedReadMetadata_ok built
          have fits := exact (by simpa using ready) _ _ queried selected
          exact executeRangedRead_of_exact (fits.trans metadata.sized.symm)
    rw [agree]
    exact ⟨rfl, fun _ _ => rfl⟩

end Calls

/-! ## A buffer of one byte too many -/

def memoryReplica : Replica where
  status := .complete
  descriptor := .memory ⟨"owner", 64, 3⟩

def threeBytes : KeyState where
  localEndpoints := []
  queryResult := .ok ⟨[memoryReplica], 10⟩

/-- Eight bytes at address 32 of the dummy client, mapped at address 96. -/
def eightBytes : MappedShm where
  shmBuffer := 96
  shmSize := 8
  dummyBaseAddr := 32
  shmAddrOffset := 64
  offset_eq := rfl
  fits := by decide

def sampleCodes : ReturnCodes where
  toInt := fun error => if error = .ok then 0 else if error = .invalidReplica then -2 else -1
  negative := by
    intro error failure
    rw [if_neg failure]
    split <;> decide
  apart := by decide

/-- With three bytes the two calls agree. -/
theorem exactBuffer_agrees :
    SameRead sampleCodes (timelyAnswers ⟨[], 10⟩) (fun _ => 7) 96 3
      (getInto {} .delivered plainRangedClient (timelyAnswers ⟨[], 10⟩) threeBytes
        (some [eightBytes]) "key" 32 3)
      (realGetInto plainRangedClient (timelyAnswers ⟨[], 10⟩) threeBytes "key" 96 3) := by
  refine (dummyGetInto_eq_realGetInto_iff sampleCodes rfl rfl rfl).mpr
    (fun _ query replica queried selected => ?_) _ _ _
  cases queried
  cases selected
  rfl

/-- With four bytes the real client reads the object, and the dummy client gets an error. -/
theorem largerBuffer_differs :
    (realGetInto plainRangedClient (timelyAnswers ⟨[], 10⟩) threeBytes "key" 96 4).result = .ok 3 ∧
      (getInto {} .delivered plainRangedClient (timelyAnswers ⟨[], 10⟩) threeBytes
        (some [eightBytes]) "key" 32 4).result = .error .invalidParams :=
  ⟨rfl, rfl⟩

end Mooncake.Dummy
