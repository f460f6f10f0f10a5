import Mooncake.Segment.Client
import Mooncake.Shm.Mapping

/-!
# Contexts of shared memory

For each dummy client the real client keeps a context: the shared memories that it has
mapped for the client, and an allocator over one of them.  Mapping, registration with the
transfer engine and the table of contexts change in different orders on the ways of the
three calls.  Each call holds `dummy_client_mutex_`; `mmap` and the transfer engine answer
with arbitrary outcomes, and `munmap` gives back a mapping as a whole.
-/

namespace Mooncake.Shm

open Segment (UUID RegisterOutcome checkRegisterMemoryParams)

structure ShmRegion where
  client : UUID
  base : UInt64
  size : UInt64
  deriving DecidableEq, Repr

/-- The memory that a `ClientBufferAllocator` hands out. -/
structure AllocatorRegion where
  base : UInt64
  size : UInt64
  deriving DecidableEq, Repr

structure ShmContext where
  mappedShms : List MappedShm := []
  clientBufferAllocator : Option AllocatorRegion := none

/-- `shm_contexts_`, and the memory that the calls have mapped and registered. -/
structure ShmState where
  registered : List ShmRegion := []
  mapped : List ShmRegion := []
  shmContexts : AList fun _ : UUID => ShmContext := ∅

/-! ## The operating system and the transfer engine -/

/-- A place that `mmap` gives for a number of bytes, which is not zero. -/
structure Placement (size : UInt64) where
  base : UInt64
  nonnull : base ≠ 0
  nonempty : 0 < size
  fits : base.toNat + size.toNat ≤ 2 ^ 64

/-- An answer of `mmap`, which depends on what is mapped: no mapping begins at the place. -/
structure Mmap where
  place : List ShmRegion → (size : UInt64) → Option (Placement size)
  fresh : ∀ mapped size placement, place mapped size = some placement →
    ∀ region ∈ mapped, region.base ≠ placement.base

/-- `RegisterLocalMemory` of the client, and whether the memory is registered after it. -/
def registerLocalMemory (maxMrSize : Nat) (base size : UInt64) (outcome : RegisterOutcome) :
    Expected Unit × Bool :=
  match checkRegisterMemoryParams maxMrSize base.toNat size.toNat with
  | .error error => (.error error, false)
  | .ok () =>
    (if outcome.code ≠ .ok then .error .invalidParams else .ok (), outcome.registers)

namespace ShmState

def register (state : ShmState) (region : ShmRegion) : ShmState :=
  { state with registered := region :: state.registered }

/-- A successful `unregisterLocalMemory`; a failed one leaves the memory registered. -/
def unregister (state : ShmState) (base : UInt64) : ShmState :=
  { state with registered := state.registered.filter fun region => region.base ≠ base }

def munmap (state : ShmState) (base : UInt64) : ShmState :=
  { state with mapped := state.mapped.filter fun region => region.base ≠ base }

/-- `shm_contexts_[client_id]`, which creates an empty context where there is none. -/
def touch (state : ShmState) (clientId : UUID) : ShmState :=
  if clientId ∈ state.shmContexts then state
  else { state with shmContexts := state.shmContexts.insert clientId {} }

def contextOf (state : ShmState) (clientId : UUID) : ShmContext :=
  (state.shmContexts.lookup clientId).getD {}

end ShmState

/-! ## `map_shm_internal` -/

structure MapRequest where
  fd : Int
  dummyBaseAddr : UInt64
  shmSize : UInt64
  isLocalBuffer : Bool
  clientId : UUID

structure MapAnswers where
  mmap : Mmap
  register : RegisterOutcome

def Placement.mappedShm {size : UInt64} (placement : Placement size) (dummyBaseAddr : UInt64) :
    MappedShm where
  shmBuffer := placement.base
  shmSize := size
  dummyBaseAddr := dummyBaseAddr
  shmAddrOffset := placement.base - dummyBaseAddr
  offset_eq := rfl
  fits := placement.fits

namespace MapRequest

variable (request : MapRequest)

def region (placement : Placement request.shmSize) : ShmRegion :=
  ⟨request.clientId, placement.base, request.shmSize⟩

def alreadyMapped (state : ShmState) : Bool :=
  (state.contextOf request.clientId).mappedShms.any fun shm =>
    shm.dummyBaseAddr = request.dummyBaseAddr

def extend (context : ShmContext) (placement : Placement request.shmSize) : ShmContext where
  mappedShms := context.mappedShms ++ [placement.mappedShm request.dummyBaseAddr]
  clientBufferAllocator := if request.isLocalBuffer then some ⟨placement.base, request.shmSize⟩
    else context.clientBufferAllocator

def registration (maxMrSize : Nat) (placement : Placement request.shmSize)
    (outcome : RegisterOutcome) : Expected Unit × Bool :=
  if 0 < request.shmSize then
    registerLocalMemory maxMrSize placement.base request.shmSize outcome
  else (.ok (), false)

/-- `map_shm_internal` once the memory is mapped. -/
def mapPlaced (maxMrSize : Nat) (outcome : RegisterOutcome)
    (placement : Placement request.shmSize) (state : ShmState) : Expected Unit × ShmState :=
  let region := request.region placement
  let context := state.contextOf request.clientId
  let state := { state with mapped := region :: state.mapped }
  let state := state.touch request.clientId
  let (result, registers) := request.registration maxMrSize placement outcome
  let state := if registers then state.register region else state
  match result with
  | .error error => (.error error, state.munmap placement.base)
  | .ok () =>
    if request.isLocalBuffer && context.clientBufferAllocator.isSome then
      (.error .objectAlreadyExists, state.munmap placement.base)
    else
      (.ok (),
        { state with
          shmContexts := state.shmContexts.insert request.clientId
            (request.extend context placement) })

def mapShmInternal (maxMrSize : Nat) (answers : MapAnswers) (state : ShmState) :
    Expected Unit × ShmState :=
  if request.alreadyMapped state then (.ok (), state)
  else if request.fd < 0 then (.error .invalidParams, state)
  else
    match answers.mmap.place state.mapped request.shmSize with
    | none => (.error .internalError, state)
    | some placement => request.mapPlaced maxMrSize answers.register placement state

end MapRequest

/-! ## `unmap_shm_internal` -/

/-- The loop over the shared memories of a context; `unregister` answers each round. -/
def unmapShms (unregister : Nat → Bool) : Nat → List MappedShm → ShmState → Bool × ShmState
  | _, [], state => (true, state)
  | round, shm :: rest, state =>
    if shm.shmBuffer = 0 then unmapShms unregister (round + 1) rest state
    else if !unregister round then (false, state.munmap shm.shmBuffer)
    else
      unmapShms unregister (round + 1) rest
        ((state.unregister shm.shmBuffer).munmap shm.shmBuffer)

/-- The context is erased on every way, also when a round fails. -/
def unmapShmInternal (clientId : UUID) (unregister : Nat → Bool) (state : ShmState) :
    Expected Unit × ShmState :=
  match state.shmContexts.lookup clientId with
  | none => (.error .invalidParams, state)
  | some context =>
    let (done, state) := unmapShms unregister 0 context.mappedShms state
    (if done then .ok () else .error .internalError,
      { state with shmContexts := state.shmContexts.erase clientId })

/-! ## `unregister_shm_buffer_internal` -/

def unregisterShmBufferInternal (dummyBaseAddr : UInt64) (clientId : UUID) (unregister : Bool)
    (state : ShmState) : Expected Unit × ShmState :=
  match state.shmContexts.lookup clientId with
  | none => (.error .invalidParams, state)
  | some context =>
    match context.mappedShms.find? fun shm => dummyBaseAddr = shm.dummyBaseAddr with
    | none => (.error .invalidParams, state)
    | some shm =>
      if shm.shmBuffer ≠ 0 ∧ unregister = false then (.error .internalError, state)
      else
        let state := if shm.shmBuffer ≠ 0 then
            (state.unregister shm.shmBuffer).munmap shm.shmBuffer
          else state
        let mappedShms := context.mappedShms.eraseP fun shm =>
          dummyBaseAddr = shm.dummyBaseAddr
        (.ok (),
          { state with
            shmContexts := state.shmContexts.insert clientId
              { context with mappedShms := mappedShms } })

/-! ## Calls -/

inductive ShmCall where
  | mapShm (request : MapRequest) (answers : MapAnswers)
  | unmapShm (clientId : UUID) (unregister : Nat → Bool)
  | unregisterShmBuffer (dummyBaseAddr : UInt64) (clientId : UUID) (unregister : Bool)

def ShmCall.run (maxMrSize : Nat) (state : ShmState) : ShmCall → Expected Unit × ShmState
  | .mapShm request answers => request.mapShmInternal maxMrSize answers state
  | .unmapShm clientId unregister => unmapShmInternal clientId unregister state
  | .unregisterShmBuffer dummyBaseAddr clientId unregister =>
    unregisterShmBufferInternal dummyBaseAddr clientId unregister state

def ShmState.after (maxMrSize : Nat) (state : ShmState) (call : ShmCall) : ShmState :=
  (call.run maxMrSize state).2

end Mooncake.Shm
