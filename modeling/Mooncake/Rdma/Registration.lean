import Mathlib.Order.Nat
import Mooncake.Library.OrderedTree
import Mooncake.Library.Runs
import Mooncake.Rdma.MemoryLocation

/-!
# Registration of local memory

A buffer is registered with every RDMA context, one after the other or in threads, and
then listed in the metadata of the local segment.  Unregistering takes these steps back,
the metadata first.  The model keeps the live MRs of each context next to the map from
which they are found again.  The verbs library and the metadata answer each call with
arbitrary outcomes; the metadata changes the list of buffers exactly when it returns 0.
-/

namespace Mooncake.Rdma

open Library

inductive RdmaError where
  | context
  | dereg (code : Int)
  | addressNotRegistered
  | deviceNotFound
  | metadata (code : Int)
  deriving DecidableEq, Repr

abbrev Outcome := Except RdmaError Unit

structure MrKeys where
  lkey : UInt32
  rkey : UInt32
  deriving DecidableEq, Repr

/-- `MemoryRegionMeta`, with the fields of the MR that are read. -/
structure MemoryRegion where
  addr : Nat
  length : Nat
  keys : MrKeys
  deriving DecidableEq, Repr

def MemoryRegion.containsAddress (region : MemoryRegion) (addr : Nat) : Bool :=
  decide (region.addr ≤ addr) && decide (addr - region.addr < region.length)

/-! ## One context -/

/-- A context: its map of regions, and the MRs that exist in its protection domain. -/
structure RdmaContext where
  memoryRegionMap : OrderedTree MemoryRegion.addr
  live : List MemoryRegion

namespace RdmaContext

variable (context : RdmaContext)

def findMemoryRegionContaining (addr : Nat) : Option MemoryRegion :=
  (context.memoryRegionMap.floor addr).filter fun region => region.containsAddress addr

/-- `registerMemoryRegion`; without keys the registration of the MR failed. -/
def registerMemoryRegion (maxMrSize addr length : Nat) (answer : Option MrKeys) :
    Outcome × RdmaContext :=
  match answer with
  | none => (.error .context, context)
  | some keys =>
    let region : MemoryRegion := ⟨addr, min length maxMrSize, keys⟩
    (.ok (),
      { memoryRegionMap := context.memoryRegionMap.assign region
        live := region :: context.live })

/-- `unregisterMemoryRegion`, where `dereg` is what `ibv_dereg_mr` returns. -/
def unregisterMemoryRegion (addr : Nat) (dereg : Int) : Outcome × RdmaContext :=
  match context.findMemoryRegionContaining addr with
  | none => (.ok (), context)
  | some region =>
    if dereg ≠ 0 then (.error .context, context)
    else
      (.ok (),
        { memoryRegionMap := context.memoryRegionMap.removeAll fun other => other.addr = region.addr
          live := context.live.erase region })

def lkey (addr : Nat) : UInt32 :=
  match context.findMemoryRegionContaining addr with
  | some region => region.keys.lkey
  | none => 0

def rkey (addr : Nat) : UInt32 :=
  match context.findMemoryRegionContaining addr with
  | some region => region.keys.rkey
  | none => 0

end RdmaContext

/-! ## All contexts -/

abbrev ContextStep := Nat → RdmaContext → Outcome × RdmaContext

def firstError : List Outcome → Outcome
  | [] => .ok ()
  | .error error :: _ => .error error
  | .ok () :: rest => firstError rest

/-- The loop over the contexts, which ends at the first failure. -/
def sequentially (step : ContextStep) : Nat → List RdmaContext → Outcome × List RdmaContext
  | _, [] => (.ok (), [])
  | index, context :: rest =>
    match step index context with
    | (.error error, next) => (.error error, next :: rest)
    | (.ok (), next) =>
      let (outcome, others) := sequentially step (index + 1) rest
      (outcome, next :: others)

def inParallel (step : ContextStep) (contexts : List RdmaContext) :
    Outcome × List RdmaContext :=
  let results := contexts.mapIdx step
  (firstError (results.map Prod.fst), results.map Prod.snd)

def onContexts (parallel : Bool) (step : ContextStep) (contexts : List RdmaContext) :
    Outcome × List RdmaContext :=
  if parallel then inParallel step contexts else sequentially step 0 contexts

/-! ## The transport -/

/-- The parts of the global configuration that are read, and the number of processors. -/
structure RdmaConfig where
  maxMrSize : Nat
  parallelRegMr : Int
  hardwareConcurrency : Nat

structure BufferDesc where
  name : String
  addr : Nat
  length : Nat
  lkey : List UInt32
  rkey : List UInt32

/-- The contexts, and the buffers that the metadata lists for the local segment. -/
structure RdmaTransport where
  config : RdmaConfig
  contexts : List RdmaContext
  buffers : List BufferDesc

/-- What a registration is answered: for each thread of the pre-touch the MR and its
deregistration, for each context the MR, then the location and the metadata. -/
structure RegisterAnswers where
  touch : Nat → Option MrKeys
  untouch : Nat → Int
  reg : Nat → Option MrKeys
  location : String
  addLocalMemoryBuffer : Int

structure UnregisterAnswers where
  removeLocalMemoryBuffer : Int
  dereg : Nat → Int

namespace RdmaTransport

variable (transport : RdmaTransport)

/-! ### Pre-touch -/

def numThreads : Nat :=
  if 64 < transport.config.hardwareConcurrency then 16
  else min transport.config.hardwareConcurrency 8

def blockSize (length : Nat) : Nat :=
  min length transport.config.maxMrSize / transport.numThreads

def touchBlock (answers : RegisterAnswers) (thread : Nat) : Outcome :=
  match answers.touch thread with
  | none => .error .context
  | some _ =>
    if answers.untouch thread ≠ 0 then .error (.dereg (answers.untouch thread)) else .ok ()

/-- The MR of a thread that was made and could not be deregistered. -/
def leftBlock (addr length : Nat) (answers : RegisterAnswers) (thread : Nat) :
    Option MemoryRegion :=
  match answers.touch thread with
  | none => none
  | some keys =>
    if answers.untouch thread ≠ 0 then
      some ⟨addr + thread * transport.blockSize length,
        min (transport.blockSize length) transport.config.maxMrSize, keys⟩
    else none

/-- `preTouchMemory`, in the first context. -/
def preTouchMemory (addr length : Nat) (answers : RegisterAnswers) : Outcome × RdmaTransport :=
  match transport.contexts with
  | [] => (.ok (), transport)
  | first :: rest =>
    if transport.blockSize length = 0 then (.ok (), transport)
    else
      let threads := List.range transport.numThreads
      (firstError (threads.map (touchBlock answers)),
        { transport with
          contexts :=
            { first with
              live := threads.filterMap (transport.leftBlock addr length answers) ++
                first.live } :: rest })

def doPreTouch (length : Nat) : Bool :=
  decide (0 < transport.contexts.length) &&
    decide (4 ≤ transport.config.hardwareConcurrency) &&
    decide (4 * 1024 * 1024 * 1024 ≤ length)

/-! ### The calls -/

def useParallelReg (length : Nat) : Bool :=
  if transport.config.parallelRegMr = -1 then
    decide (1 < transport.contexts.length) && transport.doPreTouch length
  else decide (transport.config.parallelRegMr ≠ 0)

def useParallelUnreg : Bool :=
  if transport.config.parallelRegMr = -1 then decide (1 < transport.contexts.length)
  else decide (transport.config.parallelRegMr ≠ 0)

def registerStep (addr length : Nat) (answers : RegisterAnswers) : ContextStep :=
  fun index context =>
    context.registerMemoryRegion transport.config.maxMrSize addr length (answers.reg index)

/-- The description of a buffer that every context has registered. -/
def bufferDesc (addr length : Nat) (name : String) (answers : RegisterAnswers) : BufferDesc where
  name := if name = kWildcardLocation then answers.location else name
  addr := addr
  length := length
  lkey := transport.contexts.map fun context => context.lkey addr
  rkey := transport.contexts.map fun context => context.rkey addr

/-- `registerLocalMemoryInternal` after the pre-touch. -/
def registerTouched (addr length : Nat) (name : String) (answers : RegisterAnswers) :
    Outcome × RdmaTransport :=
  let (outcome, contexts) := onContexts (transport.useParallelReg length)
    (transport.registerStep addr length answers) transport.contexts
  let registered := { transport with contexts := contexts }
  match outcome with
  | .error error => (.error error, registered)
  | .ok () =>
    if answers.addLocalMemoryBuffer ≠ 0 then
      (.error (.metadata answers.addLocalMemoryBuffer), registered)
    else
      (.ok (),
        { registered with
          buffers := transport.buffers ++ [registered.bufferDesc addr length name answers] })

def registerLocalMemory (addr length : Nat) (name : String) (answers : RegisterAnswers) :
    Outcome × RdmaTransport :=
  if transport.doPreTouch length then
    match transport.preTouchMemory addr length answers with
    | (.error error, touched) => (.error error, touched)
    | (.ok (), touched) => touched.registerTouched addr length name answers
  else transport.registerTouched addr length name answers

def unregisterStep (addr : Nat) (answers : UnregisterAnswers) : ContextStep :=
  fun index context => context.unregisterMemoryRegion addr (answers.dereg index)

/-- The metadata removes the buffer that starts at the address. -/
def unregisterLocalMemory (addr : Nat) (answers : UnregisterAnswers) :
    Outcome × RdmaTransport :=
  if answers.removeLocalMemoryBuffer ≠ 0 then
    (.error (.metadata answers.removeLocalMemoryBuffer), transport)
  else if !transport.buffers.any fun buffer => buffer.addr = addr then
    (.error .addressNotRegistered, transport)
  else
    let (outcome, contexts) := onContexts transport.useParallelUnreg
      (unregisterStep addr answers) transport.contexts
    (outcome,
      { transport with
        contexts := contexts
        buffers := transport.buffers.eraseP fun buffer => buffer.addr = addr })

end RdmaTransport

inductive RdmaCall where
  | register (addr length : Nat) (name : String) (answers : RegisterAnswers)
  | unregister (addr : Nat) (answers : UnregisterAnswers)

def RdmaCall.run (transport : RdmaTransport) : RdmaCall → Outcome × RdmaTransport
  | .register addr length name answers => transport.registerLocalMemory addr length name answers
  | .unregister addr answers => transport.unregisterLocalMemory addr answers

def RdmaTransport.after (transport : RdmaTransport) (call : RdmaCall) : RdmaTransport :=
  (call.run transport).2

end Mooncake.Rdma
