import Mathlib.Data.Prod.Lex
import Mooncake.Library.OrderedTree

/-!
# The memory domain for GPU dma-bufs

A domain keeps the registered regions in a tree ordered by address and caches an MR
for each region, device and protection domain.  A region is added before its MR is
registered, and stays when that fails.  The ends of ranges are computed modulo `2 ^ 64`.
The calls hold the lock of the domain; what the GPU driver, the verbs library and the
allocator answer during one call is a `Driver`.
-/

namespace Mooncake.Spdk

open Library

/-- The error codes that the domain returns, negated. -/
inductive Errno where
  | einval
  | enomem
  | enotsup
  | efault
  | enodev
  | eexist
  | verbs (code : Int)
  deriving DecidableEq, Repr

/-- The places at which a call gives up. -/
inductive Refusal where
  | badArguments
  | notRdma
  | badRdmaContext
  | unknownDevice
  | regionOfOtherDevice
  | regionOverlaps
  | noMemory
  | regionConflict
  | regionNotFound
  | mrOverlaps
  | badDevice
  | deviceGet
  | contextRetain
  | contextSwitch
  | addressRange
  | belowAllocation
  | outsideAllocation
  | dmabufHandle
  | regMr (code : Int)
  | mrConflict
  deriving DecidableEq, Repr

def Refusal.errno : Refusal → Errno
  | badArguments => .einval
  | notRdma => .enotsup
  | badRdmaContext => .einval
  | unknownDevice => .efault
  | regionOfOtherDevice => .einval
  | regionOverlaps => .einval
  | noMemory => .enomem
  | regionConflict => .eexist
  | regionNotFound => .einval
  | mrOverlaps => .eexist
  | badDevice => .einval
  | deviceGet => .enodev
  | contextRetain => .enodev
  | contextSwitch => .efault
  | addressRange => .efault
  | belowAllocation => .einval
  | outsideAllocation => .einval
  | dmabufHandle => .efault
  | regMr code => if code = 0 then .efault else .verbs code
  | mrConflict => .eexist

/-! ## Ranges -/

def rangeContains (outerAddr outerLen addr len : UInt64) : Bool :=
  decide (outerAddr ≤ addr) && decide (addr ≤ addr + len) &&
    decide (addr + len ≤ outerAddr + outerLen)

def rangeOverlaps (outerAddr outerLen addr len : UInt64) : Bool :=
  decide (addr < addr + len) && decide (outerAddr < outerAddr + outerLen) &&
    decide (addr < outerAddr + outerLen) && decide (outerAddr < addr + len)

structure GpuDmabufRegion where
  addr : UInt64
  len : UInt64
  deviceId : Int
  deriving DecidableEq, Repr

structure GpuDmabufMr where
  addr : UInt64
  len : UInt64
  deviceId : Int
  pd : Nat
  lkey : UInt32
  rkey : UInt32
  deriving DecidableEq, Repr

namespace GpuDmabufRegion

/-- The order of `gpu_dmabuf_region_compare`. -/
def key (region : GpuDmabufRegion) : Nat :=
  region.addr.toNat

def contains (region : GpuDmabufRegion) (addr len : UInt64) : Bool :=
  rangeContains region.addr region.len addr len

def overlaps (region : GpuDmabufRegion) (addr len : UInt64) : Bool :=
  rangeOverlaps region.addr region.len addr len

end GpuDmabufRegion

/-- A device, a protection domain and an address, compared in this order. -/
abbrev MrKey := Lex (Int × Lex (Nat × Nat))

def mrKey (deviceId : Int) (pd : Nat) (addr : UInt64) : MrKey :=
  toLex (deviceId, toLex (pd, addr.toNat))

namespace GpuDmabufMr

/-- The order of `gpu_dmabuf_mr_compare`. -/
def key (entry : GpuDmabufMr) : MrKey :=
  mrKey entry.deviceId entry.pd entry.addr

def contains (entry : GpuDmabufMr) (addr len : UInt64) : Bool :=
  rangeContains entry.addr entry.len addr len

def overlaps (entry : GpuDmabufMr) (addr len : UInt64) : Bool :=
  rangeOverlaps entry.addr entry.len addr len

end GpuDmabufMr

/-! ## The environment of a call -/

/-- What a GPU context is known by; `none` is the null context. -/
abbrev GpuContext := Option Nat

/-- The answers to one call, each of which is asked for at most once. -/
structure Driver where
  pointerDevice : Option Int
  callocRegion : Bool
  callocMr : Bool
  callocContext : Bool
  deviceGet : Bool
  contextRetain : Option GpuContext
  contextGetCurrent : Option GpuContext
  contextSetCurrent : Bool
  addressRange : Option (UInt64 × UInt64)
  dmabufHandle : Bool
  regDmabufMr : Except Int (UInt32 × UInt32)

/-- The user context of an RDMA domain: whether it is long enough to hold the protection
domain, and the protection domain. -/
structure RdmaContext where
  holdsPd : Bool
  ibvPd : Option Nat

structure RdmaDomain where
  isRdma : Bool
  userCtx : Option RdmaContext

def getRdmaPd (rdmaDomain : RdmaDomain) : Except Refusal Nat :=
  if !rdmaDomain.isRdma then .error .notRdma
  else
    match rdmaDomain.userCtx with
    | none => .error .badRdmaContext
    | some rdmaCtx =>
      if !rdmaCtx.holdsPd then .error .badRdmaContext
      else
        match rdmaCtx.ibvPd with
        | none => .error .badRdmaContext
        | some pd => .ok pd

/-- `gpu_dmabuf_set_cuda_ctx`.  Restoring the previous context answers nothing. -/
def setCudaCtx (driver : Driver) (cudaCtx : GpuContext) : Except Refusal Unit :=
  if cudaCtx = none then .ok ()
  else
    match driver.contextGetCurrent with
    | none => .error .contextSwitch
    | some current =>
      if current = cudaCtx then .ok ()
      else if !driver.contextSetCurrent then .error .contextSwitch
      else .ok ()

/-- `gpu_dmabuf_register_mr` from the switch of the context to `ibv_reg_dmabuf_mr`: the
keys of the new MR. -/
def exportMr (driver : Driver) (cudaCtx : GpuContext) (addr len : UInt64) :
    Except Refusal (UInt32 × UInt32) :=
  match setCudaCtx driver cudaCtx with
  | .error refusal => .error refusal
  | .ok () =>
    match driver.addressRange with
    | none => .error .addressRange
    | some (allocBase, allocSize) =>
      if addr < allocBase then .error .belowAllocation
      else if allocSize < addr - allocBase ∨ allocSize - (addr - allocBase) < len then
        .error .outsideAllocation
      else if !driver.dmabufHandle then .error .dmabufHandle
      else
        match driver.regDmabufMr with
        | .error code => .error (.regMr code)
        | .ok keys => .ok keys

/-! ## The domain -/

structure GpuDmabufDomain where
  mrCache : OrderedTree GpuDmabufMr.key
  regions : OrderedTree GpuDmabufRegion.key
  cudaCtxs : List (Int × GpuContext)
  cudaDeviceId : Int
  cudaCtx : GpuContext

namespace GpuDmabufDomain

/-- What `spdk_gpu_dmabuf_memory_domain_create` leaves. -/
def created (cudaDeviceId : Int) (cudaCtx : GpuContext) : GpuDmabufDomain where
  mrCache := .empty
  regions := .empty
  cudaCtxs := []
  cudaDeviceId := cudaDeviceId
  cudaCtx := cudaCtx

variable (gd : GpuDmabufDomain)

def getPtrDeviceId (driver : Driver) : Except Refusal Int :=
  if 0 ≤ gd.cudaDeviceId then .ok gd.cudaDeviceId
  else
    match driver.pointerDevice with
    | none => .error .unknownDevice
    | some deviceId => .ok deviceId

/-- `gpu_dmabuf_get_cuda_ctx`, which keeps the contexts that it retains. -/
def getCudaCtx (driver : Driver) (deviceId : Int) :
    Except Refusal (GpuContext × GpuDmabufDomain) :=
  if gd.cudaCtx ≠ none then .ok (gd.cudaCtx, gd)
  else if deviceId < 0 then .error .badDevice
  else
    match gd.cudaCtxs.find? fun entry => entry.1 = deviceId with
    | some entry => .ok (entry.2, gd)
    | none =>
      if !driver.callocContext then .error .noMemory
      else if !driver.deviceGet then .error .deviceGet
      else
        match driver.contextRetain with
        | none => .error .contextRetain
        | some cudaCtx =>
          .ok (cudaCtx, { gd with cudaCtxs := gd.cudaCtxs ++ [(deviceId, cudaCtx)] })

/-- The MR of the device and the protection domain that passes the test, among the
neighbours of the address. -/
def searchMr (deviceId : Int) (pd : Nat) (addr : UInt64) (test : GpuDmabufMr → Bool) :
    Option GpuDmabufMr :=
  gd.mrCache.search (mrKey deviceId pd addr) fun entry =>
    decide (entry.deviceId = deviceId) && decide (entry.pd = pd) && test entry

def findMr (deviceId : Int) (pd : Nat) (addr len : UInt64) : Option GpuDmabufMr :=
  gd.searchMr deviceId pd addr fun entry => entry.contains addr len

def findOverlappingMr (deviceId : Int) (pd : Nat) (addr len : UInt64) : Option GpuDmabufMr :=
  gd.searchMr deviceId pd addr fun entry => entry.overlaps addr len

def findRegion (addr len : UInt64) : Option GpuDmabufRegion :=
  gd.regions.search addr.toNat fun region => region.contains addr len

def findOverlappingRegion (addr len : UInt64) : Option GpuDmabufRegion :=
  gd.regions.search addr.toNat fun region => region.overlaps addr len

def addRegion (driver : Driver) (addr len : UInt64) (deviceId : Int) :
    Except Refusal (GpuDmabufRegion × GpuDmabufDomain) :=
  match gd.findRegion addr len with
  | some region =>
    if region.deviceId ≠ deviceId then .error .regionOfOtherDevice else .ok (region, gd)
  | none =>
    match gd.findOverlappingRegion addr len with
    | some _ => .error .regionOverlaps
    | none =>
      if !driver.callocRegion then .error .noMemory
      else
        match gd.regions.insert ⟨addr, len, deviceId⟩ with
        | none => .error .regionConflict
        | some regions => .ok (⟨addr, len, deviceId⟩, { gd with regions := regions })

def registerMr (driver : Driver) (deviceId : Int) (pd : Nat) (addr len : UInt64) :
    Except Refusal GpuDmabufMr × GpuDmabufDomain :=
  if (gd.findOverlappingMr deviceId pd addr len).isSome then (.error .mrOverlaps, gd)
  else if !driver.callocMr then (.error .noMemory, gd)
  else
    match gd.getCudaCtx driver deviceId with
    | .error refusal => (.error refusal, gd)
    | .ok (cudaCtx, gd) =>
      match exportMr driver cudaCtx addr len with
      | .error refusal => (.error refusal, gd)
      | .ok (lkey, rkey) =>
        match gd.mrCache.insert ⟨addr, len, deviceId, pd, lkey, rkey⟩ with
        | none => (.error .mrConflict, gd)
        | some mrCache =>
          (.ok ⟨addr, len, deviceId, pd, lkey, rkey⟩, { gd with mrCache := mrCache })

/-- The cached MR of a region for the given range, or a new one for the whole region. -/
def requireMr (driver : Driver) (region : GpuDmabufRegion) (pd : Nat) (addr len : UInt64) :
    Except Refusal GpuDmabufMr × GpuDmabufDomain :=
  match gd.findMr region.deviceId pd addr len with
  | some entry => (.ok entry, gd)
  | none => gd.registerMr driver region.deviceId pd region.addr region.len

/-- `spdk_gpu_dmabuf_memory_domain_register`.  The return value 0 is told together with the
region in which the range was registered. -/
def register (rdmaDomain : RdmaDomain) (driver : Driver) (addr len : UInt64) :
    Except Refusal GpuDmabufRegion × GpuDmabufDomain :=
  if addr = 0 ∨ len = 0 then (.error .badArguments, gd)
  else
    match getRdmaPd rdmaDomain with
    | .error refusal => (.error refusal, gd)
    | .ok pd =>
      match gd.getPtrDeviceId driver with
      | .error refusal => (.error refusal, gd)
      | .ok deviceId =>
        match gd.addRegion driver addr len deviceId with
        | .error refusal => (.error refusal, gd)
        | .ok (region, gd) =>
          let (entry, gd) := gd.requireMr driver region pd region.addr region.len
          (entry.map fun _ => region, gd)

/-- The fields of the translation result that the call fills from its arguments and the MR. -/
structure Translation where
  iovBase : UInt64
  iovLen : UInt64
  lkey : UInt32
  rkey : UInt32
  deriving DecidableEq, Repr

def translate (dstDomain : RdmaDomain) (driver : Driver) (addr len : UInt64) :
    Except Refusal Translation × GpuDmabufDomain :=
  match getRdmaPd dstDomain with
  | .error refusal => (.error refusal, gd)
  | .ok pd =>
    match gd.findRegion addr len with
    | none => (.error .regionNotFound, gd)
    | some region =>
      let (entry, gd) := gd.requireMr driver region pd addr len
      (entry.map fun entry => ⟨addr, len, entry.lkey, entry.rkey⟩, gd)

def invalidateRange (addr len : UInt64) : GpuDmabufDomain :=
  if addr = 0 ∨ len = 0 then gd
  else
    { gd with
      mrCache := gd.mrCache.removeAll fun entry => entry.overlaps addr len
      regions := gd.regions.removeAll fun region => region.overlaps addr len }

end GpuDmabufDomain

/-! ## Runs -/

inductive DmabufCall where
  | register (rdmaDomain : RdmaDomain) (driver : Driver) (addr len : UInt64)
  | translate (dstDomain : RdmaDomain) (driver : Driver) (addr len : UInt64)
  | invalidate (addr len : UInt64)

namespace GpuDmabufDomain

def after (gd : GpuDmabufDomain) : DmabufCall → GpuDmabufDomain
  | .register rdmaDomain driver addr len => (gd.register rdmaDomain driver addr len).2
  | .translate dstDomain driver addr len => (gd.translate dstDomain driver addr len).2
  | .invalidate addr len => gd.invalidateRange addr len

def refusal (gd : GpuDmabufDomain) : DmabufCall → Option Refusal
  | .register rdmaDomain driver addr len =>
    match (gd.register rdmaDomain driver addr len).1 with
    | .error refusal => some refusal
    | .ok _ => none
  | .translate dstDomain driver addr len =>
    match (gd.translate dstDomain driver addr len).1 with
    | .error refusal => some refusal
    | .ok _ => none
  | .invalidate _ _ => none

def afterAll (gd : GpuDmabufDomain) (calls : List DmabufCall) : GpuDmabufDomain :=
  calls.foldl after gd

end GpuDmabufDomain

end Mooncake.Spdk
