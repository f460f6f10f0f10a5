import Mooncake.Rdma.Registration

/-!
# Refreshing a device of the local segment

Registering and unregistering memory replace the local segment descriptor in one step.  A
refresh reads the descriptor, changes a device in a copy, stores the copy and publishes it; when
that fails it stores what it has read.  A lock keeps the refreshes apart from one another, and
the other calls do not take it.  The steps of any number of calls may be interleaved.
-/

namespace Mooncake.Rdma

open Library Library.Runs

deriving instance DecidableEq for BufferDesc

structure DeviceDesc where
  name : String
  lid : UInt16
  gid : String
  deriving DecidableEq

structure SegmentDesc where
  devices : List DeviceDesc
  buffers : List BufferDesc
  deriving DecidableEq

def changeDevice (deviceName : String) (lid : UInt16) (gid : String) :
    List DeviceDesc → Option (List DeviceDesc)
  | [] => none
  | device :: rest =>
    if device.name ≠ deviceName then
      (changeDevice deviceName lid gid rest).map fun changed => device :: changed
    else some ({ device with lid := lid, gid := gid } :: rest)

def SegmentDesc.withDevice (desc : SegmentDesc) (deviceName : String) (lid : UInt16)
    (gid : String) : Option SegmentDesc :=
  (changeDevice deviceName lid gid desc.devices).map fun devices =>
    { desc with devices := devices }

/-! ## Interleaved calls -/

/-- What a refresh does next: store its copy, publish it, or store what it has read. -/
inductive RefreshStage where
  | store
  | publish
  | rollback
  deriving DecidableEq

structure Refresh where
  original : SegmentDesc
  updated : SegmentDesc
  stage : RefreshStage
  deriving DecidableEq

/-- The local segment descriptor, the buffers that were registered and not unregistered, and
the calls that have not returned: registrations with their MRs, deregistrations that still
have theirs, and the refresh that holds the lock. -/
structure DescState where
  desc : SegmentDesc
  registered : List BufferDesc
  registering : List BufferDesc
  unregistering : List Nat
  refresh : Option Refresh
  deriving DecidableEq

/-- One step of a call, with the answer it gets. -/
inductive DescAction where
  | registerMrs (buffer : BufferDesc) (succeeds : Bool)
  | addLocalMemoryBuffer (buffer : BufferDesc) (code : Int)
  | removeLocalMemoryBuffer (addr : Nat) (code : Int)
  | unregisterMrs (addr : Nat)
  | readDesc (deviceName : String) (lid : UInt16) (gid : String)
  | storeUpdated
  | updateLocalSegmentDesc (code : Int)
  | storeOriginal

namespace DescState

/-- Nothing is in progress, and the descriptor lists what is registered. -/
def start (desc : SegmentDesc) : DescState where
  desc := desc
  registered := desc.buffers
  registering := []
  unregistering := []
  refresh := none

def AllReturned (state : DescState) : Prop :=
  state.registering = [] ∧ state.unregistering = [] ∧ state.refresh = none

/-- The metadata step of a registration, after which the call returns. -/
def add (state : DescState) (buffer : BufferDesc) (code : Int) : DescState :=
  let returned := { state with registering := state.registering.erase buffer }
  if code ≠ 0 then returned
  else
    { returned with
      desc := { state.desc with buffers := state.desc.buffers ++ [buffer] }
      registered := state.registered ++ [buffer] }

/-- The metadata step of a deregistration, with which a call begins; it returns at once when
the metadata fails or no buffer has the address. -/
def remove (state : DescState) (addr : Nat) (code : Int) : DescState :=
  if code ≠ 0 then state
  else if !state.desc.buffers.any fun buffer => buffer.addr = addr then state
  else
    { state with
      desc :=
        { state.desc with buffers := state.desc.buffers.eraseP fun buffer => buffer.addr = addr }
      registered := state.registered.eraseP fun buffer => buffer.addr = addr
      unregistering := addr :: state.unregistering }

/-- The lock is taken and the descriptor read; without the device the call returns. -/
def read (state : DescState) (deviceName : String) (lid : UInt16) (gid : String) : DescState :=
  match state.desc.withDevice deviceName lid gid with
  | none => state
  | some updated => { state with refresh := some ⟨state.desc, updated, .store⟩ }

/-- A step of the refresh that holds the lock; it is refused at another stage. -/
def refreshStep (state : DescState) (stage : RefreshStage) (next : Refresh → DescState) :
    Option DescState :=
  match state.refresh with
  | none => none
  | some refresh => if refresh.stage = stage then some (next refresh) else none

def step (state : DescState) : DescAction → Option DescState
  | .registerMrs buffer succeeds =>
    some (if succeeds then { state with registering := buffer :: state.registering } else state)
  | .addLocalMemoryBuffer buffer code =>
    if buffer ∈ state.registering then some (state.add buffer code) else none
  | .removeLocalMemoryBuffer addr code => some (state.remove addr code)
  | .unregisterMrs addr =>
    if addr ∈ state.unregistering then
      some { state with unregistering := state.unregistering.erase addr }
    else none
  | .readDesc deviceName lid gid =>
    if state.refresh = none then some (state.read deviceName lid gid) else none
  | .storeUpdated =>
    state.refreshStep .store fun refresh =>
      { state with
        desc := refresh.updated
        refresh := some { refresh with stage := .publish } }
  | .updateLocalSegmentDesc code =>
    state.refreshStep .publish fun refresh =>
      { state with
        refresh := if code = 0 then none else some { refresh with stage := .rollback } }
  | .storeOriginal =>
    state.refreshStep .rollback fun refresh =>
      { state with
        desc := refresh.original
        refresh := none }

/-! ## Lost updates -/

/-- The descriptor lists exactly the buffers that are registered. -/
def Exact (state : DescState) : Prop :=
  state.desc.buffers = state.registered

/-- A refresh stores only over the buffers that it has read. -/
def KeepsBuffers (state : DescState) : DescAction → Prop
  | .storeUpdated => ∀ refresh, state.refresh = some refresh → refresh.stage = .store →
      refresh.original.buffers = state.desc.buffers
  | .storeOriginal => ∀ refresh, state.refresh = some refresh → refresh.stage = .rollback →
      refresh.original.buffers = state.desc.buffers
  | _ => True

/-- The copy of a refresh lists the buffers of the original. -/
def CopiesBuffers (state : DescState) : Prop :=
  ∀ refresh, state.refresh = some refresh → refresh.updated.buffers = refresh.original.buffers

section Steps

variable {state result : DescState}

variable {stage : RefreshStage} {action : DescAction}

variable {next : Refresh → DescState} {refresh : Refresh}

theorem refreshStep_eq_some (stepped : state.refreshStep stage next = some result) :
    ∃ refresh, state.refresh = some refresh ∧ refresh.stage = stage ∧ next refresh = result := by
  unfold refreshStep at stepped
  split at stepped
  · cases stepped
  · rename_i refresh found
    split at stepped
    · rename_i same
      exact ⟨refresh, found, same, Option.some.inj stepped⟩
    · cases stepped

theorem refreshStep_eq_none (refused : state.refreshStep stage next = none)
    (found : state.refresh = some refresh) : refresh.stage ≠ stage := by
  intro same
  simp [refreshStep, found, same] at refused

theorem forall_refresh_iff {holds : Refresh → Prop} (found : state.refresh = some refresh)
    (same : refresh.stage = stage) :
    (∀ other, state.refresh = some other → other.stage = stage → holds other) ↔
      holds refresh := by
  constructor
  · intro every
    exact every refresh found same
  · intro own other there _
    obtain rfl := Option.some.inj (found.symm.trans there)
    exact own

theorem buffers_withDevice {desc updated : SegmentDesc} {deviceName : String} {lid : UInt16}
    {gid : String} (changed : desc.withDevice deviceName lid gid = some updated) :
    updated.buffers = desc.buffers := by
  obtain ⟨devices, -, rfl⟩ := Option.map_eq_some_iff.mp changed
  rfl

theorem refresh_add (state : DescState) (buffer : BufferDesc) (code : Int) :
    (state.add buffer code).refresh = state.refresh := by
  unfold add
  split <;> rfl

theorem refresh_remove (state : DescState) (addr : Nat) (code : Int) :
    (state.remove addr code).refresh = state.refresh := by
  unfold remove
  split
  · rfl
  · split <;> rfl

theorem CopiesBuffers.step (copies : state.CopiesBuffers)
    (stepped : state.step action = some result) : result.CopiesBuffers := by
  cases action with
  | registerMrs buffer succeeds =>
    obtain rfl := Option.some.inj stepped
    split <;> exact copies
  | addLocalMemoryBuffer buffer code =>
    obtain ⟨-, rfl⟩ := of_guard stepped
    rw [CopiesBuffers, refresh_add]
    exact copies
  | removeLocalMemoryBuffer addr code =>
    obtain rfl := Option.some.inj stepped
    rw [CopiesBuffers, refresh_remove]
    exact copies
  | unregisterMrs addr =>
    obtain ⟨-, rfl⟩ := of_guard stepped
    exact copies
  | readDesc deviceName lid gid =>
    obtain ⟨-, rfl⟩ := of_guard stepped
    unfold read
    split
    · exact copies
    · rename_i updated changed
      rintro refresh same
      obtain rfl := Option.some.inj same
      exact buffers_withDevice changed
  | storeUpdated =>
    obtain ⟨refresh, found, -, rfl⟩ := refreshStep_eq_some stepped
    rintro other same
    obtain rfl := Option.some.inj same
    exact copies refresh found
  | updateLocalSegmentDesc code =>
    obtain ⟨refresh, found, -, rfl⟩ := refreshStep_eq_some stepped
    rintro other same
    split at same
    · cases same
    · obtain rfl := Option.some.inj same
      exact copies refresh found
  | storeOriginal =>
    obtain ⟨refresh, found, -, rfl⟩ := refreshStep_eq_some stepped
    nofun

theorem Exact.add (exact_ : state.Exact) (buffer : BufferDesc) (code : Int) :
    (state.add buffer code).Exact := by
  unfold DescState.add
  split
  · exact exact_
  · exact congrArg (· ++ [buffer]) exact_

theorem Exact.remove (exact_ : state.Exact) (addr : Nat) (code : Int) :
    (state.remove addr code).Exact := by
  unfold DescState.remove
  split
  · exact exact_
  · split
    · exact exact_
    · exact congrArg (List.eraseP fun buffer => buffer.addr = addr) exact_

/-- A step loses no update exactly when it keeps the buffers. -/
theorem Exact.step_iff (exact_ : state.Exact) (copies : state.CopiesBuffers)
    (stepped : state.step action = some result) :
    result.Exact ↔ state.KeepsBuffers action := by
  cases action with
  | registerMrs buffer succeeds =>
    obtain rfl := Option.some.inj stepped
    refine iff_of_true ?_ trivial
    split <;> exact exact_
  | addLocalMemoryBuffer buffer code =>
    obtain ⟨-, rfl⟩ := of_guard stepped
    exact iff_of_true (exact_.add buffer code) trivial
  | removeLocalMemoryBuffer addr code =>
    obtain rfl := Option.some.inj stepped
    exact iff_of_true (exact_.remove addr code) trivial
  | unregisterMrs addr =>
    obtain ⟨-, rfl⟩ := of_guard stepped
    exact iff_of_true exact_ trivial
  | readDesc deviceName lid gid =>
    obtain ⟨-, rfl⟩ := of_guard stepped
    refine iff_of_true ?_ trivial
    unfold read
    split <;> exact exact_
  | storeUpdated =>
    obtain ⟨refresh, found, same, rfl⟩ := refreshStep_eq_some stepped
    rw [KeepsBuffers, forall_refresh_iff found same, exact_, ← copies refresh found]
    rfl
  | updateLocalSegmentDesc code =>
    obtain ⟨refresh, -, -, rfl⟩ := refreshStep_eq_some stepped
    exact iff_of_true exact_ trivial
  | storeOriginal =>
    obtain ⟨refresh, found, same, rfl⟩ := refreshStep_eq_some stepped
    rw [KeepsBuffers, forall_refresh_iff found same, exact_]
    rfl

theorem keepsBuffers_of_refused (refused : state.step action = none) :
    state.KeepsBuffers action := by
  cases action with
  | storeUpdated =>
    intro refresh found same
    exact absurd same (refreshStep_eq_none refused found)
  | storeOriginal =>
    intro refresh found same
    exact absurd same (refreshStep_eq_none refused found)
  | _ => exact trivial

theorem Exact.always_iff (exact_ : state.Exact) (copies : state.CopiesBuffers)
    (actions : List DescAction) :
    (∀ front, front <+: actions → ∀ result, run step state front = some result →
      result.Exact) ↔ Meets step KeepsBuffers state actions :=
  always_iff_meets CopiesBuffers Exact (fun stepped copies => copies.step stepped)
    (fun stepped copies exact_ => exact_.step_iff copies stepped) keepsBuffers_of_refused
    copies exact_

/-- From one state in which all calls have returned to another the list stays exact if the
stores in between keep the buffers. -/
theorem AllReturned.exact_after (returned : state.AllReturned) (exact_ : state.Exact)
    {actions : List DescAction} (keeps : Meets step KeepsBuffers state actions)
    (reached : run step state actions = some result) : result.AllReturned → result.Exact := by
  have copies : state.CopiesBuffers := by
    intro refresh held
    rw [returned.2.2] at held
    cases held
  exact fun _ => (exact_.always_iff copies actions).mpr keeps actions List.prefix_rfl result reached

end Steps

/-- However the calls are interleaved and whatever the metadata answers, the descriptor lists
exactly the registered buffers in every state of a run if and only if every store of a refresh
finds the buffers that the refresh has read. -/
theorem refresh_exact_iff (desc : SegmentDesc) (actions : List DescAction) :
    (∀ front, front <+: actions → ∀ state, run step (start desc) front = some state →
      state.Exact) ↔ Meets step KeepsBuffers (start desc) actions := by
  have exact_ : (start desc).Exact := rfl
  exact exact_.always_iff nofun actions

def sampleDesc : SegmentDesc where
  devices := [⟨"mlx5_0", 0, "fe80::1"⟩]
  buffers := []

/-- A buffer is registered after a refresh has read the descriptor: the refresh stores its copy
over it.  When all calls have returned with success, the buffer is not listed. -/
theorem registration_lost :
    let buffer : BufferDesc := ⟨"cpu:0", 4096, 64, [7], [7]⟩
    ∃ final, run step (start sampleDesc)
        [.registerMrs buffer true, .readDesc "mlx5_0" 0 "fe80::2", .addLocalMemoryBuffer buffer 0,
          .storeUpdated, .updateLocalSegmentDesc 0] = some final ∧
      final.AllReturned ∧ final.registered = [buffer] ∧ final.desc.buffers = [] ∧
      ¬ final.Exact :=
  ⟨_, rfl, ⟨rfl, rfl, rfl⟩, rfl, rfl, nofun⟩

end DescState

end Mooncake.Rdma
