import Mooncake.Rdma.Submission

/-!
# The selection of a device

A range of local memory is served by the first buffer that contains it and for whose location,
or else for any location, the topology names a device.
-/

namespace Mooncake.Rdma

/-- The two selections of a topology, which answer with a negative number for none. -/
structure Topology where
  selectDevice : (location : String) → (retryCount : Int) → Int
  selectDeviceHinted : (location hint : String) → (retryCount : Int) → Int

def Topology.select (topology : Topology) (location hint : String) (retryCount : Int) : Int :=
  if hint.isEmpty then topology.selectDevice location retryCount
  else topology.selectDeviceHinted location hint retryCount

/-- The range check, which does not overflow. -/
def BufferDesc.accepts (buffer : BufferDesc) (offset length : Nat) : Bool :=
  !(decide (offset < buffer.addr) || decide (buffer.length < length) ||
    decide (buffer.length - length < offset - buffer.addr))

def BufferDesc.locationAt (buffer : BufferDesc) (offset : Nat) : String :=
  let (parsed, info) := parseSegmentsLocation buffer.name ⟨0, []⟩
  if parsed then resolveSegmentsLocation info buffer.length offset else buffer.name

section Select

-- the topology may answer differently each time it is asked, so there is one for each buffer
variable (topology : Nat → Topology) (offset length : Nat) (hint : String) (retryCount : Int)

/-- The device for a buffer that contains the range. -/
def BufferDesc.device (buffer : BufferDesc) (bufferId : Nat) : Option Nat :=
  let near := (topology bufferId).select (buffer.locationAt (offset - buffer.addr)) hint retryCount
  if 0 ≤ near then some near.toNat
  else
    let any := (topology bufferId).select kWildcardLocation hint retryCount
    if 0 ≤ any then some any.toNat else none

def selectFrom : Nat → List BufferDesc → Option Selected
  | _, [] => none
  | bufferId, buffer :: rest =>
    if !buffer.accepts offset length then selectFrom (bufferId + 1) rest
    else
      match buffer.device topology offset hint retryCount bufferId with
      | some deviceId => some ⟨bufferId, deviceId⟩
      | none => selectFrom (bufferId + 1) rest

def selectDevice (buffers : List BufferDesc) : Option Selected :=
  selectFrom topology offset length hint retryCount 0 buffers

end Select

theorem BufferDesc.accepts_iff {buffer : BufferDesc} {offset length : Nat} :
    buffer.accepts offset length = true ↔
      buffer.addr ≤ offset ∧ offset + length ≤ buffer.addr + buffer.length := by
  simp only [accepts, Bool.not_eq_true', Bool.or_eq_false_iff, decide_eq_false_iff_not, not_lt]
  omega

section Selected

variable {topology : Nat → Topology} {offset length : Nat} {hint : String} {retryCount : Int}

theorem selectFrom_spec {buffers : List BufferDesc} {start : Nat} {selected : Selected}
    (found : selectFrom topology offset length hint retryCount start buffers = some selected) :
    start ≤ selected.bufferId ∧ ∃ buffer, buffers[selected.bufferId - start]? = some buffer ∧
      buffer.accepts offset length = true ∧
      buffer.device topology offset hint retryCount selected.bufferId = some selected.deviceId := by
  induction buffers generalizing start with
  | nil => cases found
  | cons first rest ih =>
    have later (found : selectFrom topology offset length hint retryCount (start + 1) rest =
        some selected) : start ≤ selected.bufferId ∧
        ∃ buffer, (first :: rest)[selected.bufferId - start]? = some buffer ∧
          buffer.accepts offset length = true ∧
          buffer.device topology offset hint retryCount selected.bufferId =
            some selected.deviceId := by
      obtain ⟨after, buffer, there, chosen⟩ := ih found
      refine ⟨by omega, buffer, ?_, chosen⟩
      rwa [show selected.bufferId - start = selected.bufferId - (start + 1) + 1 by omega,
        List.getElem?_cons_succ]
    unfold selectFrom at found
    split at found
    · exact later found
    · rename_i accepted
      split at found
      · rename_i deviceId chosen
        obtain rfl := Option.some.inj found
        exact ⟨le_rfl, first, by simp, by simpa using accepted, chosen⟩
      · exact later found

theorem selectDevice_spec {buffers : List BufferDesc} {selected : Selected}
    (found : selectDevice topology offset length hint retryCount buffers = some selected) :
    ∃ buffer, buffers[selected.bufferId]? = some buffer ∧
      buffer.accepts offset length = true ∧
      buffer.device topology offset hint retryCount selected.bufferId = some selected.deviceId := by
  obtain ⟨-, spec⟩ := selectFrom_spec found
  exact spec

end Selected

end Mooncake.Rdma
