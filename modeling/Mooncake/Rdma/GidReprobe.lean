import Mooncake.Rdma.DescRefresh

/-!
# Reprobing the GID of a context

`reprobeAutoGid` looks for another GID, publishes it in the descriptor of the local segment,
and only then takes it over.  A lock keeps the calls apart.  The selection among the
candidates is any function; the metadata publishes the local descriptor exactly when it
returns 0.
-/

namespace Mooncake.Rdma

open List

/-- `ibv_gid`: 16 bytes. -/
abbrev Gid := Fin 16 → UInt8

def hexByte (byte : UInt8) : List Char :=
  [Nat.digitChar (byte.toNat / 16), Nat.digitChar (byte.toNat % 16)]

def gidBytesToString (raw : Gid) : String :=
  String.ofList ((List.finRange 16).flatMap fun place =>
    (if place = 0 then [] else [':']) ++ hexByte (raw place))

theorem gidBytesToString_ne_empty (raw : Gid) : gidBytesToString raw ≠ "" := by
  intro empty
  have chars := congrArg String.toList empty
  rw [gidBytesToString, String.toList_ofList, String.toList_empty, flatMap_eq_nil_iff] at chars
  exact absurd (chars 1 (mem_finRange _)) (by simp)

def isNullGid (gid : Gid) : Bool :=
  (List.finRange 16).all fun place => gid place = 0

/-- What is read of an entry of the GID table; the flags of a candidate follow from it. -/
structure GidEntry where
  raw : Gid
  gidType : Nat
  ndev : String

structure AutoGidCandidate where
  gidIndex : Nat
  entry : Option GidEntry

structure GidSelection where
  gidIndex : Int
  gid : String
  deriving DecidableEq

/-- The context, and the descriptor of the local segment as it is stored and published. -/
structure GidContext where
  deviceName : String
  autoGidSelectionEnabled : Bool
  opened : Bool
  lid : UInt16
  gid : Gid
  gidIndex : Int
  stored : Option SegmentDesc
  published : Option SegmentDesc

structure ReprobeCall where
  expected : GidSelection
  tried : List GidSelection
  queryPort : Option Nat
  queryGidEx : Nat → Option GidEntry
  reselect : List AutoGidCandidate → GidSelection → List GidSelection → Option Nat
  queryGid : Nat → Option Gid
  updateLocalSegmentDesc : Int

namespace GidContext

variable (context : GidContext) (call : ReprobeCall)

def selection : GidSelection :=
  ⟨context.gidIndex, gidBytesToString context.gid⟩

/-- `refreshLocalDeviceDesc`, with the code it returns.  The descriptor that was stored is
put back when it is not published. -/
def refreshLocalDeviceDesc (lid : UInt16) (gid : String) : Outcome × GidContext :=
  match context.stored with
  | none => (.error .addressNotRegistered, context)
  | some original =>
    match original.withDevice context.deviceName lid gid with
    | none => (.error .deviceNotFound, context)
    | some updated =>
      if call.updateLocalSegmentDesc ≠ 0 then
        (.error (.metadata call.updateLocalSegmentDesc), { context with stored := some original })
      else (.ok (), { context with stored := some updated, published := some updated })

def nextGid : Option (Nat × Gid) :=
  match call.queryPort with
  | none => none
  | some tableLength =>
    let candidates := (List.range tableLength).map fun index =>
      (⟨index, call.queryGidEx index⟩ : AutoGidCandidate)
    match call.reselect candidates context.selection call.tried with
    | none => none
    | some index =>
      match call.queryGid index with
      | none => none
      | some gid => if isNullGid gid then none else some (index, gid)

def reprobeAutoGid : Bool × GidContext :=
  if !context.autoGidSelectionEnabled || !context.opened then (false, context)
  else if context.selection ≠ call.expected then (false, context)
  else
    match context.nextGid call with
    | none => (false, context)
    | some (index, gid) =>
      match context.refreshLocalDeviceDesc call context.lid (gidBytesToString gid) with
      | (.error _, refreshed) => (false, refreshed)
      | (.ok (), refreshed) =>
        (gidBytesToString gid ≠ "", { refreshed with gid := gid, gidIndex := index })

def afterCalls (calls : List ReprobeCall) : GidContext :=
  calls.foldl (fun context call => (context.reprobeAutoGid call).2) context

def publishedGid : Option String :=
  context.published.bind fun desc =>
    (desc.devices.find? fun device => device.name = context.deviceName).map DeviceDesc.gid

end GidContext

theorem find?_changeDevice {name gid : String} {lid : UInt16} {devices changed : List DeviceDesc}
    (found : changeDevice name lid gid devices = some changed) :
    (changed.find? fun device => device.name = name).map DeviceDesc.gid = some gid := by
  induction devices generalizing changed with
  | nil => cases found
  | cons device rest ih =>
    unfold changeDevice at found
    split at found
    · rename_i other
      obtain ⟨later, inner, rfl⟩ := Option.map_eq_some_iff.mp found
      rw [find?_cons_of_neg (by simpa using other)]
      exact ih inner
    · rename_i same
      cases found
      rw [find?_cons_of_pos (by simpa using same)]
      rfl

namespace GidContext

variable {context : GidContext} {call : ReprobeCall}

theorem refreshLocalDeviceDesc_cases (lid : UInt16) (gid : String) :
    (∃ error, context.refreshLocalDeviceDesc call lid gid = (.error error, context)) ∨
      ∃ updated, context.refreshLocalDeviceDesc call lid gid =
          (.ok (), { context with stored := some updated, published := some updated }) ∧
        ({ context with published := some updated } : GidContext).publishedGid = some gid := by
  unfold refreshLocalDeviceDesc
  split
  · exact .inl ⟨_, rfl⟩
  · rename_i original stored
    split
    · exact .inl ⟨_, rfl⟩
    · rename_i updated changed
      split
      · exact .inl ⟨_, by rw [← stored]⟩
      · refine .inr ⟨updated, rfl, ?_⟩
        obtain ⟨devices, inner, rfl⟩ := Option.map_eq_some_iff.mp changed
        exact find?_changeDevice inner

theorem reprobe_cases (context : GidContext) (call : ReprobeCall) :
    context.reprobeAutoGid call = (false, context) ∨
      context.selection = call.expected ∧ ∃ index gid updated,
        context.nextGid call = some (index, gid) ∧
        context.reprobeAutoGid call = (true,
          { context with stored := some updated, published := some updated, gid := gid,
                         gidIndex := index }) ∧
        ({ context with published := some updated } : GidContext).publishedGid =
          some (gidBytesToString gid) := by
  unfold reprobeAutoGid
  split
  · exact .inl rfl
  · split
    · exact .inl rfl
    · rename_i expected
      split
      · exact .inl rfl
      · rename_i index gid next
        rcases refreshLocalDeviceDesc_cases context.lid (gidBytesToString gid) with
          ⟨error, failed⟩ | ⟨updated, published, shown⟩
        · rw [failed]
          exact .inl rfl
        · rw [published]
          refine .inr ⟨not_not.mp expected, index, gid, updated, next, ?_, shown⟩
          simp [gidBytesToString_ne_empty]

/-- After any calls, a call that returns true has taken over and published one GID which it
selected, from the selection that was expected; a call that returns false changes neither
the GID nor what is published. -/
theorem reprobe_all_or_nothing (start : GidContext) (calls : List ReprobeCall)
    (call : ReprobeCall) :
    let before := start.afterCalls calls
    let after := (before.reprobeAutoGid call).2
    ((before.reprobeAutoGid call).1 = true →
      before.selection = call.expected ∧
        ∃ index gid, before.nextGid call = some (index, gid) ∧ after.gid = gid ∧
          after.gidIndex = index ∧ after.publishedGid = some (gidBytesToString gid)) ∧
    ((before.reprobeAutoGid call).1 = false →
      after.gid = before.gid ∧ after.gidIndex = before.gidIndex ∧
        after.published = before.published) := by
  intro before after
  rcases reprobe_cases before call with
    kept | ⟨expected, index, gid, updated, next, taken, shown⟩
  · simp [after, kept]
  · refine ⟨fun _ => ⟨expected, index, gid, next, ?_⟩, fun failed => ?_⟩
    · rw [show after = _ from congrArg Prod.snd taken]
      exact ⟨rfl, rfl, shown⟩
    · simp [taken] at failed

end GidContext

end Mooncake.Rdma
