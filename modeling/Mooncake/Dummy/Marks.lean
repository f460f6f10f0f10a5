import Mooncake.Dummy.Heartbeat
import Mooncake.Shm.CarefulCalls

/-!
# Marks of the registered memories

A memory that was registered after the last loss is mapped.  The invariant says when the
segments of a dummy client carry such a mark, and each change of one part of the state keeps
it.
-/

namespace Mooncake.Dummy.Heartbeat

open List
open Segment (UUID)
open Shm

/-! ## The calls of the real client -/

section Shm

variable {state : ShmState} {clientId : UUID} {base : UInt64}

def MapsBase (state : ShmState) (clientId : UUID) (base : UInt64) : Prop :=
  ∃ shm ∈ (state.contextOf clientId).mappedShms, shm.dummyBaseAddr = base

theorem contextOf_touch (other : UUID) :
    (state.touch other).contextOf clientId = state.contextOf clientId := by
  unfold ShmState.touch
  split
  · rfl
  · rename_i unknown
    rw [contextOf_insert]
    split
    · rename_i same
      rw [same, contextOf_of_lookup_none (AList.lookup_eq_none.mpr unknown)]
    · rfl

theorem mapPlaced_maps {request : MapRequest} {placement : Placement request.shmSize}
    {maxMrSize : Nat} {outcome : Segment.RegisterOutcome}
    (fresh : ∀ region ∈ state.mapped, region.base ≠ placement.base) :
    (MapsBase state clientId base →
        MapsBase (request.mapPlaced maxMrSize outcome placement state).2 clientId base) ∧
      ((request.mapPlaced maxMrSize outcome placement state).1 = .ok () →
        MapsBase (request.mapPlaced maxMrSize outcome placement state).2 request.clientId
          request.dummyBaseAddr) := by
  cases registered : (request.registration maxMrSize placement outcome).1 with
  | error error =>
    rw [mapPlaced_of_refused fresh registered]
    refine ⟨fun maps => ?_, fun succeeded => by cases succeeded⟩
    have touched : MapsBase (state.touch request.clientId) clientId base := by
      rw [MapsBase, contextOf_touch]
      exact maps
    dsimp only
    split
    · exact touched
    · exact touched
  | ok _ =>
    by_cases second : request.isLocalBuffer = true ∧
        (state.contextOf request.clientId).clientBufferAllocator.isSome = true
    · rw [mapPlaced_of_second fresh registered second.1 second.2]
      exact ⟨id, fun succeeded => by cases succeeded⟩
    · have free : request.isLocalBuffer = true →
          (state.contextOf request.clientId).clientBufferAllocator = none := by
        intro localBuffer
        simpa using fun held => second ⟨localBuffer, held⟩
      rw [mapPlaced_of_recorded registered free]
      unfold MapsBase MapRequest.record
      rw [contextOf_insert, contextOf_insert, if_pos rfl]
      constructor
      · rintro ⟨shm, present, same⟩
        split
        · rename_i own
          rw [own] at present
          exact ⟨shm, mem_append_left _ present, same⟩
        · exact ⟨shm, present, same⟩
      · intro _
        exact ⟨_, mem_append_right _ (mem_singleton.mpr rfl), rfl⟩

theorem mapShmInternal_maps (request : MapRequest) (maxMrSize : Nat) (answers : MapAnswers) :
    (MapsBase state clientId base →
        MapsBase (request.mapShmInternal maxMrSize answers state).2 clientId base) ∧
      ((request.mapShmInternal maxMrSize answers state).1 = .ok () →
        MapsBase (request.mapShmInternal maxMrSize answers state).2 request.clientId
          request.dummyBaseAddr) := by
  unfold MapRequest.mapShmInternal
  cases known : request.alreadyMapped state with
  | true =>
    obtain ⟨shm, present, same⟩ := any_eq_true.mp known
    exact ⟨id, fun _ => ⟨shm, present, of_decide_eq_true same⟩⟩
  | false =>
    by_cases invalid : request.fd < 0
    · simp [invalid]
    · cases placed : answers.mmap.place state.mapped request.shmSize with
      | none => simp [invalid]
      | some placement =>
        simp only [Bool.false_eq_true, if_false, invalid]
        exact mapPlaced_maps (answers.mmap.fresh _ _ _ placed)

theorem handleIpcShmRegister_maps {real : RealClient} (maxMrSize : Nat)
    (request : ShmRegisterRequest) (answers : RegisterAnswers) :
    (real.handleIpcShmRegister maxMrSize request answers).2.generation = real.generation ∧
      (MapsBase real.shms clientId base →
        MapsBase (real.handleIpcShmRegister maxMrSize request answers).2.shms clientId base) ∧
      ((real.handleIpcShmRegister maxMrSize request answers).1 = some 0 →
        MapsBase (real.handleIpcShmRegister maxMrSize request answers).2.shms request.clientId
          request.dummyBaseAddr) := by
  unfold RealClient.handleIpcShmRegister
  split
  · exact ⟨rfl, id, fun answered => by cases answered⟩
  · have maps := @mapShmInternal_maps real.shms clientId base
    refine ⟨rfl, (maps _ _ _).1, fun answered => (maps _ _ _).2 ?_⟩
    by_contra failed
    simp [failed] at answered

theorem unmapShmInternal_maps {other : UUID} (different : clientId ≠ other)
    (unregister : Nat → Bool) (maps : MapsBase state clientId base) :
    MapsBase (unmapShmInternal other unregister state).2 clientId base := by
  cases found : state.shmContexts.lookup other with
  | none => simpa only [unmapShmInternal, found] using maps
  | some context =>
    rw [unmapShmInternal_known found]
    unfold MapsBase
    rw [contextOf_erase, if_neg different]
    exact maps

end Shm

/-! ## The property and the condition -/

/-- The real client whose OK is on its way. -/
def okInFlight : PingPhase → Option Nat
  | .pinged (.ok .ok) generation | .checked (.ok .ok) generation => some generation
  | _ => none

namespace Link

variable (link : Link)

def Maps (base : UInt64) : Prop := MapsBase link.real.shms link.config.clientId base

/-- No thread is inside of a step: the ping thread and the monitor sleep, and the application
is in no call. -/
structure Settled : Prop where
  pingThread : link.pingThread = .sleeping
  app : link.app = .idle
  monitor : link.real.monitor = .sleeping

/-- When the client considers itself connected after an OK of the current real client, its
registered memories are mapped there. -/
def ConnectedMapped : Prop :=
  link.Settled → link.connected = true → link.lastPing = some link.real.generation →
    ∀ shm ∈ link.shms, shm.registered = true → link.Maps shm.base

/-- The client has an OK of the real client, or is about to have it. -/
def Trusts (generation : Nat) : Prop :=
  link.lastPing = some generation ∨ okInFlight link.pingThread = some generation

/-- The steps that hide no loss.  A ping is answered with OK only if neither a restart nor an
expiry came after the start of the last round, or after the setup.  The monitor expires the
client only if the client has no OK of this real client.  A registration of the application
is noted only if there was no restart and no expiry after it was served. -/
def Careful : LinkAction → Prop
  | .servePing answers =>
    answers.clientReady = true → answers.pushed = true → answers.pingHealthy = true →
      link.losses = link.since
  | .expire _ =>
    ∀ rest, link.real.monitor = .expiring (link.config.clientId :: rest) →
      ¬ link.Trusts link.real.generation
  | .receiveApp true =>
    ∀ base setup, link.app = .answered base setup (some 0) →
      ∀ shm ∈ link.shms, shm.base = base → shm.mark = some link.losses
  | _ => True

/-! ## The invariant -/

/-- The ping thread has left the segment with this index behind in its last round. -/
def Covers : PingPhase → Nat → Prop
  | .scanning next, index | .registering next, index => index < next
  | .answered next status, index => index < next ∨ index = next ∧ status = some 0
  | .retrying, _ => False
  | _, _ => True

def InLoop : PingPhase → Prop
  | .scanning _ | .registering _ | .answered _ _ | .checking | .checked _ _ | .retrying => True
  | _ => False

def InSetup : AppPhase → Prop
  | .registering _ true | .answered _ true _ => True
  | _ => False

structure Kept : Prop where
  marked : ∀ shm ∈ link.shms, ∀ mark, shm.mark = some mark → mark ≤ link.losses
  mapped : ∀ shm ∈ link.shms, shm.mark = some link.losses → link.Maps shm.base
  bounded : link.since ≤ link.losses
  fresh : ∀ generation, link.Trusts generation → generation ≤ link.real.generation
  trusted : link.Trusts link.real.generation → link.losses = link.since
  looping : InLoop link.pingThread → link.lastPing = none
  setup : InSetup link.app → link.pingThread = .stopped
  covered : ∀ (index : Nat) (shm : ShmSegment), link.shms[index]? = some shm →
    shm.registered = true → Covers link.pingThread index →
      ∃ mark, shm.mark = some mark ∧ link.since ≤ mark

variable {link}

variable (kept : link.Kept)

include kept

theorem Kept.connectedMapped : link.ConnectedMapped := by
  intro settled _ known shm present registered
  obtain ⟨index, found⟩ := mem_iff_getElem?.mp present
  obtain ⟨mark, marked, later⟩ := kept.covered index shm found registered (by
    rw [settled.pingThread]
    trivial)
  have current : mark = link.losses := by
    have bound := kept.marked shm present mark marked
    have same := kept.trusted (.inl known)
    omega
  exact kept.mapped shm present (current ▸ marked)

/-! ### Changes of one part -/

theorem Kept.ofReal {real : RealClient} (generation : real.generation = link.real.generation)
    (maps : ∀ base, link.Maps base → MapsBase real.shms link.config.clientId base) :
    Kept { link with real := real } := by
  refine ⟨kept.marked, fun shm present marked => ?_, kept.bounded, fun other trusts => ?_,
    fun trusts => ?_, kept.looping, kept.setup, kept.covered⟩
  · exact maps shm.base (kept.mapped shm present marked)
  · rw [generation]
    exact kept.fresh other trusts
  · rw [generation] at trusts
    exact kept.trusted trusts

theorem Kept.lose {real : RealClient} (later : link.real.generation ≤ real.generation)
    (doubted : ¬ link.Trusts real.generation) :
    Kept { link with real := real, losses := link.losses + 1 } := by
  refine ⟨fun shm present mark marked => ?_, fun shm present marked => ?_,
    Nat.le_succ_of_le kept.bounded, fun other trusts => ?_, fun trusts => ?_, kept.looping,
    kept.setup, kept.covered⟩
  · exact Nat.le_succ_of_le (kept.marked shm present mark marked)
  · exact absurd (kept.marked shm present _ marked) (Nat.not_succ_le_self _)
  · exact Nat.le_trans (kept.fresh other trusts) later
  · exact (doubted trusts).elim

theorem Kept.ofApp {app : AppPhase} (stopped : InSetup app → link.pingThread = .stopped) :
    Kept { link with app := app } :=
  ⟨kept.marked, kept.mapped, kept.bounded, kept.fresh, kept.trusted, kept.looping, stopped,
    kept.covered⟩

/-- The segments with a base that is mapped get a current mark, or have it already. -/
theorem Kept.updateShms {base : UInt64} {change : ShmSegment → ShmSegment}
    (current : ∀ shm ∈ link.shms, shm.base = base →
      (change shm).base = base ∧ (change shm).mark = some link.losses ∧ link.Maps base) :
    (link.updateShms base change).Kept := by
  refine ⟨fun shm present mark marked => ?_, fun shm present marked => ?_, kept.bounded,
    kept.fresh, kept.trusted, kept.looping, kept.setup,
    fun index shm found registered covers => ?_⟩
  · obtain ⟨old, was, rfl⟩ := mem_map.mp present
    by_cases same : old.base = base
    · rw [if_pos same, (current old was same).2.1] at marked
      exact Nat.le_of_eq (Option.some.inj marked).symm
    · rw [if_neg same] at marked
      exact kept.marked old was mark marked
  · obtain ⟨old, was, rfl⟩ := mem_map.mp present
    by_cases same : old.base = base
    · rw [if_pos same, (current old was same).1]
      exact (current old was same).2.2
    · rw [if_neg same] at marked ⊢
      exact kept.mapped old was marked
  · rw [Link.updateShms, getElem?_map, Option.map_eq_some_iff] at found
    obtain ⟨old, was, rfl⟩ := found
    by_cases same : old.base = base
    · rw [if_pos same]
      exact ⟨link.losses, (current old (mem_of_getElem? was) same).2.1, kept.bounded⟩
    · rw [if_neg same] at registered ⊢
      exact kept.covered index old was registered covers

/-- The ping thread moves.  It relies on no other OK than before, or on a fresh one, and what
it leaves behind is marked. -/
theorem Kept.ofPing {phase : PingPhase} {lastPing : Option Nat}
    {connected : Bool} (idle : ¬ InSetup link.app) (looping : InLoop phase → lastPing = none)
    (trusts : ∀ generation, lastPing = some generation ∨ okInFlight phase = some generation →
      link.Trusts generation ∨
        generation = link.real.generation ∧ link.losses = link.since)
    (covered : ∀ (index : Nat) (shm : ShmSegment), link.shms[index]? = some shm →
      shm.registered = true → Covers phase index →
        Covers link.pingThread index ∨ shm.mark = some link.losses) :
    Kept { link with lastPing := lastPing, connected := connected, pingThread := phase } := by
  refine ⟨kept.marked, kept.mapped, kept.bounded, fun generation relies => ?_, fun relies => ?_,
    looping, fun setup => (idle setup).elim, fun index shm found registered covers => ?_⟩
  · rcases trusts generation relies with before | ⟨current, -⟩
    · exact kept.fresh generation before
    · exact Nat.le_of_eq current
  · rcases trusts _ relies with before | ⟨-, unharmed⟩
    · exact kept.trusted before
    · exact unharmed
  · rcases covered index shm found registered covers with before | marked
    · exact kept.covered index shm found registered before
    · exact ⟨link.losses, marked, kept.bounded⟩

theorem Kept.move {phase : PingPhase} (idle : ¬ InSetup link.app)
    (looping : InLoop phase → link.lastPing = none) (quiet : okInFlight phase = none)
    (covered : ∀ (index : Nat) (shm : ShmSegment), link.shms[index]? = some shm →
      shm.registered = true → Covers phase index →
        Covers link.pingThread index ∨ shm.mark = some link.losses) :
    Kept { link with pingThread := phase } := by
  refine kept.ofPing idle looping (fun generation relies => .inl (.inl ?_)) covered
  rw [quiet] at relies
  exact relies.resolve_right fun impossible => by cases impossible

end Link

end Mooncake.Dummy.Heartbeat
