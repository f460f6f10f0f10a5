import Mooncake.Library.Balance
import Mooncake.Read.Transfers

/-!
# Pins of the hot cache

A read pins the block that `GetHotKey` returns and unpins it with `ReleaseHotKey`.
`RedirectToHotCache` keeps the pin of a block whose size is not that of the
replica and reports a miss, so no caller releases it.  The path with one transfer
for each node also keeps the pin of an empty replica.
-/

namespace Mooncake.Read

open Library.Balance Library.Indexed Library.Keyed List

/-- `GetHotKey` acquires a pin if it returns a block, `ReleaseHotKey` releases one. -/
def pins : Account ReadEvent ObjectKey where
  acquires
    | .getHotKey key (some _) => some key
    | _ => none
  releases
    | .releaseHotKey key => some key
    | _ => none

/-- The hot cache has a block for the replica whose pin nobody releases. -/
def leaksPin (reader : Reader) (answers : ReadAnswers) (preferAllocInSameNode : Bool)
    (index : Nat) (key : ObjectKey) (replica : Replica) : Bool :=
  match replica.descriptor with
  | .memory buffer =>
    match answers.getHotKey index key with
    | none => false
    | some block => reader.hotCache &&
        (buffer.size.toNat != block.size || preferAllocInSameNode && buffer.size == 0)
  | _ => false

def leakedPin (leaks : Bool) (key : ObjectKey) : List ObjectKey :=
  if leaks then [key] else []

theorem leakedPin_eq_nil {leaks : Bool} {key : ObjectKey} :
    leakedPin leaks key = [] ↔ leaks = false := by
  cases leaks <;> simp [leakedPin]

/-! ## The helpers -/

section Helpers

variable (reader : Reader) (answers : ReadAnswers) (index : Nat) (key : ObjectKey)

variable (slices : List Slice) (replica : Replica) (cacheUsed : Bool)

theorem released_redirect :
    pins.released (redirectToHotCache reader answers index key replica).events = [] := by
  rcases redirectToHotCache_events reader answers index key replica with none | asked
  · rw [none]
    rfl
  · rw [asked]
    rfl

/-- The pin of a hit. -/
def hitPin : List ObjectKey :=
  pins.released (releaseIfUsed reader key cacheUsed)

theorem releaseIfUsed_returns :
    pins.Returns (releaseIfUsed reader key cacheUsed) (hitPin reader key cacheUsed) := by
  refine ⟨?_, .refl _⟩
  unfold releaseIfUsed
  split <;> rfl

/-- What the check pins is released after a hit, and leaked otherwise. -/
theorem acquired_redirect :
    pins.acquired (redirectToHotCache reader answers index key replica).events =
      hitPin reader key (redirectToHotCache reader answers index key replica).cacheUsed ++
      leakedPin (leaksPin reader answers false index key replica) key := by
  unfold hitPin
  unfold redirectToHotCache leaksPin
  cases replica.descriptor with
  | memory buffer =>
    cases hot : reader.hotCache with
    | false => cases answers.getHotKey index key <;> simp [releaseIfUsed, hot, leakedPin]
    | true =>
      cases answers.getHotKey index key with
      | none => simp [releaseIfUsed, leakedPin]; rfl
      | some block =>
        by_cases same : buffer.size.toNat = block.size
        · simp [releaseIfUsed, hot, leakedPin, same]
          rfl
        · simp [releaseIfUsed, leakedPin, same]
          rfl
  | _ => simp [releaseIfUsed, leakedPin]

theorem redirect_keeps : pins.Keeps (redirectToHotCache reader answers index key replica).events
    (hitPin reader key (redirectToHotCache reader answers index key replica).cacheUsed ++
      leakedPin (leaksPin reader answers false index key replica) key) :=
  Account.Keeps.nil.acquire (released_redirect ..) (acquired_redirect ..)

theorem fillIfAdmitted_returns :
    pins.Returns (fillIfAdmitted reader answers index key slices replica cacheUsed) [] := by
  refine Account.Returns.of_quiet fun event present => ?_
  have fill := fillIfAdmitted_isFill reader answers index key slices replica cacheUsed event present
  cases event with
  | processSlicesAsync => exact ⟨rfl, rfl⟩
  | submitPutTask => exact ⟨rfl, rfl⟩
  | _ => cases fill

end Helpers

/-! ## Get -/

/-- The pins that a request leaves when its replica is the given one. -/
def leakedOf (reader : Reader) (answers : ReadAnswers) (preferAllocInSameNode : Bool)
    (index : Nat) (key : ObjectKey) (replica : Expected Replica) : List ObjectKey :=
  match replica with
  | .error _ => []
  | .ok replica =>
    leakedPin (leaksPin reader answers preferAllocInSameNode index key replica) key

theorem leakedOf_eq_nil {reader : Reader} {answers : ReadAnswers}
    {preferAllocInSameNode : Bool} {index : Nat} {key : ObjectKey} {replica : Expected Replica} :
    leakedOf reader answers preferAllocInSameNode index key replica = [] ↔
      ∀ found, replica = .ok found →
        leaksPin reader answers preferAllocInSameNode index key found = false := by
  cases replica with
  | error error => simp [leakedOf]
  | ok found => simp [leakedOf, leakedPin_eq_nil]

variable {events : List ReadEvent}

section Get

variable (reader : Reader) (answers : ReadAnswers) (key : ObjectKey)

theorem getHead_pins {replica : Replica} (slices : List Slice)
    (moved : ∀ event ∈ events, ∃ outcome, event = .transferred 0 slices outcome)
    {tail : List ReadEvent} (quiet : pins.Returns tail []) :
    pins.Keeps (getHead reader answers key replica events ++ tail)
      (leakedPin (leaksPin reader answers false 0 key replica) key) := by
  have transfer : pins.Returns events [] := by
    refine Account.Returns.of_quiet fun event present => ?_
    obtain ⟨outcome, rfl⟩ := moved event present
    exact ⟨rfl, rfl⟩
  have clock : ∀ reading, pins.Returns [.clock reading] [] := fun _ => ⟨rfl, .refl _⟩
  have rest := (((clock (answers.clock 0)).append transfer).append (releaseIfUsed_returns reader key
    (redirectToHotCache reader answers 0 key replica).cacheUsed)).append
      ((clock (answers.clock 1)).append quiet)
  have kept : pins.Keeps _ (leakedPin (leaksPin reader answers false 0 key replica) key) :=
    (redirect_keeps reader answers 0 key replica).release rest (by simp)
  simpa [getHead] using kept

theorem get_pins (query : QueryResult) (slices : List Slice) :
    pins.Keeps (get reader answers key query slices).events
      (leakedOf reader answers false 0 key (findFirstCompleteReplica query.replicas)) := by
  cases complete : findFirstCompleteReplica query.replicas with
  | error error =>
    simp only [get, complete]
    exact Account.Keeps.nil
  | ok replica =>
    rcases get_cases reader answers key slices complete with
      ⟨error, events, moved, called⟩ | ⟨-, called⟩
    · rw [called, ← append_nil (getHead ..)]
      exact getHead_pins reader answers key slices moved ⟨rfl, .refl _⟩
    · rw [called, append_assoc]
      exact getHead_pins reader answers key slices (by simp)
        ((fillIfAdmitted_returns ..).append ⟨rfl, .refl _⟩)

end Get

/-! ## BatchGet -/

section Each

variable (reader : Reader) (answers : ReadAnswers) (slices : SliceMap)

def leakedAt (preferAllocInSameNode : Bool) (entry : (ObjectKey × QueryResult) × Nat) :
    List ObjectKey :=
  leakedOf reader answers preferAllocInSameNode entry.2 entry.1.1
    ((readyRead slices entry.1).map Prod.snd)

theorem leakedAt_eq_nil {requests : List (ObjectKey × QueryResult)}
    {preferAllocInSameNode : Bool} :
    requests.zipIdx.flatMap (leakedAt reader answers slices preferAllocInSameNode) = [] ↔
      ∀ (index : Nat) request target replica, requests[index]? = some request →
        readyRead slices request = .ok (target, replica) →
        leaksPin reader answers preferAllocInSameNode index request.1 replica = false := by
  rw [flatMap_eq_nil_iff]
  constructor
  · intro kept index request target replica requested ready
    have none := kept (request, index) (mem_zipIdx_iff_getElem?.mpr requested)
    exact leakedOf_eq_nil.mp none replica (by rw [ready]; rfl)
  · rintro kept ⟨request, index⟩ listed
    refine leakedOf_eq_nil.mpr fun replica ready => ?_
    cases outcome : readyRead slices request with
    | error error =>
      rw [outcome] at ready
      cases ready
    | ok found =>
      rw [outcome] at ready
      cases ready
      exact kept index request found.1 found.2 (mem_zipIdx_iff_getElem?.mp listed) outcome

theorem finishRead_returns {started : StartedRead} {pending : PendingRead}
    (outcome : started.outcome = .ok pending) :
    pins.Returns (finishRead reader answers started).events
      (hitPin reader pending.key pending.cacheUsed) := by
  have moved : pins.Returns [.transferred pending.index pending.slices pending.future.outcome] [] :=
    ⟨rfl, .refl _⟩
  have unpins := moved.append (releaseIfUsed_returns reader pending.key pending.cacheUsed)
  unfold finishRead
  rw [outcome]
  dsimp only
  split
  · exact unpins
  · simpa using unpins.append (fillIfAdmitted_returns reader answers pending.index pending.key
      pending.slices pending.replica pending.cacheUsed)

theorem startRead_pins (index : Nat) (request : ObjectKey × QueryResult) :
    ∃ waiting, pins.Keeps (startRead reader answers slices index request).events
        (waiting ++ leakedAt reader answers slices false (request, index)) ∧
      pins.Returns (finishRead reader answers
        (startRead reader answers slices index request)).events waiting := by
  rw [startRead_eq]
  unfold leakedAt
  cases readyRead slices request with
  | error error => exact ⟨[], Account.Keeps.nil, rfl, .refl _⟩
  | ok found =>
    obtain ⟨target, replica⟩ := found
    have checked := redirect_keeps reader answers index request.1 replica
    dsimp only
    cases answers.submit index
        (redirectToHotCache reader answers index request.1 replica).replica target with
    | none => exact ⟨[], checked.release (releaseIfUsed_returns ..) (.refl _), rfl, .refl _⟩
    | some future =>
      refine ⟨_, checked, ?_⟩
      exact @finishRead_returns reader answers ⟨.ok ⟨index, request.1, future, _, _, target⟩, _⟩
        _ rfl

theorem batchGetEach_pins (requests : List (ObjectKey × QueryResult)) :
    pins.Keeps (batchGetEach reader answers slices requests).events
      (requests.zipIdx.flatMap (leakedAt reader answers slices false)) := by
  choose waiting started finished using startRead_pins reader answers slices
  have clock : ∀ reading, pins.Returns [.clock reading] [] := fun _ => ⟨rfl, .refl _⟩
  have submitted := (clock (answers.clock 0)).keeps.append (Account.Keeps.flatMap
    fun (entry : (ObjectKey × QueryResult) × Nat) (_ : entry ∈ requests.zipIdx) =>
      started entry.2 entry.1)
  have waited := (Account.Returns.flatMap
    fun (entry : (ObjectKey × QueryResult) × Nat) (_ : entry ∈ requests.zipIdx) =>
      finished entry.2 entry.1).append
        ((clock (answers.clock 1)).append (clock (answers.clock 2)))
  have kept := submitted.release waited (by simpa using (flatMap_append_perm ..).symm)
  simpa [batchGetEach, mapIdx_eq_zipIdx_map, flatMap_map] using kept

end Each

/-! ## BatchGet to one replica per node -/

section SameNode

variable (reader : Reader) (answers : ReadAnswers) (slices : SliceMap)

def unpinned (entry : SegmentEntry) : List ObjectKey :=
  pins.released (releaseIfUsed reader entry.key entry.cacheUsed)

/-- The pin of a request whose row is released by its segment. -/
def unpinnedAt (entry : (ObjectKey × QueryResult) × Nat) : List ObjectKey :=
  ((startSegmentRead reader answers slices entry.2 entry.1).outcome.toOption.map Prod.snd).elim
    [] (unpinned reader)

variable (preferAllocInSameNode : Bool) (index : Nat) (key : ObjectKey)

variable {replica : Replica} {buffer : BufferDescriptor}

/-- An empty replica is refused after the hot cache was asked. -/
theorem acquired_redirect_empty (memory : replica.descriptor = .memory buffer)
    (empty : buffer.size = 0) :
    pins.acquired (redirectToHotCache reader answers index key replica).events =
      leakedPin (leaksPin reader answers true index key replica) key := by
  unfold redirectToHotCache leaksPin
  rw [memory]
  cases hot : reader.hotCache with
  | false => cases answers.getHotKey index key <;> simp [leakedPin]
  | true =>
    cases answers.getHotKey index key with
    | none => rfl
    | some block => by_cases same : 0 = block.size <;> simp [leakedPin, empty, same] <;> rfl

theorem leaksPin_of_nonempty (memory : replica.descriptor = .memory buffer)
    (nonempty : buffer.size ≠ 0) :
    leaksPin reader answers true index key replica =
      leaksPin reader answers false index key replica := by
  have zero : (buffer.size == 0) = false := beq_eq_false_iff_ne.mpr nonempty
  unfold leaksPin
  rw [memory]
  cases answers.getHotKey index key <;> simp [zero]

theorem leaksPin_of_not_memory (other : replica.isMemoryReplica = false) :
    leaksPin reader answers preferAllocInSameNode index key replica = false := by
  unfold leaksPin
  split
  · rename_i buffer memory
    rw [isMemoryReplica_iff.mpr ⟨buffer, memory⟩] at other
    cases other
  · rfl

theorem startSegmentRead_pins (request : ObjectKey × QueryResult) :
    pins.Keeps (startSegmentRead reader answers slices index request).events
      (unpinnedAt reader answers slices (request, index) ++
        leakedAt reader answers slices true (request, index)) := by
  rcases startSegmentRead_cases reader answers slices index request with
    ⟨error, failed, refused⟩ | ⟨target, replica, buffer, segment, ready, memory, entered⟩
  · have none : leakedAt reader answers slices true (request, index) = [] := by
      refine leakedOf_eq_nil.mpr fun replica ready => ?_
      cases outcome : readyRead slices request with
      | error error =>
        rw [outcome] at ready
        cases ready
      | ok found =>
        rw [outcome] at ready
        cases ready
        exact leaksPin_of_not_memory _ _ _ _ _ (refused found.1 found.2 outcome)
    rw [none, unpinnedAt, failed]
    exact Account.Keeps.nil
  · have leaked : leakedAt reader answers slices true (request, index) =
        leakedPin (leaksPin reader answers true index request.1 replica) request.1 := by
      rw [leakedAt, ready]
      rfl
    rw [leaked, unpinnedAt, entered, enteredRead]
    by_cases empty : buffer.size = 0
    · rw [if_pos empty]
      exact Account.Keeps.nil.acquire (released_redirect ..)
        (acquired_redirect_empty reader answers index _ memory empty)
    · rw [if_neg empty, leaksPin_of_nonempty reader answers index _ memory empty]
      exact redirect_keeps ..

/-- A segment releases the pins of its rows, before or after its transfer. -/
theorem readSegment_returns (entries : List SegmentEntry) :
    pins.Returns ((readSegment reader answers entries).refusal ++
      (readSegment reader answers entries).completion) (entries.flatMap (unpinned reader)) := by
  have moved : ∀ outcome, pins.Returns (entries.map fun entry =>
      ReadEvent.transferred entry.index entry.slices outcome) [] := by
    refine fun outcome => Account.Returns.of_quiet fun event present => ?_
    obtain ⟨entry, -, rfl⟩ := mem_map.mp present
    exact ⟨rfl, rfl⟩
  have unpins : pins.Returns (entries.flatMap fun entry =>
      releaseIfUsed reader entry.key entry.cacheUsed) (entries.flatMap (unpinned reader)) :=
    Account.Returns.flatMap fun entry _ => releaseIfUsed_returns ..
  unfold readSegment
  split
  · simpa using unpins
  · dsimp only
    split
    · exact (moved _).append unpins
    · refine (moved _).append (Account.Returns.flatMap fun entry _ => ?_)
      simpa [unpinned, hitPin] using (releaseIfUsed_returns reader entry.key entry.cacheUsed).append
        (fillIfAdmitted_returns reader answers entry.index entry.key entry.slices entry.replica
          entry.cacheUsed)

variable (requests : List (ObjectKey × QueryResult))

/-- Each row is in one segment, and each segment is walked once. -/
theorem segmentReads_returns :
    pins.Returns ((segmentReads reader answers
        ((locatedEntries reader answers slices requests).foldl appendTo ∅)).flatMap
          fun read => read.refusal ++ read.completion)
      (requests.zipIdx.flatMap (unpinnedAt reader answers slices)) := by
  have rows : (locatedEntries reader answers slices requests).flatMap
        (fun located => unpinned reader located.2) =
      requests.zipIdx.flatMap (unpinnedAt reader answers slices) := by
    unfold locatedEntries
    rw [mapIdx_eq_zipIdx_map, filterMap_map]
    induction requests.zipIdx with
    | nil => rfl
    | cons entry rest ih =>
      rw [filterMap_cons, flatMap_cons, ← ih, unpinnedAt]
      dsimp only [Function.comp_apply]
      cases (startSegmentRead reader answers slices entry.2 entry.1).outcome with
      | error error => rfl
      | ok located => rfl
  have walked := (flatMap_group_perm (locatedEntries reader answers slices requests)
    (answers.segmentOrder_perm _)).flatMap_right (unpinned reader)
  rw [flatMap_map, rows, flatMap_assoc] at walked
  rw [segmentReads, flatMap_map]
  exact (Account.Returns.flatMap fun segment _ => readSegment_returns ..).perm (.refl _) walked

theorem batchGetWhenPreferSameNode_pins :
    pins.Keeps (batchGetWhenPreferSameNode reader answers slices requests).events
      (requests.zipIdx.flatMap (leakedAt reader answers slices true)) := by
  have started := Account.Keeps.flatMap
    fun (entry : (ObjectKey × QueryResult) × Nat) (_ : entry ∈ requests.zipIdx) =>
      startSegmentRead_pins reader answers slices entry.2 entry.1
  have kept := started.release ((segmentReads_returns reader answers slices requests).perm
    (flatMap_append_perm ..).symm (.refl _)) (flatMap_append_perm ..).symm
  simpa [batchGetWhenPreferSameNode, locatedEntries, mapIdx_eq_zipIdx_map, flatMap_map,
    append_assoc] using kept

end SameNode

/-! ## Balanced reads -/

variable (reader : Reader) (answers : ReadAnswers)

theorem get_balanced_iff (key : ObjectKey) (query : QueryResult) (slices : List Slice) :
    pins.Balanced (get reader answers key query slices).events [] ↔
      ∀ replica, findFirstCompleteReplica query.replicas = .ok replica →
        leaksPin reader answers false 0 key replica = false := by
  exact (get_pins reader answers key query slices).balanced_iff.trans leakedOf_eq_nil

/-- A read of a range does not use the hot cache. -/
theorem getRange_balanced (query : QueryResult) (slices : List Slice) (srcOffset : Nat) :
    pins.Balanced (getRange reader answers query slices srcOffset).events [] := by
  rcases getRange_cases reader answers query slices srcOffset with
    ⟨error, events, elsewhere, called⟩ | called
  · rw [called]
    refine (Account.Returns.of_quiet fun event present => ?_).keeps.balanced
    have outside := elsewhere event present
    cases event with
    | transferred => exact ⟨rfl, rfl⟩
    | clock => exact ⟨rfl, rfl⟩
    | _ => cases outside
  · rw [called]
    exact Account.Keeps.balanced (Account.Returns.keeps ⟨rfl, .refl _⟩)

/-- `BatchGet` is balanced unless some key of the batch leaks its pin. -/
theorem batchGet_balanced_iff (keys : List ObjectKey) (queries : List QueryResult)
    (slices : SliceMap) (preferAllocInSameNode : Bool) :
    pins.Balanced
        (batchGet reader answers keys queries slices preferAllocInSameNode).events [] ↔
      (reader.transferSubmitter = true → queries.length = keys.length →
        ∀ (index : Nat) request target replica, (keys.zip queries)[index]? = some request →
          readyRead slices request = .ok (target, replica) →
          leaksPin reader answers preferAllocInSameNode index request.1 replica = false) := by
  have idle : pins.Balanced [] ([] : List ObjectKey) := ⟨fun _ => rfl, Account.Covered.nil⟩
  unfold batchGet
  split
  · rename_i missing
    exact ⟨fun _ present => by simp [present] at missing, fun _ => idle⟩
  · rename_i present
    split
    · rename_i different
      exact ⟨fun _ _ aligned => absurd aligned different, fun _ => idle⟩
    · rename_i aligned
      rw [← leakedAt_eq_nil]
      have premises : reader.transferSubmitter = true ∧ queries.length = keys.length := by
        simpa using And.intro present aligned
      simp only [premises.1, premises.2, true_implies]
      cases preferAllocInSameNode with
      | true => exact (batchGetWhenPreferSameNode_pins ..).balanced_iff
      | false => exact (batchGetEach_pins ..).balanced_iff

end Mooncake.Read
