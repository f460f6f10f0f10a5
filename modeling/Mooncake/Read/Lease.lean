import Mathlib
import Mooncake.Read.Transfers

/-!
# Leases of successful reads

`Get` and `BatchGet` read the clock once more when the transfers are done and turn a
success into `LEASE_EXPIRED` if the lease of the key is over.  The path of
`BatchGet` with one transfer for each node returns without a clock reading.
-/

namespace Mooncake.Read

open Library.Indexed Library.Keyed List

/-- Some clock reading after the transfer of the index found the lease unexpired. -/
def LeaseHeld (query : QueryResult) (index : Nat) (events : List ReadEvent) : Prop :=
  ∃ before after slices reading,
    events = before ++ .transferred index slices .ok :: after ∧
      ReadEvent.clock reading ∈ after ∧ query.isLeaseExpired reading = false

variable {query : QueryResult} {index : Nat} {slices : List Slice} {reader : Reader}
  {answers : ReadAnswers}

theorem LeaseHeld.of_mem {front back : List ReadEvent} {reading : Int}
    (moved : ReadEvent.transferred index slices .ok ∈ front) (read : ReadEvent.clock reading ∈ back)
    (held : query.isLeaseExpired reading = false) :
    LeaseHeld query index (front ++ back) := by
  obtain ⟨before, after, rfl⟩ := append_of_mem moved
  exact ⟨before, after ++ back, slices, reading, by simp, mem_append_right _ read, held⟩

theorem unexpired_of_ok {query : QueryResult} {now : Int}
    (success : (if query.isLeaseExpired now then Except.error ErrorCode.leaseExpired
      else .ok () : Expected Unit) = .ok ()) : query.isLeaseExpired now = false := by
  split at success
  · cases success
  · rename_i unexpired
    simpa using unexpired

/-! ## Get -/

theorem get_leaseHeld {key : ObjectKey}
    (success : (get reader answers key query slices).result = .ok ()) :
    LeaseHeld query 0 (get reader answers key query slices).events := by
  cases complete : findFirstCompleteReplica query.replicas with
  | error error => simp [get, complete] at success
  | ok replica =>
    rcases get_cases reader answers key slices complete with
      ⟨error, events, -, called⟩ | ⟨-, called⟩
    · rw [called] at success
      cases success
    · rw [called] at success ⊢
      have moved : ReadEvent.transferred 0 slices .ok ∈
          getHead reader answers key replica [.transferred 0 slices .ok] := by
        simp [getHead]
      rw [append_assoc]
      exact LeaseHeld.of_mem moved (mem_append_right _ mem_cons_self)
        (unexpired_of_ok success)

theorem getRange_leaseHeld {srcOffset : Nat}
    (success : (getRange reader answers query slices srcOffset).result = .ok ()) :
    LeaseHeld query 0 (getRange reader answers query slices srcOffset).events := by
  rcases getRange_cases reader answers query slices srcOffset with
    ⟨error, events, -, called⟩ | called
  · rw [called] at success
    cases success
  · rw [called] at success ⊢
    exact ⟨[.clock (answers.clock 0)], [.clock (answers.clock 1), .clock (answers.clock 2)],
      slices, answers.clock 2, rfl, by simp, unexpired_of_ok success⟩

/-! ## BatchGet -/

variable {slices : SliceMap} {requests : List (ObjectKey × QueryResult)}
  {request : ObjectKey × QueryResult}

theorem batchGetEach_leaseHeld (requested : requests[index]? = some request)
    (success : (batchGetEach reader answers slices requests).results[index]? = some (.ok ())) :
    LeaseHeld request.2 index (batchGetEach reader answers slices requests).events := by
  obtain ⟨target, moved⟩ := batchGetEach_accounts.backed index success
  rw [batchGetEach_results, requested] at success
  have unexpired := (checkLease_ok (Option.some.inj success)).2
  rcases mem_append.mp moved with early | late
  · exact LeaseHeld.of_mem early mem_cons_self unexpired
  · simp at late

theorem clock_not_mem_readSegment {entries : List SegmentEntry} {reading : Int} :
    ReadEvent.clock reading ∉ (readSegment reader answers entries).refusal ∧
      ReadEvent.clock reading ∉ (readSegment reader answers entries).completion := by
  have released : ∀ entry : SegmentEntry, ReadEvent.clock reading ∉
      releaseIfUsed reader entry.key entry.cacheUsed :=
    fun entry present => nomatch releaseIfUsed_ofCache _ present
  have filled : ∀ entry : SegmentEntry, ReadEvent.clock reading ∉
      fillIfAdmitted reader answers entry.index entry.key entry.slices entry.replica
        entry.cacheUsed :=
    fun entry present => nomatch fillIfAdmitted_ofCache _ present
  unfold readSegment
  split
  · simp [released]
  · dsimp only
    split <;> simp [released, filled]

/-- The path with one transfer for each node does not look at the clock. -/
theorem clock_not_mem_sameNode (reader : Reader) (answers : ReadAnswers) (slices : SliceMap)
    (requests : List (ObjectKey × QueryResult)) (reading : Int) :
    ReadEvent.clock reading ∉
      (batchGetWhenPreferSameNode reader answers slices requests).events := by
  intro present
  simp only [batchGetWhenPreferSameNode, mem_append, mem_flatMap] at present
  rcases present with (⟨_, started, early⟩ | ⟨_, walked, refused⟩) | ⟨_, walked, completed⟩
  · obtain ⟨index, inside, rfl⟩ := mem_mapIdx.mp started
    cases startSegmentRead_ofCache _ early
  · obtain ⟨segment, -, rfl⟩ := mem_map.mp walked
    exact clock_not_mem_readSegment.1 refused
  · obtain ⟨segment, -, rfl⟩ := mem_map.mp walked
    exact clock_not_mem_readSegment.2 completed

/-- On that path a key with slices and a MEMORY replica that is not empty succeeds when
all transfers do. -/
theorem sameNode_ok_of_ready (reader : Reader) (requested : requests[index]? = some request)
    {target : List Slice} {replica : Replica} {buffer : BufferDescriptor}
    (ready : readyRead slices request = .ok (target, replica))
    (memory : replica.descriptor = .memory buffer) (nonempty : buffer.size ≠ 0) :
    (batchGetWhenPreferSameNode reader willingAnswers slices requests).results[index]? =
      some (.ok ()) := by
  obtain ⟨segment, entered⟩ := startSegmentRead_of_ready reader willingAnswers index ready memory
  rw [enteredRead, if_neg nonempty] at entered
  have located := (@mem_locatedEntries (segment, ⟨index, request.1, _, target, _⟩) reader
    willingAnswers slices requests).mpr ⟨request, requested, by rw [entered]⟩
  rw [sameNode_result_of_located located]
  rfl

/-- A success of `BatchGet` without an admitted key on the path for each node. -/
theorem batchGet_leaseHeld {keys : List ObjectKey} {queries : List QueryResult}
    {preferAllocInSameNode : Bool}
    (empty : preferAllocInSameNode = true → reader.transferSubmitter = true →
      queries.length = keys.length →
      ∀ (index : Nat) request target replica buffer,
        (keys.zip queries)[index]? = some request →
        readyRead slices request = .ok (target, replica) →
        replica.descriptor = .memory buffer → buffer.size = 0)
    (queried : queries[index]? = some query)
    (success : (batchGet reader answers keys queries slices
      preferAllocInSameNode).results[index]? = some (.ok ())) :
    LeaseHeld query index
      (batchGet reader answers keys queries slices preferAllocInSameNode).events := by
  have refused : (keys.map fun _ => (.error .invalidParams : Expected Unit))[index]? ≠
      some (.ok ()) := by
    rw [getElem?_map]
    cases keys[index]? <;> simp
  unfold batchGet at success ⊢
  split at success
  · exact absurd success refused
  · rename_i present
    split at success
    · exact absurd success refused
    · rename_i aligned
      rw [if_neg present, if_neg aligned]
      split at success
      · rename_i prefers
        obtain ⟨segment, entry, located, rfl⟩ := sameNode_located_of_ok success
        obtain ⟨request, requested, started⟩ := mem_locatedEntries.mp located
        obtain ⟨target, replica, buffer, ready, memory, nonempty, -⟩ :=
          startSegmentRead_entry started
        exact absurd (empty prefers (by simpa using present) (by simpa using aligned) _ request
          target replica buffer requested ready memory) nonempty
      · rename_i each
        rw [if_neg each]
        have inside : index < keys.length := by
          have bound := (List.getElem?_eq_some_iff.mp queried).1
          have same : queries.length = keys.length := by simpa using aligned
          omega
        have requested : (keys.zip queries)[index]? = some (keys[index], query) :=
          getElem?_zip_eq_some.mpr ⟨getElem?_eq_getElem inside, queried⟩
        exact batchGetEach_leaseHeld requested success

/-- No read succeeds on an expired lease, except on the path with one transfer for each
node: there it happens iff some key has slices and a MEMORY replica that is not empty. -/
theorem successfulReads_holdLease_iff (reader : Reader) :
    (∀ answers key query slices, Monotone answers.clock →
      (get reader answers key query slices).result = .ok () →
      LeaseHeld query 0 (get reader answers key query slices).events) ∧
    (∀ answers query slices srcOffset, Monotone answers.clock →
      (getRange reader answers query slices srcOffset).result = .ok () →
      LeaseHeld query 0 (getRange reader answers query slices srcOffset).events) ∧
    (∀ keys queries slices preferAllocInSameNode,
      (∀ answers : ReadAnswers, Monotone answers.clock →
        ∀ (index : Nat) query, queries[index]? = some query →
          (batchGet reader answers keys queries slices
            preferAllocInSameNode).results[index]? = some (.ok ()) →
          LeaseHeld query index
            (batchGet reader answers keys queries slices preferAllocInSameNode).events) ↔
      (preferAllocInSameNode = true → reader.transferSubmitter = true →
        queries.length = keys.length →
        ∀ (index : Nat) request target replica buffer,
          (keys.zip queries)[index]? = some request →
          readyRead slices request = .ok (target, replica) →
          replica.descriptor = .memory buffer → buffer.size = 0)) := by
  refine ⟨fun _ _ _ _ _ => get_leaseHeld, fun _ _ _ _ _ => getRange_leaseHeld,
    fun keys queries slices preferAllocInSameNode => ?_⟩
  constructor
  · intro held prefers present aligned index request target replica buffer requested ready memory
    by_contra nonempty
    have success := sameNode_ok_of_ready reader requested ready memory nonempty
    have call : batchGet reader willingAnswers keys queries slices preferAllocInSameNode =
        batchGetWhenPreferSameNode reader willingAnswers slices (keys.zip queries) := by
      simp [batchGet, present, aligned, prefers]
    obtain ⟨before, after, into, reading, events, read, -⟩ :=
      held willingAnswers monotone_const index request.2
        (getElem?_zip_eq_some.mp requested).2 (call ▸ success)
    rw [call] at events
    refine clock_not_mem_sameNode reader willingAnswers slices (keys.zip queries) reading ?_
    rw [events]
    exact mem_append_right _ (mem_cons_of_mem _ read)
  · intro empty answers _ index query queried success
    exact batchGet_leaseHeld empty queried success

/-- The lease was over before the call; the path with one transfer for each node reports
success, the other path `LEASE_EXPIRED`. -/
theorem expiredLease_is_a_success :
    (batchGet {} willingAnswers ["key"] [⟨[⟨.complete, .memory ⟨"node", 0, 4⟩⟩], -1⟩]
      (AList.insert "key" [⟨0, 4⟩] ∅) true).results = [.ok ()] ∧
    (∀ reading, (⟨[⟨.complete, .memory ⟨"node", 0, 4⟩⟩], -1⟩ : QueryResult).isLeaseExpired
      (willingAnswers.clock reading) = true) ∧
    (batchGet {} willingAnswers ["key"] [⟨[⟨.complete, .memory ⟨"node", 0, 4⟩⟩], -1⟩]
      (AList.insert "key" [⟨0, 4⟩] ∅) false).results = [.error .leaseExpired] ∧
    ¬ LeaseHeld ⟨[⟨.complete, .memory ⟨"node", 0, 4⟩⟩], -1⟩ 0
      (batchGet {} willingAnswers ["key"] [⟨[⟨.complete, .memory ⟨"node", 0, 4⟩⟩], -1⟩]
        (AList.insert "key" [⟨0, 4⟩] ∅) true).events := by
  refine ⟨by decide, fun _ => rfl, by decide, ?_⟩
  rintro ⟨before, after, slices, reading, events, read, -⟩
  refine clock_not_mem_sameNode {} willingAnswers (AList.insert "key" [⟨0, 4⟩] ∅)
    [("key", ⟨[⟨.complete, .memory ⟨"node", 0, 4⟩⟩], -1⟩)] reading ?_
  have same : (batchGetWhenPreferSameNode {} willingAnswers (AList.insert "key" [⟨0, 4⟩] ∅)
      [("key", ⟨[⟨.complete, .memory ⟨"node", 0, 4⟩⟩], -1⟩)]).events =
        before ++ .transferred 0 slices .ok :: after := events
  rw [same]
  exact mem_append_right _ (mem_cons_of_mem _ read)

end Mooncake.Read
