import Mooncake.Read.Fills
import Mooncake.Read.Lease

/-!
# Fills of validated reads

A read hands its slices to `ProcessSlicesAsync` as soon as its transfer is done.
`Get` and `BatchGet` check the lease only afterwards, and the path with one transfer for
each node does not check it at all, so the hot cache may be fed with bytes that the master
was free to overwrite.
-/

namespace Mooncake.Read

open Library.Indexed Library.Keyed List

/-- The read behind every call is reported as a success, and its lease had not expired at the
given time, after its transfer. -/
def Validated (queries : List QueryResult) (now : Int) (results : List (Expected Unit))
    (events : List ReadEvent) : Prop :=
  ∀ call : FillCall, .processSlicesAsync call ∈ events →
    results[call.index]? = some (.ok ()) ∧
      ∃ query, queries[call.index]? = some query ∧ query.isLeaseExpired now = false

variable {reader : Reader} {answers : ReadAnswers} {query : QueryResult} {slices : List Slice}

theorem transferRead_ok {replica : Replica}
    (succeeded : (transferRead reader answers replica slices).1 = .ok) :
    totalSize replica ≤ calculateSliceSize slices ∧ reader.transferSubmitter = true := by
  unfold transferRead at succeeded
  split at succeeded
  · cases succeeded
  · rename_i fits
    split at succeeded
    · cases succeeded
    · rename_i present
      exact ⟨not_lt.mp fits, by simpa using present⟩

def getCanFill (reader : Reader) (query : QueryResult) (slices : List Slice) : Prop :=
  reader.hotCache = true ∧ reader.transferSubmitter = true ∧ ∃ replica,
    findFirstCompleteReplica query.replicas = .ok replica ∧
      totalSize replica ≤ calculateSliceSize slices

/-- The keys for which `BatchGet` can make a call.  The path with one transfer for each node
reads only MEMORY replicas that are not empty. -/
def batchGetCanFill (reader : Reader) (keys : List ObjectKey) (queries : List QueryResult)
    (slices : SliceMap) (preferAllocInSameNode : Bool) (request : ObjectKey × QueryResult) :
    Prop :=
  reader.hotCache = true ∧ reader.transferSubmitter = true ∧ queries.length = keys.length ∧
    request ∈ keys.zip queries ∧
    ∃ target replica, readyRead slices request = .ok (target, replica) ∧
      (preferAllocInSameNode = true →
        ∃ buffer, replica.descriptor = .memory buffer ∧ buffer.size ≠ 0)

theorem get_validated {key : ObjectKey}
    (held : getCanFill reader query slices → query.isLeaseExpired (answers.clock 2) = false) :
    Validated [query] (answers.clock 2) [(get reader answers key query slices).result]
      (get reader answers key query slices).events := by
  intro call made
  obtain ⟨first, -, succeeded, ⟨other, requested, complete, -, cached, -, -⟩, result⟩ :=
    due_of_call_mem_get made
  rw [first] at requested
  cases requested
  obtain ⟨fits, present⟩ := transferRead_ok succeeded
  have unexpired := held ⟨cached, present, call.replica, complete, fits⟩
  rw [first, result, unexpired]
  exact ⟨rfl, query, rfl, unexpired⟩

/-- A call of `BatchGet` is made for a key that can be filled, and only the lease check stands
between it and a success. -/
theorem batchGet_call {keys : List ObjectKey} {queries : List QueryResult} {slices : SliceMap}
    {preferAllocInSameNode : Bool} {call : FillCall}
    (made : .processSlicesAsync call ∈
      (batchGet reader answers keys queries slices preferAllocInSameNode).events) :
    ∃ query, queries[call.index]? = some query ∧
      batchGetCanFill reader keys queries slices preferAllocInSameNode (call.key, query) ∧
      (query.isLeaseExpired (answers.clock 1) = false →
        (batchGet reader answers keys queries slices
          preferAllocInSameNode).results[call.index]? = some (.ok ())) := by
  have due := call_mem_batchGet_iff_due.mp made
  obtain ⟨query, requested, -, -, cached, -, -⟩ := due
  have queried := (getElem?_zip_eq_some.mp requested).2
  refine ⟨query, queried, ?_⟩
  unfold batchGet at made ⊢
  split at made
  · cases made
  · rename_i present
    split at made
    · cases made
    · rename_i aligned
      rw [if_neg present, if_neg aligned]
      have ready : ∀ {conclusion : Prop}, (∃ target replica,
          readyRead slices (call.key, query) = .ok (target, replica) ∧
          (preferAllocInSameNode = true →
            ∃ buffer, replica.descriptor = .memory buffer ∧ buffer.size ≠ 0)) ∧ conclusion →
          batchGetCanFill reader keys queries slices preferAllocInSameNode (call.key, query) ∧
            conclusion :=
        fun both => ⟨⟨cached, by simpa using present, not_not.mp aligned,
          mem_of_getElem? requested, both.1⟩, both.2⟩
      apply ready
      split at made
      · rename_i prefer
        rw [if_pos prefer]
        obtain ⟨segment, entry, located, submitted, filled⟩ := call_mem_sameNode.mp made
        obtain ⟨-, rfl⟩ := call_mem_fillIfAdmitted.mp filled
        obtain ⟨request, found, started⟩ := mem_locatedEntries.mp located
        obtain ⟨target, replica, buffer, ready, memory, nonempty, -⟩ :=
          startSegmentRead_entry started
        obtain rfl := Option.some.inj (requested.symm.trans found)
        refine ⟨⟨target, replica, ready, fun _ => ⟨buffer, memory, nonempty⟩⟩, fun _ => ?_⟩
        dsimp only
        rw [sameNode_result_of_located located, segmentResult, if_pos submitted]
      · rename_i each
        rw [if_neg each]
        obtain ⟨request, pending, found, started, succeeded, -⟩ := call_mem_batchGetEach.mp made
        obtain ⟨target, replica, ready, -⟩ := startRead_pending started
        obtain rfl := Option.some.inj (requested.symm.trans found)
        refine ⟨⟨target, replica, ready, fun prefer => absurd prefer each⟩, fun unexpired => ?_⟩
        rw [batchGetEach_results, requested]
        simp [finishRead, started, succeeded, checkLease, unexpired]

/-- Every transfer succeeds, the hot cache holds nothing and admits every key. -/
def admittingAnswers (clock : Nat → Int) : ReadAnswers :=
  { willingAnswers with
    admission := fun _ _ => true
    clock := clock }

theorem redirectToHotCache_admitting (reader : Reader) (clock : Nat → Int) (index : Nat)
    (key : ObjectKey) (replica : Replica) :
    (redirectToHotCache reader (admittingAnswers clock) index key replica).cacheUsed = false := by
  unfold redirectToHotCache
  split
  · split <;> rfl
  · rfl

theorem get_call_admitting (clock : Nat → Int) (key : ObjectKey)
    (can : getCanFill reader query slices) :
    ∃ replica, .processSlicesAsync ⟨0, key, slices, replica⟩ ∈
      (get reader (admittingAnswers clock) key query slices).events := by
  obtain ⟨cached, present, replica, complete, fits⟩ := can
  have missed := redirectToHotCache_admitting reader clock 0 key replica
  have moved : (transferRead reader (admittingAnswers clock) replica slices).1 = .ok := by
    simp [transferRead, not_lt.mpr fits, present, admittingAnswers, willingAnswers]
  have filled : .processSlicesAsync ⟨0, key, slices, replica⟩ ∈
      fillIfAdmitted reader (admittingAnswers clock) 0 key slices replica false :=
    call_mem_fillIfAdmitted.mpr ⟨⟨cached, rfl, rfl⟩, rfl⟩
  refine ⟨replica, ?_⟩
  simp only [get, complete, redirectToHotCache_of_miss missed, missed, moved, ne_eq,
    not_true_eq_false, if_false]
  split <;> simp [filled]

theorem batchGet_call_admitting (clock : Nat → Int) {keys : List ObjectKey}
    {queries : List QueryResult} {slices : SliceMap} {preferAllocInSameNode : Bool}
    {request : ObjectKey × QueryResult}
    (can : batchGetCanFill reader keys queries slices preferAllocInSameNode request) :
    ∃ call : FillCall, (keys.zip queries)[call.index]? = some request ∧
      .processSlicesAsync call ∈ (batchGet reader (admittingAnswers clock) keys queries slices
        preferAllocInSameNode).events := by
  obtain ⟨cached, present, aligned, listed, target, replica, ready, usable⟩ := can
  obtain ⟨index, found⟩ := getElem?_of_mem listed
  have missed := redirectToHotCache_admitting reader clock index request.1 replica
  refine ⟨⟨index, request.1, target, replica⟩, found, ?_⟩
  rw [call_mem_batchGet_iff_due]
  refine ⟨request.2, found, (readyRead_ok ready).2, missed, cached, rfl, ?_⟩
  simp only [batchGet, present, aligned, Bool.not_true, Bool.false_eq_true, if_false, ne_eq,
    not_true_eq_false]
  cases preferAllocInSameNode with
  | true =>
    obtain ⟨buffer, memory, nonempty⟩ := usable rfl
    obtain ⟨segment, entered⟩ :=
      startSegmentRead_of_ready reader (admittingAnswers clock) index ready memory
    rw [enteredRead, if_neg nonempty] at entered
    have located : (segment, ⟨index, request.1,
        (redirectToHotCache reader (admittingAnswers clock) index request.1 replica).replica,
        target, _⟩) ∈ locatedEntries reader (admittingAnswers clock) slices (keys.zip queries) :=
      mem_locatedEntries.mpr ⟨request, found, congrArg StartedSegmentRead.outcome entered⟩
    exact transferred_mem_sameNode.mpr ⟨segment, _, located, rfl, rfl, rfl⟩
  | false =>
    have started : (startRead reader (admittingAnswers clock) slices index request).outcome =
        .ok ⟨index, request.1, ⟨.ok⟩, replica, false, target⟩ := by
      have accepted : ∀ replica target, (admittingAnswers clock).submit index replica target =
          some ⟨.ok⟩ := fun _ _ => rfl
      simp only [startRead_eq, ready, redirectToHotCache_of_miss missed, missed, accepted]
    exact transferred_mem_batchGetEach.mpr ⟨request, _, found, started, rfl, rfl⟩

/-- Only validated reads feed the hot cache, for every outcome of a call under the given
clock, iff no key that can be filled has an expired lease after the transfers.
`Get` checks the lease at its third clock reading, `BatchGet` at its second one; the path with
one transfer for each node does not, though its transfers are over by then. -/
theorem fillCalls_validated_iff (reader : Reader) (clock : Nat → Int) :
    (∀ key query slices,
      (∀ answers : ReadAnswers, answers.clock = clock →
        Validated [query] (clock 2) [(get reader answers key query slices).result]
          (get reader answers key query slices).events) ↔
      (getCanFill reader query slices → query.isLeaseExpired (clock 2) = false)) ∧
    (∀ keys queries slices preferAllocInSameNode,
      (∀ answers : ReadAnswers, answers.clock = clock →
        Validated queries (clock 1)
          (batchGet reader answers keys queries slices preferAllocInSameNode).results
          (batchGet reader answers keys queries slices preferAllocInSameNode).events) ↔
      ∀ request, batchGetCanFill reader keys queries slices preferAllocInSameNode request →
        request.2.isLeaseExpired (clock 1) = false) := by
  constructor
  · intro key query slices
    constructor
    · intro validated can
      obtain ⟨replica, made⟩ := get_call_admitting clock key can
      obtain ⟨-, other, queried, unexpired⟩ := validated (admittingAnswers clock) rfl _ made
      cases queried
      exact unexpired
    · rintro held answers rfl
      exact get_validated held
  · intro keys queries slices preferAllocInSameNode
    constructor
    · intro validated request can
      obtain ⟨call, found, made⟩ := batchGet_call_admitting clock can
      obtain ⟨-, query, queried, unexpired⟩ := validated (admittingAnswers clock) rfl call made
      have same := (getElem?_zip_eq_some.mp found).2
      rw [queried] at same
      rwa [Option.some.inj same] at unexpired
    · rintro held answers rfl call made
      obtain ⟨query, queried, can, success⟩ := batchGet_call made
      have unexpired := held _ can
      exact ⟨success unexpired, query, queried, unexpired⟩

/-- The lease was over before the call.  The fill task is submitted all the same; `Get` tells the
caller `LEASE_EXPIRED`, and the path with one transfer for each node reports a success. -/
theorem expiredRead_feeds_the_hotCache :
    let query : QueryResult := ⟨[⟨.complete, .memory ⟨"node", 0, 4⟩⟩], -1⟩
    let answers := admittingAnswers fun _ => 0
    let call : FillCall := ⟨0, "key", [⟨0, 4⟩], ⟨.complete, .memory ⟨"node", 0, 4⟩⟩⟩
    let sameNode := batchGet {} answers ["key"] [query]
      ((∅ : SliceMap).insert "key" [⟨0, 4⟩]) true
    query.isLeaseExpired (answers.clock 1) = true ∧
      (.processSlicesAsync call ∈ (get {} answers "key" query [⟨0, 4⟩]).events ∧
        ReadEvent.submitPutTask "key" ⟨0, 4⟩ false ∈ (get {} answers "key" query [⟨0, 4⟩]).events ∧
        (get {} answers "key" query [⟨0, 4⟩]).result = .error .leaseExpired) ∧
      .processSlicesAsync call ∈ sameNode.events ∧ sameNode.results = [.ok ()] := by
  decide

end Mooncake.Read
