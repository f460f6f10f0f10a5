import Mooncake.Read.Client

/-!
# The transfers of a read

Both paths of `BatchGet` find the slices of an index by its key.  A result is
a success only if the transfer of that index was submitted and finished with
`OK`; the transfer went into the slices the map holds for the key.  `Get` makes
at most one transfer.
-/

namespace Mooncake.Read

open Library.Indexed Library.Keyed List

/-- How the results of a batch read relate to its transfers. -/
structure AccountsForTransfers (requests : List (ObjectKey × QueryResult)) (slices : SliceMap)
    (preferAllocInSameNode : Bool) (call : BatchReadCall) : Prop where
  length : call.results.length = requests.length
  located : ∀ position target outcome,
    ReadEvent.transferred position target outcome ∈ call.events →
      ∃ request replica, requests[position]? = some request ∧
        slices.lookup request.1 = some target ∧
        findFirstCompleteReplica request.2.replicas = .ok replica ∧
        (preferAllocInSameNode = true → replica.isMemoryReplica = true)
  settled : ∀ position target outcome,
    ReadEvent.transferred position target outcome ∈ call.events →
      call.results[position]? = some (.ok ()) → outcome = .ok
  backed : ∀ position, call.results[position]? = some (.ok ()) →
    ∃ target, ReadEvent.transferred position target .ok ∈ call.events

/-! ## Events that belong to the hot cache -/

def ReadEvent.ofCache : ReadEvent → Bool
  | .getHotKey _ _ => true
  | .releaseHotKey _ => true
  | .processSlicesAsync _ => true
  | .submitPutTask _ _ _ => true
  | .transferred _ _ _ => false
  | .clock _ => false

theorem redirectToHotCache_events (reader : Reader) (answers : ReadAnswers) (index : Nat)
    (key : ObjectKey) (replica : Replica) :
    (redirectToHotCache reader answers index key replica).events = [] ∨
      (redirectToHotCache reader answers index key replica).events =
        [.getHotKey key (answers.getHotKey index key)] := by
  unfold redirectToHotCache
  split
  · split
    · split
      · rename_i absent
        exact .inr (by rw [absent])
      · rename_i block found
        split <;> exact .inr (by rw [found])
    · exact .inl rfl
  · exact .inl rfl

variable {reader : Reader} {answers : ReadAnswers} {index : Nat} {replica : Replica}
  {event : ReadEvent} {slices : SliceMap} {request : ObjectKey × QueryResult} {target : List Slice}
  {pending : PendingRead} {started : StartedRead}

variable {key : ObjectKey} {position : Nat} {cacheUsed preferAllocInSameNode : Bool}
  {query : QueryResult} {outcome : ErrorCode} {buffer : BufferDescriptor}
  {located : String × SegmentEntry} {keys : List ObjectKey} {queries : List QueryResult}

theorem mem_redirectToHotCache
    (present : event ∈ (redirectToHotCache reader answers index key replica).events) :
    event = .getHotKey key (answers.getHotKey index key) := by
  rcases redirectToHotCache_events reader answers index key replica with none | asked
  · rw [none] at present
    cases present
  · rw [asked] at present
    exact mem_singleton.mp present

theorem redirectToHotCache_ofCache :
    ∀ event ∈ (redirectToHotCache reader answers index key replica).events,
      event.ofCache = true := by
  intro event present
  rw [mem_redirectToHotCache present]
  rfl

theorem releaseIfUsed_ofCache :
    ∀ event ∈ releaseIfUsed reader key cacheUsed, event.ofCache = true := by
  unfold releaseIfUsed
  split <;> simp [ReadEvent.ofCache]

def ReadEvent.isTask : ReadEvent → Bool
  | .submitPutTask _ _ _ => true
  | _ => false

def ReadEvent.isFill : ReadEvent → Bool
  | .processSlicesAsync _ => true
  | event => event.isTask

theorem processSlicesAsync_isTask (reader : Reader) (answers : ReadAnswers) (index : Nat)
    (key : ObjectKey) (slices : List Slice) (replica : Replica) :
    ∀ event ∈ processSlicesAsync reader answers index key slices replica,
      event.isTask = true := by
  have tasks : ∀ position, ∀ event ∈ submitPutTasks answers index key position slices,
      event.isTask = true := by
    induction slices with
    | nil => simp [submitPutTasks]
    | cons slice rest ih =>
      intro position
      unfold submitPutTasks
      split
      · intro event present
        rcases mem_cons.mp present with rfl | later
        · rfl
        · exact ih (position + 1) event later
      · simp [ReadEvent.isTask]
  unfold processSlicesAsync
  split
  · simp
  · split
    · simp
    · exact tasks 0

theorem fillIfAdmitted_isFill (reader : Reader) (answers : ReadAnswers) (index : Nat)
    (key : ObjectKey) (slices : List Slice) (replica : Replica) (cacheUsed : Bool) :
    ∀ event ∈ fillIfAdmitted reader answers index key slices replica cacheUsed,
      event.isFill = true := by
  intro event present
  unfold fillIfAdmitted at present
  split at present
  · rcases mem_cons.mp present with rfl | task
    · rfl
    · have submitted := processSlicesAsync_isTask _ _ _ _ _ _ event task
      cases event with
      | submitPutTask => rfl
      | _ => cases submitted
  · cases present

theorem fillIfAdmitted_ofCache {slices : List Slice} :
    ∀ event ∈ fillIfAdmitted reader answers index key slices replica cacheUsed,
      event.ofCache = true := by
  intro event present
  have fill := fillIfAdmitted_isFill reader answers index key slices replica cacheUsed event present
  cases event with
  | processSlicesAsync => rfl
  | submitPutTask => rfl
  | _ => cases fill

/-! ## Get -/

/-- A call without a transfer fails; otherwise the outcome is that of the transfer. -/
theorem transferRead_cases (reader : Reader) (answers : ReadAnswers) (replica : Replica)
    (slices : List Slice) :
    (∃ error, error ≠ .ok ∧ transferRead reader answers replica slices = (error, [])) ∨
      ∃ outcome, transferRead reader answers replica slices =
        (outcome, [.transferred 0 slices outcome]) := by
  unfold transferRead
  split
  · exact .inl ⟨_, by simp, rfl⟩
  · split
    · exact .inl ⟨_, by simp, rfl⟩
    · split
      · exact .inl ⟨_, by simp, rfl⟩
      · exact .inr ⟨_, rfl⟩

/-- The events of `Get` up to its second clock reading. -/
def getHead (reader : Reader) (answers : ReadAnswers) (key : ObjectKey) (replica : Replica)
    (transferEvents : List ReadEvent) : List ReadEvent :=
  let redirect := redirectToHotCache reader answers 0 key replica
  redirect.events ++ [.clock (answers.clock 0)] ++ transferEvents ++
    releaseIfUsed reader key redirect.cacheUsed ++ [.clock (answers.clock 1)]

/-- `Get` of a complete replica either fails after its transfer, or goes on to the fill
and the lease check. -/
theorem get_cases (reader : Reader) (answers : ReadAnswers) (key : ObjectKey) (slices : List Slice)
    (complete : findFirstCompleteReplica query.replicas = .ok replica) :
    (∃ error events, (∀ event ∈ events, ∃ outcome, event = .transferred 0 slices outcome) ∧
      get reader answers key query slices =
        ⟨.error error, getHead reader answers key replica events⟩) ∨
    (transferRead reader answers (redirectToHotCache reader answers 0 key replica).replica
        slices).1 = .ok ∧
      get reader answers key query slices =
      ⟨if query.isLeaseExpired (answers.clock 2) then .error .leaseExpired else .ok (),
        getHead reader answers key replica [.transferred 0 slices .ok] ++
          fillIfAdmitted reader answers 0 key slices
            (redirectToHotCache reader answers 0 key replica).replica
            (redirectToHotCache reader answers 0 key replica).cacheUsed ++
          [.clock (answers.clock 2)]⟩ := by
  unfold get
  rw [complete]
  dsimp only
  rcases transferRead_cases reader answers
      (redirectToHotCache reader answers 0 key replica).replica slices with
    ⟨error, failed, read⟩ | ⟨outcome, read⟩
  · rw [read, if_pos failed]
    exact .inl ⟨error, [], by simp, rfl⟩
  · rw [read]
    by_cases succeeded : outcome = .ok
    · subst succeeded
      rw [if_neg (by simp)]
      refine .inr ⟨rfl, ?_⟩
      split <;> rfl
    · rw [if_pos succeeded]
      exact .inl ⟨outcome, _, by simp, rfl⟩

/-- `Get` of a range either fails, or goes on to the lease check; it does not touch the
hot cache. -/
theorem getRange_cases (reader : Reader) (answers : ReadAnswers) (query : QueryResult)
    (slices : List Slice) (srcOffset : Nat) :
    (∃ error events, (∀ event ∈ events, event.ofCache = false) ∧
      getRange reader answers query slices srcOffset = ⟨.error error, events⟩) ∨
    getRange reader answers query slices srcOffset =
      ⟨if query.isLeaseExpired (answers.clock 2) then .error .leaseExpired else .ok (),
        [.clock (answers.clock 0), .transferred 0 slices .ok, .clock (answers.clock 1),
          .clock (answers.clock 2)]⟩ := by
  unfold getRange
  split
  · exact .inl ⟨_, [], by simp, rfl⟩
  · split
    · exact .inl ⟨_, [], by simp, rfl⟩
    · dsimp only
      have moved : (∃ error, error ≠ .ok ∧
            transferReadRange reader answers ‹_› slices srcOffset = (error, [])) ∨
          ∃ outcome, transferReadRange reader answers ‹_› slices srcOffset =
            (outcome, [.transferred 0 slices outcome]) := by
        unfold transferReadRange
        split
        · exact .inl ⟨_, by simp, rfl⟩
        · split
          · exact .inl ⟨_, by simp, rfl⟩
          · exact .inr ⟨_, rfl⟩
      rcases moved with ⟨error, failed, read⟩ | ⟨outcome, read⟩
      · rw [read, if_pos failed]
        exact .inl ⟨error, _, by simp [ReadEvent.ofCache], rfl⟩
      · rw [read]
        by_cases succeeded : outcome = .ok
        · subst succeeded
          rw [if_neg (by simp)]
          right
          split <;> rfl
        · rw [if_pos succeeded]
          exact .inl ⟨outcome, _, by simp [ReadEvent.ofCache], rfl⟩

/-! ## One transfer for each key -/

/-- The checks of both loops before the hot cache is asked: the slices of the key
and its first complete replica. -/
def readyRead (slices : SliceMap) (request : ObjectKey × QueryResult) :
    Expected (List Slice × Replica) :=
  match slices.lookup request.1 with
  | none => .error .invalidParams
  | some target => (findFirstCompleteReplica request.2.replicas).map fun replica =>
    (target, replica)

theorem readyRead_ok (ready : readyRead slices request = .ok (target, replica)) :
    slices.lookup request.1 = some target ∧
      findFirstCompleteReplica request.2.replicas = .ok replica := by
  unfold readyRead at ready
  split at ready
  · cases ready
  · rename_i found
    cases complete : findFirstCompleteReplica request.2.replicas with
    | error error =>
      rw [complete] at ready
      cases ready
    | ok other =>
      rw [complete] at ready
      cases ready
      exact ⟨found, rfl⟩

theorem startRead_eq (reader : Reader) (answers : ReadAnswers) (slices : SliceMap)
    (index : Nat) (request : ObjectKey × QueryResult) :
    startRead reader answers slices index request =
      match readyRead slices request with
      | .error error => { outcome := .error error }
      | .ok (target, replica) =>
        let redirect := redirectToHotCache reader answers index request.1 replica
        match answers.submit index redirect.replica target with
        | none =>
          { outcome := .error .transferFail
            events := redirect.events ++
              releaseIfUsed reader request.1 redirect.cacheUsed }
        | some future =>
          { outcome := .ok
              { index := index
                key := request.1
                future := future
                replica := redirect.replica
                cacheUsed := redirect.cacheUsed
                slices := target }
            events := redirect.events } := by
  unfold startRead readyRead
  cases slices.lookup request.1 with
  | none => rfl
  | some target => cases findFirstCompleteReplica request.2.replicas <;> rfl

theorem startRead_pending
    (started : (startRead reader answers slices index request).outcome = .ok pending) :
    ∃ target replica, readyRead slices request = .ok (target, replica) ∧
      pending.index = index ∧ pending.key = request.1 ∧ pending.slices = target ∧
      pending.replica = (redirectToHotCache reader answers index request.1 replica).replica ∧
      pending.cacheUsed =
        (redirectToHotCache reader answers index request.1 replica).cacheUsed := by
  rw [startRead_eq] at started
  split at started
  · cases started
  · rename_i target replica ready
    dsimp only at started
    split at started
    · cases started
    · cases started
      exact ⟨target, replica, ready, rfl, rfl, rfl, rfl, rfl⟩

theorem startRead_ok
    (started : (startRead reader answers slices index request).outcome = .ok pending) :
    pending.index = index ∧ slices.lookup request.1 = some pending.slices ∧
      ∃ replica, findFirstCompleteReplica request.2.replicas = .ok replica := by
  obtain ⟨target, replica, ready, indexed, -, rfl, -, -⟩ := startRead_pending started
  obtain ⟨found, complete⟩ := readyRead_ok ready
  exact ⟨indexed, found, replica, complete⟩

theorem mem_startRead (present : event ∈ (startRead reader answers slices index request).events) :
    (∃ replica, event ∈ (redirectToHotCache reader answers index request.1 replica).events) ∨
      ∃ cacheUsed, event ∈ releaseIfUsed reader request.1 cacheUsed := by
  rw [startRead_eq] at present
  split at present
  · cases present
  · dsimp only at present
    split at present
    · rcases mem_append.mp present with redirected | released
      · exact .inl ⟨_, redirected⟩
      · exact .inr ⟨_, released⟩
    · exact .inl ⟨_, present⟩

theorem startRead_ofCache :
    ∀ event ∈ (startRead reader answers slices index request).events,
      event.ofCache = true := by
  intro event present
  rcases mem_startRead present with ⟨replica, redirected⟩ | ⟨cacheUsed, released⟩
  · exact redirectToHotCache_ofCache event redirected
  · exact releaseIfUsed_ofCache event released

theorem finishRead_of_pending (reader : Reader) (answers : ReadAnswers)
    (outcome : started.outcome = .ok pending) :
    ((finishRead reader answers started).result = .ok () ↔ pending.future.outcome = .ok) ∧
    ∃ others, (finishRead reader answers started).events =
        .transferred pending.index pending.slices pending.future.outcome :: others ∧
      ∀ event ∈ others, event.ofCache = true := by
  unfold finishRead
  rw [outcome]
  dsimp only
  split
  · rename_i failed
    exact ⟨by simp [failed], _, rfl, releaseIfUsed_ofCache⟩
  · rename_i succeeded
    refine ⟨by simpa using succeeded, _, rfl, ?_⟩
    intro event present
    rcases mem_append.mp present with released | filled
    · exact releaseIfUsed_ofCache event released
    · exact fillIfAdmitted_ofCache event filled

theorem finishRead_of_error {error : ErrorCode} (outcome : started.outcome = .error error) :
    finishRead reader answers started = ⟨.error error, []⟩ := by
  unfold finishRead
  rw [outcome]

theorem transferred_mem_finishRead
    (present : ReadEvent.transferred position target outcome ∈
      (finishRead reader answers started).events) :
    ∃ pending, started.outcome = .ok pending ∧ pending.index = position ∧
      pending.slices = target ∧ pending.future.outcome = outcome := by
  cases state : started.outcome with
  | error error =>
    rw [finishRead_of_error state] at present
    cases present
  | ok pending =>
    obtain ⟨-, others, events, cached⟩ := finishRead_of_pending reader answers state
    rw [events] at present
    rcases mem_cons.mp present with same | later
    · cases same
      exact ⟨pending, rfl, rfl, rfl, rfl⟩
    · exact absurd (cached _ later) (by simp [ReadEvent.ofCache])

variable {requests : List (ObjectKey × QueryResult)}

variable {entries : List SegmentEntry}

theorem batchGetEach_results :
    (batchGetEach reader answers slices requests).results[position]? =
      requests[position]?.map fun request =>
        checkLease (answers.clock 1) (finishRead reader answers
          (startRead reader answers slices position request)).result request.2 := by
  unfold batchGetEach
  rw [getElem?_zipWith]
  simp only [getElem?_map, getElem?_mapIdx]
  cases requests[position]? <;> rfl

theorem checkLease_ok {now : Int} {result : Expected Unit}
    (unexpired : checkLease now result query = .ok ()) :
    result = .ok () ∧ query.isLeaseExpired now = false := by
  unfold checkLease at unexpired
  split at unexpired
  · cases unexpired
  · split at unexpired
    · cases unexpired
    · rename_i fresh
      exact ⟨rfl, by simpa using fresh⟩

theorem transferred_mem_batchGetEach :
    ReadEvent.transferred position target outcome ∈
        (batchGetEach reader answers slices requests).events ↔
      ∃ request pending, requests[position]? = some request ∧
        (startRead reader answers slices position request).outcome = .ok pending ∧
        pending.slices = target ∧ pending.future.outcome = outcome := by
  simp only [batchGetEach, mem_append, mem_flatMap, mem_map, mem_mapIdx,
    mem_cons, not_mem_nil, or_false, false_or, reduceCtorEq]
  constructor
  · rintro (⟨_, ⟨index, inside, rfl⟩, early⟩ | ⟨_, ⟨_, ⟨index, inside, rfl⟩, rfl⟩, late⟩)
    · exact absurd (startRead_ofCache _ early) (by simp [ReadEvent.ofCache])
    · obtain ⟨pending, started, same, into, finished⟩ := transferred_mem_finishRead late
      have indexed := (startRead_ok started).1
      rw [same] at indexed
      subst indexed
      exact ⟨_, pending, getElem?_eq_getElem inside, started, into, finished⟩
  · rintro ⟨request, pending, found, started, rfl, rfl⟩
    obtain ⟨inside, rfl⟩ := List.getElem?_eq_some_iff.mp found
    obtain ⟨-, others, events, -⟩ := finishRead_of_pending reader answers started
    refine .inr ⟨_, ⟨_, ⟨position, inside, rfl⟩, rfl⟩, ?_⟩
    rw [events, (startRead_ok started).1]
    exact mem_cons_self

theorem batchGetEach_accounts :
    AccountsForTransfers requests slices false
      (batchGetEach reader answers slices requests) where
  length := by simp [batchGetEach]
  located := by
    intro position target outcome present
    obtain ⟨request, pending, found, started, rfl, -⟩ := transferred_mem_batchGetEach.mp present
    obtain ⟨-, into, replica, complete⟩ := startRead_ok started
    exact ⟨request, replica, found, into, complete, by simp⟩
  settled := by
    intro position target outcome present success
    obtain ⟨request, pending, found, started, -, rfl⟩ := transferred_mem_batchGetEach.mp present
    rw [batchGetEach_results, found] at success
    have finished := (checkLease_ok (Option.some.inj success)).1
    exact (finishRead_of_pending reader answers started).1.mp finished
  backed := by
    intro position success
    rw [batchGetEach_results] at success
    obtain ⟨request, found, unexpired⟩ := Option.map_eq_some_iff.mp success
    have finished := (checkLease_ok unexpired).1
    cases started : (startRead reader answers slices position request).outcome with
    | error error =>
      rw [finishRead_of_error started] at finished
      cases finished
    | ok pending =>
      have succeeded := (finishRead_of_pending reader answers started).1.mp finished
      exact ⟨pending.slices, transferred_mem_batchGetEach.mpr
        ⟨request, pending, found, started, rfl, succeeded⟩⟩

/-! ## One transfer for each node -/

theorem redirectToHotCache_memory (reader : Reader) (answers : ReadAnswers) (index : Nat)
    (key : ObjectKey) (memory : replica.descriptor = .memory buffer) :
    ∃ redirected, (redirectToHotCache reader answers index key replica).replica.descriptor =
      .memory redirected ∧ redirected.size = buffer.size := by
  unfold redirectToHotCache
  rw [memory]
  dsimp only
  split
  · split
    · exact ⟨buffer, memory, rfl⟩
    · split
      · exact ⟨buffer, memory, rfl⟩
      · exact ⟨_, rfl, rfl⟩
  · exact ⟨buffer, memory, rfl⟩

theorem isMemoryReplica_iff :
    replica.isMemoryReplica = true ↔ ∃ buffer, replica.descriptor = .memory buffer := by
  unfold Replica.isMemoryReplica
  cases replica.descriptor <;> simp

/-- The first loop for a key whose slices and MEMORY replica are found. -/
def enteredRead (reader : Reader) (answers : ReadAnswers) (index : Nat) (key : ObjectKey)
    (target : List Slice) (replica : Replica) (buffer : BufferDescriptor) (segment : String) :
    StartedSegmentRead :=
  let redirect := redirectToHotCache reader answers index key replica
  if buffer.size = 0 then { outcome := .error .invalidReplica, events := redirect.events }
  else
    { outcome := .ok (segment,
        { index := index
          key := key
          replica := redirect.replica
          slices := target
          cacheUsed := redirect.cacheUsed })
      events := redirect.events }

theorem startSegmentRead_of_ready (reader : Reader) (answers : ReadAnswers) (index : Nat)
    (ready : readyRead slices request = .ok (target, replica))
    (memory : replica.descriptor = .memory buffer) :
    ∃ segment, startSegmentRead reader answers slices index request =
      enteredRead reader answers index request.1 target replica buffer segment := by
  obtain ⟨found, complete⟩ := readyRead_ok ready
  obtain ⟨redirected, located, sized⟩ :=
    redirectToHotCache_memory reader answers index request.1 memory
  refine ⟨redirected.transportEndpoint, ?_⟩
  unfold startSegmentRead
  simp only [found, complete, isMemoryReplica_iff.mpr ⟨buffer, memory⟩, located, sized]
  rfl

theorem startSegmentRead_of_not_ready (reader : Reader) (answers : ReadAnswers)
    {slices : SliceMap} (index : Nat) {request : ObjectKey × QueryResult}
    (refused : ∀ target replica, readyRead slices request = .ok (target, replica) →
      replica.isMemoryReplica = false) :
    ∃ error, startSegmentRead reader answers slices index request =
      { outcome := .error error } := by
  unfold startSegmentRead
  split
  · exact ⟨_, rfl⟩
  · rename_i target found
    split
    · exact ⟨_, rfl⟩
    · rename_i replica complete
      rw [if_pos (by simp [refused target replica (by simp [readyRead, found, complete,
        Except.map])])]
      exact ⟨_, rfl⟩

theorem startSegmentRead_cases (reader : Reader) (answers : ReadAnswers) (slices : SliceMap)
    (index : Nat) (request : ObjectKey × QueryResult) :
    (∃ error, startSegmentRead reader answers slices index request = { outcome := .error error } ∧
      ∀ target replica, readyRead slices request = .ok (target, replica) →
        replica.isMemoryReplica = false) ∨
    ∃ target replica buffer segment, readyRead slices request = .ok (target, replica) ∧
      replica.descriptor = .memory buffer ∧
      startSegmentRead reader answers slices index request =
        enteredRead reader answers index request.1 target replica buffer segment := by
  by_cases refused : ∀ target replica, readyRead slices request = .ok (target, replica) →
      replica.isMemoryReplica = false
  · obtain ⟨error, failed⟩ := startSegmentRead_of_not_ready reader answers index refused
    exact .inl ⟨error, failed, refused⟩
  · simp only [not_forall, Bool.not_eq_false, isMemoryReplica_iff] at refused
    obtain ⟨target, replica, ready, buffer, memory⟩ := refused
    obtain ⟨segment, entered⟩ := startSegmentRead_of_ready reader answers index ready memory
    exact .inr ⟨target, replica, buffer, segment, ready, memory, entered⟩

theorem startSegmentRead_entry
    (started : (startSegmentRead reader answers slices index request).outcome = .ok located) :
    ∃ target replica buffer, readyRead slices request = .ok (target, replica) ∧
      replica.descriptor = .memory buffer ∧ buffer.size ≠ 0 ∧
      located.2 =
        { index := index
          key := request.1
          replica := (redirectToHotCache reader answers index request.1 replica).replica
          slices := target
          cacheUsed := (redirectToHotCache reader answers index request.1 replica).cacheUsed } := by
  rcases startSegmentRead_cases reader answers slices index request with
    ⟨error, failed, -⟩ | ⟨target, replica, buffer, segment, ready, memory, entered⟩
  · rw [failed] at started
    cases started
  · rw [entered, enteredRead] at started
    split at started
    · cases started
    · rename_i nonempty
      cases started
      exact ⟨target, replica, buffer, ready, memory, nonempty, rfl⟩

theorem startSegmentRead_ok
    (started : (startSegmentRead reader answers slices index request).outcome = .ok located) :
    located.2.index = index ∧ slices.lookup request.1 = some located.2.slices ∧
      ∃ replica, findFirstCompleteReplica request.2.replicas = .ok replica ∧
        replica.isMemoryReplica = true := by
  obtain ⟨target, replica, buffer, ready, memory, -, entry⟩ := startSegmentRead_entry started
  obtain ⟨found, complete⟩ := readyRead_ok ready
  rw [entry]
  exact ⟨rfl, found, replica, complete, isMemoryReplica_iff.mpr ⟨buffer, memory⟩⟩

theorem mem_startSegmentRead
    (present : event ∈ (startSegmentRead reader answers slices index request).events) :
    ∃ replica, event ∈ (redirectToHotCache reader answers index request.1 replica).events := by
  rcases startSegmentRead_cases reader answers slices index request with
    ⟨error, failed, -⟩ | ⟨target, replica, buffer, segment, -, -, entered⟩
  · rw [failed] at present
    cases present
  · rw [entered, enteredRead] at present
    refine ⟨replica, ?_⟩
    split at present <;> exact present

theorem startSegmentRead_ofCache :
    ∀ event ∈ (startSegmentRead reader answers slices index request).events,
      event.ofCache = true := by
  intro event present
  obtain ⟨replica, redirected⟩ := mem_startSegmentRead present
  exact redirectToHotCache_ofCache event redirected

def segmentFuture (answers : ReadAnswers) (entries : List SegmentEntry) :
    Option TransferFuture :=
  answers.submitBatch (entries.map SegmentEntry.replica) (entries.map SegmentEntry.slices)

theorem readSegment_results (reader : Reader) (answers : ReadAnswers)
    (entries : List SegmentEntry) :
    (readSegment reader answers entries).results = entries.map fun entry =>
      (entry.index,
        if segmentFuture answers entries = some ⟨.ok⟩ then .ok () else .error .transferFail) := by
  unfold readSegment segmentFuture
  split
  · rename_i refused
    simp [refused]
  · rename_i future submitted
    obtain ⟨outcome⟩ := future
    dsimp only
    split <;> simp_all

theorem transferred_not_mem_refusal :
    ReadEvent.transferred position target outcome ∉
      (readSegment reader answers entries).refusal := by
  unfold readSegment
  split
  · intro present
    obtain ⟨entry, -, released⟩ := mem_flatMap.mp present
    exact absurd (releaseIfUsed_ofCache _ released) (by simp [ReadEvent.ofCache])
  · dsimp only
    split <;> simp

/-- Every transfer of a segment has the outcome of its batch. -/
theorem transferred_mem_completion :
    ReadEvent.transferred position target outcome ∈
        (readSegment reader answers entries).completion ↔
      segmentFuture answers entries = some ⟨outcome⟩ ∧
        ∃ entry ∈ entries, entry.index = position ∧ entry.slices = target := by
  have released : ∀ entry : SegmentEntry, ReadEvent.transferred position target outcome ∉
      releaseIfUsed reader entry.key entry.cacheUsed := fun entry present =>
    absurd (releaseIfUsed_ofCache _ present) (by simp [ReadEvent.ofCache])
  have filled : ∀ entry : SegmentEntry, ReadEvent.transferred position target outcome ∉
      fillIfAdmitted reader answers entry.index entry.key entry.slices entry.replica
        entry.cacheUsed := fun entry present =>
    absurd (fillIfAdmitted_ofCache _ present) (by simp [ReadEvent.ofCache])
  unfold readSegment segmentFuture
  split
  · rename_i refused
    simp [refused]
  · rename_i future submitted
    obtain ⟨code⟩ := future
    dsimp only
    split <;> simp [submitted, released, filled] <;> grind

section SameNode

variable (reader : Reader) (answers : ReadAnswers) (slices : SliceMap)
  (requests : List (ObjectKey × QueryResult))

/-- The entries of the first loop, each with its segment. -/
def locatedEntries : List (String × SegmentEntry) :=
  (requests.mapIdx fun index request =>
    startSegmentRead reader answers slices index request).filterMap
      fun start => start.outcome.toOption

def segmentEntries (segment : String) : List SegmentEntry :=
  group ((locatedEntries reader answers slices requests).foldl appendTo ∅) segment

/-- What a batch of the given segment means for its keys. -/
def segmentResult (segment : String) : Expected Unit :=
  if segmentFuture answers (segmentEntries reader answers slices requests segment) = some ⟨.ok⟩
  then .ok () else .error .transferFail

variable {reader answers slices requests} {segment : String} {entry : SegmentEntry}

theorem mem_locatedEntries :
    located ∈ locatedEntries reader answers slices requests ↔
      ∃ request, requests[located.2.index]? = some request ∧
        (startSegmentRead reader answers slices located.2.index request).outcome = .ok located := by
  unfold locatedEntries
  rw [mem_filterMap]
  constructor
  · rintro ⟨start, present, found⟩
    obtain ⟨index, inside, rfl⟩ := mem_mapIdx.mp present
    have started : (startSegmentRead reader answers slices index requests[index]).outcome =
        .ok located := by
      revert found
      cases (startSegmentRead reader answers slices index requests[index]).outcome <;>
        simp [Except.toOption]
    have indexed := (startSegmentRead_ok started).1
    subst indexed
    exact ⟨_, getElem?_eq_getElem inside, started⟩
  · rintro ⟨request, found, started⟩
    obtain ⟨inside, read⟩ := List.getElem?_eq_some_iff.mp found
    refine ⟨_, mem_mapIdx.mpr ⟨located.2.index, inside, rfl⟩, ?_⟩
    rw [read, started]
    rfl

theorem mem_segmentEntries :
    entry ∈ segmentEntries reader answers slices requests segment ↔
      (segment, entry) ∈ locatedEntries reader answers slices requests := by
  unfold segmentEntries
  rw [group_foldl_appendTo]
  simp [group]

/-- The walk over the map visits the segments that have an entry. -/
theorem mem_segmentReads {read : SegmentRead} :
    read ∈ segmentReads reader answers
        ((locatedEntries reader answers slices requests).foldl appendTo ∅) ↔
      ∃ segment entry, (segment, entry) ∈ locatedEntries reader answers slices requests ∧
        read = readSegment reader answers
          (segmentEntries reader answers slices requests segment) := by
  unfold segmentReads
  rw [mem_map]
  constructor
  · rintro ⟨segment, walked, rfl⟩
    rw [(answers.segmentOrder_perm _).mem_iff, ← AList.mem_keys, mem_foldl_appendTo] at walked
    obtain ⟨⟨_, entry⟩, present, rfl⟩ := mem_map.mp (walked.resolve_left (by simp))
    exact ⟨_, entry, present, rfl⟩
  · rintro ⟨segment, entry, present, rfl⟩
    refine ⟨segment, ?_, rfl⟩
    rw [(answers.segmentOrder_perm _).mem_iff, ← AList.mem_keys, mem_foldl_appendTo]
    exact .inr (mem_map_of_mem (f := Prod.fst) present)

theorem locatedEntries_unique {first second : String × SegmentEntry}
    (present : first ∈ locatedEntries reader answers slices requests)
    (other : second ∈ locatedEntries reader answers slices requests)
    (same : first.2.index = second.2.index) : first = second := by
  rw [mem_locatedEntries] at present other
  obtain ⟨request, found, started⟩ := present
  obtain ⟨request', found', started'⟩ := other
  rw [same, found', Option.some.injEq] at found
  subst found
  rw [same, started', Except.ok.injEq] at started
  exact started.symm

theorem mem_assigned {result : Expected Unit} :
    (position, result) ∈ (segmentReads reader answers
        ((locatedEntries reader answers slices requests).foldl appendTo ∅)).flatMap
          SegmentRead.results ↔
      ∃ segment entry, (segment, entry) ∈ locatedEntries reader answers slices requests ∧
        entry.index = position ∧
        result = segmentResult reader answers slices requests segment := by
  rw [mem_flatMap]
  constructor
  · rintro ⟨read, walked, assigned⟩
    obtain ⟨segment, _, -, rfl⟩ := mem_segmentReads.mp walked
    rw [readSegment_results] at assigned
    obtain ⟨entry, present, same⟩ := mem_map.mp assigned
    rw [Prod.mk.injEq] at same
    exact ⟨segment, entry, mem_segmentEntries.mp present, same.1, same.2.symm⟩
  · rintro ⟨segment, entry, present, rfl, rfl⟩
    refine ⟨_, mem_segmentReads.mpr ⟨segment, entry, present, rfl⟩, ?_⟩
    rw [readSegment_results]
    exact mem_map.mpr ⟨entry, mem_segmentEntries.mpr present, rfl⟩

theorem length_sameNode_results :
    (batchGetWhenPreferSameNode reader answers slices requests).results.length =
      requests.length := by
  simp [batchGetWhenPreferSameNode]

/-- The result of an index that was admitted to a segment. -/
theorem sameNode_result_of_located
    (present : (segment, entry) ∈ locatedEntries reader answers slices requests) :
    (batchGetWhenPreferSameNode reader answers slices requests).results[entry.index]? =
      some (segmentResult reader answers slices requests segment) := by
  obtain ⟨request, found, -⟩ := mem_locatedEntries.mp present
  have inside : entry.index <
      (batchGetWhenPreferSameNode reader answers slices requests).results.length := by
    rw [length_sameNode_results]
    exact (List.getElem?_eq_some_iff.mp found).1
  have read := getElem?_eq_getElem inside
  rw [read]
  rcases getElem?_assignAt_cases read with ⟨unassigned, -⟩ | assigned
  · have assigned := mem_assigned.mpr ⟨segment, entry, present, rfl, rfl⟩
    exact absurd (mem_map_of_mem (f := Prod.fst) assigned) unassigned
  · obtain ⟨other, entry', present', same, result⟩ := mem_assigned.mp assigned
    have unique := locatedEntries_unique present' present same
    cases unique
    exact congrArg some result

theorem sameNode_located_of_ok {position : Nat}
    (success : (batchGetWhenPreferSameNode reader answers slices requests).results[position]? =
      some (.ok ())) :
    ∃ segment entry, (segment, entry) ∈ locatedEntries reader answers slices requests ∧
      entry.index = position := by
  rcases getElem?_assignAt_cases success with ⟨-, started⟩ | assigned
  · rw [getElem?_map, getElem?_mapIdx, Option.map_map] at started
    obtain ⟨request, found, outcome⟩ := Option.map_eq_some_iff.mp started
    cases state : (startSegmentRead reader answers slices position request).outcome with
    | error error => simp [state, Except.map] at outcome
    | ok located =>
      have indexed := (startSegmentRead_ok state).1
      subst indexed
      exact ⟨located.1, located.2, mem_locatedEntries.mpr ⟨request, found, state⟩, rfl⟩
  · obtain ⟨segment, entry, present, same, -⟩ := mem_assigned.mp assigned
    exact ⟨segment, entry, present, same⟩

theorem transferred_mem_sameNode :
    ReadEvent.transferred position target outcome ∈
        (batchGetWhenPreferSameNode reader answers slices requests).events ↔
      ∃ segment entry, (segment, entry) ∈ locatedEntries reader answers slices requests ∧
        entry.index = position ∧ entry.slices = target ∧
        segmentFuture answers (segmentEntries reader answers slices requests segment) =
          some ⟨outcome⟩ := by
  unfold batchGetWhenPreferSameNode
  simp only [mem_append, mem_flatMap]
  constructor
  · rintro ((⟨start, present, early⟩ | ⟨read, walked, refused⟩) | ⟨read, walked, completed⟩)
    · obtain ⟨index, inside, rfl⟩ := mem_mapIdx.mp present
      exact absurd (startSegmentRead_ofCache _ early) (by simp [ReadEvent.ofCache])
    · obtain ⟨segment, _, -, rfl⟩ := mem_segmentReads.mp walked
      exact absurd refused (transferred_not_mem_refusal)
    · obtain ⟨segment, _, -, rfl⟩ := mem_segmentReads.mp walked
      obtain ⟨submitted, entry, present, same, into⟩ := transferred_mem_completion.mp completed
      exact ⟨segment, entry, mem_segmentEntries.mp present, same, into, submitted⟩
  · rintro ⟨segment, entry, present, same, into, submitted⟩
    refine .inr ⟨_, mem_segmentReads.mpr ⟨segment, entry, present, rfl⟩, ?_⟩
    exact transferred_mem_completion.mpr
      ⟨submitted, entry, mem_segmentEntries.mpr present, same, into⟩

theorem batchGetWhenPreferSameNode_accounts :
    AccountsForTransfers requests slices true
      (batchGetWhenPreferSameNode reader answers slices requests) where
  length := length_sameNode_results
  located := by
    intro position target outcome present
    obtain ⟨segment, entry, located, rfl, rfl, -⟩ := transferred_mem_sameNode.mp present
    obtain ⟨request, found, started⟩ := mem_locatedEntries.mp located
    obtain ⟨-, into, replica, complete, memory⟩ := startSegmentRead_ok started
    exact ⟨request, replica, found, into, complete, fun _ => memory⟩
  settled := by
    intro position target outcome present success
    obtain ⟨segment, entry, located, rfl, -, submitted⟩ := transferred_mem_sameNode.mp present
    rw [sameNode_result_of_located located] at success
    unfold segmentResult at success
    split at success
    · rename_i ok
      rw [ok] at submitted
      cases submitted
      rfl
    · cases success
  backed := by
    intro position success
    obtain ⟨segment, entry, located, rfl⟩ := sameNode_located_of_ok success
    rw [sameNode_result_of_located located] at success
    unfold segmentResult at success
    split at success
    · rename_i ok
      exact ⟨entry.slices, transferred_mem_sameNode.mpr ⟨segment, entry, located, rfl, rfl, ok⟩⟩
    · cases success

end SameNode

/-! ## Both paths -/

theorem batchGet_accounts (reader : Reader) (answers : ReadAnswers)
    (aligned : queries.length = keys.length) :
    AccountsForTransfers (keys.zip queries) slices preferAllocInSameNode
      (batchGet reader answers keys queries slices preferAllocInSameNode) := by
  unfold batchGet
  split
  · exact
      { length := by simp [aligned]
        located := by simp
        settled := by simp
        backed := by
          intro position success
          cases eq_of_mem_map_const (mem_of_getElem? success) }
  · rw [if_neg (by simpa using aligned)]
    cases preferAllocInSameNode with
    | true => exact batchGetWhenPreferSameNode_accounts
    | false => exact batchGetEach_accounts

/-- An environment in which every transfer is accepted and finishes with `OK`,
and no hot cache is in the way. -/
structure Willing (reader : Reader) (answers : ReadAnswers) : Prop where
  transferSubmitter : reader.transferSubmitter = true
  hotCache : reader.hotCache = false
  submit : ∀ index replica target, answers.submit index replica target = some ⟨.ok⟩
  submitBatch : ∀ replicas targets, answers.submitBatch replicas targets = some ⟨.ok⟩

/-- Every transfer is accepted and succeeds; the hot cache stays out. -/
def willingAnswers : ReadAnswers where
  getHotKey := fun _ _ => none
  submit := fun _ _ _ => some ⟨.ok⟩
  submitBatch := fun _ _ => some ⟨.ok⟩
  submitRangeRead := fun _ _ _ => some ⟨.ok⟩
  admission := fun _ _ => false
  submitPutTask := fun _ _ => false
  clock := fun _ => 0
  segmentOrder := id
  segmentOrder_perm := fun _ => .refl _

theorem redirectToHotCache_of_off (off : reader.hotCache = false) (answers : ReadAnswers)
    (index : Nat) (key : ObjectKey) (replica : Replica) :
    redirectToHotCache reader answers index key replica = { replica := replica } := by
  unfold redirectToHotCache
  split <;> simp [off]

/-- In a willing environment every key with slices and a usable replica is
transferred. -/
theorem batchGet_transfers {reader : Reader} {answers : ReadAnswers}
    (willing : Willing reader answers) {keys : List ObjectKey} {queries : List QueryResult}
    (aligned : queries.length = keys.length) {slices : SliceMap}
    {preferAllocInSameNode : Bool} {position : Nat} {key : ObjectKey} {query : QueryResult}
    {replica : Replica} {target : List Slice} (keyed : keys[position]? = some key)
    (queried : queries[position]? = some query) (found : slices.lookup key = some target)
    (complete : findFirstCompleteReplica query.replicas = .ok replica)
    (usable : preferAllocInSameNode = true →
      ∃ buffer, replica.descriptor = .memory buffer ∧ buffer.size ≠ 0) :
    ReadEvent.transferred position target .ok ∈
      (batchGet reader answers keys queries slices preferAllocInSameNode).events := by
  have request : (keys.zip queries)[position]? = some (key, query) := by
    rw [getElem?_zip_eq_some]
    exact ⟨keyed, queried⟩
  unfold batchGet
  rw [if_neg (by simp [willing.transferSubmitter]), if_neg (by simpa using aligned)]
  cases preferAllocInSameNode with
  | true =>
    obtain ⟨buffer, memory, nonempty⟩ := usable rfl
    obtain ⟨entry, into, started⟩ : ∃ entry : SegmentEntry, entry.slices = target ∧
        (startSegmentRead reader answers slices position (key, query)).outcome =
          .ok (buffer.transportEndpoint, entry) := by
      simp [startSegmentRead, found, complete, Replica.isMemoryReplica, memory,
        redirectToHotCache_of_off willing.hotCache, nonempty]
    have indexed := (startSegmentRead_ok started).1
    subst indexed
    exact transferred_mem_sameNode.mpr ⟨buffer.transportEndpoint, entry,
      mem_locatedEntries.mpr ⟨_, request, started⟩, rfl, into,
      willing.submitBatch _ _⟩
  | false =>
    have started : (startRead reader answers slices position (key, query)).outcome =
        .ok { index := position, key := key, future := ⟨.ok⟩, replica := replica,
              cacheUsed := false, slices := target } := by
      simp [startRead, found, complete, redirectToHotCache_of_off willing.hotCache, willing.submit]
    exact transferred_mem_batchGetEach.mpr ⟨_, _, request, started, rfl, rfl⟩

end Mooncake.Read
