import Mooncake.Read.Transfers

/-!
# The fills of a read

`Get` and both paths of `BatchGet` hand the slices of a key to `ProcessSlicesAsync` after the
transfer into them finished with `OK`, unless the hot cache served the read or does not admit
the key.  The tasks of a run are those that these calls submit, one for each slice, and only for
a replica that passes the checks of `ProcessSlicesAsync`.
-/

namespace Mooncake.Read

open Library.Indexed Library.Keyed List

/-- The checks of `ProcessSlicesAsync` on the replica that was read. -/
def fillable (reader : Reader) (replica : Replica) : Bool :=
  reader.hotCache && replica.isMemoryReplica &&
    (reader.hotCacheIsShm || !isReplicaOnLocalMemory reader replica)

/-- Every fill task belongs to a completed transfer of a request. -/
def FillsTransferred (reader : Reader) (requests : List (ObjectKey × QueryResult))
    (target : ObjectKey → Option (List Slice)) (events : List ReadEvent) : Prop :=
  ∀ key slice accepted, ReadEvent.submitPutTask key slice accepted ∈ events →
    ∃ index query slices replica, requests[index]? = some (key, query) ∧
      target key = some slices ∧ slice ∈ slices ∧
      findFirstCompleteReplica query.replicas = .ok replica ∧
      fillable reader replica = true ∧ ReadEvent.transferred index slices .ok ∈ events

/-! ## The tasks of the calls -/

def ReadEvent.call? : ReadEvent → Option FillCall
  | .processSlicesAsync call => some call
  | _ => none

def FillCall.events (reader : Reader) (answers : ReadAnswers) (call : FillCall) :
    List ReadEvent :=
  processSlicesAsync reader answers call.index call.key call.slices call.replica

/-- The tasks of a trace are those of its calls, in order. -/
def TasksOfCalls (reader : Reader) (answers : ReadAnswers) (events : List ReadEvent) : Prop :=
  events.filter ReadEvent.isTask =
    (events.filterMap ReadEvent.call?).flatMap (FillCall.events reader answers)

namespace TasksOfCalls

variable {reader : Reader} {answers : ReadAnswers}

theorem append {first second : List ReadEvent} (head : TasksOfCalls reader answers first)
    (tail : TasksOfCalls reader answers second) :
    TasksOfCalls reader answers (first ++ second) := by
  unfold TasksOfCalls at *
  rw [filter_append, filterMap_append, flatMap_append, head, tail]

theorem flatMap {α : Type} {values : List α} {events : α → List ReadEvent}
    (each : ∀ value ∈ values, TasksOfCalls reader answers (events value)) :
    TasksOfCalls reader answers (values.flatMap events) := by
  induction values with
  | nil => rfl
  | cons value rest ih =>
    rw [flatMap_cons]
    exact (each value mem_cons_self).append
      (ih fun other later => each other (mem_cons_of_mem _ later))

theorem of_quiet {events : List ReadEvent} (quiet : ∀ event ∈ events, event.isFill = false) :
    TasksOfCalls reader answers events := by
  have tasks : events.filter ReadEvent.isTask = [] := by
    refine filter_eq_nil_iff.mpr fun event present task => ?_
    have none := quiet event present
    cases event <;> simp_all [ReadEvent.isFill, ReadEvent.isTask]
  have calls : events.filterMap ReadEvent.call? = [] := by
    refine filterMap_eq_nil_iff.mpr fun event present => ?_
    have none := quiet event present
    cases event <;> simp_all [ReadEvent.isFill, ReadEvent.call?]
  rw [TasksOfCalls, tasks, calls]
  rfl

theorem fillIfAdmitted {index : Nat} {key : ObjectKey} {slices : List Slice} {replica : Replica}
    {cacheUsed : Bool} : TasksOfCalls reader answers
      (fillIfAdmitted reader answers index key slices replica cacheUsed) := by
  unfold TasksOfCalls Read.fillIfAdmitted
  split
  · have tasks := processSlicesAsync_isTask reader answers index key slices replica
    have silent : (processSlicesAsync reader answers index key slices replica).filterMap
        ReadEvent.call? = [] := by
      refine filterMap_eq_nil_iff.mpr fun event present => ?_
      have task := tasks event present
      cases event <;> simp_all [ReadEvent.isTask, ReadEvent.call?]
    rw [filter_cons_of_neg (by simp [ReadEvent.isTask]), filter_eq_self.mpr tasks,
      filterMap_cons, silent]
    simp [ReadEvent.call?, FillCall.events]
  · rfl

end TasksOfCalls

section Quiet

variable {reader : Reader} {answers : ReadAnswers} {slices : SliceMap} {index : Nat}
  {key : ObjectKey} {request : ObjectKey × QueryResult} {replica : Replica}

theorem isFill_redirectToHotCache :
    ∀ event ∈ (redirectToHotCache reader answers index key replica).events,
      event.isFill = false := by
  intro event present
  rw [mem_redirectToHotCache present]
  rfl

theorem isFill_releaseIfUsed {cacheUsed : Bool} :
    ∀ event ∈ releaseIfUsed reader key cacheUsed, event.isFill = false := by
  unfold releaseIfUsed
  split <;> simp [ReadEvent.isFill, ReadEvent.isTask]

theorem isFill_getHead {slices : List Slice} {transferEvents : List ReadEvent}
    (moved : ∀ event ∈ transferEvents, ∃ outcome, event = .transferred 0 slices outcome) :
    ∀ event ∈ getHead reader answers key replica transferEvents, event.isFill = false := by
  intro event present
  simp only [getHead, mem_append, mem_singleton] at present
  rcases present with (((redirected | rfl) | transferred) | released) | rfl
  · exact isFill_redirectToHotCache event redirected
  · rfl
  · obtain ⟨outcome, rfl⟩ := moved event transferred
    rfl
  · exact isFill_releaseIfUsed event released
  · rfl

theorem isFill_startRead :
    ∀ event ∈ (startRead reader answers slices index request).events, event.isFill = false := by
  intro event present
  rcases mem_startRead present with ⟨replica, redirected⟩ | ⟨cacheUsed, released⟩
  · exact isFill_redirectToHotCache event redirected
  · exact isFill_releaseIfUsed event released

theorem isFill_startSegmentRead :
    ∀ event ∈ (startSegmentRead reader answers slices index request).events,
      event.isFill = false := by
  intro event present
  obtain ⟨replica, redirected⟩ := mem_startSegmentRead present
  exact isFill_redirectToHotCache event redirected

end Quiet

section Tasks

variable {reader : Reader} {answers : ReadAnswers} {slices : SliceMap}
  {requests : List (ObjectKey × QueryResult)}

theorem get_tasksOfCalls {key : ObjectKey} {query : QueryResult} {slices : List Slice} :
    TasksOfCalls reader answers (get reader answers key query slices).events := by
  cases complete : findFirstCompleteReplica query.replicas with
  | error error =>
    simp only [get, complete]
    rfl
  | ok replica =>
    rcases get_cases reader answers key slices complete with
      ⟨error, events, moved, called⟩ | ⟨-, called⟩
    · rw [called]
      exact .of_quiet (isFill_getHead moved)
    · rw [called]
      have moved : ∀ event ∈ [ReadEvent.transferred 0 slices .ok],
          ∃ outcome, event = .transferred 0 slices outcome := by simp
      refine ((TasksOfCalls.of_quiet (isFill_getHead moved)).append
        .fillIfAdmitted).append (.of_quiet ?_)
      simp [ReadEvent.isFill, ReadEvent.isTask]

theorem finishRead_tasksOfCalls {started : StartedRead} :
    TasksOfCalls reader answers (finishRead reader answers started).events := by
  have quiet : ∀ pending : PendingRead, TasksOfCalls reader answers
      (.transferred pending.index pending.slices pending.future.outcome ::
        releaseIfUsed reader pending.key pending.cacheUsed) := by
    intro pending
    refine .of_quiet fun event present => ?_
    rcases mem_cons.mp present with rfl | released
    · rfl
    · exact isFill_releaseIfUsed event released
  unfold finishRead
  split
  · rfl
  · dsimp only
    split
    · exact quiet _
    · exact (quiet _).append .fillIfAdmitted

theorem batchGetEach_tasksOfCalls :
    TasksOfCalls reader answers (batchGetEach reader answers slices requests).events := by
  refine (TasksOfCalls.append (.append (.of_quiet ?_) (.flatMap ?_)) (.flatMap ?_)).append
    (.of_quiet ?_)
  · simp [ReadEvent.isFill, ReadEvent.isTask]
  · intro start listed
    obtain ⟨index, bound, rfl⟩ := mem_mapIdx.mp listed
    exact .of_quiet isFill_startRead
  · intro call listed
    obtain ⟨start, -, rfl⟩ := mem_map.mp listed
    exact finishRead_tasksOfCalls
  · simp [ReadEvent.isFill, ReadEvent.isTask]

theorem readSegment_tasksOfCalls {entries : List SegmentEntry} :
    TasksOfCalls reader answers (readSegment reader answers entries).refusal ∧
      TasksOfCalls reader answers (readSegment reader answers entries).completion := by
  have released : ∀ entry ∈ entries, TasksOfCalls reader answers
      (releaseIfUsed reader entry.key entry.cacheUsed) :=
    fun entry _ => .of_quiet isFill_releaseIfUsed
  have moved : ∀ outcome, TasksOfCalls reader answers (entries.map fun entry =>
      ReadEvent.transferred entry.index entry.slices outcome) :=
    fun outcome => .of_quiet (by simp [ReadEvent.isFill, ReadEvent.isTask])
  unfold readSegment
  split
  · exact ⟨.flatMap released, rfl⟩
  · dsimp only
    split
    · exact ⟨rfl, (moved _).append (.flatMap released)⟩
    · exact ⟨rfl, (moved _).append (.flatMap fun entry inside =>
        (released entry inside).append .fillIfAdmitted)⟩

theorem sameNode_tasksOfCalls :
    TasksOfCalls reader answers
      (batchGetWhenPreferSameNode reader answers slices requests).events := by
  have read : ∀ segToOp, ∀ read ∈ segmentReads reader answers segToOp,
      TasksOfCalls reader answers read.refusal ∧ TasksOfCalls reader answers read.completion := by
    intro segToOp read walked
    obtain ⟨segment, -, rfl⟩ := mem_map.mp walked
    exact readSegment_tasksOfCalls
  refine (TasksOfCalls.append (.flatMap ?_) (.flatMap ?_)).append (.flatMap ?_)
  · intro start listed
    obtain ⟨index, bound, rfl⟩ := mem_mapIdx.mp listed
    exact .of_quiet isFill_startSegmentRead
  · exact fun segment walked => (read _ segment walked).1
  · exact fun segment walked => (read _ segment walked).2

theorem batchGet_tasksOfCalls {keys : List ObjectKey} {queries : List QueryResult}
    {preferAllocInSameNode : Bool} :
    TasksOfCalls reader answers
      (batchGet reader answers keys queries slices preferAllocInSameNode).events := by
  unfold batchGet
  split
  · rfl
  · split
    · rfl
    · split
      · exact sameNode_tasksOfCalls
      · exact batchGetEach_tasksOfCalls

end Tasks

/-! ## When a call is made -/

/-- A call is due after a successful transfer of the replica where the master said it is, for a
key that the hot cache admits. -/
def FillCall.Due (reader : Reader) (answers : ReadAnswers)
    (requests : List (ObjectKey × QueryResult)) (events : List ReadEvent) (call : FillCall) :
    Prop :=
  ∃ query, requests[call.index]? = some (call.key, query) ∧
    findFirstCompleteReplica query.replicas = .ok call.replica ∧
    (redirectToHotCache reader answers call.index call.key call.replica).cacheUsed = false ∧
    reader.hotCache = true ∧ answers.admission call.index call.key = true ∧
    ReadEvent.transferred call.index call.slices .ok ∈ events

theorem redirectToHotCache_of_miss {reader : Reader} {answers : ReadAnswers} {index : Nat}
    {key : ObjectKey} {replica : Replica}
    (missed : (redirectToHotCache reader answers index key replica).cacheUsed = false) :
    (redirectToHotCache reader answers index key replica).replica = replica := by
  revert missed
  unfold redirectToHotCache
  split
  · split
    · split
      · simp
      · split <;> simp
    · simp
  · simp

variable {reader : Reader} {answers : ReadAnswers} {key : ObjectKey} {query : QueryResult}
  {call : FillCall}

theorem call_mem_fillIfAdmitted {index : Nat} {slices : List Slice} {replica : Replica}
    {cacheUsed : Bool} :
    .processSlicesAsync call ∈ fillIfAdmitted reader answers index key slices replica cacheUsed ↔
      (reader.hotCache = true ∧ cacheUsed = false ∧ answers.admission index key = true) ∧
        call = ⟨index, key, slices, replica⟩ := by
  have task : .processSlicesAsync call ∉
      processSlicesAsync reader answers index key slices replica := fun present =>
    nomatch processSlicesAsync_isTask _ _ _ _ _ _ _ present
  unfold fillIfAdmitted
  split
  · rename_i admitted
    have due : reader.hotCache = true ∧ cacheUsed = false ∧ answers.admission index key = true := by
      simpa [shouldAdmitToHotCache, and_assoc] using admitted
    rw [mem_cons, ReadEvent.processSlicesAsync.injEq]
    exact ⟨fun made => ⟨due, made.resolve_right task⟩, fun made => .inl made.2⟩
  · rename_i refused
    refine iff_of_false not_mem_nil fun due => refused ?_
    simp [shouldAdmitToHotCache, due.1]

theorem due_of_call_mem_get {slices : List Slice}
    (made : .processSlicesAsync call ∈ (get reader answers key query slices).events) :
    call.index = 0 ∧ call.slices = slices ∧
      (transferRead reader answers call.replica slices).1 = .ok ∧
      call.Due reader answers [(key, query)] (get reader answers key query slices).events ∧
      (get reader answers key query slices).result =
        if query.isLeaseExpired (answers.clock 2) then .error .leaseExpired else .ok () := by
  cases complete : findFirstCompleteReplica query.replicas with
  | error error => simp [get, complete] at made
  | ok replica =>
    have quiet : ∀ moved : List ReadEvent,
        (∀ event ∈ moved, ∃ outcome, event = .transferred 0 slices outcome) →
        .processSlicesAsync call ∉ getHead reader answers key replica moved :=
      fun moved transferred present => nomatch isFill_getHead transferred _ present
    rcases get_cases reader answers key slices complete with
      ⟨error, events, moved, called⟩ | ⟨succeeded, called⟩
    · rw [called] at made
      exact absurd made (quiet events moved)
    · rw [called] at made ⊢
      rw [mem_append, mem_append] at made
      have filled := (made.resolve_right (by simp)).resolve_left (quiet _ (by simp))
      obtain ⟨⟨cached, missed, admitted⟩, rfl⟩ := call_mem_fillIfAdmitted.mp filled
      rw [redirectToHotCache_of_miss missed] at succeeded ⊢
      refine ⟨rfl, rfl, succeeded, ⟨query, rfl, complete, missed, cached, admitted, ?_⟩, rfl⟩
      simp [getHead]

variable {slices : SliceMap} {requests : List (ObjectKey × QueryResult)}

theorem call_mem_batchGetEach :
    .processSlicesAsync call ∈ (batchGetEach reader answers slices requests).events ↔
      ∃ request pending, requests[call.index]? = some request ∧
        (startRead reader answers slices call.index request).outcome = .ok pending ∧
        pending.future.outcome = .ok ∧
        .processSlicesAsync call ∈ fillIfAdmitted reader answers pending.index pending.key
          pending.slices pending.replica pending.cacheUsed := by
  simp only [batchGetEach, mem_append, mem_flatMap, mem_map, mem_mapIdx,
    mem_cons, not_mem_nil, or_false, false_or, reduceCtorEq]
  constructor
  · rintro (⟨_, ⟨index, inside, rfl⟩, early⟩ | ⟨_, ⟨_, ⟨index, inside, rfl⟩, rfl⟩, late⟩)
    · cases isFill_startRead _ early
    · unfold finishRead at late
      split at late
      · cases late
      · rename_i pending started
        have quiet : .processSlicesAsync call ∉
            .transferred pending.index pending.slices pending.future.outcome ::
              releaseIfUsed reader pending.key pending.cacheUsed := by
          rw [mem_cons, not_or]
          exact ⟨by simp, fun released => by cases isFill_releaseIfUsed _ released⟩
        dsimp only at late
        split at late
        · exact absurd late quiet
        · rename_i succeeded
          have filled := (mem_append.mp late).resolve_left quiet
          have indexed := (startRead_ok started).1
          obtain ⟨-, rfl⟩ := call_mem_fillIfAdmitted.mp filled
          subst indexed
          exact ⟨_, pending, getElem?_eq_getElem inside, started, not_not.mp succeeded,
            filled⟩
  · rintro ⟨request, pending, found, started, succeeded, filled⟩
    obtain ⟨inside, rfl⟩ := List.getElem?_eq_some_iff.mp found
    refine .inr ⟨_, ⟨_, ⟨call.index, inside, rfl⟩, rfl⟩, ?_⟩
    simp only [finishRead, started, succeeded, ne_eq, not_true_eq_false, if_false]
    exact mem_append_right _ filled

theorem call_mem_sameNode :
    .processSlicesAsync call ∈ (batchGetWhenPreferSameNode reader answers slices requests).events ↔
      ∃ segment entry, (segment, entry) ∈ locatedEntries reader answers slices requests ∧
        segmentFuture answers (segmentEntries reader answers slices requests segment) = some ⟨.ok⟩ ∧
        .processSlicesAsync call ∈ fillIfAdmitted reader answers entry.index entry.key
          entry.slices entry.replica entry.cacheUsed := by
  have released : ∀ entry : SegmentEntry, .processSlicesAsync call ∉
      releaseIfUsed reader entry.key entry.cacheUsed :=
    fun entry present => nomatch isFill_releaseIfUsed _ present
  have completed : ∀ entries, .processSlicesAsync call ∈
        (readSegment reader answers entries).refusal ++
          (readSegment reader answers entries).completion ↔
      segmentFuture answers entries = some ⟨.ok⟩ ∧ ∃ entry ∈ entries,
        .processSlicesAsync call ∈ fillIfAdmitted reader answers entry.index entry.key
          entry.slices entry.replica entry.cacheUsed := by
    intro entries
    unfold readSegment segmentFuture
    split
    · rename_i refused
      simp [refused, released]
    · rename_i future submitted
      obtain ⟨code⟩ := future
      dsimp only
      split <;> simp_all
  unfold batchGetWhenPreferSameNode
  simp only [mem_append, mem_flatMap] at completed ⊢
  constructor
  · rintro ((⟨start, present, early⟩ | ⟨read, walked, refused⟩) | ⟨read, walked, finished⟩)
    · obtain ⟨index, inside, rfl⟩ := mem_mapIdx.mp present
      cases isFill_startSegmentRead _ early
    · obtain ⟨segment, _, -, rfl⟩ := mem_segmentReads.mp walked
      obtain ⟨submitted, entry, present, filled⟩ := (completed _).mp (.inl refused)
      exact ⟨segment, entry, mem_segmentEntries.mp present, submitted, filled⟩
    · obtain ⟨segment, _, -, rfl⟩ := mem_segmentReads.mp walked
      obtain ⟨submitted, entry, present, filled⟩ := (completed _).mp (.inr finished)
      exact ⟨segment, entry, mem_segmentEntries.mp present, submitted, filled⟩
  · rintro ⟨segment, entry, present, submitted, filled⟩
    have walked := mem_segmentReads.mpr ⟨segment, entry, present, rfl⟩
    rcases (completed _).mpr ⟨submitted, entry, mem_segmentEntries.mpr present, filled⟩ with
      refused | finished
    · exact .inl (.inr ⟨_, walked, refused⟩)
    · exact .inr ⟨_, walked, finished⟩

theorem call_mem_batchGetEach_iff_due :
    .processSlicesAsync call ∈ (batchGetEach reader answers slices requests).events ↔
      call.Due reader answers requests (batchGetEach reader answers slices requests).events := by
  rw [call_mem_batchGetEach]
  constructor
  · rintro ⟨request, pending, requested, started, succeeded, filled⟩
    obtain ⟨⟨cached, missed, admitted⟩, rfl⟩ := call_mem_fillIfAdmitted.mp filled
    have moved := transferred_mem_batchGetEach.mpr
      ⟨request, pending, requested, started, rfl, succeeded⟩
    obtain ⟨target, replica, ready, -, named, -, redirected, used⟩ := startRead_pending started
    rw [used] at missed
    rw [redirectToHotCache_of_miss missed] at redirected
    refine ⟨request.2, ?_, ?_, ?_, cached, admitted, moved⟩
    · rw [named]
      exact requested
    · rw [redirected]
      exact (readyRead_ok ready).2
    · rw [redirected, named]
      exact missed
  · rintro ⟨query, requested, complete, missed, cached, admitted, moved⟩
    obtain ⟨request, pending, found, started, into, succeeded⟩ :=
      transferred_mem_batchGetEach.mp moved
    obtain rfl := Option.some.inj (requested.symm.trans found)
    obtain ⟨target, replica, ready, indexed, named, -, redirected, used⟩ :=
      startRead_pending started
    obtain rfl := Except.ok.inj (complete.symm.trans (readyRead_ok ready).2)
    refine ⟨_, pending, requested, started, succeeded, call_mem_fillIfAdmitted.mpr
      ⟨⟨cached, used.trans missed, ?_⟩, ?_⟩⟩
    · rw [indexed, named]
      exact admitted
    · rw [indexed, named, into, redirected, redirectToHotCache_of_miss missed]

theorem call_mem_sameNode_iff_due :
    .processSlicesAsync call ∈ (batchGetWhenPreferSameNode reader answers slices requests).events ↔
      call.Due reader answers requests
        (batchGetWhenPreferSameNode reader answers slices requests).events := by
  rw [call_mem_sameNode]
  constructor
  · rintro ⟨segment, entry, located, submitted, filled⟩
    obtain ⟨⟨cached, missed, admitted⟩, rfl⟩ := call_mem_fillIfAdmitted.mp filled
    have moved := transferred_mem_sameNode.mpr ⟨segment, entry, located, rfl, rfl, submitted⟩
    obtain ⟨request, requested, started⟩ := mem_locatedEntries.mp located
    obtain ⟨target, replica, buffer, ready, -, -, same⟩ := startSegmentRead_entry started
    generalize entry.index = index at requested admitted moved same ⊢
    obtain rfl : entry = _ := same
    dsimp only at *
    rw [redirectToHotCache_of_miss missed]
    exact ⟨request.2, requested, (readyRead_ok ready).2, missed, cached, admitted, moved⟩
  · rintro ⟨query, requested, complete, missed, cached, admitted, moved⟩
    obtain ⟨segment, entry, located, indexed, into, submitted⟩ := transferred_mem_sameNode.mp moved
    refine ⟨segment, entry, located, submitted, call_mem_fillIfAdmitted.mpr ?_⟩
    obtain ⟨request, found, started⟩ := mem_locatedEntries.mp located
    rw [indexed] at found started
    obtain rfl := Option.some.inj (requested.symm.trans found)
    obtain ⟨target, replica, buffer, ready, -, -, same⟩ := startSegmentRead_entry started
    obtain rfl := Except.ok.inj (complete.symm.trans (readyRead_ok ready).2)
    have kept := redirectToHotCache_of_miss missed
    obtain rfl : entry = _ := same
    dsimp only at *
    subst into
    exact ⟨⟨cached, missed, admitted⟩, by rw [kept]⟩

theorem call_mem_batchGet_iff_due {keys : List ObjectKey} {queries : List QueryResult}
    {preferAllocInSameNode : Bool} :
    .processSlicesAsync call ∈
        (batchGet reader answers keys queries slices preferAllocInSameNode).events ↔
      call.Due reader answers (keys.zip queries)
        (batchGet reader answers keys queries slices preferAllocInSameNode).events := by
  have silent : ∀ requests, ReadEvent.processSlicesAsync call ∈ [] ↔
      call.Due reader answers requests [] :=
    fun requests => iff_of_false not_mem_nil fun ⟨_, _, _, _, _, _, moved⟩ => nomatch moved
  unfold batchGet
  split
  · exact silent _
  · split
    · exact silent _
    · split
      · exact call_mem_sameNode_iff_due
      · exact call_mem_batchGetEach_iff_due

/-- The tasks of `BatchGet` come from its calls, in order, and a call is made exactly for a read
that was transferred, not redirected to the hot cache, and admitted to it. -/
theorem batchGet_fills_due (reader : Reader) (answers : ReadAnswers) (keys : List ObjectKey)
    (queries : List QueryResult) (slices : SliceMap) (preferAllocInSameNode : Bool) :
    TasksOfCalls reader answers
        (batchGet reader answers keys queries slices preferAllocInSameNode).events ∧
      ∀ call : FillCall,
        .processSlicesAsync call ∈
            (batchGet reader answers keys queries slices preferAllocInSameNode).events ↔
          call.Due reader answers (keys.zip queries)
            (batchGet reader answers keys queries slices preferAllocInSameNode).events :=
  ⟨batchGet_tasksOfCalls, fun _ => call_mem_batchGet_iff_due⟩

/-! ## Every task follows a transfer -/

theorem mem_submitPutTasks {answers : ReadAnswers} {index : Nat} {key other : ObjectKey}
    {position : Nat} {slices : List Slice} {slice : Slice} {accepted : Bool}
    (present : ReadEvent.submitPutTask other slice accepted ∈
      submitPutTasks answers index key position slices) : other = key ∧ slice ∈ slices := by
  induction slices generalizing position with
  | nil => cases present
  | cons first rest ih =>
    unfold submitPutTasks at present
    split at present
    · rcases mem_cons.mp present with same | later
      · cases same
        exact ⟨rfl, mem_cons_self⟩
      · obtain ⟨named, inside⟩ := ih later
        exact ⟨named, mem_cons_of_mem _ inside⟩
    · cases mem_singleton.mp present
      exact ⟨rfl, mem_cons_self⟩

theorem mem_processSlicesAsync {reader : Reader} {answers : ReadAnswers} {index : Nat}
    {key other : ObjectKey} {slices : List Slice} {replica : Replica} {slice : Slice}
    {accepted : Bool}
    (present : ReadEvent.submitPutTask other slice accepted ∈
      processSlicesAsync reader answers index key slices replica) :
    other = key ∧ slice ∈ slices ∧ fillable reader replica = true := by
  unfold processSlicesAsync at present
  split at present
  · cases present
  · rename_i cached
    split at present
    · cases present
    · rename_i shared
      obtain ⟨named, inside⟩ := mem_submitPutTasks present
      simp only [Bool.not_eq_true', Bool.not_eq_false, Bool.and_eq_true] at cached
      simp only [Bool.and_eq_true, Bool.not_eq_true', not_and, Bool.not_eq_true] at shared
      refine ⟨named, inside, ?_⟩
      simp only [fillable, Bool.and_eq_true, Bool.or_eq_true, Bool.not_eq_true']
      refine ⟨cached, ?_⟩
      cases shm : reader.hotCacheIsShm with
      | true => exact .inl rfl
      | false => exact .inr (shared shm)

theorem FillsTransferred.of_due {target : ObjectKey → Option (List Slice)}
    {events : List ReadEvent} (made : TasksOfCalls reader answers events)
    (due : ∀ call, .processSlicesAsync call ∈ events →
      call.Due reader answers requests events ∧ target call.key = some call.slices) :
    FillsTransferred reader requests target events := by
  intro key slice accepted present
  have task : ReadEvent.submitPutTask key slice accepted ∈ events.filter ReadEvent.isTask :=
    mem_filter.mpr ⟨present, rfl⟩
  rw [made] at task
  obtain ⟨call, listed, submitted⟩ := mem_flatMap.mp task
  obtain ⟨event, called, same⟩ := mem_filterMap.mp listed
  cases event with
  | processSlicesAsync other =>
    obtain rfl := Option.some.inj same
    obtain ⟨rfl, inside, passed⟩ := mem_processSlicesAsync submitted
    obtain ⟨⟨query, requested, complete, -, -, -, moved⟩, found⟩ := due other called
    exact ⟨other.index, query, other.slices, other.replica, requested, found, inside, complete,
      passed, moved⟩
  | _ => cases same

theorem get_fills (reader : Reader) (answers : ReadAnswers) (key : ObjectKey)
    {slices : List Slice} :
    FillsTransferred reader [(key, query)] (fun _ => some slices)
      (get reader answers key query slices).events := by
  refine .of_due get_tasksOfCalls fun call made => ?_
  obtain ⟨-, into, -, due, -⟩ := due_of_call_mem_get made
  exact ⟨due, by rw [into]⟩

theorem batchGet_fills (reader : Reader) (answers : ReadAnswers) {keys : List ObjectKey}
    {queries : List QueryResult} {preferAllocInSameNode : Bool} :
    FillsTransferred reader (keys.zip queries) slices.lookup
      (batchGet reader answers keys queries slices preferAllocInSameNode).events := by
  refine .of_due batchGet_tasksOfCalls fun call made => ?_
  have due := call_mem_batchGet_iff_due.mp made
  refine ⟨due, ?_⟩
  obtain ⟨query, requested, -, -, -, -, moved⟩ := due
  have aligned : queries.length = keys.length := by
    by_contra other
    unfold batchGet at made
    rw [if_pos other, ite_self] at made
    cases made
  obtain ⟨request, replica, found, into, -⟩ :=
    (batchGet_accounts reader answers aligned).located _ _ _ moved
  obtain rfl := Option.some.inj (requested.symm.trans found)
  exact into

end Mooncake.Read
