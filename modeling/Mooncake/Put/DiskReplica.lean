import Mooncake.Put.LocalFile

/-!
# When a DISK replica is ended

The task of the write pool ends the DISK replica of its operation once the object is
stored.  The End of type ALL that a call sends for the same operation waits for the
transfers only, so it can come first.
-/

namespace Mooncake.Put

open Library.Indexed Library.Runs Library.Threads List

/-- An End of this type covers the DISK replica. -/
def coversDisk (replicaType : ReplicaType) : Bool :=
  replicaType = .all || replicaType = .disk

section Runs

variable (calls : List StoreCall)

def HasDisk (op : OpRef) : Prop :=
  ∃ run, calls[op.call]? = some run ∧ run.hasDisk op.index = true

/-- The event stores the data of the operation under the key. -/
def Stores (op : OpRef) (key : ObjectKey) (event : StoreEvent) : Prop :=
  ∃ run path value, calls[op.call]? = some run ∧ run.data op.index = some value ∧
    event = .storeObject op path value key true

/-- No DISK replica is ended before its data is stored, and none whose store failed. -/
structure DiskEndsStored (trace : List StoreEvent) : Prop where
  stored : ∀ before op key replicaType after,
    trace = before ++ .putEnd op key replicaType :: after → coversDisk replicaType = true →
    HasDisk calls op → ∃ event ∈ before, Stores calls op key event
  failed : ∀ op path value key, .storeObject op path value key false ∈ trace →
    ∀ replicaType, coversDisk replicaType = true → .putEnd op key replicaType ∉ trace

end Runs

/-! ## The task -/

section Calls

variable {replicas : List Replica} {files : LocalFiles} {op other : OpRef} {key named : ObjectKey}
  {slices : List Slice} {statement : Statement StoreEvent} {value : List UInt8} {path : String}
  {replicaType : ReplicaType} {config : ReplicateConfig} {run : StoreCall} {call index : Nat}
  {calls : List StoreCall}

theorem any_isDiskReplica_of_diskDescriptor {descriptor : DiskDescriptor}
    (found : diskDescriptor? replicas = some descriptor) :
    replicas.any Replica.isDiskReplica = true := by
  obtain ⟨replica, present, chosen⟩ := exists_of_findSome?_eq_some found
  refine any_eq_true.mpr ⟨replica, mem_reverse.mp present, ?_⟩
  cases same : replica.descriptor with
  | disk descriptor => simp [Replica.isDiskReplica, same]
  | _ => simp [same] at chosen

/-- The statements for a DISK replica: a Revoke, or the task of the staged data. -/
theorem mem_storeDiskReplica (present : statement ∈ storeDiskReplica files op key slices replicas) :
    replicas.any Replica.isDiskReplica = true ∧
      (statement = .act (.putRevoke op key .disk) ∨
        ∃ value path, files.stage slices = some value ∧
          statement = .fork (storeTask files op key value path)) := by
  unfold storeDiskReplica putToLocalFile at present
  split at present
  · split at present
    · cases present
    · rename_i descriptor found
      refine ⟨any_isDiskReplica_of_diskDescriptor found, ?_⟩
      split at present
      · cases present
      · split at present
        · exact .inl (mem_singleton.mp present)
        · rename_i value staged
          exact .inr ⟨value, descriptor.filePath, staged, mem_singleton.mp present⟩
  · cases present

theorem mem_storeTask_storeObject {bytes : List UInt8} {file : String} {stored : Bool}
    (present : .storeObject other file bytes named stored ∈ storeTask files op key value path) :
    other = op ∧ stored = (files.storeObject op.index).isOk := by
  unfold storeTask at present
  cases outcome : files.storeObject op.index <;>
    simp_all [Except.isOk, Except.toBool, mem_ite_nil_left]

/-- A task sends no End but that of its own DISK replica, and only once it is stored. -/
theorem mem_storeTask_putEnd
    (present : .putEnd other named replicaType ∈ storeTask files op key value path) :
    other = op ∧ named = key ∧ ∃ rest, storeTask files op key value path =
      .storeObject op path value key true :: rest := by
  unfold storeTask at present ⊢
  cases outcome : files.storeObject op.index with
  | error error =>
    rw [outcome] at present
    simp at present
  | ok evicted =>
    rw [outcome] at present
    have last : StoreEvent.putEnd other named replicaType = .putEnd op key .disk := by
      by_cases none : evicted = [] <;> simpa [none] using present
    obtain ⟨rfl, rfl, -⟩ := StoreEvent.putEnd.inj last
    exact ⟨rfl, rfl, _, rfl⟩

theorem storeTask_ends {front back : List StoreEvent}
    (split : storeTask files op key value path = front ++ .putEnd other named replicaType :: back) :
    other = op ∧ named = key ∧ .storeObject op path value key true ∈ front := by
  obtain ⟨rfl, rfl, rest, task⟩ := mem_storeTask_putEnd (split ▸ mem_append_cons_self)
  rw [task] at split
  refine ⟨rfl, rfl, ?_⟩
  cases front with
  | nil => cases split
  | cons first later =>
    obtain ⟨rfl, -⟩ := List.cons.inj split
    exact mem_cons_self

/-! ## The finalize requests of a call -/

/-- `DetermineFinalizeDecision` ends ALL for the expected replicas, kept as a whole. -/
theorem determineFinalizeDecision_endAll_iff {client : Client} {summary : ReplicaTransferSummary}
    {written : Replica × Nat → Bool} (tallies : Tallies summary replicas.zipIdx written)
    (memory : summary.allocatedMemoryReplicas = replicas.countP Replica.isMemoryReplica)
    (nof : summary.allocatedNofReplicas = replicas.countP Replica.isNofReplica) :
    (determineFinalizeDecision client.determineReplicaWriteMode config summary).endType =
        some .all ↔
      (allocationExpected client config replicas &&
        decide (fate client config replicas.zipIdx written = .whole)) = true := by
  have allocation := @hasExpected_eq client config replicas summary memory nof
  cases expected : allocationExpected client config replicas with
  | true =>
    rw [determineFinalizeDecision_fate tallies (allocation.trans expected)]
    cases fate client config replicas.zipIdx written <;> simp [Fate.decision]
  | false =>
    rw [expected] at allocation
    refine iff_of_false ?_ (by simp)
    by_cases flexible : client.determineReplicaWriteMode config = .flexibleDualReplica
    · -- a memory replica would be enough for the allocation
      have none : summary.allocatedMemoryReplicas = 0 := by
        rw [hasExpectedReplicaAllocation, if_pos flexible] at allocation
        split at allocation <;> simp only [decide_eq_false_iff_not] at allocation <;> omega
      rw [memory, ← countP_zipIdx_fst Replica.isMemoryReplica, countP_eq_zero] at none
      have unwritten : ¬ 0 < summary.successfulMemoryTransfers := by
        rw [← decide_eq_true_eq (p := 0 < _), ← tallies.memory, any_eq_true]
        rintro ⟨entry, inside, both⟩
        exact none entry inside (Bool.and_eq_true _ _ ▸ both).1
      simp only [determineFinalizeDecision, flexible, unwritten, ne_eq, not_true_eq_false,
        decide_false, Bool.false_and, Bool.false_eq_true, if_false]
      split <;> simp
    · simp [determineFinalizeDecision, flexible, allocation]

theorem determineFinalizeDecision_endType_ne_disk (mode : ReplicateConfig → ReplicaWriteMode)
    (config : ReplicateConfig) (summary : ReplicaTransferSummary) :
    (determineFinalizeDecision mode config summary).endType ≠ some .disk := by
  have shape := determineFinalizeDecision_shape mode config summary
  generalize determineFinalizeDecision mode config summary = decision at shape
  cases shape <;> simp

/-- An End of a batch that covers the DISK replica is the one of type ALL. -/
theorem FinalizeGroup.eq_endAll_of_covers {name : FinalizeGroup} (isEnd : name.isEnd = true)
    (covers : coversDisk name.replicaType = true) : name = .endAll := by
  cases name with
  | endAll => rfl
  | endMemory => cases covers
  | endNof => cases covers
  | _ => cases isEnd

theorem Grant.endAll_mem_actions_iff {client : Client} {answers : Answers} {grants : List Grant}
    {grant : Grant} :
    .endAll ∈ grant.actions client answers config grants index ↔
      grant.fate client answers config grants index = .whole := by
  have nonempty : grant.fate client answers config grants index = .whole →
      grant.replicas ≠ [] := by
    intro whole empty
    simp [Grant.fate, empty, allocationExpected_nil] at whole
  unfold Grant.actions
  split
  · rename_i empty
    exact iff_of_false not_mem_nil fun whole => nonempty whole empty
  · cases grant.fate client answers config grants index <;> simp [Fate.groups]

theorem exists_op_of_mem_entries {client : Client} {answers : Answers} {ops : List PutOperation}
    {request : FinalizeRequest} (sent : request ∈ finalizeRequests client answers ops)
    (named : (key, index) ∈ request.group.entries) : ∃ op, ops[index]? = some op := by
  obtain ⟨name, -, chosen⟩ := mem_filterMap.mp sent
  obtain ⟨-, group, -⟩ := sendGroup_eq_some chosen
  rw [group, BatchFinalizeGroup.collect_entries, mem_map] at named
  obtain ⟨⟨op, position⟩, selected, same⟩ := named
  obtain ⟨-, rfl⟩ := Prod.mk.inj same
  exact ⟨op, (mem_select.mp selected).1⟩

/-- The object is kept as a whole. -/
def StoreCall.EndsAll (run : StoreCall) (index : Nat) : Prop :=
  ∃ grant, run.grants[index]? = some grant ∧ run.keepsAll index grant = true

section Ends

variable (covers : coversDisk replicaType = true)

include covers

theorem putEnd_mem_put (request : run.request = .put key slices config) (call : Nat) (op : OpRef)
    (named : ObjectKey) :
    .putEnd op named replicaType ∈
        (put run.client run.answers key slices config).events ⟨call, 0⟩ key ↔
      replicaType = .all ∧ op = ⟨call, 0⟩ ∧ named = key ∧ run.EndsAll 0 := by
  simp only [StoreCall.EndsAll, StoreCall.grants, StoreCall.keepsAll, request, put,
    getElem?_cons_zero, Option.some_inj, exists_eq_left']
  cases run.answers.putStart key (slices.map Slice.size) (putConfig run.client config) with
  | error error =>
    have unexpected := @allocationExpected_nil run.client (putConfig run.client config)
    simp [PutCall.events, Grant.replicas, unexpected]
  | ok replicas =>
    have accounts := put_accounts run.client run.answers slices replicas
    have endAll := @determineFinalizeDecision_endAll_iff _ (putConfig run.client config) run.client
      _ _ accounts.tallies
      (accounts.allocatedMemory.trans (countP_zipIdx_fst Replica.isMemoryReplica replicas))
      (accounts.allocatedNof.trans (countP_zipIdx_fst Replica.isNofReplica replicas))
    have notDisk := determineFinalizeDecision_endType_ne_disk run.client.determineReplicaWriteMode
      (putConfig run.client config) (replicas.zipIdx.foldl
        (recordTransfer run.client run.answers slices)
        (ReplicaTransferSummary.recordAllocatedReplicas replicas))
    rw [Grant.replicas, ← endAll]
    simp only [PutCall.events, finalizePut_ended, mem_append, Option.mem_toList,
      Option.map_map, Option.map_eq_some_iff, Function.comp_apply, reduceCtorEq, and_false,
      exists_false, or_false, StoreEvent.putEnd.injEq]
    constructor
    · rintro ⟨endType, decided, rfl, rfl, rfl⟩
      cases endType with
      | all => exact ⟨rfl, rfl, rfl, decided⟩
      | disk => exact absurd decided notDisk
      | _ => cases covers
    · rintro ⟨rfl, rfl, rfl, decided⟩
      exact ⟨_, decided, rfl, rfl, rfl⟩

theorem putEnd_mem_batchPut {keys : List ObjectKey} {batchedSlices : List (List Slice)}
    (request : run.request = .batchPut keys batchedSlices config) :
    (∃ named, .putEnd op named replicaType ∈
        (batchPut run.client run.answers keys batchedSlices
          config).finalization.requests.flatMap (FinalizeRequest.events call)) ↔
      replicaType = .all ∧ op.call = call ∧ run.EndsAll op.index := by
  simp only [StoreCall.EndsAll, StoreCall.grants, StoreCall.keepsAll, request, decide_eq_true_eq]
  cases refused : batchRefused (putConfig run.client config) with
  | true =>
    obtain ⟨call, none⟩ := @batchPut_of_refused run.client run.answers config keys batchedSlices
      refused
    simp [call, none]
  | false =>
    obtain ⟨started, ops, call, -, concludes⟩ :=
      @batchPut_concludes run.client run.answers keys batchedSlices config refused
    rw [call]
    generalize batchGrants run.client run.answers keys batchedSlices config = grants at concludes ⊢
    constructor
    · rintro ⟨named, present⟩
      obtain ⟨sent, listed, event⟩ := mem_flatMap.mp present
      obtain ⟨⟨key, index⟩, entered, same⟩ := mem_map.mp event
      split at same
      · rename_i isEnd
        obtain ⟨rfl, rfl, rfl⟩ := StoreEvent.putEnd.inj same
        obtain ⟨found, located⟩ := exists_op_of_mem_entries listed entered
        obtain ⟨-, planned⟩ := (named_iff_planned _ _ located listed _).mp entered
        obtain ⟨grant, granted, own⟩ := concludes.exists_grant located
        have name := FinalizeGroup.eq_endAll_of_covers isEnd covers
        rw [own.plan, name] at planned
        rw [name]
        exact ⟨rfl, rfl, grant, granted, Grant.endAll_mem_actions_iff.mp planned⟩
      · cases same
    · rintro ⟨rfl, rfl, grant, granted, whole⟩
      obtain ⟨found, located, own⟩ := concludes.exists_op granted
      have planned : .endAll ∈ (found.finalizePlan run.client).actions := by
        rw [own.plan]
        exact Grant.endAll_mem_actions_iff.mpr whole
      obtain ⟨sent, chosen⟩ := sendGroup_isSome_of_plans run.client run.answers located planned
      have listed : sent ∈ finalizeRequests run.client run.answers ops :=
        mem_filterMap.mpr ⟨.endAll, FinalizeGroup.mem_order .endAll, chosen⟩
      have name := (sendGroup_eq_some chosen).1
      have entered := (named_iff_planned run.client run.answers located listed found.key).mpr
        ⟨rfl, name ▸ planned⟩
      refine ⟨found.key, mem_flatMap.mpr ⟨sent, listed, mem_map.mpr ⟨_, entered, ?_⟩⟩⟩
      rw [name]
      rfl

/-- A call ends ALL for the objects that are kept as a whole, and sends no other End that covers
a DISK replica. -/
theorem putEnd_mem_finalizeEvents :
    (∃ named, .putEnd op named replicaType ∈ run.finalizeEvents call) ↔
      replicaType = .all ∧ op.call = call ∧ run.EndsAll op.index := by
  unfold StoreCall.finalizeEvents
  cases request : run.request with
  | batchPut keys batchedSlices config => exact putEnd_mem_batchPut covers request
  | put key slices config =>
    simp only [putEnd_mem_put covers request call op]
    constructor
    · rintro ⟨named, all, rfl, -, kept⟩
      exact ⟨all, rfl, kept⟩
    · rintro ⟨all, rfl, grant, granted, kept⟩
      obtain ⟨call, index⟩ := op
      have first : index = 0 := by
        have inside := (List.getElem?_eq_some_iff.mp granted).1
        simpa [StoreCall.grants, request] using inside
      subst first
      exact ⟨key, all, rfl, rfl, grant, granted, kept⟩

end Ends

/-! ## The programs -/

theorem mem_fileStatements (present : statement ∈ run.fileStatements call) :
    ∃ index key, run.hasDisk index = true ∧
      (statement = .act (.putRevoke ⟨call, index⟩ key .disk) ∨
        ∃ value path, run.data index = some value ∧
          statement = .fork (storeTask run.files ⟨call, index⟩ key value path)) := by
  unfold StoreCall.fileStatements at present
  unfold StoreCall.hasDisk StoreCall.data StoreCall.grants
  cases request : run.request with
  | put key slices config =>
    rw [request] at present
    obtain ⟨disk, cases⟩ := mem_storeDiskReplica present
    refine ⟨0, key, ?_, by simpa using cases⟩
    dsimp only [put] at disk
    cases start : run.answers.putStart key (slices.map Slice.size)
      (putConfig run.client config) with
    | error error => simp [start] at disk
    | ok replicas => simpa [start, finalizePut_replicas, Grant.replicas] using disk
  | batchPut keys batchedSlices config =>
    rw [request] at present
    dsimp only at present
    split at present
    · cases present
    · rename_i spread
      split at present
      · cases present
      · have admitted : batchRefused (putConfig run.client config) = false := by
          simp [batchRefused, spread]
        obtain ⟨started, ops, outcome, launched, -⟩ :=
          @batchPut_concludes run.client run.answers keys batchedSlices config admitted
        rw [outcome] at present
        obtain ⟨⟨op, index⟩, listed, submitted⟩ := mem_flatMap.mp present
        have found : started[index]? = some op := mem_zipIdx_iff_getElem?.mp listed
        obtain ⟨grant, granted, own⟩ := exists_grant_of_started launched found
        unfold submitLocalFile at submitted
        split at submitted
        · cases submitted
        · split at submitted
          · cases submitted
          · obtain ⟨disk, cases⟩ := mem_storeDiskReplica submitted
            rw [own.replicas] at disk
            rw [own.slices] at cases
            exact ⟨index, op.key, by simpa [granted] using disk, by simpa [granted] using cases⟩

theorem fork_mem_program {task : List StoreEvent} (present : .fork task ∈ run.program call) :
    ∃ index key value path, run.hasDisk index = true ∧ run.data index = some value ∧
      task = storeTask run.files ⟨call, index⟩ key value path := by
  rcases mem_append.mp present with early | late
  · obtain ⟨index, key, disk, same | ⟨value, path, staged, same⟩⟩ := mem_fileStatements early
    · cases same
    · cases same
      exact ⟨index, key, value, path, disk, staged, rfl⟩
  · simp at late

theorem putEnd_mem_acts (run : StoreCall) (call : Nat) (op : OpRef)
    (covers : coversDisk replicaType = true) :
    (∃ named, .putEnd op named replicaType ∈ acts (run.program call)) ↔
      replicaType = .all ∧ op.call = call ∧ run.EndsAll op.index := by
  have revokes : ∀ named, .putEnd op named replicaType ∉ acts (run.fileStatements call) := by
    intro named present
    obtain ⟨index, key, -, same | ⟨value, path, -, same⟩⟩ :=
      mem_fileStatements (mem_acts.mp present) <;> cases same
  simp only [StoreCall.program, acts_append, acts_map_act, mem_append, revokes, false_or]
  exact putEnd_mem_finalizeEvents covers

theorem storeObject_not_mem_acts (run : StoreCall) (call : Nat) (op : OpRef) (path : String)
    (value : List UInt8) (key : ObjectKey) (stored : Bool) :
    .storeObject op path value key stored ∉ acts (run.program call) := by
  intro present
  simp only [StoreCall.program, acts_append, acts_map_act, mem_append] at present
  rcases present with early | late
  · obtain ⟨index, key, -, same | ⟨value, path, -, same⟩⟩ :=
      mem_fileStatements (mem_acts.mp early) <;> cases same
  · unfold StoreCall.finalizeEvents at late
    split at late
    · simp [PutCall.events] at late
    · obtain ⟨request, -, event⟩ := mem_flatMap.mp late
      obtain ⟨entry, -, same⟩ := mem_map.mp event
      split at same <;> cases same

/-! ## Every interleaving -/

theorem mem_startCalls {program : List (Statement StoreEvent)}
    (present : program ∈ (startCalls calls).threads) :
    ∃ (call : Nat) (run : StoreCall), calls[call]? = some run ∧ program = run.program call := by
  obtain ⟨call, inside, rfl⟩ := mem_mapIdx.mp present
  exact ⟨call, calls[call], getElem?_eq_getElem inside, rfl⟩

/-- A store belongs to an operation with a DISK replica and has its one outcome. -/
def StoreOutcome (calls : List StoreCall) (op : OpRef) (stored : Bool) : Prop :=
  HasDisk calls op ∧
    ∃ run, calls[op.call]? = some run ∧ stored = (run.files.storeObject op.index).isOk

/-- The events that need an earlier one: an End for a DISK replica needs the store of its data,
and no event makes up for a store with a wrong outcome. -/
def NeedsStore (calls : List StoreCall) : StoreEvent → Prop
  | .putEnd op _ replicaType => coversDisk replicaType = true ∧ HasDisk calls op
  | .storeObject op _ _ _ stored => ¬ StoreOutcome calls op stored
  | _ => False

def StoredFor (calls : List StoreCall) : StoreEvent → StoreEvent → Prop
  | .putEnd op key _, earlier => Stores calls op key earlier
  | _, _ => False

/-- No object with a DISK replica is kept as a whole. -/
def NoDiskEndsAll (calls : List StoreCall) : Prop :=
  ∀ run ∈ calls, ∀ (index : Nat) (grant : Grant), run.grants[index]? = some grant →
    grant.replicas.any Replica.isDiskReplica = true → run.keepsAll index grant = false

theorem acts_justified (safe : NoDiskEndsAll calls) (found : calls[call]? = some run) :
    Justified (NeedsStore calls) (StoredFor calls) [] (acts (run.program call)) := by
  intro front event back split demanded
  exfalso
  have present : event ∈ acts (run.program call) := split ▸ mem_append_cons_self
  cases event with
  | putEnd op key replicaType =>
    obtain ⟨covers, owner, located, disk⟩ := demanded
    obtain ⟨-, rfl, grant, granted, kept⟩ := (putEnd_mem_acts run call op covers).mp ⟨key, present⟩
    obtain rfl := Option.some.inj (found.symm.trans located)
    have unkept := safe run (mem_of_getElem? found) op.index grant granted
      (by simpa [StoreCall.hasDisk, granted] using disk)
    cases unkept.symm.trans kept
  | storeObject => exact storeObject_not_mem_acts _ _ _ _ _ _ _ present
  | _ => exact demanded

theorem task_justified (found : calls[call]? = some run) {task : List StoreEvent}
    (forked : .fork task ∈ run.program call) :
    Justified (NeedsStore calls) (StoredFor calls) [] task := by
  obtain ⟨index, key, value, path, disk, staged, rfl⟩ := fork_mem_program forked
  intro front event back split demanded
  cases event with
  | putEnd op named replicaType =>
    obtain ⟨rfl, rfl, stored⟩ := storeTask_ends split
    exact ⟨_, stored, run, path, value, found, staged, rfl⟩
  | storeObject op file bytes named stored =>
    obtain ⟨rfl, outcome⟩ := mem_storeTask_storeObject (split ▸ mem_append_cons_self)
    exact absurd ⟨⟨run, found, disk⟩, run, found, outcome⟩ demanded
  | _ => exact demanded.elim

end Calls

theorem trace_justified {calls : List StoreCall} (safe : NoDiskEndsAll calls)
    {schedule : List Nat} {final : Pool StoreEvent}
    (ran : run Pool.step (startCalls calls) schedule = some final) :
    Justified (NeedsStore calls) (StoredFor calls) [] final.trace := by
  refine run_justified ran rfl ?_ ?_
  · intro program present
    obtain ⟨call, run, found, rfl⟩ := mem_startCalls present
    exact acts_justified safe found
  · intro program present task forked
    obtain ⟨call, run, found, rfl⟩ := mem_startCalls present
    exact task_justified found forked

/-- In every interleaving of the calls and their tasks no DISK replica is ended before its
data is stored, iff no object with a DISK replica is kept as a whole. -/
theorem diskEnds_stored_iff (calls : List StoreCall) :
    (∀ schedule final, run Pool.step (startCalls calls) schedule = some final →
      DiskEndsStored calls final.trace) ↔ NoDiskEndsAll calls := by
  constructor
  · intro stored owner listed index grant granted disk
    by_contra kept
    rw [Bool.not_eq_false] at kept
    have hasDisk : owner.hasDisk index = true := by
      simpa [StoreCall.hasDisk, granted] using disk
    -- the call runs to its end before the pool starts the task
    obtain ⟨call, found⟩ := getElem?_of_mem listed
    have thread : (startCalls calls).threads[call]? = some (owner.program call) := by
      simp [startCalls, found]
    obtain ⟨schedule, final, ran, trace⟩ := run_alone thread
    obtain ⟨key, present⟩ := (putEnd_mem_acts owner call ⟨call, index⟩ rfl).mpr
      ⟨rfl, rfl, grant, granted, kept⟩
    have acted : final.trace = acts (owner.program call) := by simpa [startCalls] using trace
    rw [← acted] at present
    obtain ⟨before, after, split⟩ := append_of_mem present
    obtain ⟨event, earlier, _, path, value, -, -, rfl⟩ :=
      (stored schedule final ran).stored before _ key .all after split rfl
        ⟨owner, found, hasDisk⟩
    refine storeObject_not_mem_acts owner call ⟨call, index⟩ path value key true ?_
    rw [← acted, split]
    exact mem_append_left _ earlier
  · intro safe schedule final ran
    have justified := trace_justified safe ran
    have stored : ∀ before op key replicaType after,
        final.trace = before ++ .putEnd op key replicaType :: after →
        coversDisk replicaType = true → HasDisk calls op →
        ∃ event ∈ before, Stores calls op key event := by
      intro before op key replicaType after split covers disk
      exact justified before (.putEnd op key replicaType) after split ⟨covers, disk⟩
    have outcome : ∀ {op path value key stored},
        .storeObject op path value key stored ∈ final.trace → StoreOutcome calls op stored := by
      intro op path value key stored present
      obtain ⟨before, after, split⟩ := append_of_mem present
      by_contra wrong
      obtain ⟨-, -, ⟨⟩⟩ := justified before _ after split wrong
    refine ⟨stored, fun op path value key failed replicaType covers present => ?_⟩
    obtain ⟨disk, owner, found, failure⟩ := outcome failed
    obtain ⟨before, after, split⟩ := append_of_mem present
    obtain ⟨event, earlier, _, file, bytes, -, -, rfl⟩ :=
      stored before op key replicaType after split covers disk
    obtain ⟨-, other, located, success⟩ := outcome (split ▸ mem_append_left _ earlier)
    obtain rfl := Option.some.inj (found.symm.trans located)
    exact absurd (failure.trans success.symm) (by simp)

/-- A `Put` with a MEMORY and a DISK replica whose transfer succeeds and whose store fails. -/
def failingStore : StoreCall where
  client := sampleClient
  answers :=
    { sampleAnswers with
      putStart := fun _ _ _ => .ok [sampleMemoryReplica, ⟨.processing, .disk ⟨"file", 1⟩⟩] }
  files := ⟨true, fun _ => some [7], fun _ => .error .internalError⟩
  request := .put "key" [⟨0, 1⟩] {}

/-- The call ends ALL while its task waits; the store fails afterwards. -/
theorem endAll_before_failed_store :
    (run Pool.step (startCalls [failingStore]) [0, 0, 1, 1]).map Pool.trace =
      some [.putEnd ⟨0, 0⟩ "key" .all, .storeObject ⟨0, 0⟩ "file" [7] "key" false,
        .putRevoke ⟨0, 0⟩ "key" .disk] ∧
    ¬ DiskEndsStored [failingStore]
      [.putEnd ⟨0, 0⟩ "key" .all, .storeObject ⟨0, 0⟩ "file" [7] "key" false,
        .putRevoke ⟨0, 0⟩ "key" .disk] := by
  refine ⟨by decide, fun stored => ?_⟩
  exact stored.failed ⟨0, 0⟩ "file" [7] "key" (by decide) .all rfl (by decide)

end Mooncake.Put
