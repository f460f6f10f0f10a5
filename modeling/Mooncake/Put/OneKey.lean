import Mooncake.Put.LocalFile

/-!
# One key by `Put` and by `BatchPut`

Two implementations of one protocol, compared on the same responses of the master and the
same outcomes of the transfers.  They decide alike about the replicas.  They differ in the
checks before the transfers, in what follows a failed End, and in the error they return.
-/

namespace Mooncake.Put

open Library.Threads Library.Indexed ReplicaTransferSummary List

/-! ## The comparison -/

/-- The master answers a batch of the one key as it answers the key. -/
structure SameOutcomes (answers : Answers) (key : ObjectKey) : Prop where
  start : ∀ lengths config,
    answers.batchPutStart [key] [lengths] config = [answers.putStart key lengths config]
  ends : ∀ replicaType, answers.batchPutEnd [key] replicaType = [answers.putEnd key replicaType]
  revokes : ∀ replicaType,
    answers.batchPutRevoke [key] replicaType = [answers.putRevoke key replicaType]

/-- The write mode depends on the two numbers of replicas only. -/
def WriteModeOfCounts (client : Client) : Prop :=
  ∀ config, client.determineReplicaWriteMode config = client.determineReplicaWriteMode
    { replicaNum := config.replicaNum, nofReplicaNum := config.nofReplicaNum }

def StoreEvent.isFinalize : StoreEvent → Bool
  | .putEnd .. | .putRevoke .. => true
  | _ => false

/-- The events of a program and of the tasks that it starts. -/
def allEvents (program : List (Statement StoreEvent)) : List StoreEvent :=
  program.flatMap fun statement =>
    match statement with
    | .act event => [event]
    | .fork task => task

def StoreCall.sent (run : StoreCall) : List StoreEvent :=
  (allEvents (run.program 0)).filter StoreEvent.isFinalize

/-- Both calls return the same and send the same requests. -/
structure PutsAlike (client : Client) (answers : Answers) (files : LocalFiles) (key : ObjectKey)
    (slices : List Slice) (config : ReplicateConfig) : Prop where
  results : (batchPut client answers [key] [slices] config).results =
    [(put client answers key slices config).result]
  requests : ∀ event,
    event ∈ (StoreCall.mk client answers files (.batchPut [key] [slices] config)).sent ↔
      event ∈ (StoreCall.mk client answers files (.put key slices config)).sent

/-! ## The condition -/

section Condition

variable (answers : Answers) (key : ObjectKey)

/-- An abandoned put returns the failure of its Revoke, a batch always its own error. -/
def RevokesAlike (single batch : ErrorCode) : Prop :=
  batch ≠ .objectAlreadyExists ∧
    (answers.putRevoke key .all = .error batch ∨
      answers.putRevoke key .all = .ok () ∧ single = batch)

/-- A put that keeps one type sends no Revoke after a failed End, and a batch takes
`OBJECT_ALREADY_EXISTS` for a success. -/
def KeepsAlike (kept dropped : ReplicaType) : Prop :=
  answers.putEnd key kept = .ok () ∧
    answers.putRevoke key dropped ≠ .error .objectAlreadyExists

def Fate.Alike (single batch : ErrorCode) : Fate → Prop
  | .whole => answers.putEnd key .all ≠ .error .objectAlreadyExists
  | .onlyMemory => KeepsAlike answers key .memory .nofSsd
  | .onlyNof => KeepsAlike answers key .nofSsd .memory
  | .nothing => RevokesAlike answers key single batch

/-- The responses and outcomes on which the two calls do the same. -/
def AlikeWhen (client : Client) (files : LocalFiles) (slices : List Slice)
    (config : ReplicateConfig) : Prop :=
  match answers.putStart key (slices.map Slice.size) (putConfig client config) with
  | .error error => client.transferSubmitter = true ∨ error = .invalidParams
  | .ok replicas =>
    if client.transferSubmitter && allocationExpected client (putConfig client config) replicas
    then
      (fate client (putConfig client config) replicas.zipIdx fun entry =>
        decide (transferWrite client answers slices entry = .ok)).Alike answers key
          (putError client answers slices replicas) (batchError client answers slices replicas)
    else
      replicas ≠ [] ∧
        (files.storageBackend = true → replicas.any Replica.isDiskReplica = false) ∧
        RevokesAlike answers key
          (if allocationExpected client (putConfig client config) replicas then .invalidParams
            else .noAvailableHandle)
          (if client.transferSubmitter then .noAvailableHandle else .invalidParams)

end Condition

/-! ## A batch of one operation -/

namespace FinalizeGroup

def respond (answers : Answers) (key : ObjectKey) (name : FinalizeGroup) : Expected Unit :=
  if name.isEnd then answers.putEnd key name.replicaType
  else answers.putRevoke key name.replicaType

def event (key : ObjectKey) (name : FinalizeGroup) : StoreEvent :=
  if name.isEnd then .putEnd ⟨0, 0⟩ key name.replicaType
  else .putRevoke ⟨0, 0⟩ key name.replicaType

end FinalizeGroup

section OneOperation

variable {client : Client} {answers : Answers} {grant : Grant} {fate : Fate} {error : ErrorCode}
  {op : PutOperation} (same : SameOutcomes answers grant.key)
  (own : Concludes client grant fate error op)

include same own

theorem finalizeRequests_one :
    finalizeRequests client answers [op] =
      (if grant.replicas = [] then [] else fate.groups).map fun name =>
        ⟨name, ⟨[grant.key], [0]⟩, [name.respond answers grant.key]⟩ := by
  have ordered : (FinalizeGroup.order.filter fun name => plans client name op) =
      if grant.replicas = [] then [] else fate.groups := by
    simp only [plans, own.plan]
    split
    · rfl
    · cases fate <;> rfl
  rw [finalizeRequests, ← ordered]
  induction FinalizeGroup.order with
  | nil => rfl
  | cons name rest ih =>
    rw [filterMap_cons, filter_cons, sendGroup, scanBatch_groups, ih]
    cases planned : plans client name op with
    | false => simp [BatchFinalizeGroup.collect, select, planned]
    | true =>
      cases ends : name.isEnd <;>
        simp [BatchFinalizeGroup.collect, select, positions, planned, FinalizeGroup.respond,
          ends, own.key, same.ends, same.revokes]

theorem events_one :
    (finalizeRequests client answers [op]).flatMap (FinalizeRequest.events 0) =
      (if grant.replicas = [] then [] else fate.groups).map
        (FinalizeGroup.event grant.key) := by
  rw [finalizeRequests_one same own, flatMap_map]
  induction if grant.replicas = [] then [] else fate.groups with
  | nil => rfl
  | cons name rest ih => rw [flatMap_cons, ih, map_cons]; rfl

theorem results_one (started : List PutOperation) :
    (finishBatchPut client answers started [op]).results =
      [reported (fate.result error ((if grant.replicas = [] then [] else fate.groups).map
        (FinalizeGroup.respond answers grant.key)))] := by
  have responses : ownResponses (finalizeRequests client answers [op]) 0 =
      (if grant.replicas = [] then [] else fate.groups).map
        (FinalizeGroup.respond answers grant.key) := by
    rw [finalizeRequests_one same own, ownResponses, filterMap_map, ← filterMap_eq_map]
    rfl
  obtain ⟨final, located, settled⟩ := finalizeBatchPut_settled client answers
    (getElem?_cons_zero (a := op) (l := []))
  have single : (finalizeBatchPut client answers [op]).ops = [final] := by
    have length := length_finalizeBatchPut_ops client answers [op]
    obtain ⟨only, ops⟩ := length_eq_one_iff.mp length
    rw [ops] at located ⊢
    exact congrArg (fun op => [op]) (Option.some.inj located)
  rw [← own.result, ← responses, ← congrArg Prod.snd settled, finishBatchPut]
  simp only [single, collectResults, map_cons, map_nil, reported]

end OneOperation

/-! ## The same decision -/

variable (files : LocalFiles)

section Finished

variable (answers : Answers) (key : ObjectKey) (replicas : List Replica)

/-- A batch that sends the events and reports the result does what `Put` does with the
decision. -/
def FinishesAlike (result : Expected Unit) (events : List StoreEvent)
    (decision : FinalizeDecision) : Prop :=
  reported result = (finalizePut answers key replicas decision).result ∧
    ∀ event, event ∈ events ↔
      event ∈ (finalizePut answers key replicas decision).events ⟨0, 0⟩ key

theorem finishesAlike_kept {kept dropped : ReplicaType} (error : ErrorCode) :
    FinishesAlike answers key replicas
        (Fate.onlyMemory.result error [answers.putEnd key kept, answers.putRevoke key dropped])
        [.putEnd ⟨0, 0⟩ key kept, .putRevoke ⟨0, 0⟩ key dropped]
        ⟨some kept, some dropped, true, .ok⟩ ↔
      KeepsAlike answers key kept dropped := by
  cases ended : answers.putEnd key kept <;> cases revoked : answers.putRevoke key dropped <;>
    simp [FinishesAlike, KeepsAlike, finalizePut, PutCall.events, reported, Fate.result,
      lastError, ended, revoked]

theorem Fate.finishesAlike_iff (fate : Fate) (single batch : ErrorCode) :
    FinishesAlike answers key replicas
        (fate.result batch (fate.groups.map (FinalizeGroup.respond answers key)))
        (fate.groups.map (FinalizeGroup.event key)) (fate.decision single) ↔
      fate.Alike answers key single batch := by
  cases fate with
  | whole =>
    cases ended : answers.putEnd key .all <;>
      simp [FinishesAlike, Fate.Alike, Fate.result, Fate.groups, Fate.decision, lastError,
        FinalizeGroup.respond, FinalizeGroup.event, FinalizeGroup.isEnd,
        FinalizeGroup.replicaType, finalizePut, PutCall.events, reported, ended]
  | onlyMemory => exact finishesAlike_kept answers key replicas batch
  | onlyNof => exact finishesAlike_kept answers key replicas batch
  | nothing =>
    by_cases hidden : batch = .objectAlreadyExists <;>
      cases revoked : answers.putRevoke key .all <;>
      simp [FinishesAlike, Fate.Alike, RevokesAlike, Fate.result, Fate.groups, Fate.decision,
        FinalizeGroup.event, FinalizeGroup.isEnd, FinalizeGroup.replicaType, finalizePut,
        PutCall.events, reported, revoked, hidden, eq_comm]

end Finished

/-! ## The requests for the DISK replica -/

theorem allEvents_append (first second : List (Statement StoreEvent)) :
    allEvents (first ++ second) = allEvents first ++ allEvents second :=
  flatMap_append

theorem allEvents_map_act (events : List StoreEvent) : allEvents (events.map .act) = events := by
  rw [allEvents, flatMap_map]
  exact flatMap_singleton' events

/-- The requests that follow from handing the data to the local file. -/
def diskRequests (files : LocalFiles) (key : ObjectKey) (slices : List Slice)
    (replicas : List Replica) : List StoreEvent :=
  (allEvents (storeDiskReplica files ⟨0, 0⟩ key slices replicas)).filter StoreEvent.isFinalize

theorem diskDescriptor?_eq_none_iff (replicas : List Replica) :
    diskDescriptor? replicas = none ↔ replicas.any Replica.isDiskReplica = false := by
  rw [diskDescriptor?, findSome?_eq_none_iff, any_eq_false]
  simp only [mem_reverse]
  refine forall₂_congr fun replica _ => ?_
  cases kind : replica.descriptor <;> simp [Replica.isDiskReplica, kind]

/-- A DISK replica is ended or revoked once, when there is a storage backend. -/
theorem diskRequests_cases (key : ObjectKey) (slices : List Slice) (replicas : List Replica) :
    (files.storageBackend = true → replicas.any Replica.isDiskReplica = false) ∧
        diskRequests files key slices replicas = [] ∨
      ¬ (files.storageBackend = true → replicas.any Replica.isDiskReplica = false) ∧
        (diskRequests files key slices replicas = [.putEnd ⟨0, 0⟩ key .disk] ∨
          diskRequests files key slices replicas = [.putRevoke ⟨0, 0⟩ key .disk]) := by
  unfold diskRequests storeDiskReplica putToLocalFile
  cases backend : files.storageBackend with
  | false => exact .inl ⟨by simp, rfl⟩
  | true =>
    cases found : diskDescriptor? replicas with
    | none => exact .inl ⟨fun _ => (diskDescriptor?_eq_none_iff replicas).mp found, rfl⟩
    | some descriptor =>
      refine .inr ⟨fun absent => ?_, ?_⟩
      · rw [(diskDescriptor?_eq_none_iff replicas).mpr (absent rfl)] at found
        cases found
      · cases staged : files.stage slices with
        | none => exact .inr rfl
        | some value =>
          simp only [if_true, Bool.not_true, Bool.false_eq_true, if_false, storeTask]
          cases files.storeObject 0 with
          | error error => exact .inr rfl
          | ok evicted =>
            left
            by_cases none : evicted = [] <;>
              simp [none, allEvents, StoreEvent.isFinalize]

def StoreEvent.onDisk : StoreEvent → Bool
  | .putEnd _ _ replicaType | .putRevoke _ _ replicaType => replicaType = .disk
  | _ => false

variable {key : ObjectKey} {replicas : List Replica} {event : StoreEvent}

theorem diskRequests_onDisk {files : LocalFiles} {slices : List Slice}
    (sent : event ∈ diskRequests files key slices replicas) : event.onDisk = true := by
  rcases diskRequests_cases files key slices replicas with ⟨-, none⟩ | ⟨-, one | one⟩
  · rw [none] at sent
    cases sent
  · rw [one, mem_singleton] at sent
    rw [sent]
    rfl
  · rw [one, mem_singleton] at sent
    rw [sent]
    rfl

theorem diskRequests_absent_iff (key : ObjectKey) (slices : List Slice) (replicas : List Replica) :
    (∀ event, event ∈ [] ↔ event ∈ diskRequests files key slices replicas) ↔
      (files.storageBackend = true → replicas.any Replica.isDiskReplica = false) := by
  rcases diskRequests_cases files key slices replicas with ⟨none, empty⟩ | ⟨some, one | one⟩
  · exact iff_of_true (by simp [empty]) none
  · exact iff_of_false (by simp [one]) some
  · exact iff_of_false (by simp [one]) some

/-- Two unions of separated parts are the same exactly when the parts are. -/
theorem mem_append_congr_iff {α : Type} {test : α → Bool} {first second left right : List α}
    (firstIn : ∀ value ∈ first, test value = true) (secondIn : ∀ value ∈ second, test value = true)
    (leftOut : ∀ value ∈ left, test value = false)
    (rightOut : ∀ value ∈ right, test value = false) :
    (∀ value, value ∈ first ++ left ↔ value ∈ second ++ right) ↔
      (∀ value, value ∈ first ↔ value ∈ second) ∧ ∀ value, value ∈ left ↔ value ∈ right := by
  simp only [mem_append]
  constructor
  · intro whole
    constructor <;> intro value <;> have same := whole value <;> grind
  · rintro ⟨heads, tails⟩ value
    rw [heads, tails]

/-! ## The two calls -/

theorem putConfig_preferAllocInSameNode (client : Client) (config : ReplicateConfig) :
    (putConfig client config).preferAllocInSameNode = config.preferAllocInSameNode := by
  unfold putConfig applyStoreReplicaOverrideFromEnv
  dsimp only
  split_ifs <;> rfl

theorem mem_events_finalizePut {answers : Answers} {decision : FinalizeDecision}
    (sent : event ∈ (finalizePut answers key replicas decision).events ⟨0, 0⟩ key) :
    (∃ replicaType, decision.endType = some replicaType ∧
        event = .putEnd ⟨0, 0⟩ key replicaType) ∨
      ∃ replicaType, decision.revokeType = some replicaType ∧
        event = .putRevoke ⟨0, 0⟩ key replicaType := by
  rcases mem_append.mp sent with ended | revoked
  · rw [finalizePut_ended, Option.map_map, Option.mem_toList, Option.map_eq_some_iff] at ended
    obtain ⟨replicaType, chosen, rfl⟩ := ended
    exact .inl ⟨replicaType, chosen, rfl⟩
  · rcases finalizePut_revoked answers key replicas decision with none | some
    · rw [none] at revoked
      cases revoked
    · rw [some, Option.map_map, Option.mem_toList, Option.map_eq_some_iff] at revoked
      obtain ⟨replicaType, chosen, rfl⟩ := revoked
      exact .inr ⟨replicaType, chosen, rfl⟩

theorem FinalizeGroup.event_spec (name : FinalizeGroup) :
    (name.event key).isFinalize = true ∧ (name.event key).onDisk = false := by
  cases name <;> exact ⟨rfl, rfl⟩

theorem events_finalizePut_spec {answers : Answers} {fate : Fate} {error : ErrorCode}
    (sent : event ∈ (finalizePut answers key replicas (fate.decision error)).events ⟨0, 0⟩ key) :
    event.isFinalize = true ∧ event.onDisk = false := by
  rcases mem_events_finalizePut sent with ⟨replicaType, ended, rfl⟩ | ⟨replicaType, revoked, rfl⟩
  · cases fate <;> cases ended <;> exact ⟨rfl, rfl⟩
  · cases fate <;> cases revoked <;> exact ⟨rfl, rfl⟩

theorem sent_eq {run : StoreCall} (own : ∀ event ∈ run.finalizeEvents 0, event.isFinalize = true) :
    run.sent = (allEvents (run.fileStatements 0)).filter StoreEvent.isFinalize ++
      run.finalizeEvents 0 := by
  rw [StoreCall.sent, StoreCall.program, allEvents_append, allEvents_map_act, filter_append,
    filter_eq_self.mpr own]

/-- A put of one object, by the one call or by the other. -/
structure OnePut where
  client : Client
  answers : Answers
  key : ObjectKey
  slices : List Slice
  asked : ReplicateConfig

namespace OnePut

section Model

variable (one : OnePut)

def config : ReplicateConfig :=
  putConfig one.client one.asked

/-- The start response, which both calls get. -/
def start : Expected (List Replica) :=
  one.answers.putStart one.key (one.slices.map Slice.size) one.config

def grant : Grant :=
  ⟨one.key, one.slices, one.start⟩

/-- What a batch of the one key finalizes it by. -/
def fate : Fate :=
  one.grant.fate one.client one.answers one.config [one.grant] 0

def error : ErrorCode :=
  one.grant.error one.client one.answers one.config [one.grant] 0

def groups : List FinalizeGroup :=
  if one.grant.replicas = [] then [] else one.fate.groups

/-- What the batch returns for the key. -/
def result : Expected Unit :=
  one.fate.result one.error (one.groups.map (FinalizeGroup.respond one.answers one.key))

/-- The replicas are those that were asked for. -/
def expected (replicas : List Replica) : Bool :=
  allocationExpected one.client one.config replicas

/-- The requests of the batch for the DISK replica: none for an operation that is skipped. -/
def batchDiskRequests (files : LocalFiles) : List StoreEvent :=
  if one.client.transferSubmitter && one.expected one.grant.replicas then
    diskRequests files one.key one.slices one.grant.replicas
  else []

/-- What `Put` has counted when it decides. -/
def summary (replicas : List Replica) : ReplicaTransferSummary :=
  replicas.zipIdx.foldl (recordTransfer one.client one.answers one.slices)
    (recordAllocatedReplicas replicas)

def decision (replicas : List Replica) : FinalizeDecision :=
  determineFinalizeDecision one.client.determineReplicaWriteMode one.config
    (one.summary replicas)

def singleCall : PutRequest :=
  .put one.key one.slices one.asked

def batchCall : PutRequest :=
  .batchPut [one.key] [one.slices] one.asked

def sent (files : LocalFiles) (request : PutRequest) : List StoreEvent :=
  (StoreCall.mk one.client one.answers files request).sent

end Model

variable {one : OnePut} (same : SameOutcomes one.answers one.key)
  (default : one.asked.preferAllocInSameNode = false)

include default in
theorem config_preferAllocInSameNode : one.config.preferAllocInSameNode = false :=
  (putConfig_preferAllocInSameNode one.client one.asked).trans default

include same default

theorem batchPut_one :
    ∃ before op, batchPut one.client one.answers [one.key] [one.slices] one.asked =
        finishBatchPut one.client one.answers [before] [op] ∧
      Started one.client one.config one.grant before ∧
      Concludes one.client one.grant one.fate one.error op := by
  have admitted : batchRefused one.config = false := by
    simp [batchRefused, config_preferAllocInSameNode default]
  have grants : batchGrants one.client one.answers [one.key] [one.slices] one.asked =
      [one.grant] := by
    rw [config] at admitted
    simp [batchGrants, admitted, same.start, grant, start, config]
  obtain ⟨started, transferred, run, launched, concludes⟩ :=
    @batchPut_concludes one.client one.answers [one.key] [one.slices] one.asked admitted
  rw [grants] at launched concludes
  obtain ⟨before, rfl⟩ := length_eq_one_iff.mp launched.length_eq.symm
  obtain ⟨op, rfl⟩ := length_eq_one_iff.mp concludes.length
  exact ⟨before, op, run, (forall₂_cons.mp launched).1, concludes.each 0 _ op rfl rfl⟩

theorem sent_batchCall :
    one.sent files one.batchCall =
      one.batchDiskRequests files ++ one.groups.map (FinalizeGroup.event one.key) := by
  obtain ⟨before, op, run, started, own⟩ := batchPut_one same default
  have spread := config_preferAllocInSameNode default
  rw [config] at spread
  have events : (StoreCall.mk one.client one.answers files one.batchCall).finalizeEvents 0 =
      one.groups.map (FinalizeGroup.event one.key) := by
    simp only [StoreCall.finalizeEvents, batchCall, run]
    exact events_one same own
  rw [sent, sent_eq, events]
  · congr 1
    unfold batchDiskRequests
    simp only [StoreCall.fileStatements, batchCall, spread, Bool.false_eq_true, if_false, run,
      finishBatchPut]
    cases one.client.transferSubmitter with
    | false => rfl
    | true =>
      have submitted : submitLocalFile files 0 (before, 0) =
          if one.expected one.grant.replicas then
            storeDiskReplica files ⟨0, 0⟩ one.key one.slices one.grant.replicas
          else [] := by
        rw [submitLocalFile, started.key, started.slices, started.replicas]
        cases expected : one.expected one.grant.replicas with
        | false => simp [(started.failed expected).1]
        | true =>
          have nonempty := ne_nil_of_expected expected
          simp only [(started.fresh expected).1, nonempty, Bool.false_eq_true, if_false, if_true]
          rfl
      simp only [Bool.not_true, Bool.false_eq_true, if_false, Bool.true_and, zipIdx_cons,
        zipIdx_nil, flatMap_cons, flatMap_nil, append_nil, submitted]
      split <;> rfl
  · rw [events]
    intro event sent
    obtain ⟨name, -, rfl⟩ := mem_map.mp sent
    exact name.event_spec.1

theorem batchPut_results :
    (batchPut one.client one.answers [one.key] [one.slices] one.asked).results =
      [reported one.result] := by
  obtain ⟨before, op, run, -, own⟩ := batchPut_one same default
  rw [run]
  exact results_one same own [before]

/-- With a granted start the calls are compared part by part. -/
theorem alike_iff_of_granted (granted : one.start = .ok replicas) {fate : Fate} {error : ErrorCode}
    (decided : one.decision replicas = fate.decision error) :
    PutsAlike one.client one.answers files one.key one.slices one.asked ↔
      (∀ event, event ∈ one.batchDiskRequests files ↔
          event ∈ diskRequests files one.key one.slices replicas) ∧
        FinishesAlike one.answers one.key replicas one.result
          (one.groups.map (FinalizeGroup.event one.key)) (fate.decision error) := by
  have call : put one.client one.answers one.key one.slices one.asked =
      finalizePut one.answers one.key replicas (fate.decision error) := by
    unfold start config at granted
    unfold decision summary config at decided
    simp only [put, granted, decided]
  have sent : one.sent files one.singleCall = diskRequests files one.key one.slices replicas ++
      (finalizePut one.answers one.key replicas (fate.decision error)).events ⟨0, 0⟩ one.key := by
    rw [OnePut.sent, sent_eq]
    · simp only [StoreCall.fileStatements, StoreCall.finalizeEvents, singleCall, call,
        diskRequests, finalizePut_replicas]
      rfl
    · simp only [StoreCall.finalizeEvents, singleCall, call]
      exact fun event sent => (events_finalizePut_spec sent).1
  have ofBatch : ∀ event ∈ one.batchDiskRequests files, event.onDisk = true := by
    intro event sent
    unfold batchDiskRequests at sent
    split at sent
    · exact diskRequests_onDisk sent
    · cases sent
  have planned : ∀ event ∈ one.groups.map (FinalizeGroup.event one.key),
      event.onDisk = false := by
    intro event sent
    obtain ⟨name, -, rfl⟩ := mem_map.mp sent
    exact name.event_spec.2
  have ofPut : ∀ event ∈ diskRequests files one.key one.slices replicas, event.onDisk = true :=
    fun event sent => diskRequests_onDisk sent
  have finalized : ∀ event ∈ (finalizePut one.answers one.key replicas
      (fate.decision error)).events ⟨0, 0⟩ one.key, event.onDisk = false :=
    fun event sent => (events_finalizePut_spec sent).2
  have parts := mem_append_congr_iff ofBatch ofPut planned finalized
  rw [← sent_batchCall files same default, ← sent] at parts
  have results := batchPut_results same default
  unfold FinishesAlike
  constructor
  · rintro ⟨result, requests⟩
    obtain ⟨disk, own⟩ := parts.mp requests
    rw [results, call] at result
    exact ⟨disk, (List.cons.inj result).1, own⟩
  · rintro ⟨disk, result, own⟩
    exact ⟨by rw [results, call, result], parts.mpr ⟨disk, own⟩⟩

end OnePut

end Mooncake.Put
