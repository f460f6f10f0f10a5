import Mooncake.Read.Issued

/-!
# The batch reads and the chosen replica

`SelectBestReplica` chooses once, but the batch reads look at the replicas again.  A read
of the filtered query result finds the chosen replica; so does the second look at DISK
replicas, unless it ends without a read.  For LOCAL_DISK objects `batch_get_into` and its
variant take the first replica of this kind, while the choice falls on the last complete one.
-/

namespace Mooncake.Read

open Library.Keyed List

/-- The replica is the one chosen from the query result, and it is complete. -/
def IsChosen (localEndpoints : List String) (queryResult : Expected QueryResult)
    (replica : Replica) : Prop :=
  ∃ query, queryResult = .ok query ∧
    selectBestReplica query.replicas localEndpoints = some replica ∧ replica.status = .complete

variable {localEndpoints : List String} {replica : Replica}

variable {query : QueryResult} {replicas : List Replica}

theorem isChosen_of_selected
    (selected : selectBestReplica query.replicas localEndpoints = some replica) :
    IsChosen localEndpoints (.ok query) replica :=
  ⟨query, rfl, selected, (selectBestReplica_usable selected).2⟩

/-! ## The second look at DISK replicas -/

namespace Inquiry

variable {inquiry : Inquiry} {capacity : Nat → Nat} {planned : Planned}

structure Chooses (inquiry : Inquiry) (planned : Planned) : Prop where
  key : inquiry.keys[planned.index]? = some planned.key
  query : inquiry.query planned.index = .ok planned.query
  selected : selectBestReplica planned.query.replicas inquiry.localEndpoints = some planned.replica

/-- A read is issued for the replica chosen for its key. -/
def Serves (inquiry : Inquiry) (issued : Issued) : Prop :=
  inquiry.keys[issued.index]? = some issued.key ∧
    IsChosen inquiry.localEndpoints (inquiry.query issued.index) issued.replica

theorem mem_chosen :
    planned ∈ plannedReads inquiry.choose inquiry.keys ↔ inquiry.Chooses planned := by
  rw [mem_plannedReads choose_named, choose_ok]
  constructor
  · rintro ⟨keyed, -, -, queried, selected⟩
    exact ⟨keyed, queried, selected⟩
  · intro chosen
    exact ⟨chosen.key, rfl, rfl, chosen.query, chosen.selected⟩

theorem mem_plannedWithin :
    planned ∈ plannedReads (inquiry.planWithin capacity) inquiry.keys ↔
      inquiry.Chooses planned ∧ totalSize planned.replica ≤ capacity planned.index := by
  rw [mem_plannedReads planWithin_named, planWithin_ok, choose_ok]
  constructor
  · rintro ⟨keyed, ⟨-, -, queried, selected⟩, fits⟩
    exact ⟨⟨keyed, queried, selected⟩, fits⟩
  · rintro ⟨chosen, fits⟩
    exact ⟨chosen.key, ⟨rfl, rfl, chosen.query, chosen.selected⟩, fits⟩

theorem Chooses.serves (chosen : inquiry.Chooses planned) :
    inquiry.Serves ⟨planned.index, planned.key, planned.replica⟩ := by
  refine ⟨chosen.key, ?_⟩
  rw [chosen.query]
  exact isChosen_of_selected chosen.selected

/-! ## Reads of filtered query results -/

/-- The operation reads the replica alone. -/
def Filtered (inquiry : Inquiry) (op : ReadOp) : Prop :=
  ∃ planned replica, inquiry.Chooses planned ∧ op.index = planned.index ∧
    op.key = planned.key ∧ op.query = filterQueryResult planned.query replica ∧
    (replica.status = .complete → replica = planned.replica)

variable {op : ReadOp}

theorem Chooses.filtered (chosen : inquiry.Chooses planned) (index : op.index = planned.index)
    (key : op.key = planned.key)
    (query : op.query = filterQueryResult planned.query planned.replica) :
    inquiry.Filtered op :=
  ⟨planned, planned.replica, chosen, index, key, query, fun _ => rfl⟩

variable {issued : Issued}

theorem mem_bufferOps {world : World} {op : BufferOp} (present : op ∈ inquiry.bufferOps world) :
    inquiry.Chooses op.planned := by
  obtain ⟨planned, listed, allocated⟩ := mem_filterMap.mp present
  unfold allocateBuffer at allocated
  split at allocated
  · cases allocated
  · obtain ⟨ptr, -, rfl⟩ := Option.map_eq_some_iff.mp allocated
    exact mem_chosen.mp listed

end Inquiry

theorem route_localDisk {planned : Planned} :
    planned.route = .localDisk ↔ planned.replica.isLocalDiskReplica = true :=
  ⟨isLocalDiskReplica_of_route, fun stored => by simp [Planned.route, stored]⟩

/-- The choice comes before every other one of its key that is put into the same map. -/
def FirstOfKey (among : Planned → Prop) (planned : Planned) : Prop :=
  among planned ∧ ∀ other, among other → other.key = planned.key → planned.index ≤ other.index

/-- A map that is filled with ordered choices keeps the first one of each key. -/
theorem mem_emplaceAll_planned {among : Planned → Prop} {reads : List Planned}
    (ordered : reads.Pairwise fun before after => before.index < after.index)
    (listed : ∀ planned, planned ∈ reads ↔ among planned) (planned : Planned) :
    planned ∈ emplaceAll Planned.key reads ↔ FirstOfKey among planned := by
  constructor
  · intro kept
    exact ⟨(listed planned).mp (mem_of_mem_emplaceAll kept), fun other present same =>
      rank_le_of_mem_emplaceAll ordered kept ((listed other).mpr present) same⟩
  · rintro ⟨present, first⟩
    exact mem_emplaceAll_of_rank_le ordered ((listed planned).mpr present)
      fun other member same => first other ((listed other).mp member) same

namespace IntoInquiry

variable {inquiry : IntoInquiry}

/-- The choices that are put into `valid_local_disk_operations`. -/
def Offloads (inquiry : IntoInquiry) (planned : Planned) : Prop :=
  inquiry.Chooses planned ∧ totalSize planned.replica ≤ inquiry.sizes.getD planned.index 0 ∧
    planned.replica.isLocalDiskReplica = true

theorem mem_routed {route : Route} {planned : Planned} :
    planned ∈ inquiry.routed route ↔ inquiry.Chooses planned ∧
      totalSize planned.replica ≤ inquiry.sizes.getD planned.index 0 ∧ planned.route = route := by
  simp only [routed, IntoInquiry.planned, mem_filter, Inquiry.mem_plannedWithin, capacity,
    decide_eq_true_eq, and_assoc]

theorem mem_localDiskOps {op : ReadOp} :
    op ∈ inquiry.localDiskOps ↔
      ∃ planned, FirstOfKey inquiry.Offloads planned ∧ inquiry.localDiskOp planned = op := by
  have ordered : (inquiry.routed .localDisk).Pairwise fun before after =>
      before.index < after.index :=
    (plannedReads_ordered planWithin_named inquiry.keys).filter _
  have listed : ∀ planned, planned ∈ inquiry.routed .localDisk ↔ inquiry.Offloads planned := by
    intro planned
    rw [mem_routed, route_localDisk]
    rfl
  rw [localDiskOps, emplaceAll_map, mem_map]
  exact exists_congr fun planned => and_congr_left' (mem_emplaceAll_planned ordered listed planned)

end IntoInquiry

/-! ## `batch_get_into_multi_buffers` -/

namespace MultiInquiry

variable {inquiry : MultiInquiry}

/-- The replica is the chosen one of its key, and the sum of the sizes is not below its size. -/
def Accepts (inquiry : MultiInquiry) (planned : Planned) : Prop :=
  inquiry.Chooses planned ∧ totalSize planned.replica ≤ inquiry.capacity planned.index

/-- The choices that are put into `valid_local_disk_ops`, which holds DISK objects too. -/
def Stores (inquiry : MultiInquiry) (planned : Planned) : Prop :=
  inquiry.Accepts planned ∧ planned.route ≠ .direct

variable {planned : Planned}

theorem mem_planned : planned ∈ inquiry.planned ↔ inquiry.Accepts planned :=
  Inquiry.mem_plannedWithin

theorem planned_ordered :
    inquiry.planned.Pairwise fun before after => before.index < after.index :=
  plannedReads_ordered planWithin_named inquiry.keys

theorem mem_storedWalk {world : World} {route : Route} :
    planned ∈ inquiry.storedWalk world route ↔
      FirstOfKey inquiry.Stores planned ∧ planned.route = route := by
  have listed : ∀ planned, planned ∈ inquiry.storedPlanned ↔ inquiry.Stores planned := by
    intro planned
    simp only [storedPlanned, mem_filter, mem_planned, decide_eq_true_eq, Stores]
  have ordered : inquiry.storedPlanned.Pairwise fun before after => before.index < after.index :=
    planned_ordered.filter _
  rw [storedWalk, mem_filter, World.mem_walk, storedOps,
    mem_emplaceAll_planned ordered listed, decide_eq_true_eq]

theorem mem_offloadPairs {world : World} {pair : String × ReadOp} :
    pair ∈ inquiry.offloadPairs world ↔
      ∃ planned, (FirstOfKey inquiry.Stores planned ∧ planned.route = .localDisk) ∧
        inquiry.prepareOffload planned = .ok pair := by
  simp only [offloadPairs, mem_preparedReads, mem_storedWalk]

theorem prepareOffload_ok {pair : String × ReadOp} :
    inquiry.prepareOffload planned = .ok pair ↔ inquiry.fitsSlices planned = true ∧
      localDiskEndpoint planned.query = some pair.1 ∧ inquiry.localDiskOp planned = pair.2 := by
  unfold prepareOffload
  cases localDiskEndpoint planned.query with
  | none => simp
  | some endpoint =>
    obtain ⟨owner, op⟩ := pair
    cases inquiry.fitsSlices planned <;> simp

end MultiInquiry

end Mooncake.Read
