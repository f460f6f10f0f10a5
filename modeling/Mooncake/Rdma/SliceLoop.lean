import Mooncake.Library.Indexed
import Mooncake.Library.Spans
import Mooncake.Rdma.Submission

/-!
# The slices of one task

The loop places consecutive slices of the request until a slice finds no active device.  What
it leaves in the task and among the slices that wait is said once, for every outcome.
-/

namespace Mooncake.Rdma

open Library List

/-! ## Posting -/

/-- The slices of a group, each with the device of the group. -/
def onDevice (group : Nat × List Slice) : List (Nat × Slice) :=
  group.2.map (Prod.mk group.1)

theorem pushSlice_perm {device : Nat} {slice : Slice} {groups : List (Nat × List Slice)} :
    ((pushSlice device slice groups).flatMap onDevice).Perm
      ((device, slice) :: groups.flatMap onDevice) := by
  induction groups with
  | nil => exact .refl _
  | cons group rest ih =>
    unfold pushSlice
    split
    · rename_i same
      simp only [flatMap_cons, onDevice, map_append, map_singleton,
        append_assoc, singleton_append, same]
      exact perm_middle
    · simp only [flatMap_cons]
      exact (ih.append_left _).trans perm_middle

theorem map_snd_onDevice (groups : List (Nat × List Slice)) :
    (groups.flatMap onDevice).map Prod.snd = groups.flatMap Prod.snd := by
  simp [map_flatMap, onDevice, Function.comp_def]

namespace Posting

def placed (posting : Posting) : List (Nat × Slice) :=
  (posting.calls ++ posting.slicesToPost).flatMap onDevice

variable (posting : Posting) (fromCache : Bool)

@[simp]
theorem placed_allocate :
    (posting.allocate fromCache).placed = posting.placed := by
  cases fromCache <;> rfl

theorem placed_push (device : Nat) (slice : Slice) :
    (posting.push device slice).placed.Perm ((device, slice) :: posting.placed) := by
  simp only [placed, push, flatMap_append]
  refine ((pushSlice_perm).append_left _).trans ?_
  exact perm_middle

@[simp]
theorem placed_postAt (watermark : Nat) :
    (posting.postAt watermark).placed = posting.placed := by
  unfold postAt
  split
  · simp [post, placed]
  · rfl

def handed (posting : Posting) : List Slice :=
  posting.posted ++ posting.waiting

theorem handed_eq : posting.handed = posting.placed.map Prod.snd := by
  rw [placed, map_snd_onDevice, flatMap_append]
  rfl

theorem posted_post : posting.post.posted = posting.handed :=
  flatMap_append

end Posting

/-! ## Slices in a row -/

/-- The slices of a request between two offsets, in their order: they follow one another in the
source and in the destination and are not empty; all have the size of a block but the last,
which may be longer by a fragment. -/
structure Partition (config : SubmitConfig) (request : TransferRequest) (offset reach : Nat)
    (slices : List Slice) : Prop where
  source : Spans Slice.sourceAddr Slice.length (request.source + offset) slices
    (request.source + reach)
  dest : Spans Slice.destAddr Slice.length (request.targetOffset + offset) slices
    (request.targetOffset + reach)
  whole : ∀ slice ∈ slices.dropLast, slice.length = config.sliceSize
  last : ∀ slice ∈ slices.getLast?, slice.length ≤ config.sliceSize + config.fragmentLimit

namespace Partition

variable {config : SubmitConfig} {request : TransferRequest} {offset reach : Nat}
  {slices : List Slice} {slice : Slice}

theorem nil : Partition config request offset offset [] :=
  ⟨.nil _, .nil _, nofun, nofun⟩

theorem total (partition_ : Partition config request 0 reach slices) :
    (slices.map Slice.length).sum = reach := by
  have := partition_.source.total
  omega

theorem singleton (source : slice.sourceAddr = request.source + offset)
    (dest : slice.destAddr = request.targetOffset + offset)
    (length : slice.length = request.length - offset) (inside : offset < request.length)
    (small : slice.length ≤ config.sliceSize + config.fragmentLimit) :
    Partition config request offset request.length [slice] where
  source := .singleton source (by omega) (by omega)
  dest := .singleton dest (by omega) (by omega)
  whole := nofun
  last := by
    intro other same
    obtain rfl := Option.some.inj same
    exact small

theorem cons (source : slice.sourceAddr = request.source + offset)
    (dest : slice.destAddr = request.targetOffset + offset)
    (length : slice.length = config.sliceSize)
    (rest : Partition config request (offset + config.sliceSize) reach slices) :
    Partition config request offset reach (slice :: slices) where
  source := by
    refine .cons source (length ▸ config.sliceSize_pos) ?_
    rw [length, Nat.add_assoc]
    exact rest.source
  dest := by
    refine .cons dest (length ▸ config.sliceSize_pos) ?_
    rw [length, Nat.add_assoc]
    exact rest.dest
  whole := by
    cases slices with
    | nil => nofun
    | cons next others => exact forall_mem_cons.mpr ⟨length, rest.whole⟩
  last := by
    cases slices with
    | nil => simp [length]
    | cons next others =>
      rw [getLast?_cons_cons]
      exact rest.last

end Partition

/-! ## The devices of the slices -/

/-- The loop reaches a slice with this index when the slices before it find their devices. -/
def HasSlice (config : SubmitConfig) (request : TransferRequest) (index : Nat) : Prop :=
  if index = 0 then 0 < request.length
  else index * config.sliceSize + config.fragmentLimit < request.length

variable {config : SubmitConfig} {request : TransferRequest} {index : Nat}

theorem HasSlice.lt {offset : Nat} (has : HasSlice config request index)
    (aligned : offset = index * config.sliceSize) :
    offset < request.length := by
  unfold HasSlice at has
  split at has
  · rename_i first
    rwa [aligned, first, Nat.zero_mul]
  · omega

theorem HasSlice.eq_of_merge {later offset : Nat} (has : HasSlice config request later)
    (above : index ≤ later) (aligned : offset = index * config.sliceSize)
    (merged : mergeFinalSlice config request offset = true) : later = index := by
  by_contra different
  simp only [mergeFinalSlice, decide_eq_true_eq] at merged
  rw [HasSlice, if_neg (by omega)] at has
  have far : (index + 1) * config.sliceSize ≤ later * config.sliceSize :=
    Nat.mul_le_mul_right _ (by omega)
  rw [Nat.succ_mul, ← aligned] at far
  omega

/-- A device is selected for the request, or at some retry an active one for the slice, and
the device is active when the slice joins the others. -/
def SliceServed (config : SubmitConfig) (request : TransferRequest) (answers : TaskAnswers)
    (index : Nat) : Prop :=
  (answers.selectDevice.isSome ∨
    ∃ retry, request.adviseRetryCnt ≤ retry ∧ retry < config.retryCnt ∧
      ((answers.slice index).selectDevice retry).isSome ∧
      (answers.slice index).active retry = true) ∧
  (answers.slice index).activeToPost = true

section Task

variable {buffers : List BufferDesc} {taskIndex : Nat} {answers : TaskAnswers} {offset : Nat}
  {task : TransferTask} {posting : Posting}

theorem retryDevice_isSome_iff {slice : SliceAnswers} :
    (retryDevice config request slice).isSome ↔
      ∃ retry, request.adviseRetryCnt ≤ retry ∧ retry < config.retryCnt ∧
        (slice.selectDevice retry).isSome ∧ slice.active retry = true := by
  have passes : ∀ retry : Int, ((slice.selectDevice retry).filter
      fun _ => slice.active retry).isSome ↔
        (slice.selectDevice retry).isSome ∧ slice.active retry = true := by
    intro retry
    cases slice.selectDevice retry <;> cases slice.active retry <;> simp
  simp only [retryDevice, findSome?_isSome_iff, mem_range, passes]
  constructor
  · rintro ⟨retry, below, found⟩
    exact ⟨_, by omega, by omega, found⟩
  · rintro ⟨retry, above, below, found⟩
    obtain ⟨retries, rfl⟩ := Int.le.dest above
    exact ⟨retries, by omega, found⟩

theorem sliceDevice_isSome_iff :
    (sliceDevice config request answers index).isSome ↔
      answers.selectDevice.isSome ∨
        ∃ retry, request.adviseRetryCnt ≤ retry ∧ retry < config.retryCnt ∧
          ((answers.slice index).selectDevice retry).isSome ∧
          (answers.slice index).active retry = true := by
  rw [← retryDevice_isSome_iff]
  cases selected : answers.selectDevice <;> simp [sliceDevice, selected]

variable (buffers) (taskIndex) (task) (posting) in
/-- A slice without a device ends the loop; it is listed and not counted. -/
theorem submitSlices_unserved (inside : offset < request.length)
    (unserved : ¬ SliceServed config request answers index) :
    ∃ error, submitSlices config buffers taskIndex request answers index offset task posting =
      (.error error,
        { task with
          sliceList := task.sliceList ++ [sliceAt config taskIndex request offset] },
        posting.allocate (answers.slice index).fromCache) := by
  rw [SliceServed, ← sliceDevice_isSome_iff] at unserved
  rw [submitSlices, if_pos inside]
  cases device : sliceDevice config request answers index with
  | none => exact ⟨_, rfl⟩
  | some selected =>
    have inactive : (answers.slice index).activeToPost = false := by
      simpa [device] using unserved
    exact ⟨.deviceNotActive selected.deviceId, by simp [inactive]⟩

/-- A slice with the key that its device has for its buffer. -/
def readySlice (config : SubmitConfig) (buffers : List BufferDesc) (taskIndex : Nat)
    (request : TransferRequest) (offset : Nat) (selected : Selected) : Slice :=
  { sliceAt config taskIndex request offset with sourceLkey := sourceLkey buffers selected }

def TransferTask.counted (task : TransferTask) (slices : List Slice) : TransferTask :=
  { task with
    sliceList := task.sliceList ++ slices
    totalBytes := task.totalBytes + (slices.map Slice.length).sum
    sliceCount := task.sliceCount + slices.length }

theorem TransferTask.counted_cons (task : TransferTask) (slice : Slice) (slices : List Slice) :
    (task.counted [slice]).counted slices = task.counted (slice :: slices) := by
  simp [counted, Nat.add_assoc, Nat.add_comm 1]

variable (buffers) (taskIndex) (task) (posting) in
theorem submitSlices_selected {selected : Selected} (inside : offset < request.length)
    (device : sliceDevice config request answers index = some selected)
    (active : (answers.slice index).activeToPost = true) :
    submitSlices config buffers taskIndex request answers index offset task posting =
      let slice := readySlice config buffers taskIndex request offset selected
      let pushed := ((posting.allocate (answers.slice index).fromCache).push selected.deviceId
        slice).postAt config.submitWatermark
      if mergeFinalSlice config request offset then (.ok (), task.counted [slice], pushed)
      else submitSlices config buffers taskIndex request answers (index + 1)
        (offset + config.sliceSize) (task.counted [slice]) pushed := by
  rw [submitSlices, if_pos inside]
  simp only [device, active, Bool.not_true, Bool.false_eq_true, if_false]
  rfl

theorem Posting.placed_selected (posting : Posting) (fromCache : Bool) (device : Nat)
    (slice : Slice) (watermark : Nat) :
    (((posting.allocate fromCache).push device slice).postAt watermark).placed.Perm
      ((device, slice) :: posting.placed) := by
  simpa using (posting.allocate fromCache).placed_push device slice

/-! ## The loop -/

theorem sliceAt_length_of_merge (merged : mergeFinalSlice config request offset = true) :
    (sliceAt config taskIndex request offset).length = request.length - offset := by
  simp [sliceAt, merged]

variable (taskIndex) in
theorem sliceAt_length_of_not_merge (whole : ¬ mergeFinalSlice config request offset = true) :
    (sliceAt config taskIndex request offset).length = config.sliceSize ∧
      offset + config.sliceSize + config.fragmentLimit < request.length := by
  refine ⟨by simp [sliceAt, whole], ?_⟩
  simp only [mergeFinalSlice, decide_eq_true_eq] at whole
  omega

/-- A slice that was placed on a device: the answers chose the device, and it was active. -/
def ChosenFor (config : SubmitConfig) (buffers : List BufferDesc) (taskIndex : Nat)
    (request : TransferRequest) (answers : TaskAnswers) (placed : Nat × Slice) : Prop :=
  ∃ index selected, sliceDevice config request answers index = some selected ∧
    (answers.slice index).activeToPost = true ∧
    placed = (selected.deviceId,
      readySlice config buffers taskIndex request (index * config.sliceSize) selected)

theorem ChosenFor.task_eq {placed : Nat × Slice}
    (chosen : ChosenFor config buffers taskIndex request answers placed) :
    placed.2.task = taskIndex := by
  obtain ⟨number, selected, -, -, rfl⟩ := chosen
  rfl

/-- What the loop leaves behind: the slices that were placed reach an offset, which is the end
of the request exactly if every slice finds its device. -/
structure Sliced (config : SubmitConfig) (buffers : List BufferDesc) (taskIndex : Nat)
    (request : TransferRequest) (answers : TaskAnswers) (index offset : Nat) (task : TransferTask)
    (posting : Posting) (result : SubmitOutcome × TransferTask × Posting) (reach : Nat)
    (new : List (Nat × Slice)) : Prop where
  cut : Partition config request offset reach (new.map Prod.snd)
  chosen : ∀ placed ∈ new, ChosenFor config buffers taskIndex request answers placed
  counted : ∃ listed, result.2.1 = { task.counted (new.map Prod.snd) with sliceList := listed } ∧
    (result.1 = .ok () → listed = task.sliceList ++ new.map Prod.snd)
  placed : result.2.2.placed.Perm (new ++ posting.placed)
  bounded : reach ≤ request.length
  whole : result.1 = .ok () ↔ reach = request.length
  served : result.1 = .ok () ↔ ∀ later, index ≤ later → HasSlice config request later →
    SliceServed config request answers later

theorem submitSlices_sliced (aligned : offset = index * config.sliceSize)
    (reached : HasSlice config request index) :
    ∃ reach new, Sliced config buffers taskIndex request answers index offset task posting
      (submitSlices config buffers taskIndex request answers index offset task posting) reach
      new := by
  induction remaining : request.length - offset using Nat.strong_induction_on
    generalizing index offset task posting with
  | _ remaining ih =>
    have inside : offset < request.length := reached.lt aligned
    by_cases served : SliceServed config request answers index
    · have both := served
      rw [SliceServed, ← sliceDevice_isSome_iff] at both
      obtain ⟨selected, device⟩ := Option.isSome_iff_exists.mp both.1
      let slice := readySlice config buffers taskIndex request offset selected
      have perm := posting.placed_selected (answers.slice index).fromCache selected.deviceId slice
        config.submitWatermark
      have chosen : ChosenFor config buffers taskIndex request answers
          (selected.deviceId, slice) := ⟨index, selected, device, both.2, aligned ▸ rfl⟩
      rw [submitSlices_selected buffers taskIndex task posting inside device both.2]
      dsimp only
      split
      · rename_i merged
        have length : slice.length = request.length - offset :=
          @sliceAt_length_of_merge config request taskIndex offset merged
        refine ⟨request.length, [(selected.deviceId, slice)],
          .singleton rfl rfl length inside (length ▸ of_decide_eq_true merged),
          by simpa using chosen, ⟨_, rfl, fun _ => rfl⟩, perm, Nat.le_refl _,
          iff_of_true rfl rfl, iff_of_true rfl fun later above has => ?_⟩
        obtain rfl : later = index := has.eq_of_merge above aligned merged
        exact served
      · rename_i whole
        obtain ⟨length, space⟩ := sliceAt_length_of_not_merge taskIndex whole
        have positive := config.sliceSize_pos
        have next : HasSlice config request (index + 1) := by
          rw [HasSlice, if_neg (Nat.succ_ne_zero _), Nat.succ_mul, ← aligned]
          exact space
        obtain ⟨reach, new, rest⟩ := @ih _ (by omega) (index + 1) (offset + config.sliceSize)
          (task.counted [slice]) _ (by rw [aligned, Nat.succ_mul]) next rfl
        obtain ⟨listed, left, all⟩ := rest.counted
        rw [TransferTask.counted_cons] at left
        refine ⟨reach, (selected.deviceId, slice) :: new, .cons rfl rfl length rest.cut,
          forall_mem_cons.mpr ⟨chosen, rest.chosen⟩, ⟨listed, left, fun done => ?_⟩,
          rest.placed.trans ((perm.append_left new).trans perm_middle), rest.bounded, rest.whole,
          rest.served.trans ?_⟩
        · rw [all done]
          simp [TransferTask.counted]
        · refine ⟨fun all later above has => ?_, fun all later above => all later (by omega)⟩
          rcases Nat.eq_or_lt_of_le above with rfl | above
          · exact served
          · exact all later above has
    · obtain ⟨error, stopped⟩ := submitSlices_unserved buffers taskIndex task posting inside served
      rw [stopped]
      exact ⟨offset, [], .nil, nofun, ⟨_, rfl, nofun⟩, by simp, inside.le,
        iff_of_false nofun (by omega),
        iff_of_false nofun fun all => served (all index (Nat.le_refl _) reached)⟩

variable (config) (buffers) (taskIndex) (request) (answers) (task) (posting) in
/-- The loop from the first slice on, which an empty request does not have. -/
theorem submitSlices_start :
    ∃ reach new, Sliced config buffers taskIndex request answers 0 0 task posting
      (submitSlices config buffers taskIndex request answers 0 0 task posting) reach new := by
  by_cases reached : HasSlice config request 0
  · exact submitSlices_sliced (Nat.zero_mul _).symm reached
  · have empty : request.length = 0 := by simpa [HasSlice] using reached
    rw [submitSlices, if_neg (by omega)]
    refine ⟨0, [], .nil, nofun, ⟨_, rfl, by simp⟩, .refl _, Nat.zero_le _,
      iff_of_true rfl empty.symm, iff_of_true rfl fun later _ has => ?_⟩
    have inside := has.lt rfl
    omega

end Task

end Mooncake.Rdma
