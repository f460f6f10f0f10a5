import Mooncake.Write.Batched

/-!
# Index-aligned writes

What a batched write passes at an index is read back through the slices.  The functions
that collect slices by key pass, at every index of a key, the value of one of its
occurrences.  So they are aligned exactly when equal keys come with equal values.
-/

namespace Mooncake.Write

open Library.Keyed Library.ByteMemory Library.Indexed Read List

/-! ## Bytes behind slices -/

theorem gather_of_addresses {memory : Memory} {slices : List Slice} {ptr size : Nat}
    (covers : addresses slices = List.range' ptr size) :
    gather memory slices = (List.range' ptr size).map memory := by
  rw [gather, covers]

theorem copyTo_of_lt {ptr address : Nat} {value : Bytes} {memory : Memory}
    (outside : address < ptr ∨ ptr + value.length ≤ address) :
    copyTo ptr value memory address = memory address :=
  if_neg (by omega)

theorem map_copyTo (ptr : Nat) (value : Bytes) (memory : Memory) :
    (List.range' ptr value.length).map (copyTo ptr value memory) = value := by
  refine ext_getElem (by simp) fun position _ inside => ?_
  simp [copyTo, inside]

theorem chunksFrom_addresses (client : WriteClient) (buffer size offset : Nat) :
    addresses (chunksFrom client buffer size offset) =
      List.range' (buffer + offset) (size - offset) := by
  induction remaining : size - offset using Nat.strong_induction_on generalizing offset with
  | _ remaining ih =>
    rw [chunksFrom]
    split
    · have positive := client.kMaxSliceSize_pos
      have rest := ih (size - (offset + min (size - offset) client.kMaxSliceSize)) (by omega)
        (offset + min (size - offset) client.kMaxSliceSize) rfl
      rw [addresses, flatMap_cons]
      rw [addresses] at rest
      rw [rest, ← Nat.add_assoc, range'_append_1]
      congr 1
      dsimp only
      omega
    · rw [← remaining, Nat.sub_eq_zero_of_le (by omega)]
      rfl

theorem chunksFrom_bounded (client : WriteClient) (buffer size offset : Nat) :
    ∀ slice ∈ chunksFrom client buffer size offset, slice.size ≤ client.kMaxSliceSize := by
  induction remaining : size - offset using Nat.strong_induction_on generalizing offset with
  | _ remaining ih =>
    rw [chunksFrom]
    split
    · have positive := client.kMaxSliceSize_pos
      intro slice present
      rcases mem_cons.mp present with rfl | later
      · exact Nat.min_le_right _ _
      · exact ih _ (by omega) _ rfl slice later
    · exact nofun

/-! ## Staged values -/

section Staged

variable {client : WriteClient} {allocator : BufferAllocator}

variable {index : Nat} {memory final : Memory} {staged : List (ObjectKey × List Slice)}
  {pairs : List (ObjectKey × Bytes)}

theorem stageAll_cons {key : ObjectKey} {value : Bytes} {rest : List (ObjectKey × Bytes)}
    (ran : stageAll client allocator index ((key, value) :: rest) memory = some (staged, final)) :
    ∃ ptr tail, allocator.allocate index value.length = some ptr ∧
      stageAll client allocator (index + 1) rest (copyTo ptr value memory) = some (tail, final) ∧
      staged = (key, client.splitIntoSlices ptr value.length) :: tail := by
  unfold stageAll at ran
  split at ran
  · cases ran
  · rename_i ptr allocated
    obtain ⟨⟨tail, last⟩, later, ended⟩ := Option.map_eq_some_iff.mp ran
    cases ended
    exact ⟨ptr, tail, allocated, later, rfl⟩

theorem stageAll_frame
    (ran : stageAll client allocator index pairs memory = some (staged, final)) {address : Nat}
    (apart : ∀ later size ptr, index ≤ later → allocator.allocate later size = some ptr →
      address < ptr ∨ ptr + size ≤ address) :
    final address = memory address := by
  induction pairs generalizing index memory staged with
  | nil => cases ran; rfl
  | cons pair rest ih =>
    obtain ⟨ptr, tail, allocated, later, -⟩ := stageAll_cons ran
    rw [ih later fun later size ptr above => apart later size ptr (by omega)]
    exact copyTo_of_lt (apart index _ ptr (Nat.le_refl _) allocated)

theorem stageAll_contents
    (ran : stageAll client allocator index pairs memory = some (staged, final)) :
    staged.map (fun pair => (pair.1, gather final pair.2)) = pairs := by
  induction pairs generalizing index memory staged with
  | nil => cases ran; rfl
  | cons pair rest ih =>
    obtain ⟨key, value⟩ := pair
    obtain ⟨ptr, tail, allocated, later, rfl⟩ := stageAll_cons ran
    rw [map_cons, ih later, gather_of_addresses (client.split_addresses ptr _)]
    have kept : (List.range' ptr value.length).map final =
        (List.range' ptr value.length).map (copyTo ptr value memory) := by
      refine map_congr_left fun address present => stageAll_frame later ?_
      intro other size start above taken
      have := allocator.separate index other _ _ _ _ (by omega) allocated taken
      have := mem_range'_1.mp present
      omega
    rw [kept, map_copyTo]

theorem stageAll_bounded
    (ran : stageAll client allocator index pairs memory = some (staged, final)) :
    ∀ pair ∈ staged, ∀ slice ∈ pair.2, slice.size ≤ client.kMaxSliceSize := by
  induction pairs generalizing index memory staged with
  | nil => cases ran; nofun
  | cons pair rest ih =>
    obtain ⟨ptr, tail, -, later, rfl⟩ := stageAll_cons ran
    intro staged present
    rcases mem_cons.mp present with rfl | present
    · exact client.split_bounded ptr _
    · exact ih later staged present

theorem stageAll_isSome_iff :
    (stageAll client allocator index pairs memory).isSome ↔
      ∀ position pair, pairs[position]? = some pair →
        (allocator.allocate (index + position) pair.2.length).isSome := by
  induction pairs generalizing index memory with
  | nil => simp [stageAll]
  | cons pair rest ih =>
    rw [forall_getElem?_cons (P := fun position (pair : ObjectKey × Bytes) =>
      (allocator.allocate position pair.2.length).isSome)]
    unfold stageAll
    split
    · rename_i failed
      simp [failed]
    · rename_i ptr allocated
      rw [Option.isSome_map, ih]
      simp [allocated]

end Staged

/-! ## What is passed under a key -/

def Agree (keys : List ObjectKey) (values : List Bytes) : Prop :=
  ∀ (first second : Nat) (key : ObjectKey), keys[first]? = some key → keys[second]? = some key →
    values[first]? = values[second]?

/-- Every index of a key has the value of one occurrence of the key. -/
def Picked (keys : List ObjectKey) (values contents : List Bytes) : Prop :=
  ∃ pick : ObjectKey → Bytes, contents = keys.map pick ∧
    ∀ (index : Nat) (key : ObjectKey), keys[index]? = some key →
      ∃ other : Nat, keys[other]? = some key ∧ values[other]? = some (pick key)

variable {keys : List ObjectKey} {values : List Bytes}

theorem Picked.eq_iff {contents : List Bytes} (picked : Picked keys values contents)
    (aligned : keys.length = values.length) :
    contents = values ↔ Agree keys values := by
  obtain ⟨pick, rfl, occurs⟩ := picked
  constructor
  · rintro rfl first second key here there
    rw [getElem?_map, getElem?_map, here, there]
  · intro agree
    refine ext_getElem? fun index => ?_
    rw [getElem?_map]
    cases found : keys[index]? with
    | none =>
      rw [getElem?_eq_none_iff, aligned] at found
      exact (getElem?_eq_none_iff.mpr found).symm
    | some key =>
      obtain ⟨other, same, value⟩ := occurs index key found
      rw [agree index other key found same, value]
      rfl

variable {find : ObjectKey → Option (List Slice)}

theorem orderSlices_of_found (found : ∀ key ∈ keys, (find key).isSome) :
    orderSlices find keys = some (keys.map fun key => (find key).getD []) := by
  induction keys with
  | nil => rfl
  | cons key rest ih =>
    obtain ⟨slices, here⟩ := Option.isSome_iff_exists.mp (found key mem_cons_self)
    have later := ih fun other present => found other (mem_cons_of_mem _ present)
    rw [orderSlices] at later ⊢
    simp [mapM_cons, here, later]

/-- A search by key in a list of pairs with the given contents. -/
structure Finds (find : ObjectKey → Option (List Slice)) (pairs : List (ObjectKey × List Slice)) :
    Prop where
  found : ∀ pair ∈ pairs, (find pair.1).isSome
  listed : ∀ {key slices}, find key = some slices → (key, slices) ∈ pairs

theorem finds_emplaceAll {pairs : List (ObjectKey × List Slice)} :
    Finds (fun key => ((emplaceAll Prod.fst pairs).find? fun pair => pair.1 = key).map Prod.snd)
      pairs where
  found := by
    intro pair present
    obtain ⟨kept, mem, same⟩ : ∃ kept ∈ emplaceAll Prod.fst pairs, kept.1 = pair.1 :=
      exists_mem_emplaceAll present
    rw [Option.isSome_map, find?_isSome]
    exact ⟨kept, mem, by simpa using same⟩
  listed := by
    intro key slices found
    obtain ⟨pair, hit, rfl⟩ := Option.map_eq_some_iff.mp found
    have same : pair.1 = key := by simpa using find?_some hit
    rw [← same]
    exact mem_of_mem_emplaceAll (mem_of_find?_eq_some hit)

theorem finds_assignAll (pairs : List (ObjectKey × List Slice)) :
    Finds (assignAll Prod.fst Prod.snd pairs).lookup pairs where
  found := by
    intro pair present
    exact Option.isSome_iff_exists.mpr (lookup_assignAll_isSome present)
  listed := by
    intro key slices found
    obtain ⟨pair, present, rfl, rfl, -⟩ := mem_of_lookup_assignAll found
    exact present

/-- The slices that a search returns for all keys hold picked values. -/
theorem Finds.picked {pairs : List (ObjectKey × List Slice)} (finds : Finds find pairs)
    (memory : Memory)
    (contents : pairs.map (fun pair => (pair.1, gather memory pair.2)) = keys.zip values)
    (aligned : keys.length = values.length) :
    orderSlices find keys = some (keys.map fun key => (find key).getD []) ∧
      Picked keys values
        ((keys.map fun key => (find key).getD []).map (gather memory)) ∧
      ∀ slices ∈ keys.map fun key => (find key).getD [], ∃ pair ∈ pairs, pair.2 = slices := by
  have named : ∀ key ∈ keys, ∃ slices, find key = some slices := by
    intro key present
    have both : key ∈ (pairs.map fun pair => (pair.1, gather memory pair.2)).map Prod.fst := by
      rw [contents, map_fst_zip (Nat.le_of_eq aligned)]
      exact present
    rw [map_map] at both
    obtain ⟨pair, listed, rfl⟩ := mem_map.mp both
    exact Option.isSome_iff_exists.mp (finds.found pair listed)
  refine ⟨orderSlices_of_found fun key present => Option.isSome_iff_exists.mpr
    (named key present), ⟨fun key => gather memory ((find key).getD []), ?_, ?_⟩, ?_⟩
  · exact map_map
  · intro index key found
    obtain ⟨slices, hit⟩ := named key (mem_of_getElem? found)
    have paired : (key, gather memory slices) ∈ keys.zip values := by
      rw [← contents]
      exact mem_map.mpr ⟨(key, slices), finds.listed hit, rfl⟩
    obtain ⟨other, here⟩ := mem_iff_getElem?.mp paired
    obtain ⟨same, value⟩ := getElem?_zip_eq_some.mp here
    exact ⟨other, same, value.trans (by simp [hit])⟩
  · intro slices present
    obtain ⟨key, listed, rfl⟩ := mem_map.mp present
    obtain ⟨found, hit⟩ := named key listed
    refine ⟨(key, found), finds.listed hit, ?_⟩
    rw [hit]
    rfl

/-! ## The four functions -/

/-- What is passed: the keys, a picked value for each of them, in slices of limited size. -/
structure ClientBatch.Carries (batch : ClientBatch) (client : WriteClient)
    (keys : List ObjectKey) (values : List Bytes) : Prop where
  keys_eq : batch.keys = keys
  picked : Picked keys values (batch.slices.map (gather batch.memory))
  bounded : ∀ slices ∈ batch.slices, ∀ slice ∈ slices, slice.size ≤ client.kMaxSliceSize

/-- The checks of `put_batch_internal` and `upsert_batch_internal` pass, and every allocation
succeeds. -/
def ValuesAccepted (client : WriteClient) (allocator : Option BufferAllocator)
    (config : ReplicateConfig) (keys : List ObjectKey) (values : List Bytes) : Prop :=
  config.preferAllocInSameNode = false ∧ client.connected = true ∧
    keys.length = values.length ∧
    ∃ blocks, allocator = some blocks ∧ ∀ (index : Nat) (value : Bytes),
      values[index]? = some value → (blocks.allocate index value.length).isSome

/-- The checks of `batch_put_from_internal` and `batch_upsert_from_internal` pass. -/
def BuffersAccepted (client : WriteClient) (config : ReplicateConfig) (keys : List ObjectKey)
    (buffers sizes : List Nat) : Prop :=
  config.preferAllocInSameNode = false ∧ client.connected = true ∧
    keys.length = buffers.length ∧ keys.length = sizes.length

section Functions

variable {client : WriteClient} {allocator : Option BufferAllocator} {config : ReplicateConfig}
  {buffers sizes : List Nat} {memory : Memory}

theorem stageBatch_carries (accepted : ValuesAccepted client allocator config keys values) :
    ∃ batch, stageBatch client allocator config keys values memory = .ok batch ∧
      batch.Carries client keys values := by
  obtain ⟨apart, connected, aligned, blocks, rfl, allocates⟩ := accepted
  have staged : (stageAll client blocks 0 (keys.zip values) memory).isSome := by
    refine stageAll_isSome_iff.mpr fun position pair found => ?_
    rw [Nat.zero_add]
    exact allocates position pair.2 (getElem?_zip_eq_some.mp found).2
  obtain ⟨⟨pairs, final⟩, ran⟩ := Option.isSome_iff_exists.mp staged
  obtain ⟨ordered, picked, listed⟩ :=
    (finds_emplaceAll).picked final (stageAll_contents ran) aligned
  refine ⟨⟨keys, _, final⟩, ?_, rfl, picked, ?_⟩
  · simp [stageBatch, apart, connected, aligned, ran, ordered]
  · intro slices present
    obtain ⟨pair, inside, rfl⟩ := listed slices present
    exact stageAll_bounded ran pair inside

variable {batch : ClientBatch}

theorem accepted_of_stageBatch
    (passed : stageBatch client allocator config keys values memory = .ok batch) :
    ValuesAccepted client allocator config keys values := by
  unfold stageBatch at passed
  split at passed
  · cases passed
  · rename_i apart
    split at passed
    · cases passed
    · rename_i connected
      split at passed
      · cases passed
      · rename_i aligned
        split at passed
        · cases passed
        · rename_i blocks
          split at passed
          · cases passed
          · rename_i pairs final ran
            have same : keys.length = values.length := by simpa using aligned
            refine ⟨by simpa using apart, by simpa using connected, same, blocks, rfl, ?_⟩
            intro index value found
            obtain ⟨key, named⟩ : ∃ key, keys[index]? = some key := by
              have inside := (List.getElem?_eq_some_iff.mp found).1
              exact ⟨_, getElem?_eq_getElem (same ▸ inside)⟩
            have allocates := stageAll_isSome_iff.mp (by rw [ran]; rfl) index (key, value)
              (getElem?_zip_eq_some.mpr ⟨named, found⟩)
            rwa [Nat.zero_add] at allocates

theorem chunks_contents (client : WriteClient) (buffers sizes : List Nat) (memory : Memory) :
    (List.zipWith (fun buffer size => chunksFrom client buffer size 0) buffers sizes).map
        (gather memory) =
      List.zipWith (fun buffer size => (List.range' buffer size).map memory) buffers sizes := by
  rw [map_zipWith]
  refine congrArg (fun f => List.zipWith f buffers sizes)
    (funext fun buffer => funext fun size => ?_)
  exact gather_of_addresses (chunksFrom_addresses client buffer size 0)

theorem chunks_bounded (client : WriteClient) (buffers sizes : List Nat) :
    ∀ slices ∈ List.zipWith (fun buffer size => chunksFrom client buffer size 0) buffers sizes,
      ∀ slice ∈ slices, slice.size ≤ client.kMaxSliceSize := by
  intro slices present
  rw [← map_uncurry_zip_eq_zipWith] at present
  obtain ⟨⟨buffer, size⟩, -, rfl⟩ := mem_map.mp present
  exact chunksFrom_bounded client buffer size 0

theorem chunkBatch_eq_ok_iff {chunks : List (List Slice)} :
    chunkBatch client config keys buffers sizes = .ok chunks ↔
      BuffersAccepted client config keys buffers sizes ∧
        chunks = List.zipWith (fun buffer size => chunksFrom client buffer size 0) buffers
          sizes := by
  unfold chunkBatch
  constructor
  · intro passed
    split at passed
    · cases passed
    · rename_i apart
      split at passed
      · cases passed
      · rename_i connected
        split at passed
        · cases passed
        · rename_i aligned
          cases passed
          exact ⟨⟨by simpa using apart, by simpa using connected, by omega, by omega⟩, rfl⟩
  · rintro ⟨⟨apart, connected, buffered, sized⟩, rfl⟩
    simp [apart, connected, ← buffered, ← sized]

theorem chunkPutBatch_carries (accepted : BuffersAccepted client config keys buffers sizes) :
    ∃ batch, chunkPutBatch client config keys buffers sizes memory = .ok batch ∧
      batch.Carries client keys (List.zipWith
        (fun buffer size => (List.range' buffer size).map memory) buffers sizes) := by
  have chunked := chunkBatch_eq_ok_iff.mpr ⟨accepted, rfl⟩
  obtain ⟨-, -, buffered, sized⟩ := accepted
  have aligned : keys.length = (List.zipWith
      (fun buffer size => (List.range' buffer size).map memory) buffers sizes).length := by
    rw [length_zipWith]
    omega
  have contents := chunks_contents client buffers sizes memory
  obtain ⟨ordered, picked, listed⟩ := (finds_assignAll (keys.zip (List.zipWith
    (fun buffer size => chunksFrom client buffer size 0) buffers sizes))).picked
      memory (by rw [← contents, zip_map_right]; rfl) aligned
  refine ⟨⟨keys, _, memory⟩, ?_, rfl, picked, ?_⟩
  · simp [chunkPutBatch, chunked, ordered]
  · intro slices present
    obtain ⟨pair, inside, rfl⟩ := listed slices present
    exact chunks_bounded client buffers sizes pair.2 (of_mem_zip inside).2

theorem accepted_of_chunkPutBatch
    (passed : chunkPutBatch client config keys buffers sizes memory = .ok batch) :
    BuffersAccepted client config keys buffers sizes := by
  unfold chunkPutBatch at passed
  split at passed
  · cases passed
  · rename_i chunks chunked
    exact (chunkBatch_eq_ok_iff.mp chunked).1

end Functions

/-! ## Upserts -/

def LastAt (keys : List ObjectKey) (index : Nat) (key : ObjectKey) : Prop :=
  keys[index]? = some key ∧ ∀ later > index, keys[later]? ≠ some key

theorem upsertEach_of_absent (pairs : List (ObjectKey × Bytes)) {key : ObjectKey}
    (absent : ∀ pair ∈ pairs, pair.1 ≠ key) (objects : Objects) :
    upsertEach pairs objects key = objects key := by
  induction pairs generalizing objects with
  | nil => rfl
  | cons pair rest ih =>
    have later := ih (fun other present => absent other (mem_cons_of_mem _ present))
      (fun name => if name = pair.1 then some pair.2 else objects name)
    exact later.trans (if_neg (absent pair mem_cons_self).symm)

theorem upsertEach_of_lastAt {index : Nat} {key : ObjectKey} {value : Bytes}
    (last : LastAt keys index key) (given : values[index]? = some value) (objects : Objects) :
    upsertEach (keys.zip values) objects key = some value := by
  induction keys generalizing values index objects with
  | nil => cases last.1
  | cons first rest ih =>
    obtain ⟨head, tail, rfl⟩ := exists_cons_of_ne_nil (l := values)
      (by rintro rfl; cases given)
    have later : ∀ position, index < position + 1 → rest[position]? ≠ some key :=
      fun position above => last.2 (position + 1) above
    cases index with
    | zero =>
      obtain rfl := Option.some.inj last.1
      obtain rfl := Option.some.inj given
      refine (upsertEach_of_absent (rest.zip tail)
        (fun pair present same => ?_) _).trans (if_pos rfl)
      obtain ⟨position, found⟩ := mem_iff_getElem?.mp (of_mem_zip present).1
      exact later position (Nat.succ_pos _) (same ▸ found)
    | succ index =>
      exact ih ⟨last.1, fun position above => later position (by omega)⟩ given _

/-! ## Soundness -/

namespace BatchedWrite

def isUpsert : BatchedWrite → Bool
  | .putBatch .. | .batchPutFrom .. => false
  | .batchUpsertFrom .. | .upsertBatch .. => true

/-- What is passed to the client at every index is the value given there, in slices of limited
size, and successful upserts of the batch do what single upserts in its order do: every key
has the value of its last occurrence. -/
structure Sound (client : WriteClient) (memory : Memory) (write : BatchedWrite) : Prop where
  aligned : ∀ batch, write.passed client memory = .ok batch → batch.keys = write.keys ∧
    batch.slices.map (gather batch.memory) = write.values memory ∧
    ∀ slices ∈ batch.slices, ∀ slice ∈ slices, slice.size ≤ client.kMaxSliceSize
  sequential : write.isUpsert = true → ∀ batch, write.passed client memory = .ok batch →
    ∀ objects, batch.upsert objects = upsertEach (write.keys.zip (write.values memory)) objects
  lasting : write.isUpsert = true → ∀ batch, write.passed client memory = .ok batch →
    ∀ objects index key value, LastAt write.keys index key →
      (write.values memory)[index]? = some value → batch.upsert objects key = some value

/-- Equal keys of a request that reaches the client come with equal values, unless the function
does not look its slices up by key. -/
def Agrees (client : WriteClient) (memory : Memory) (write : BatchedWrite) : Prop :=
  match write with
  | .putBatch allocator config keys values | .upsertBatch allocator config keys values =>
    ValuesAccepted client allocator config keys values → Agree keys values
  | .batchPutFrom config keys buffers sizes =>
    BuffersAccepted client config keys buffers sizes → Agree keys (write.values memory)
  | .batchUpsertFrom _ _ _ _ => True

variable {client : WriteClient} {memory : Memory} {write : BatchedWrite}

/-- The part about the upserts follows from the alignment. -/
theorem sound_of_aligned
    (aligned : ∀ batch, write.passed client memory = .ok batch → batch.keys = write.keys ∧
      batch.slices.map (gather batch.memory) = write.values memory ∧
      ∀ slices ∈ batch.slices, ∀ slice ∈ slices, slice.size ≤ client.kMaxSliceSize) :
    write.Sound client memory := by
  have sequential : ∀ batch, write.passed client memory = .ok batch → ∀ objects,
      batch.upsert objects = upsertEach (write.keys.zip (write.values memory)) objects := by
    intro batch passed objects
    obtain ⟨keys, contents, -⟩ := aligned batch passed
    rw [ClientBatch.upsert, keys, contents]
  refine ⟨aligned, fun _ => sequential, fun _ batch passed objects index key value last given => ?_⟩
  rw [sequential batch passed objects]
  exact upsertEach_of_lastAt last given objects

/-- A function that passes picked values is sound exactly when the values agree. -/
theorem sound_iff_of_carries {accepted : Prop}
    (carries : accepted → ∃ batch, write.passed client memory = .ok batch ∧
      batch.Carries client write.keys (write.values memory))
    (only : ∀ batch, write.passed client memory = .ok batch → accepted)
    (lengths : accepted → write.keys.length = (write.values memory).length) :
    write.Sound client memory ↔ (accepted → Agree write.keys (write.values memory)) := by
  constructor
  · intro sound passes
    obtain ⟨batch, passed, carried⟩ := carries passes
    exact (carried.picked.eq_iff (lengths passes)).mp (sound.aligned batch passed).2.1
  · refine fun agree => sound_of_aligned fun batch passed => ?_
    have passes := only batch passed
    obtain ⟨other, same, carried⟩ := carries passes
    obtain rfl : batch = other := Except.ok.inj (passed.symm.trans same)
    exact ⟨carried.keys_eq, (carried.picked.eq_iff (lengths passes)).mpr (agree passes),
      carried.bounded⟩

/-- A batched write is sound exactly when equal keys come with equal values, or the write is
refused, or its slices are not looked up by key. -/
theorem batchedWrite_sound_iff (client : WriteClient) (memory : Memory) (write : BatchedWrite) :
    write.Sound client memory ↔ write.Agrees client memory := by
  cases write with
  | putBatch allocator config keys values =>
    exact sound_iff_of_carries stageBatch_carries (fun _ => accepted_of_stageBatch)
      fun accepted => accepted.2.2.1
  | batchPutFrom config keys buffers sizes =>
    refine sound_iff_of_carries chunkPutBatch_carries (fun _ => accepted_of_chunkPutBatch) ?_
    rintro ⟨-, -, buffered, sized⟩
    simp only [BatchedWrite.keys, BatchedWrite.values, length_zipWith]
    omega
  | batchUpsertFrom config keys buffers sizes =>
    refine iff_of_true (sound_of_aligned fun batch passed => ?_) trivial
    simp only [BatchedWrite.passed, chunkUpsertBatch] at passed
    split at passed
    · cases passed
    · rename_i chunks chunked
      cases passed
      obtain ⟨-, rfl⟩ := chunkBatch_eq_ok_iff.mp chunked
      exact ⟨rfl, chunks_contents client buffers sizes memory,
        chunks_bounded client buffers sizes⟩
  | upsertBatch allocator config keys values =>
    exact sound_iff_of_carries stageBatch_carries (fun _ => accepted_of_stageBatch)
      fun accepted => accepted.2.2.1

def byteClient : WriteClient where
  connected := true
  kMaxSliceSize := 1
  splitIntoSlices := fun ptr size => (List.range' ptr size).map fun address => ⟨address, 1⟩
  kMaxSliceSize_pos := by decide
  split_addresses := by
    intro ptr size
    simp [addresses, flatMap_map]
  split_bounded := by
    intro ptr size slice present
    obtain ⟨address, -, rfl⟩ := mem_map.mp present
    exact Nat.le_refl 1

/-- Blocks of at most 16 bytes, one after the other. -/
def blockAllocator : BufferAllocator where
  allocate := fun index size => if size ≤ 16 then some (16 * index) else none
  separate := by
    intro first second size size' ptr ptr' different here there
    split at here
    · split at there
      · cases here
        cases there
        omega
      · cases there
    · cases here

/-- Of two values for one key the first one is passed twice, and it is what the upserts
leave behind. -/
theorem repeatedKey_keeps_first :
    let write := BatchedWrite.upsertBatch (some blockAllocator) {} ["a", "a"] [[1], [2]]
    ∃ batch, write.passed byteClient (fun _ => 0) = .ok batch ∧
      batch.slices.map (gather batch.memory) = [[1], [1]] ∧
      batch.upsert (fun _ => none) "a" = some [1] ∧
      ¬ write.Sound byteClient fun _ => 0 := by
  refine ⟨_, rfl, by decide, by decide, fun sound => ?_⟩
  exact absurd (sound.aligned _ rfl).2.1 (by decide)

end BatchedWrite

end Mooncake.Write
