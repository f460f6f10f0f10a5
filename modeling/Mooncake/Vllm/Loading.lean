import Mooncake.Dummy.GetInto
import Mooncake.Vllm.Connector

/-!
# Direct loads

`_load_direct` reads a layer object into the blocks of a request.  The store answers with
the number of bytes that it has read, cut down to an `int`, or with a negative code; the
connector takes every number other than 0 for a failure.
-/

namespace Mooncake.Vllm

open Dummy List

/-! ## What the store returns -/

/-- The codes are those of a 32-bit enumeration. -/
structure StatusCodes extends ReturnCodes where
  int32 : ∀ error, -2 ^ 31 ≤ toInt error

/-- An element of `std::vector<int>`. -/
def toInt32 (value : Int) : Int :=
  value.bmod (2 ^ 32)

/-- `batch_get_into_multi_buffers`, from the results of its internal call. -/
def batchGetIntoMultiBuffers (codes : StatusCodes) (results : List (Expected Nat)) : List Int :=
  results.map fun result => toInt32 (toPyRet codes.toReturnCodes result)

/-- The methods of the store that a direct load calls.  The read has one result for each key,
and a failure has a code. -/
structure DirectStore where
  registerSpdkGpuBuffer : Option (Nat → Nat → Int)
  read : List String → List (List Nat) → List (List Nat) → Bool → List (Expected Nat)
  read_length : ∀ keys ptrs sizes prefer, (read keys ptrs sizes prefer).length = keys.length
  read_genuine : ∀ keys ptrs sizes prefer, .error .ok ∉ read keys ptrs sizes prefer

/-! ## The blocks of a layer -/

/-- What is read of a tensor: its storage, the size of a block, and the address of a block in
a plane. -/
structure KvLayer where
  isCuda : Bool
  storagePtr : Nat
  storageBytes : Nat
  blockBytes : Nat
  blockPtr : Nat → Nat → Nat

/-- The loop body of `group_contiguous`. -/
def extendGroups (groups : List (List Nat)) (index : Nat) : List (List Nat) :=
  match groups.getLast? with
  | none => [[index]]
  | some group =>
    if group.getLast?.any fun last => index = last + 1 then
      groups.dropLast ++ [group ++ [index]]
    else groups ++ [[index]]

def groupContiguous : List Nat → List (List Nat)
  | [] => []
  | first :: rest => rest.foldl extendGroups [[first]]

/-- `_block_buffer_vectors`; an MLA layer has one plane, any other layer two. -/
def blockBufferVectors (layer : KvLayer) (isMla : Bool) (request : ReqMeta) :
    List Nat × List Nat :=
  let groups := groupContiguous request.blockIds
  let planes := if isMla then [0] else [0, 1]
  (planes.flatMap fun plane => groups.map fun group => layer.blockPtr plane (group.headD 0),
    planes.flatMap fun _ => groups.map fun group => layer.blockBytes * group.length)

/-! ## The load -/

/-- `_maybe_register_for_direct_read`, with the registered buffers before and after it. -/
def maybeRegisterForDirectRead (store : DirectStore) (layer : KvLayer)
    (registered : AList fun _ : Nat => Nat) : AList fun _ : Nat => Nat :=
  match store.registerSpdkGpuBuffer with
  | none => registered
  | some registerBuffer =>
    if !layer.isCuda then registered
    else if layer.storagePtr ∈ registered then registered
    else if registerBuffer layer.storagePtr layer.storageBytes ≠ 0 then registered
    else registered.insert layer.storagePtr layer.storageBytes

/-- The registered buffers after a load, the results of its read, and whether it raises. -/
structure LoadResult where
  registered : AList fun _ : Nat => Nat
  reads : List (Expected Nat)
  raises : Bool

def loadDirect (codes : StatusCodes) (store : DirectStore)
    (registered : AList fun _ : Nat => Nat) (key : String) (layer : KvLayer) (isMla : Bool)
    (request : ReqMeta) : LoadResult :=
  let known := maybeRegisterForDirectRead store layer registered
  let (ptrs, sizes) := blockBufferVectors layer isMla request
  if ptrs = [] then ⟨known, [], false⟩
  else
    let reads := store.read [key] [ptrs] [sizes] false
    let results := batchGetIntoMultiBuffers codes reads
    ⟨known, reads, decide (results.length ≠ 1) || decide (results[0]? ≠ some 0)⟩

/-! ## Groups of blocks -/

theorem extendGroups_flatten (groups : List (List Nat)) (index : Nat) :
    (extendGroups groups index).flatten = groups.flatten ++ [index] := by
  unfold extendGroups
  split
  · rename_i none_
    rw [getLast?_eq_none_iff.mp none_]
    rfl
  · rename_i group last
    split
    · obtain ⟨front, rfl⟩ := getLast?_eq_some_iff.mp last
      simp
    · simp

theorem groupContiguous_flatten (blocks : List Nat) :
    (groupContiguous blocks).flatten = blocks := by
  cases blocks with
  | nil => rfl
  | cons first rest =>
    have fold : ∀ (rest : List Nat) (groups : List (List Nat)),
        (rest.foldl extendGroups groups).flatten = groups.flatten ++ rest := by
      intro rest
      induction rest with
      | nil => simp
      | cons index rest ih =>
        intro groups
        rw [foldl_cons, ih, extendGroups_flatten, append_assoc]
        rfl
    exact fold rest [[first]]

theorem blockBufferVectors_eq_nil_iff {layer : KvLayer} {isMla : Bool} {request : ReqMeta} :
    (blockBufferVectors layer isMla request).1 = [] ↔ request.blockIds = [] := by
  have groups : groupContiguous request.blockIds = [] ↔ request.blockIds = [] := by
    constructor
    · intro none_
      rw [← groupContiguous_flatten request.blockIds, none_]
      rfl
    · intro none_
      rw [none_]
      rfl
  cases isMla <;> simp [blockBufferVectors, groups]

/-! ## Raised errors -/

theorem toInt32_toPyRet_eq_zero_iff (codes : StatusCodes) {result : Expected Nat}
    (genuine : result ≠ .error .ok) :
    toInt32 (toPyRet codes.toReturnCodes result) = 0 ↔
      ∃ size, result = .ok size ∧ 2 ^ 32 ∣ size := by
  rw [toInt32, ← Int.dvd_iff_bmod_eq_zero]
  cases result with
  | ok size =>
    rw [toPyRet, Int.natCast_dvd_natCast]
    simp
  | error error =>
    refine iff_of_false ?_ (by simp)
    rintro ⟨factor, code⟩
    have negative := codes.negative error fun same => genuine (by rw [same])
    have bounded := codes.int32 error
    simp only [toPyRet] at code
    omega

/-- A load does not raise exactly when the read that it makes succeeds. -/
def LoadResult.Matches (result : LoadResult) : Prop :=
  result.raises = false ↔ ∀ read ∈ result.reads, ∃ size, read = .ok size

theorem read_eq_singleton (store : DirectStore) (key : String) (ptrs sizes : List Nat) :
    ∃ result, store.read [key] [ptrs] [sizes] false = [result] ∧ result ≠ .error .ok := by
  have length := store.read_length [key] [ptrs] [sizes] false
  obtain ⟨result, single⟩ := length_eq_one_iff.mp length
  refine ⟨result, single, fun same => ?_⟩
  apply store.read_genuine [key] [ptrs] [sizes] false
  rw [single, same]
  exact mem_singleton_self _

/-- A load matches its read exactly when there is nothing to read, the read fails, or the
number of bytes is a multiple of `2 ^ 32`. -/
theorem loadDirect_matches_iff (codes : StatusCodes) (store : DirectStore)
    (registered : AList fun _ : Nat => Nat) (key : String) (layer : KvLayer) (isMla : Bool)
    (request : ReqMeta) :
    (loadDirect codes store registered key layer isMla request).Matches ↔
      request.blockIds = [] ∨
        ∀ size, .ok size ∈ store.read [key] [(blockBufferVectors layer isMla request).1]
          [(blockBufferVectors layer isMla request).2] false → 2 ^ 32 ∣ size := by
  rw [← blockBufferVectors_eq_nil_iff]
  by_cases none_ : (blockBufferVectors layer isMla request).1 = []
  · refine iff_of_true ?_ (.inl none_)
    simp [LoadResult.Matches, loadDirect, none_]
  · rw [or_iff_right none_]
    obtain ⟨result, single, genuine⟩ := read_eq_singleton store key
      (blockBufferVectors layer isMla request).1 (blockBufferVectors layer isMla request).2
    have zero := toInt32_toPyRet_eq_zero_iff codes genuine
    have raised : (loadDirect codes store registered key layer isMla request).raises = false ↔
        ∃ size, result = .ok size ∧ 2 ^ 32 ∣ size := by
      rw [← zero]
      simp [loadDirect, none_, single, batchGetIntoMultiBuffers]
    have reads : (loadDirect codes store registered key layer isMla request).reads = [result] := by
      simp [loadDirect, none_, single]
    rw [LoadResult.Matches, raised, reads, single]
    cases result with
    | ok size => simp
    | error error => simp

def sampleStatusCodes : StatusCodes where
  toReturnCodes := sampleCodes
  int32 := by
    intro error
    simp only [sampleCodes]
    split
    · decide
    · split <;> decide

/-- A store in which every object has 4096 bytes and every read succeeds. -/
def pageStore : DirectStore where
  registerSpdkGpuBuffer := none
  read := fun keys _ _ _ => keys.map fun _ => .ok 4096
  read_length := by simp
  read_genuine := by simp

/-- An MLA layer with blocks of 4096 bytes. -/
def pageLayer : KvLayer where
  isCuda := true
  storagePtr := 65536
  storageBytes := 65536
  blockBytes := 4096
  blockPtr := fun _ block => 65536 + block * 4096

/-- The read of one block succeeds, and the load raises. -/
theorem successfulLoad_raises :
    let load := loadDirect sampleStatusCodes pageStore ∅ "layer" pageLayer true
      ⟨[], [], [3], false, []⟩
    load.reads = [.ok 4096] ∧ load.raises = true ∧ ¬ load.Matches := by
  refine ⟨rfl, by decide, fun agrees => ?_⟩
  have quiet := agrees.mpr fun read present => ⟨4096, mem_singleton.mp present⟩
  revert quiet
  decide

end Mooncake.Vllm
