import Mooncake.Read.Ranges

/-!
# What is prepared for a ranged read

The results and the masks of a prepared request have one shape, which
`RangesRequest.shape` tells from the request.  A mask is set exactly for the fragments of
keys whose vectors agree, if their destination does not wrap around; it then ends within
the size required of its buffer.
-/

namespace Mooncake.Read

open Library.Loops List

/-- The lengths at the level of the keys agree for a buffer. -/
def RangesRequest.keysAligned (request : RangesRequest) (i : Nat) : Bool :=
  let keyCount := (request.allKeys.getD i []).length
  keyCount = (request.allDstOffsets.getD i []).length &&
    keyCount = (request.allSrcOffsets.getD i []).length &&
    keyCount = (request.allSizes.getD i []).length

/-- The number of results for each key of a buffer. -/
def RangesRequest.shapeRow (request : RangesRequest) (i : Nat) : List Nat :=
  if request.keysAligned i then (request.allDstOffsets.getD i []).map List.length
  else List.replicate (request.allKeys.getD i []).length 1

def RangesRequest.shape (request : RangesRequest) (bufferCount : Nat) : List (List Nat) :=
  if request.topLevelValid bufferCount then (List.range bufferCount).map request.shapeRow
  else lengths (buildRangedReadInternalErrorResults bufferCount request .invalidParams)

/-- The vectors of a key agree, and the destination of the fragment does not wrap around. -/
def RangesRequest.ValidAt (request : RangesRequest) (i j k : Nat) : Prop :=
  ∃ dstOffsets srcOffsets sizes dstOffset size,
    at2 request.allDstOffsets i j = some dstOffsets ∧
      at2 request.allSrcOffsets i j = some srcOffsets ∧
      at2 request.allSizes i j = some sizes ∧
      dstOffsets.length = srcOffsets.length ∧ dstOffsets.length = sizes.length ∧
      dstOffsets[k]? = some dstOffset ∧ sizes[k]? = some size ∧
      (checkDestination dstOffset size).1 = true

/-- The fragment may be read into a buffer with enough room. -/
def RangesRequest.ValidFragment (request : RangesRequest) (i j k : Nat) : Prop :=
  request.keysAligned i = true ∧ request.ValidAt i j k

/-- The fragment is in all vectors, and its destination ends within `required` bytes. -/
def RangesRequest.Fits (request : RangesRequest) (required : UInt64) (i j k : Nat) : Prop :=
  ∃ dstOffset srcOffset size, at3 request.allDstOffsets i j k = some dstOffset ∧
    at3 request.allSrcOffsets i j k = some srcOffset ∧
    at3 request.allSizes i j k = some size ∧
    dstOffset.toNat + size.toNat ≤ required.toNat

theorem RangesRequest.Fits.mono {request : RangesRequest} {required larger : UInt64} {i j k : Nat}
    (fits : request.Fits required i j k) (le : required.toNat ≤ larger.toNat) :
    request.Fits larger i j k := by
  obtain ⟨dstOffset, srcOffset, size, dst, src, sized, ends⟩ := fits
  exact ⟨dstOffset, srcOffset, size, dst, src, sized, ends.trans le⟩

/-! ## Words -/

theorem toNat_le_max (first second : UInt64) :
    first.toNat ≤ (max first second).toNat ∧ second.toNat ≤ (max first second).toNat := by
  simp only [max]
  split
  · rename_i le
    exact ⟨UInt64.le_iff_toNat_le.mp le, le_rfl⟩
  · rename_i gt
    have less := UInt64.lt_iff_toNat_lt.mp (UInt64.not_le.mp gt)
    exact ⟨le_rfl, less.le⟩

theorem toNat_le_foldl_max (values : List UInt64) (start : UInt64) :
    start.toNat ≤ (values.foldl max start).toNat ∧
      ∀ value ∈ values, value.toNat ≤ (values.foldl max start).toNat := by
  induction values generalizing start with
  | nil => simp
  | cons first rest ih =>
    obtain ⟨larger, others⟩ := ih (max start first)
    obtain ⟨left, right⟩ := toNat_le_max start first
    refine ⟨left.trans larger, fun value present => ?_⟩
    rcases mem_cons.mp present with rfl | later
    · exact right.trans larger
    · exact others value later

/-- The check keeps the sum of offset and size from wrapping around. -/
theorem checkDestination_ends {dstOffset size : UInt64}
    (valid : (checkDestination dstOffset size).1 = true) :
    dstOffset.toNat + size.toNat ≤ (checkDestination dstOffset size).2.toNat := by
  by_cases wraps : sizeTMax - size < dstOffset
  · rw [checkDestination, if_pos wraps] at valid
    cases valid
  · have largest : sizeTMax.toNat = 2 ^ 64 - 1 := rfl
    have bound := size.toNat_lt
    have below : size ≤ sizeTMax := by
      rw [UInt64.le_iff_toNat_le, largest]
      omega
    rw [checkDestination, if_neg wraps, UInt64.toNat_add]
    rw [UInt64.not_lt, UInt64.le_iff_toNat_le, UInt64.toNat_sub_of_le _ _ below, largest] at wraps
    rw [Nat.mod_eq_of_lt (by omega)]

/-! ## One fragment, one key, one buffer -/

namespace RangesRequest

variable {request : RangesRequest} {i j : Nat}

/-- What is prepared for a key with the given number of results. -/
structure KeySound (request : RangesRequest) (i j count : Nat) (key : PreparedKey) : Prop where
  length : key.results.length = count
  masked : key.validFragments.length = count
  errors : ∀ result ∈ key.results, result = .error .invalidParams
  mask : ∀ k, key.validFragments[k]? = some true ↔ request.ValidAt i j k
  valid : ∀ k, key.validFragments[k]? = some true → request.Fits key.required i j k

theorem prepareFragment_sound {k : Nat} {dstOffset srcOffset size : UInt64}
    (dst : at3 request.allDstOffsets i j k = some dstOffset)
    (src : at3 request.allSrcOffsets i j k = some srcOffset)
    (sized : at3 request.allSizes i j k = some size) :
    request.prepareFragment i j k = some (checkDestination dstOffset size) ∧
      ((checkDestination dstOffset size).1 = true →
        request.Fits (checkDestination dstOffset size).2 i j k) := by
  refine ⟨by simp [prepareFragment, dst, sized], fun valid => ?_⟩
  exact ⟨dstOffset, srcOffset, size, dst, src, sized, checkDestination_ends valid⟩

theorem prepareKey_sound {dstOffsets srcOffsets sizes : List UInt64}
    (dst : at2 request.allDstOffsets i j = some dstOffsets)
    (src : at2 request.allSrcOffsets i j = some srcOffsets)
    (sized : at2 request.allSizes i j = some sizes) :
    ∃ key, request.prepareKey i j = some key ∧ KeySound request i j dstOffsets.length key := by
  have level : ∀ k, request.ValidAt i j k ↔
      (dstOffsets.length = srcOffsets.length ∧ dstOffsets.length = sizes.length) ∧
        ∃ dstOffset size, dstOffsets[k]? = some dstOffset ∧ sizes[k]? = some size ∧
          (checkDestination dstOffset size).1 = true := by
    simp [ValidAt, dst, src, sized, and_assoc]
  by_cases aligned : dstOffsets.length = srcOffsets.length ∧ dstOffsets.length = sizes.length
  · obtain ⟨sources, lengths⟩ := aligned
    have rounds : ∀ k < dstOffsets.length, ∃ fragment,
        request.prepareFragment i j k = some fragment ∧
          (fragment.1 = true ↔ request.ValidAt i j k) ∧
          (fragment.1 = true → request.Fits fragment.2 i j k) := by
      intro k inside
      have first := getElem?_eq_getElem inside
      have third := getElem?_eq_getElem (lengths ▸ inside : k < sizes.length)
      obtain ⟨prepared, fits⟩ := prepareFragment_sound (at3_eq_some.mpr ⟨_, dst, first⟩)
        (at3_eq_some.mpr ⟨_, src, getElem?_eq_getElem (sources ▸ inside)⟩)
        (at3_eq_some.mpr ⟨_, sized, third⟩)
      exact ⟨_, prepared, by simp [level, first, third, ← sources, ← lengths], fits⟩
    obtain ⟨fragments, ran, tabulated⟩ := tabulate_spec rounds
    refine ⟨⟨List.replicate dstOffsets.length (.error .invalidParams), fragments.map Prod.fst,
      (fragments.map Prod.snd).foldl max 0⟩, ?_, ?_⟩
    · simp [prepareKey, dst, src, sized, ← sources, ← lengths, ran]
    · refine ⟨length_replicate, by simp [tabulated.length],
        fun result present => (mem_replicate.mp present).2, fun k => ⟨fun set => ?_,
          fun valid => ?_⟩, fun k set => ?_⟩
      · rw [getElem?_map] at set
        obtain ⟨fragment, read, isSet⟩ := Option.map_eq_some_iff.mp set
        exact (tabulated.rounds k fragment read).1.mp isSet
      · obtain ⟨-, _, _, found, -⟩ := (level k).mp valid
        have inside := (List.getElem?_eq_some_iff.mp found).1
        have read := getElem?_eq_getElem (tabulated.length.symm ▸ inside)
        rw [getElem?_map, read, Option.map_some, (tabulated.rounds k _ read).1.mpr valid]
      · rw [getElem?_map] at set
        obtain ⟨fragment, read, isSet⟩ := Option.map_eq_some_iff.mp set
        refine ((tabulated.rounds k fragment read).2 isSet).mono
          ((toNat_le_foldl_max _ 0).2 _ ?_)
        exact mem_map_of_mem (mem_of_getElem? read)
  · have unset : ∀ k : Nat, (List.replicate dstOffsets.length false)[k]? ≠ some true := by
      intro k set
      cases (mem_replicate.mp (mem_of_getElem? set)).2
    refine ⟨⟨List.replicate dstOffsets.length (.error .invalidParams),
      List.replicate dstOffsets.length false, 0⟩, ?_, ?_⟩
    · simp [prepareKey, dst, src, sized, ← not_and_or, aligned]
    · exact ⟨length_replicate, length_replicate,
        fun result present => (mem_replicate.mp present).2,
        fun k => ⟨fun set => absurd set (unset k),
          fun valid => absurd ((level k).mp valid).1 aligned⟩,
        fun k set => absurd set (unset k)⟩

structure BufferSound (request : RangesRequest) (i : Nat) (buffer : PreparedBuffer) : Prop where
  shaped : buffer.results.map List.length = request.shapeRow i
  masked : buffer.validFragments.map List.length = request.shapeRow i
  errors : ∀ row ∈ buffer.results, ∀ result ∈ row, result = .error .invalidParams
  mask : ∀ j k, at2 buffer.validFragments j k = some true ↔ request.ValidFragment i j k
  valid : ∀ j k, at2 buffer.validFragments j k = some true → request.Fits buffer.required i j k

theorem bufferSound_of_rows {dstOffsets : List (List UInt64)}
    (dst : request.allDstOffsets[i]? = some dstOffsets)
    (aligned : request.keysAligned i = true) {rows : List PreparedKey}
    (tabulated : Tabulates
      (fun j => KeySound request i j ((dstOffsets[j]?.map List.length).getD 0))
      dstOffsets.length rows) :
    BufferSound request i ⟨rows.map PreparedKey.results, rows.map PreparedKey.validFragments,
      (rows.map PreparedKey.required).foldl max 0⟩ := by
  have shaped : (List.range dstOffsets.length).map
      (fun j => (dstOffsets[j]?.map List.length).getD 0) = request.shapeRow i := by
    rw [shapeRow, if_pos aligned, getD_eq_getElem?_getD, dst]
    exact ext_getElem (by simp) fun j _ inside => by simp at inside; simp [inside]
  have located : ∀ {j k : Nat}, at2 (rows.map PreparedKey.validFragments) j k = some true →
      ∃ key, rows[j]? = some key ∧ key.validFragments[k]? = some true := by
    intro j k set
    obtain ⟨masks, found, isSet⟩ := at2_eq_some.mp set
    rw [getElem?_map] at found
    obtain ⟨key, read, rfl⟩ := Option.map_eq_some_iff.mp found
    exact ⟨key, read, isSet⟩
  refine ⟨?_, ?_, ?_, fun j k => ⟨fun set => ?_, fun valid => ?_⟩, fun j k set => ?_⟩
  · rw [map_map, ← shaped]
    exact tabulated.map_eq fun j key sound => sound.length
  · rw [map_map, ← shaped]
    exact tabulated.map_eq fun j key sound => sound.masked
  · intro results present
    obtain ⟨key, listed, rfl⟩ := mem_map.mp present
    obtain ⟨j, read⟩ := mem_iff_getElem?.mp listed
    exact (tabulated.rounds j key read).errors
  · obtain ⟨key, read, isSet⟩ := located set
    exact ⟨aligned, ((tabulated.rounds j key read).mask k).mp isSet⟩
  · obtain ⟨offsets, -, -, -, -, place, -⟩ := valid.2
    obtain ⟨_, first, second⟩ := at2_eq_some.mp place
    rw [dst] at first
    cases first
    have inside := (List.getElem?_eq_some_iff.mp second).1
    have read := getElem?_eq_getElem (tabulated.length.symm ▸ inside : j < rows.length)
    refine at2_eq_some.mpr ⟨_, by rw [getElem?_map, read]; rfl, ?_⟩
    exact ((tabulated.rounds j _ read).mask k).mpr valid.2
  · obtain ⟨key, read, isSet⟩ := located set
    refine ((tabulated.rounds j key read).valid k isSet).mono ((toNat_le_foldl_max _ 0).2 _ ?_)
    exact mem_map_of_mem (mem_of_getElem? read)

/-- Where the lengths differ, every key gets one error. -/
theorem bufferSound_of_mismatch {keys : List ObjectKey}
    (keyed : request.allKeys[i]? = some keys) (mismatched : ¬ request.keysAligned i = true) :
    BufferSound request i ⟨List.replicate keys.length [.error .invalidParams],
      List.replicate keys.length [false], 0⟩ := by
  have row : request.shapeRow i = List.replicate keys.length 1 := by
    rw [shapeRow, if_neg mismatched, getD_eq_getElem?_getD, keyed]
    rfl
  have unset : ∀ j k, at2 (List.replicate keys.length [false]) j k ≠ some true := by
    intro j k set
    obtain ⟨masks, found, isSet⟩ := at2_eq_some.mp set
    cases (mem_replicate.mp (mem_of_getElem? found)).2
    cases mem_singleton.mp (mem_of_getElem? isSet)
  refine ⟨by simp [row], by simp [row], ?_, fun j k => ⟨fun set => absurd set (unset j k),
    fun valid => absurd valid.1 mismatched⟩, fun j k set => absurd set (unset j k)⟩
  intro results present
  cases (mem_replicate.mp present).2
  simp

theorem prepareBuffer_sound {keys : List ObjectKey}
    {dstOffsets srcOffsets sizes : List (List UInt64)} (keyed : request.allKeys[i]? = some keys)
    (dst : request.allDstOffsets[i]? = some dstOffsets)
    (src : request.allSrcOffsets[i]? = some srcOffsets)
    (sized : request.allSizes[i]? = some sizes) :
    ∃ buffer, request.prepareBuffer i = some buffer ∧ BufferSound request i buffer := by
  have level : request.keysAligned i = true ↔ keys.length = dstOffsets.length ∧
      keys.length = srcOffsets.length ∧ keys.length = sizes.length := by
    simp [keysAligned, getD_eq_getElem?_getD, keyed, dst, src, sized, and_assoc]
  by_cases aligned : request.keysAligned i = true
  · obtain ⟨destinations, sources, lengths⟩ := level.mp aligned
    have rounds : ∀ j < dstOffsets.length, ∃ key, request.prepareKey i j = some key ∧
        KeySound request i j ((dstOffsets[j]?.map List.length).getD 0) key := by
      intro j inside
      have found := getElem?_eq_getElem inside
      rw [found]
      exact prepareKey_sound (at2_eq_some.mpr ⟨_, dst, found⟩)
        (at2_eq_some.mpr ⟨_, src, getElem?_eq_getElem (by omega)⟩)
        (at2_eq_some.mpr ⟨_, sized, getElem?_eq_getElem (by omega)⟩)
    obtain ⟨rows, ran, tabulated⟩ := tabulate_spec rounds
    refine ⟨_, ?_, bufferSound_of_rows dst aligned tabulated⟩
    simp [prepareBuffer, keyed, dst, src, sized, destinations, ← sources, ← lengths, ran]
  · refine ⟨_, ?_, bufferSound_of_mismatch keyed aligned⟩
    rw [level, not_and_or, not_and_or] at aligned
    simp [prepareBuffer, keyed, dst, src, sized, aligned]

/-! ## The whole request -/

structure PreparedSound (request : RangesRequest) (bufferCount : Nat)
    (prepared : PreparedRangedReadRequest) : Prop where
  shaped : lengths prepared.results = request.shape bufferCount
  masked : lengths prepared.validFragments = request.shape bufferCount
  required : prepared.requiredBufferSizes.length = bufferCount
  errors : ∀ (i j k : Nat) (result : Expected Nat), at3 prepared.results i j k = some result →
    result = .error .invalidParams
  mask : ∀ i j k, at3 prepared.validFragments i j k = some true ↔ request.ValidFragment i j k
  valid : ∀ i j k, at3 prepared.validFragments i j k = some true →
    ∃ size, prepared.requiredBufferSizes[i]? = some size ∧ request.Fits size i j k

theorem topLevelValid_iff {bufferCount : Nat} :
    request.topLevelValid bufferCount = true ↔
      bufferCount = request.allKeys.length ∧ bufferCount = request.allDstOffsets.length ∧
        bufferCount = request.allSrcOffsets.length ∧ bufferCount = request.allSizes.length := by
  simp [topLevelValid, and_assoc]

/-- A request whose outer lengths agree is prepared without an access outside. -/
theorem prepareRangedReadRequest_sound {bufferCount : Nat}
    (aligned : request.topLevelValid bufferCount = true) :
    ∃ prepared, request.prepareRangedReadRequest bufferCount = some prepared ∧
      prepared.topLevelValid = true ∧ PreparedSound request bufferCount prepared := by
  obtain ⟨keyed, dst, src, sized⟩ := topLevelValid_iff.mp aligned
  have rounds : ∀ i < bufferCount, ∃ buffer, request.prepareBuffer i = some buffer ∧
      BufferSound request i buffer := by
    intro i inside
    exact prepareBuffer_sound (getElem?_eq_getElem (keyed ▸ inside))
      (getElem?_eq_getElem (dst ▸ inside)) (getElem?_eq_getElem (src ▸ inside))
      (getElem?_eq_getElem (sized ▸ inside))
  obtain ⟨rows, ran, tabulated⟩ := tabulate_spec rounds
  have located : ∀ {α : Type} {field : PreparedBuffer → List (List α)} {i j k : Nat} {value : α},
      at3 (rows.map field) i j k = some value →
        ∃ buffer, rows[i]? = some buffer ∧ at2 (field buffer) j k = some value := by
    intro α field i j k value present
    obtain ⟨row, place, read⟩ := at3_eq_some.mp present
    obtain ⟨table, first, second⟩ := at2_eq_some.mp place
    rw [getElem?_map] at first
    obtain ⟨buffer, found, rfl⟩ := Option.map_eq_some_iff.mp first
    exact ⟨buffer, found, at2_eq_some.mpr ⟨row, second, read⟩⟩
  refine ⟨_, by rw [prepareRangedReadRequest, aligned, ran]; rfl, rfl, ?_⟩
  refine ⟨?_, ?_, by simp [tabulated.length], fun i j k result present => ?_,
    fun i j k => ⟨fun set => ?_, fun valid => ?_⟩, fun i j k set => ?_⟩
  · rw [lengths, map_map, shape, if_pos aligned]
    exact tabulated.map_eq fun i buffer sound => sound.shaped
  · rw [lengths, map_map, shape, if_pos aligned]
    exact tabulated.map_eq fun i buffer sound => sound.masked
  · obtain ⟨buffer, read, place⟩ := located present
    obtain ⟨row, second, third⟩ := at2_eq_some.mp place
    exact (tabulated.rounds i buffer read).errors row (mem_of_getElem? second) result
      (mem_of_getElem? third)
  · obtain ⟨buffer, read, place⟩ := located set
    exact ((tabulated.rounds i buffer read).mask j k).mp place
  · obtain ⟨offsets, -, -, -, -, place, -⟩ := valid.2
    obtain ⟨_, first, -⟩ := at2_eq_some.mp place
    have inside := (List.getElem?_eq_some_iff.mp first).1
    have read := getElem?_eq_getElem
      (tabulated.length.symm ▸ dst ▸ inside : i < rows.length)
    obtain ⟨masks, second, third⟩ :=
      at2_eq_some.mp (((tabulated.rounds i _ read).mask j k).mpr valid)
    refine at3_eq_some.mpr ⟨masks, at2_eq_some.mpr ⟨_, ?_, second⟩, third⟩
    rw [getElem?_map, read]
    rfl
  · obtain ⟨buffer, read, place⟩ := located set
    refine ⟨buffer.required, ?_, (tabulated.rounds i buffer read).valid j k place⟩
    rw [getElem?_map, read]
    rfl

end RangesRequest

end Mooncake.Read
