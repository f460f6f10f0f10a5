import Mooncake.Read.RangesPrepared

/-!
# Runs of nested ranged reads

A run of `get_into_ranges` has the shape of its prepared request.  A fragment is
executed exactly when its mask is set, it fits its buffer and its key has metadata;
every other fragment ends with an error.  The metadata of a key do not depend on when
the key is met, since the cache keeps the first answer.
-/

namespace Mooncake.Read

open Library.Keyed Library.Loops List

structure Reading where
  key : ObjectKey
  metadata : RangedReadMetadata
  buffer : Nat
  dstOffset : UInt64
  srcOffset : UInt64
  size : UInt64

def Reading.execute (reading : Reading) (client : RangedClient) (answers : FragmentAnswers) :
    RangedRead :=
  executeRangedRead client answers reading.key reading.metadata reading.buffer
    reading.dstOffset.toNat reading.srcOffset.toNat reading.size.toNat false

def Reading.run (reading : Reading) (client : RangedClient) (answers : FragmentAnswers) :
    FragmentRun where
  result := (reading.execute client answers).result
  read := some (reading.execute client answers)

/-- The buffers of a run and their capacities; `given` tells that the caller named the
capacities. -/
structure Destination where
  buffers : List Nat
  capacities : List Nat
  given : Bool
  aligned : capacities.length = buffers.length

/-- The buffer is written to, and has room for the fragment. -/
def Destination.Admits (destination : Destination) (i : Nat) (reading : Reading) : Prop :=
  destination.buffers[i]? = some reading.buffer ∧
    ∃ capacity, destination.capacities[i]? = some capacity ∧
      ¬(capacity = 0 ∧ destination.given = false) ∧
      RangesInput.overflows capacity reading.dstOffset reading.size = false

namespace RangesInput

variable (input : RangesInput) (client : RangedClient) (answers : RangesAnswers)
  (cache : Option QueryResultCache)

def metadataFor (key : ObjectKey) : Expected RangedReadMetadata :=
  ((input.initialMetadata cache).lookup key).getD (input.queriedMetadata key)

/-- The fragment `(i, j, k)` is executed, and reads this. -/
structure Reads (destination : Destination) (i j k : Nat) (reading : Reading) : Prop where
  valid : input.ValidFragment i j k
  key : at2 input.allKeys i j = some reading.key
  dstOffset : at3 input.allDstOffsets i j k = some reading.dstOffset
  srcOffset : at3 input.allSrcOffsets i j k = some reading.srcOffset
  size : at3 input.allSizes i j k = some reading.size
  admitted : destination.Admits i reading
  metadata : input.metadataFor cache reading.key = .ok reading.metadata

/-- What becomes of the fragment `(i, j, k)`.  The error of a fragment that is not read is
that of its key, or a refusal of its parameters. -/
def Settles (destination : Destination) (i j k : Nat) (fragment : FragmentRun) : Prop :=
  (∃ reading, input.Reads cache destination i j k reading ∧
      fragment = reading.run client (answers i j k)) ∨
    ((∀ reading, ¬input.Reads cache destination i j k reading) ∧
      ∃ error, fragment = { result := .error error } ∧
        (error = .invalidParams ∨ ∃ key, at2 input.allKeys i j = some key ∧
          input.metadataFor cache key = .error error))

def RowSettles (prepared : PreparedRangedReadRequest) (destination : Destination) (i j : Nat)
    (row : List FragmentRun) : Prop :=
  (at2 prepared.results i j).map List.length = some row.length ∧
    ∀ k fragment, row[k]? = some fragment →
      input.Settles client answers cache destination i j k fragment

def RowsSettle (prepared : PreparedRangedReadRequest) (destination : Destination) (i : Nat)
    (rows : List (List FragmentRun)) : Prop :=
  prepared.results[i]?.map (List.map List.length) = some (rows.map List.length) ∧
    ∀ j k fragment, at2 rows j k = some fragment →
      input.Settles client answers cache destination i j k fragment

/-! ## The cache -/

/-- The cache does not change what a key means. -/
def Agrees (metadata : MetadataCache) : Prop :=
  ∀ key, (metadata.lookup key).getD (input.queriedMetadata key) = input.metadataFor cache key

variable {input client answers cache}

theorem findMetadata_agrees {metadata : MetadataCache} (agrees : input.Agrees cache metadata)
    (key : ObjectKey) :
    (input.findMetadata key metadata).1 = input.metadataFor cache key ∧
      input.Agrees cache (input.findMetadata key metadata).2 := by
  have own := agrees key
  unfold findMetadata
  cases found : metadata.lookup key with
  | some value =>
    rw [found] at own
    exact ⟨own, agrees⟩
  | none =>
    rw [found] at own
    refine ⟨own, fun other => ?_⟩
    by_cases same : other = key
    · subst same
      rw [AList.lookup_insert]
      exact own
    · rw [AList.lookup_insert_ne same]
      exact agrees other

/-! ## One fragment -/

section Rounds

variable {prepared : PreparedRangedReadRequest} {destination : Destination}
  (sound : input.toRangesRequest.PreparedSound destination.buffers.length prepared)

include sound

variable {i j capacity : Nat} {row : List (Expected Nat)} {metadata : MetadataCache}

theorem readFragment_settles {k buffer : Nat} {key : ObjectKey} {initial : Expected Nat}
    (keyed : at2 input.allKeys i j = some key) (buffered : destination.buffers[i]? = some buffer)
    (room : destination.capacities[i]? = some capacity)
    (written : ¬(capacity = 0 ∧ destination.given = false))
    (present : at3 prepared.results i j k = some initial) :
    ∃ fragment, input.readFragment client answers prepared buffer capacity key
        (input.metadataFor cache key) i j k = some fragment ∧
      input.Settles client answers cache destination i j k fragment := by
  obtain ⟨valid, masked⟩ := at3_of_lengths_eq (sound.shaped.trans sound.masked.symm) present
  have failed := sound.errors i j k initial present
  subst failed
  cases valid with
  | false =>
    refine ⟨{ result := .error .invalidParams }, by simp [readFragment, present, masked],
      .inr ⟨fun reading reads => ?_, _, rfl, .inl rfl⟩⟩
    have mask := (sound.mask i j k).mpr reads.valid
    rw [masked] at mask
    cases mask
  | true =>
    obtain ⟨required, -, dstOffset, srcOffset, size, dst, src, sized, -⟩ := sound.valid i j k masked
    by_cases overflow : overflows capacity dstOffset size = true
    · refine ⟨{ result := .error .invalidParams },
        by simp [readFragment, present, masked, dst, sized, overflow],
        .inr ⟨fun reading reads => ?_, _, rfl, .inl rfl⟩⟩
      obtain ⟨-, other, room', -, fits⟩ := reads.admitted
      rw [room] at room'
      cases room'
      have sameDst := reads.dstOffset
      have sameSize := reads.size
      rw [dst] at sameDst
      rw [sized] at sameSize
      cases sameDst
      cases sameSize
      rw [fits] at overflow
      cases overflow
    · have fits : overflows capacity dstOffset size = false := by simpa using overflow
      cases found : input.metadataFor cache key with
      | error error =>
        refine ⟨{ result := .error error },
          by simp [readFragment, present, masked, dst, src, sized, fits],
          .inr ⟨fun reading reads => ?_, _, rfl, .inr ⟨key, keyed, found⟩⟩⟩
        have sameKey := reads.key
        have known := reads.metadata
        rw [keyed] at sameKey
        cases sameKey
        rw [found] at known
        cases known
      | ok metadata =>
        let reading : Reading := ⟨key, metadata, buffer, dstOffset, srcOffset, size⟩
        refine ⟨reading.run client (answers i j k), ?_, .inl ⟨reading, ?_, rfl⟩⟩
        · simp [readFragment, present, masked, dst, src, sized, fits, reading, Reading.run,
            Reading.execute]
        · exact ⟨(sound.mask i j k).mp masked, keyed, dst, src, sized,
            ⟨buffered, capacity, room, written, fits⟩, found⟩

variable (aligned : input.topLevelValid destination.buffers.length = true)

include aligned

theorem results_length :
    prepared.results.length = destination.buffers.length := by
  have counted := congrArg List.length sound.shaped
  rw [RangesRequest.shape, if_pos aligned] at counted
  simpa [lengths] using counted

theorem key_of_result (present : at2 prepared.results i j = some row) :
    ∃ key, at2 input.allKeys i j = some key := by
  have counted : at2 (input.shape destination.buffers.length) i j = some row.length := by
    rw [← sound.shaped, at2_lengths, present]
    rfl
  rw [RangesRequest.shape, if_pos aligned] at counted
  obtain ⟨counts, first, second⟩ := at2_eq_some.mp counted
  obtain ⟨inside, rfl⟩ := List.getElem?_eq_some_iff.mp first
  have bound := (List.getElem?_eq_some_iff.mp second).1
  have outer : i < input.allKeys.length := by
    rw [← (RangesRequest.topLevelValid_iff.mp aligned).1]
    simpa using inside
  have inner : j < input.allKeys[i].length := by
    simp only [getElem_map, getElem_range, RangesRequest.shapeRow] at bound
    split at bound
    · rename_i level
      simp only [RangesRequest.keysAligned, Bool.and_eq_true, decide_eq_true_eq,
        getD_eq_getElem?_getD, getElem?_eq_getElem outer, Option.getD_some] at level
      rw [level.1.1]
      simpa [getD_eq_getElem?_getD] using bound
    · simpa [getD_eq_getElem?_getD, outer] using bound
  exact ⟨_, at2_eq_some.mpr ⟨_, getElem?_eq_getElem outer, getElem?_eq_getElem inner⟩⟩

theorem readKey_settles {buffer : Nat} (buffered : destination.buffers[i]? = some buffer)
    (room : destination.capacities[i]? = some capacity)
    (written : ¬(capacity = 0 ∧ destination.given = false))
    (present : at2 prepared.results i j = some row) (agrees : input.Agrees cache metadata) :
    ∃ fragments next, input.readKey client answers prepared buffer capacity i j metadata =
        some (fragments, next) ∧
      input.RowSettles client answers cache prepared destination i j fragments ∧
      input.Agrees cache next := by
  obtain ⟨key, keyed⟩ := key_of_result sound aligned present
  obtain ⟨found, kept⟩ := findMetadata_agrees agrees key
  have rounds : ∀ k < row.length, ∃ fragment,
      input.readFragment client answers prepared buffer capacity key
          (input.metadataFor cache key) i j k = some fragment ∧
        input.Settles client answers cache destination i j k
          fragment := by
    intro k inside
    exact readFragment_settles sound keyed buffered room written
      (at3_eq_some.mpr ⟨row, present, getElem?_eq_getElem inside⟩)
  obtain ⟨fragments, ran, tabulated⟩ := tabulate_spec rounds
  refine ⟨fragments, (input.findMetadata key metadata).2, ?_, ⟨?_, tabulated.rounds⟩, kept⟩
  · simp [readKey, keyed, present, found, ran]
  · simp [present, tabulated.length]

omit aligned in
theorem skipped_settles {rows : List (List (Expected Nat))}
    (listed : prepared.results[i]? = some rows) (room : destination.capacities[i]? = some capacity)
    (skipped : capacity = 0 ∧ destination.given = false) :
    input.RowsSettle client answers cache prepared destination i
      (rows.map fun row => row.map fun result => { result := result }) := by
  refine ⟨by simp [listed], fun j k fragment present => .inr ⟨fun reading reads => ?_, ?_⟩⟩
  · obtain ⟨-, other, room', written, -⟩ := reads.admitted
    rw [room] at room'
    cases room'
    exact written skipped
  · obtain ⟨row, second, third⟩ := at2_eq_some.mp present
    rw [getElem?_map] at second
    obtain ⟨results, found, rfl⟩ := Option.map_eq_some_iff.mp second
    rw [getElem?_map] at third
    obtain ⟨result, read, rfl⟩ := Option.map_eq_some_iff.mp third
    have failed := sound.errors i j k result
      (at3_eq_some.mpr ⟨results, at2_eq_some.mpr ⟨rows, listed, found⟩, read⟩)
    exact ⟨_, by rw [failed], .inl rfl⟩

theorem readBuffer_settles (inside : i < destination.buffers.length)
    (agrees : input.Agrees cache metadata) :
    ∃ rows next, input.readBuffer client answers prepared destination.buffers
        destination.capacities destination.given i metadata = some (rows, next) ∧
      input.RowsSettle client answers cache prepared destination i rows ∧
      input.Agrees cache next := by
  obtain ⟨buffer, buffered⟩ : ∃ buffer, destination.buffers[i]? = some buffer :=
    ⟨_, getElem?_eq_getElem inside⟩
  obtain ⟨capacity, room⟩ : ∃ capacity, destination.capacities[i]? = some capacity :=
    ⟨_, getElem?_eq_getElem (destination.aligned ▸ inside)⟩
  obtain ⟨results, listed⟩ : ∃ results, prepared.results[i]? = some results :=
    ⟨_, getElem?_eq_getElem (results_length sound aligned ▸ inside)⟩
  by_cases skipped : capacity = 0 ∧ destination.given = false
  · by_cases keyed : 0 < results.length
    · refine ⟨_, metadata, ?_, skipped_settles sound listed room skipped, agrees⟩
      simp only [readBuffer, listed, room, Option.bind_eq_bind, Option.bind_some,
        if_pos (show capacity = 0 ∧ 0 < results.length ∧ destination.given = false from
          ⟨skipped.1, keyed, skipped.2⟩)]
      rfl
    · have none : results = [] := by simpa using keyed
      subst none
      refine ⟨[], metadata, ?_, skipped_settles sound listed room skipped, agrees⟩
      simp [readBuffer, listed, room, buffered, collect]
  · have rounds : ∀ j < results.length, ∀ state, input.Agrees cache state →
        ∃ row next, input.readKey client answers prepared buffer capacity i j state =
            some (row, next) ∧
          input.RowSettles client answers cache prepared destination i j row ∧
          input.Agrees cache next := by
      intro j bound state kept
      exact readKey_settles sound aligned buffered room skipped
        (at2_eq_some.mpr ⟨results, listed, getElem?_eq_getElem bound⟩) kept
    obtain ⟨rows, last, ran, tabulated, kept⟩ := collect_spec rounds agrees
    refine ⟨rows, last, ?_, ⟨?_, fun j k fragment present => ?_⟩, kept⟩
    · have passed : ¬(capacity = 0 ∧ 0 < results.length ∧ destination.given = false) :=
        fun passes => skipped ⟨passes.1, passes.2.2⟩
      simp only [readBuffer, listed, room, buffered, Option.bind_eq_bind, Option.bind_some,
        if_neg passed, ran]
    · have counted : rows.map List.length = (List.range results.length).map
          fun j => ((at2 prepared.results i j).map List.length).getD 0 :=
        tabulated.map_eq fun j row settled => by rw [settled.1]; rfl
      rw [listed, counted]
      refine congrArg some (ext_getElem (by simp) fun j bound _ => ?_)
      simp only [length_map] at bound
      simp [at2, listed, bound]
    · obtain ⟨row, second, third⟩ := at2_eq_some.mp present
      exact (tabulated.rounds j row second).2 k fragment third

/-- The loops run without an access outside, and settle every fragment. -/
theorem readPrepared_settles :
    ∃ run, input.readPrepared client answers prepared destination.buffers
        destination.capacities destination.given cache = some run ∧
      lengths run = input.shape destination.buffers.length ∧
      ∀ i j k fragment, at3 run i j k = some fragment →
        input.Settles client answers cache destination i j k
          fragment := by
  have start : input.Agrees cache (input.initialMetadata cache) := fun _ => rfl
  have rounds : ∀ i < destination.buffers.length, ∀ state, input.Agrees cache state →
      ∃ rows next, input.readBuffer client answers prepared destination.buffers
          destination.capacities destination.given i state = some (rows, next) ∧
        input.RowsSettle client answers cache prepared destination i rows ∧
        input.Agrees cache next :=
    fun i inside state kept => readBuffer_settles sound aligned inside kept
  obtain ⟨run, last, ran, tabulated, -⟩ := collect_spec rounds start
  refine ⟨run, by simp [readPrepared, ran], ?_, fun i j k fragment present => ?_⟩
  · have counted : run.map (List.map List.length) =
        (List.range destination.buffers.length).map
          fun i => (prepared.results[i]?.map (List.map List.length)).getD [] :=
      tabulated.map_eq fun i rows settled => by rw [settled.1]; rfl
    rw [lengths, counted, ← sound.shaped, ← results_length sound aligned]
    refine ext_getElem (by simp [lengths]) fun i bound _ => ?_
    simp only [length_map, length_range] at bound
    simp [lengths, bound]
  · obtain ⟨row, place, third⟩ := at3_eq_some.mp present
    obtain ⟨rows, first, second⟩ := at2_eq_some.mp place
    exact (tabulated.rounds i rows first).2 j k fragment (at2_eq_some.mpr ⟨row, second, third⟩)

end Rounds

end RangesInput

end Mooncake.Read
