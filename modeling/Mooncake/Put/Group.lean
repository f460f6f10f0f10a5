import Mooncake.Library.Indexed
import Mooncake.Put.Transfer

/-!
# Finalize groups

A finalize group is the argument of one batch End or Revoke request, kept as
two parallel vectors: the keys that are sent and the operation indices that
the responses are written back to.
-/

namespace Mooncake.Put

open Library.Indexed List

structure BatchFinalizeGroup where
  keys : List ObjectKey := []
  indices : List Nat := []
  deriving DecidableEq, Repr

namespace BatchFinalizeGroup

/-- The group of the operations that pass a test, in the order of the batch. -/
def collect (test : PutOperation → Bool) (ops : List PutOperation) : BatchFinalizeGroup where
  keys := (select test ops).map fun entry => entry.1.key
  indices := positions test ops

def entries (group : BatchFinalizeGroup) : List (ObjectKey × Nat) :=
  group.keys.zip group.indices

/-- The response that the code attributes to one operation: its own one, or
`RPC_FAIL` when the number of responses is wrong. -/
def answer (group : BatchFinalizeGroup) (responses : List (Expected Unit)) (index : Nat) :
    Option (Expected Unit) :=
  if responses.length = group.keys.length then (group.indices.zip responses).lookup index
  else if index ∈ group.indices then some (.error .rpcFail)
  else none

/-- All responses of a group with the operations they are attributed to. -/
def attributed (group : BatchFinalizeGroup) (responses : List (Expected Unit)) :
    List (Nat × Expected Unit) :=
  if responses.length ≠ group.keys.length then
    group.indices.map fun index => (index, .error .rpcFail)
  else group.indices.zip responses

variable (test : PutOperation → Bool) (ops : List PutOperation)

theorem collect_entries :
    (collect test ops).entries = (select test ops).map fun entry => (entry.1.key, entry.2) := by
  simp only [entries, collect, positions]
  exact zip_map' ..

theorem collect_lengths :
    (collect test ops).keys.length = (collect test ops).indices.length := by
  simp [collect, positions]

theorem mem_collect_indices {test : PutOperation → Bool} {ops : List PutOperation}
    {index : Nat} {op : PutOperation} (found : ops[index]? = some op) :
    index ∈ (collect test ops).indices ↔ test op = true := by
  rw [collect, mem_positions]
  constructor
  · rintro ⟨other, same, passed⟩
    rw [found] at same
    exact Option.some.inj same ▸ passed
  · intro passed
    exact ⟨op, found, passed⟩

theorem mem_collect_entries {test : PutOperation → Bool} {ops : List PutOperation}
    {index : Nat} {op : PutOperation} (found : ops[index]? = some op) (key : ObjectKey) :
    (key, index) ∈ (collect test ops).entries ↔ key = op.key ∧ test op = true := by
  rw [collect_entries, mem_map]
  constructor
  · rintro ⟨⟨other, position⟩, selected, same⟩
    obtain ⟨rfl, rfl⟩ := Prod.mk.inj same
    obtain ⟨located, passed⟩ := mem_select.mp selected
    rw [found] at located
    obtain rfl := Option.some.inj located
    exact ⟨rfl, passed⟩
  · rintro ⟨rfl, passed⟩
    exact ⟨(op, index), mem_select.mpr ⟨found, passed⟩, rfl⟩

theorem collect_entries_nodup : (collect test ops).entries.Nodup := by
  apply List.Nodup.of_map Prod.snd
  rw [collect_entries, map_map]
  exact positions_nodup test ops

theorem count_collect_entries {test : PutOperation → Bool} {ops : List PutOperation}
    {index : Nat} {op : PutOperation} (found : ops[index]? = some op) :
    (collect test ops).entries.count (op.key, index) = if test op then 1 else 0 := by
  by_cases passed : test op = true
  · rw [if_pos passed]
    exact count_eq_one_of_mem (collect_entries_nodup test ops)
      ((mem_collect_entries found op.key).mpr ⟨rfl, passed⟩)
  · rw [if_neg passed]
    apply count_eq_zero_of_not_mem
    intro named
    exact passed ((mem_collect_entries found op.key).mp named).2

variable (responses : List (Expected Unit)) (index : Nat)

theorem answer_isSome_iff :
    ((collect test ops).answer responses index).isSome = true ↔
      index ∈ (collect test ops).indices := by
  unfold answer
  split
  · rename_i matched
    rw [collect_lengths] at matched
    rw [lookup_isSome_iff]
    constructor
    · rintro ⟨⟨position, response⟩, paired, same⟩
      have equal : index = position := by simpa using same
      exact equal ▸ (of_mem_zip paired).1
    · intro present
      obtain ⟨place, inside, located⟩ := getElem_of_mem present
      have bound : place < responses.length := by rw [matched]; exact inside
      refine ⟨(index, responses[place]), ?_, by simp⟩
      rw [mem_iff_getElem]
      refine ⟨place, ?_, ?_⟩
      · rw [length_zip]
        exact Nat.lt_min.mpr ⟨inside, bound⟩
      · simp [located]
  · split <;> simp_all

theorem attributed_nodup :
    (((collect test ops).attributed responses).map Prod.fst).Nodup := by
  have distinct : (collect test ops).indices.Nodup := positions_nodup test ops
  unfold attributed
  split
  · simpa [Function.comp_def] using distinct
  · exact zip_map_fst_nodup distinct responses

theorem answer_eq_some_iff (response : Expected Unit) :
    (collect test ops).answer responses index = some response ↔
      (index, response) ∈ (collect test ops).attributed responses := by
  have distinct : (collect test ops).indices.Nodup := positions_nodup test ops
  unfold answer attributed
  by_cases matched : responses.length = (collect test ops).keys.length
  · rw [if_pos matched, if_neg (not_not.mpr matched)]
    exact lookup_eq_some_iff_mem (zip_map_fst_nodup distinct responses) index response
  · rw [if_neg matched, if_pos matched]
    by_cases present : index ∈ (collect test ops).indices <;> simp [present, eq_comm]

/-- An attributed response was received in a vector of the right size, or
stands for one of the wrong size. -/
theorem answer_cases {group : BatchFinalizeGroup} {responses : List (Expected Unit)}
    {index : Nat} {response : Expected Unit}
    (answered : group.answer responses index = some response) :
    responses.length = group.keys.length ∧ response ∈ responses ∨
      response = .error .rpcFail := by
  unfold answer at answered
  split at answered
  · rename_i matched
    obtain ⟨before, later, split, -⟩ := lookup_eq_some_iff.mp answered
    have paired : (index, response) ∈ group.indices.zip responses := by simp [split]
    exact .inl ⟨matched, (of_mem_zip paired).2⟩
  · split at answered
    · exact .inr (Option.some.inj answered).symm
    · cases answered

/-- Every received response is attributed to some operation of the group. -/
theorem exists_answer_of_mem {responses : List (Expected Unit)} {response : Expected Unit}
    (matched : responses.length = (collect test ops).keys.length)
    (received : response ∈ responses) :
    ∃ index ∈ (collect test ops).indices,
      (collect test ops).answer responses index = some response := by
  obtain ⟨place, inside, located⟩ := getElem_of_mem received
  have bound : place < (collect test ops).indices.length := by
    rw [← collect_lengths, ← matched]
    exact inside
  have paired : ((collect test ops).indices[place], response) ∈
      (collect test ops).indices.zip responses := by
    rw [mem_iff_getElem]
    refine ⟨place, ?_, ?_⟩
    · rw [length_zip]
      exact Nat.lt_min.mpr ⟨bound, inside⟩
    · simp [located]
  refine ⟨(collect test ops).indices[place], getElem_mem bound, ?_⟩
  rw [answer, if_pos matched]
  exact (lookup_eq_some_iff_mem
    (zip_map_fst_nodup (positions_nodup test ops) responses) _ _).mpr paired

end BatchFinalizeGroup

end Mooncake.Put
