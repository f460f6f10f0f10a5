import Mooncake.Vllm.Saving

/-!
# Collisions of keys

The hashed bytes are those of the tokens, eight for each, and then the joined text of the
multimodal hashes.  Nothing stands between the two, and the text does not say where one
hash ends.
-/

namespace Mooncake.Vllm

open Connector List

/-- What tells the keys of one connector apart. -/
structure KeyParts where
  layerName : String
  tokenIds : List Token
  mmHashes : List String
  deriving DecidableEq

/-- The layer, and the bytes that are handed to the hash. -/
def KeyParts.input (parts : KeyParts) : String × List UInt8 :=
  (parts.layerName, prefixBytes parts.tokenIds parts.mmHashes)

def KeyParts.mmText (parts : KeyParts) : List UInt8 :=
  ("-".intercalate parts.mmHashes).toUTF8.toList

/-- The text of the hashes starts with the bytes of the tokens that `other` has more, and
goes on with the text of its hashes. -/
def KeyParts.ReadAs (parts other : KeyParts) : Prop :=
  ∃ extra, other.tokenIds = parts.tokenIds ++ extra ∧
    parts.mmText = extra.flatMap tokenBytes ++ other.mmText

theorem tokenBytes_injective : Function.Injective tokenBytes := by
  intro token other same
  apply BitVec.eq_of_getLsbD_eq
  intro bit within
  have byte := congrArg (fun bytes : List UInt8 => bytes[bit / 8]?) same
  have position : bit / 8 < 8 := by omega
  simp only [tokenBytes, getElem?_map, getElem?_range position, Option.map_some,
    Option.some.injEq, UInt8.ofBitVec.injEq] at byte
  have bits := congrArg (fun word => word.getLsbD (bit % 8)) byte
  have inByte : bit % 8 < 8 := Nat.mod_lt _ (by omega)
  have split : 8 * (bit / 8) + bit % 8 = bit := Nat.div_add_mod bit 8
  simpa only [BitVec.getLsbD_extractLsb', inByte, decide_true, Bool.true_and, split] using bits

/-- Of two token lists with the same bytes the shorter one is the start of the other. -/
theorem isPrefix_of_bytes_eq {tokens others : List Token} {text text' : List UInt8}
    (shorter : tokens.length ≤ others.length)
    (same : tokens.flatMap tokenBytes ++ text = others.flatMap tokenBytes ++ text') :
    tokens <+: others := by
  induction tokens generalizing others with
  | nil => exact nil_prefix
  | cons token rest ih =>
    cases others with
    | nil => simp at shorter
    | cons other later =>
      rw [flatMap_cons, flatMap_cons, append_assoc, append_assoc] at same
      obtain ⟨first, tail⟩ := append_inj same (by simp [tokenBytes])
      rw [tokenBytes_injective first]
      exact cons_prefix_cons.mpr ⟨rfl, ih (Nat.le_of_succ_le_succ shorter) tail⟩

namespace KeyParts

variable {parts other : KeyParts}

/-- Without hashes the text is empty, so the case of the source makes no difference. -/
theorem prefixBytes_eq (parts : KeyParts) : prefixBytes parts.tokenIds parts.mmHashes =
    parts.tokenIds.flatMap tokenBytes ++ parts.mmText := by
  rw [prefixBytes, mmText]
  split
  · rename_i empty
    rw [empty]
    simp
  · rfl

theorem ReadAs.same_bytes (reads : parts.ReadAs other) :
    prefixBytes parts.tokenIds parts.mmHashes = prefixBytes other.tokenIds other.mmHashes := by
  obtain ⟨extra, longer, text⟩ := reads
  rw [prefixBytes_eq, prefixBytes_eq, longer, text, flatMap_append, append_assoc]

theorem readAs_of_same_bytes
    (shorter : parts.tokenIds.length ≤ other.tokenIds.length)
    (same : prefixBytes parts.tokenIds parts.mmHashes =
      prefixBytes other.tokenIds other.mmHashes) : parts.ReadAs other := by
  rw [prefixBytes_eq, prefixBytes_eq] at same
  obtain ⟨extra, longer⟩ := isPrefix_of_bytes_eq shorter same
  rw [← longer, flatMap_append, append_assoc, append_cancel_left_eq] at same
  exact ⟨extra, longer.symm, same⟩

theorem same_bytes_iff : prefixBytes parts.tokenIds parts.mmHashes =
    prefixBytes other.tokenIds other.mmHashes ↔ parts.ReadAs other ∨ other.ReadAs parts := by
  constructor
  · intro same
    rcases Nat.le_total parts.tokenIds.length other.tokenIds.length with shorter | shorter
    · exact .inl (readAs_of_same_bytes shorter same)
    · exact .inr (readAs_of_same_bytes shorter same.symm)
  · rintro (reads | reads)
    · exact reads.same_bytes
    · exact reads.same_bytes.symm

end KeyParts

/-- Different parts give different inputs, and so different keys, unless the layer is the
same and one is read as the other. -/
theorem keyInputs_apart_iff (connector : Connector)
    (distinct : Function.Injective connector.safeHash) (parts other : KeyParts) :
    (parts ≠ other → parts.input ≠ other.input ∧
      connector.objectKey parts.layerName parts.tokenIds parts.mmHashes ≠
        connector.objectKey other.layerName other.tokenIds other.mmHashes) ↔
      parts = other ∨ parts.layerName ≠ other.layerName ∨
        ¬ parts.ReadAs other ∧ ¬ other.ReadAs parts := by
  have inputs : parts.input = other.input ↔ parts.layerName = other.layerName ∧
      (parts.ReadAs other ∨ other.ReadAs parts) := by
    rw [KeyParts.input, KeyParts.input, Prod.mk.injEq, KeyParts.same_bytes_iff]
  rw [ne_eq, ne_eq, ne_eq, inputs, objectKey_eq_iff, distinct.eq_iff, KeyParts.same_bytes_iff]
  tauto

theorem oneToken_keys_apart :
    Function.Injective fourTokenBlocks.safeHash ∧
      fourTokenBlocks.objectKey markerName [1] ["a"] ≠
        fourTokenBlocks.objectKey markerName [2] ["a"] := by
  refine ⟨fourTokenBlocks_safeHash_injective, ?_⟩
  refine ((keyInputs_apart_iff fourTokenBlocks fourTokenBlocks_safeHash_injective
    ⟨markerName, [1], ["a"]⟩ ⟨markerName, [2], ["a"]⟩).mpr (.inr (.inr ⟨?_, ?_⟩))
      (by decide)).2
  · rintro ⟨extra, longer, -⟩
    cases longer
  · rintro ⟨extra, longer, -⟩
    cases longer

theorem joinedHashes_collide :
    let parts : KeyParts := ⟨markerName, [], ["a-b"]⟩
    let other : KeyParts := ⟨markerName, [], ["a", "b"]⟩
    parts ≠ other ∧ parts.input = other.input := by
  exact ⟨by decide, rfl⟩

end Mooncake.Vllm
