import Mooncake.Vllm.Connector

/-!
# Keys and puts

Two keys of one connector agree only if their layer and the hashed bytes do.  A
list of pending puts is sound when no outcome of any of them leaves a marker
without the layer objects of its prefix.
-/

namespace Mooncake.Vllm

open List

/-! ## Alignment -/

theorem alignToBlockSize_length (length blockSize : Nat) :
    (alignToBlockSize length blockSize).toNat = (length - 1) / blockSize * blockSize := by
  unfold alignToBlockSize
  split
  · rename_i empty
    have none : length = 0 := by omega
    subst none
    simp
  · rename_i some
    obtain ⟨rest, rfl⟩ : ∃ rest, length = rest + 1 := ⟨length - 1, by omega⟩
    have shifted : ((rest + 1 : Nat) : Int) - 1 = (rest : Int) := by omega
    rw [shifted, Nat.add_sub_cancel]
    exact Int.toNat_natCast (rest / blockSize * blockSize)

theorem length_tokenIds_makeMeta {tokenIds : List Token} {blockIds : List Nat} {blockSize : Nat}
    {isStore : Bool} {mmHashes : List String} :
    (makeMeta tokenIds blockIds blockSize isStore mmHashes).tokenIds.length =
      (tokenIds.length - 1) / blockSize * blockSize := by
  rw [makeMeta, alignToBlockSize_length]
  have shorter := Nat.div_mul_le_self (tokenIds.length - 1) blockSize
  exact length_take_of_le (by omega)

theorem alignToBlockSize_length_sub_one (length blockSize : Nat) :
    (alignToBlockSize ((length : Int) - 1) blockSize).toNat =
      (length - 2) / blockSize * blockSize := by
  cases length with
  | zero => simp [alignToBlockSize]
  | succ rest =>
    have shifted : ((rest + 1 : Nat) : Int) - 1 = (rest : Int) := by omega
    rw [shifted, alignToBlockSize_length]
    rfl

theorem aligned_iff {blockSize : Nat} (positive : 0 < blockSize) {length : Nat} :
    (length - 2) / blockSize * blockSize = (length - 1) / blockSize * blockSize ↔
      length ≤ 1 ∨ ¬ blockSize ∣ length - 1 := by
  by_cases short : length ≤ 1
  · have same : length - 2 = length - 1 := by omega
    simp [same, short]
  · obtain ⟨rest, rfl⟩ : ∃ rest, length = rest + 2 := ⟨length - 2, by omega⟩
    have previous : rest + 2 - 2 = rest := by omega
    have next : rest + 2 - 1 = rest + 1 := by omega
    rw [previous, next, Nat.succ_div]
    by_cases ends : blockSize ∣ rest + 1
    · simp [ends, Nat.add_mul, Nat.ne_of_gt positive]
    · simp [ends]

/-! ## Keys -/

theorem split_at_separator {α : Type} {separator : α} {field field' rest rest' : List α}
    (plain : separator ∉ field) (plain' : separator ∉ field')
    (same : field ++ separator :: rest = field' ++ separator :: rest') :
    field = field' ∧ rest = rest' := by
  induction field generalizing field' with
  | nil =>
    cases field' with
    | nil => exact ⟨rfl, tail_eq_of_cons_eq same⟩
    | cons first others =>
      exact absurd (head_eq_of_cons_eq same ▸ mem_cons_self) plain'
  | cons first others ih =>
    cases field' with
    | nil => exact absurd (head_eq_of_cons_eq same ▸ mem_cons_self) plain
    | cons first' others' =>
      rw [mem_cons, not_or] at plain plain'
      rw [cons_append, cons_append, List.cons.injEq] at same
      obtain ⟨rfl, tail⟩ := same
      obtain ⟨rfl, back⟩ := ih plain.2 plain'.2 tail
      exact ⟨rfl, back⟩

namespace Connector

variable {connector : Connector}

theorem objectKey_eq_iff {layer layer' : String} {tokens tokens' : List Token}
    {mm mm' : List String} :
    connector.objectKey layer tokens mm = connector.objectKey layer' tokens' mm' ↔
      layer = layer' ∧ connector.safeHash (prefixBytes tokens mm) =
        connector.safeHash (prefixBytes tokens' mm') := by
  constructor
  · intro same
    have lists := congrArg String.toList same
    simp only [objectKey, String.toList_append, append_assoc, append_cancel_left_eq]
      at lists
    obtain ⟨digests, layers⟩ := split_at_separator (connector.safeHash_plain _)
      (connector.safeHash_plain _) lists
    exact ⟨String.toList_inj.mp layers, String.toList_inj.mp digests⟩
  · rintro ⟨rfl, digests⟩
    simp only [objectKey, digests]

theorem length_prefixBytes (tokens : List Token) (mm : List String) :
    (prefixBytes tokens mm).length = 8 * tokens.length + (prefixBytes [] mm).length := by
  simp [prefixBytes, tokenBytes, length_flatMap, Nat.mul_comm]

theorem foundMatchForPrompt_exact (contents : List String) (prompt : List Token)
    (mm : List String) :
    connector.foundMatchForPrompt (exactStore contents) prompt mm = true ↔
      connector.markerKey (connector.lookupTokens prompt) mm ∈ contents := by
  simp [foundMatchForPrompt, exactStore]

end Connector

/-! ## Puts -/

theorem SaveState.subset_put (state : SaveState) {outcome : PutOutcome} :
    state.contents ⊆ (state.put outcome).contents := by
  obtain ⟨contents, pending⟩ := state
  cases pending with
  | nil => exact List.Subset.refl _
  | cons step rest =>
    cases outcome with
    | stored => exact subset_cons_self _ _
    | rejected => exact List.Subset.refl _
    | raised => exact List.Subset.refl _

namespace Connector

variable {connector : Connector}

/-! ## Markers and layer objects -/

/-- A marker in the store stands for all layer objects of its prefix. -/
def Covered (connector : Connector) (layers contents : List String) : Prop :=
  ∀ (tokens : List Token) (mm : List String), connector.markerKey tokens mm ∈ contents →
    ∀ layer ∈ layers, connector.objectKey layer tokens mm ∈ contents

/-- Every state that the pending puts can lead to is covered. -/
def Sound (connector : Connector) (layers : List String) :
    List String → List PutStep → Prop
  | contents, [] => connector.Covered layers contents
  | contents, step :: rest =>
    connector.Covered layers contents ∧ connector.Sound layers (step.key :: contents) rest ∧
      (step.checked = false → connector.Sound layers contents rest)

variable {layers contents : List String}

theorem Sound.covered {pending : List PutStep} (sound : connector.Sound layers contents pending) :
    connector.Covered layers contents := by
  cases pending with
  | nil => exact sound
  | cons step rest => exact sound.1

variable {state : SaveState} {request : ReqMeta}

/-- No outcome of the next put leaves the sound states. -/
theorem Sound.put (sound : connector.Sound layers state.contents state.pending)
    (outcome : PutOutcome) :
    connector.Sound layers (state.put outcome).contents (state.put outcome).pending := by
  obtain ⟨contents, pending⟩ := state
  cases pending with
  | nil => exact sound
  | cons step rest =>
    obtain ⟨covered, next, skipped⟩ := sound
    cases outcome with
    | stored => exact next
    | raised => exact covered
    | rejected =>
      cases checked : step.checked with
      | true => simpa [SaveState.put, checked, Sound] using covered
      | false => simpa [SaveState.put, checked] using skipped checked

theorem Sound.puts (sound : connector.Sound layers state.contents state.pending)
    {outcomes : List PutOutcome} :
    connector.Covered layers (outcomes.foldl SaveState.put state).contents := by
  induction outcomes generalizing state with
  | nil => exact sound.covered
  | cons outcome rest ih => exact ih (sound.put outcome)

/-- One more key keeps the store covered when the markers it stands for have
their layer objects. -/
theorem Covered.insert (covered : connector.Covered layers contents) {name : String}
    {tokens : List Token} {mm : List String}
    (marked : name = markerName → ∀ layer ∈ layers,
      connector.objectKey layer tokens mm ∈ connector.objectKey name tokens mm :: contents) :
    connector.Covered layers (connector.objectKey name tokens mm :: contents) := by
  intro tokens' mm' found layer present
  rcases mem_cons.mp found with same | earlier
  · obtain ⟨rfl, bytes⟩ := objectKey_eq_iff.mp same
    have keys : connector.objectKey layer tokens' mm' = connector.objectKey layer tokens mm :=
      objectKey_eq_iff.mpr ⟨rfl, bytes⟩
    rw [keys]
    exact marked rfl layer present
  · exact mem_cons_of_mem _ (covered tokens' mm' earlier layer present)

/-- Every layer object of a request is in the store, or it is the marker itself. -/
def Prepared (connector : Connector) (layers contents : List String) (request : ReqMeta) :
    Prop :=
  ∀ layer ∈ layers, layer = markerName ∨
    connector.objectKey layer request.tokenIds request.mmHashes ∈ contents

theorem Prepared.cons (prepared : connector.Prepared layers contents request) (key : String) :
    connector.Prepared layers (key :: contents) request :=
  fun layer present => (prepared layer present).imp_right (mem_cons_of_mem _)

/-- A put for a prepared request keeps the store covered. -/
theorem Covered.insert_prepared (covered : connector.Covered layers contents)
    (prepared : connector.Prepared layers contents request) {name : String} :
    connector.Covered layers
      (connector.objectKey name request.tokenIds request.mmHashes :: contents) := by
  refine covered.insert fun marker layer present => ?_
  subst marker
  rcases prepared layer present with rfl | stored
  · exact mem_cons_self
  · exact mem_cons_of_mem _ stored

section RequestSteps

variable {rest : List PutStep}
  (after : ∀ contents, connector.Covered layers contents →
    connector.Prepared layers contents request → connector.Sound layers contents rest)

include after

variable (covered : connector.Covered layers contents)

include covered

theorem sound_marker (prepared : connector.Prepared layers contents request) :
    connector.Sound layers contents
      ({ key := connector.markerKey request.tokenIds request.mmHashes
         checked := false } :: rest) :=
  ⟨covered, after _ (covered.insert_prepared prepared) (prepared.cons _),
    fun _ => after _ covered prepared⟩

/-- The puts of any layer for a request that is prepared. -/
theorem sound_requestSteps_of_prepared (prepared : connector.Prepared layers contents request)
    {layer : String} :
    connector.Sound layers contents (connector.requestSteps layer request ++ rest) := by
  unfold requestSteps
  dsimp only
  split
  · exact sound_marker after covered prepared
  · exact ⟨covered, sound_marker after (covered.insert_prepared prepared)
      (prepared.cons _), by simp⟩

/-- The puts of the only layer, or of the first one when the others are markers. -/
theorem sound_requestSteps {layer : String}
    (only : ∀ other ∈ layers, other = markerName ∨
      other = layer ∧ (connector.gpuDirectEnabled = true → request.blockIds ≠ [])) :
    connector.Sound layers contents (connector.requestSteps layer request ++ rest) := by
  unfold requestSteps
  dsimp only
  split
  · rename_i skipped
    refine sound_marker after covered fun other present => ?_
    exact .inl ((only other present).resolve_right fun ⟨_, blocks⟩ => blocks skipped.1 skipped.2)
  · refine ⟨covered, sound_marker after ?_ ?_, by simp⟩
    · refine covered.insert fun marker other present => ?_
      rcases only other present with rfl | ⟨rfl, -⟩
      · rw [marker]
        exact mem_cons_self
      · exact mem_cons_self
    · intro other present
      rcases only other present with rfl | ⟨rfl, -⟩
      · exact .inl rfl
      · exact .inr mem_cons_self

end RequestSteps

/-! ## A connector -/

/-- A digest that spells every byte with a letter of its own. -/
def spelledDigest (bytes : List UInt8) : String :=
  String.ofList (bytes.map fun byte => Char.ofNat (256 + byte.toNat))

theorem toNat_spelled (byte : UInt8) : (Char.ofNat (256 + byte.toNat)).toNat =
    256 + byte.toNat := by
  have small := byte.toNat_lt
  have valid : (256 + byte.toNat).isValidChar := .inl (by omega)
  rw [Char.ofNat, dif_pos valid]
  rfl

theorem fourTokens_pos : 0 < 4 := by decide

def fourTokenBlocks : Connector where
  blockSize := 4
  cachePrefix := "vllm015"
  gpuDirectEnabled := false
  safeHash := spelledDigest
  blockSize_pos := fourTokens_pos
  safeHash_plain := by
    intro bytes present
    rw [spelledDigest, String.toList_ofList] at present
    obtain ⟨byte, -, same⟩ := mem_map.mp present
    have codes := congrArg Char.toNat same
    rw [toNat_spelled] at codes
    have colon : ':'.toNat = 58 := rfl
    omega

theorem fourTokenBlocks_safeHash_injective : Function.Injective fourTokenBlocks.safeHash := by
  intro bytes bytes' same
  have letters := String.ofList_injective same
  refine map_injective_iff.mpr (fun byte byte' equal => ?_) letters
  have codes := congrArg Char.toNat equal
  rw [toNat_spelled, toNat_spelled] at codes
  exact UInt8.toNat_inj.mp (by omega)

end Connector

end Mooncake.Vllm
