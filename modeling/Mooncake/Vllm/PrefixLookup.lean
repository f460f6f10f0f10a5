import Mooncake.Vllm.Saving

/-!
# Prefix lookup against saved and loaded keys

The lookup aligns one token less than `make_meta` does.  The two agree unless the
prompt without its last token fills its blocks exactly; then the lookup asks for
the marker of a shorter prefix.
-/

namespace Mooncake.Vllm

open List

/-- A request in the metadata of a save, before `make_meta`. -/
structure SavedPrompt where
  promptTokenIds : List Token
  blockIds : List Nat
  isStore : Bool
  mmHashes : List String

structure SaveCall where
  layerName : String
  prompts : List SavedPrompt
  outcomes : List PutOutcome

namespace Connector

section Model

variable (connector : Connector)

def savedMeta (saved : SavedPrompt) : ReqMeta :=
  makeMeta saved.promptTokenIds saved.blockIds connector.blockSize saved.isStore saved.mmHashes

def savedKey (name : String) (saved : SavedPrompt) : String :=
  connector.objectKey name (connector.savedMeta saved).tokenIds saved.mmHashes

def applyCall (contents : List String) (call : SaveCall) : List String :=
  connector.saveKvLayer call.layerName (call.prompts.map connector.savedMeta) call.outcomes
    contents

def contentsAfter (history : List SaveCall) : List String :=
  history.foldl connector.applyCall []

/-- Some save of the history was for the prefix of the marker, and the key is
one of its layer objects and was written. -/
def WrittenWith (layers : List String) (history : List SaveCall) (key marker : String) : Prop :=
  key ∈ connector.contentsAfter history ∧
    ∃ call ∈ history, ∃ saved ∈ call.prompts, saved.isStore = true ∧
      connector.savedKey markerName saved = marker ∧
        ∃ layer ∈ layers, connector.savedKey layer saved = key

/-- The lookup of a prompt agrees with the keys that are loaded and saved for it. -/
structure LookupAgrees (layers : List String) (prompt : List Token) (mm : List String)
    (history : List SaveCall) : Prop where
  loaded : connector.foundMatchForPrompt (exactStore (connector.contentsAfter history)) prompt
      mm = true →
    ∀ blockIds, ∀ key ∈ connector.loadKeys layers
        (makeMeta prompt blockIds connector.blockSize false mm),
      connector.WrittenWith layers history key
        (connector.markerKey (connector.lookupTokens prompt) mm)
  found : ∀ blockIds,
    (∀ layer ∈ layers, connector.savedKey layer ⟨prompt, blockIds, true, mm⟩ ∈
      connector.contentsAfter history) →
    connector.savedKey markerName ⟨prompt, blockIds, true, mm⟩ ∈ connector.contentsAfter history →
    connector.foundMatchForPrompt (exactStore (connector.contentsAfter history)) prompt
      mm = true

/-- The saves are for layers of the model. -/
def Over (layers : List String) (history : List SaveCall) : Prop :=
  ∀ call ∈ history, call.layerName ∈ layers

/-- Every prompt whose save was started has all its layer objects in the store. -/
def Completed (layers : List String) (history : List SaveCall) : Prop :=
  ∀ call ∈ history, ∀ saved ∈ call.prompts, saved.isStore = true →
    ∀ layer ∈ layers, connector.savedKey layer saved ∈ connector.contentsAfter history

/-- The prompt without its last token does not end with a block. -/
def Aligned (prompt : List Token) : Prop :=
  prompt.length ≤ 1 ∨ ¬ connector.blockSize ∣ prompt.length - 1

end Model

variable {connector : Connector}

/-! ## The prefix of the lookup -/

theorem lookupTokens_eq (prompt : List Token) : connector.lookupTokens prompt =
    prompt.take ((prompt.length - 2) / connector.blockSize * connector.blockSize) := by
  rw [lookupTokens, alignToBlockSize_length_sub_one]

theorem savedMeta_tokenIds (saved : SavedPrompt) : (connector.savedMeta saved).tokenIds =
    saved.promptTokenIds.take
      ((saved.promptTokenIds.length - 1) / connector.blockSize * connector.blockSize) := by
  simp only [savedMeta, makeMeta, alignToBlockSize_length]

variable {prompt : List Token} {state : SaveState} {key : String} {history : List SaveCall}

/-- The lookup asks for the prefix that is saved and loaded. -/
theorem Aligned.lookupTokens (aligned : connector.Aligned prompt) (blockIds : List Nat)
    (isStore : Bool) (mm : List String) :
    connector.lookupTokens prompt =
      (connector.savedMeta ⟨prompt, blockIds, isStore, mm⟩).tokenIds := by
  rw [lookupTokens_eq, savedMeta_tokenIds, (aligned_iff connector.blockSize_pos).mpr aligned]

/-- Otherwise it asks for a shorter one, which has other keys. -/
theorem aligned_of_savedKey_eq (distinct : Function.Injective connector.safeHash)
    {prompt : List Token} {blockIds : List Nat} {mm : List String} {name name' : String}
    (same : connector.savedKey name ⟨prompt, blockIds, true, mm⟩ =
      connector.objectKey name' (connector.lookupTokens prompt) mm) :
    connector.Aligned prompt := by
  have bytes := congrArg List.length (distinct (objectKey_eq_iff.mp same).2)
  rw [length_prefixBytes, length_prefixBytes (connector.lookupTokens prompt),
    savedMeta_tokenIds, lookupTokens_eq, length_take, length_take] at bytes
  have long : (prompt.length - 1) / connector.blockSize * connector.blockSize ≤
      prompt.length - 1 := Nat.div_mul_le_self _ _
  have short : (prompt.length - 2) / connector.blockSize * connector.blockSize ≤
      prompt.length - 2 := Nat.div_mul_le_self _ _
  refine (aligned_iff connector.blockSize_pos).mp ?_
  dsimp only at bytes
  omega

/-! ## What a history leaves in the store -/

theorem mem_saveSteps {layerName : String} {prompts : List SavedPrompt} {step : PutStep}
    (pending : step ∈ connector.saveSteps layerName (prompts.map connector.savedMeta)) :
    ∃ saved ∈ prompts, saved.isStore = true ∧
      (step.key = connector.savedKey layerName saved ∨
        step.key = connector.savedKey markerName saved) := by
  obtain ⟨request, listed, made⟩ := mem_flatMap.mp pending
  obtain ⟨mapped, isStore⟩ := mem_filter.mp listed
  obtain ⟨saved, present, rfl⟩ := mem_map.mp mapped
  refine ⟨saved, present, isStore, ?_⟩
  rcases mem_append.mp made with layer | marker
  · split at layer
    · cases layer
    · exact .inl (congrArg PutStep.key (mem_singleton.mp layer))
  · exact .inr (congrArg PutStep.key (mem_singleton.mp marker))

theorem mem_put {outcome : PutOutcome} (present : key ∈ (state.put outcome).contents) :
    key ∈ state.contents ∨ ∃ step ∈ state.pending, step.key = key := by
  obtain ⟨contents, pending⟩ := state
  cases pending with
  | nil => exact .inl present
  | cons step rest =>
    cases outcome with
    | rejected => exact .inl present
    | raised => exact .inl present
    | stored =>
      rcases mem_cons.mp present with rfl | earlier
      · exact .inr ⟨step, mem_cons_self, rfl⟩
      · exact .inl earlier

theorem put_pending_subset {outcome : PutOutcome} :
    (state.put outcome).pending ⊆ state.pending := by
  obtain ⟨contents, pending⟩ := state
  cases pending with
  | nil => exact List.Subset.refl _
  | cons step rest =>
    cases outcome with
    | stored => exact subset_cons_self _ _
    | raised => exact nil_subset _
    | rejected =>
      cases checked : step.checked <;> simp [SaveState.put, checked]

theorem mem_puts {outcomes : List PutOutcome}
    (present : key ∈ (outcomes.foldl SaveState.put state).contents) :
    key ∈ state.contents ∨ ∃ step ∈ state.pending, step.key = key := by
  induction outcomes generalizing state with
  | nil => exact .inl present
  | cons outcome rest ih =>
    rcases ih present with earlier | ⟨step, pending, rfl⟩
    · exact mem_put earlier
    · exact .inr ⟨step, put_pending_subset pending, rfl⟩

theorem mem_contentsAfter (present : key ∈ connector.contentsAfter history) :
    ∃ call ∈ history, ∃ saved ∈ call.prompts, saved.isStore = true ∧
      (key = connector.savedKey call.layerName saved ∨
        key = connector.savedKey markerName saved) := by
  suffices general : ∀ contents, key ∈ history.foldl connector.applyCall contents →
      key ∈ contents ∨ ∃ call ∈ history, ∃ saved ∈ call.prompts, saved.isStore = true ∧
        (key = connector.savedKey call.layerName saved ∨
          key = connector.savedKey markerName saved) from
    (general [] present).resolve_left (by simp)
  clear present
  induction history with
  | nil => exact fun contents earlier => .inl earlier
  | cons call rest ih =>
    intro contents later
    rcases ih _ later with own | ⟨other, listed, found⟩
    · rcases mem_puts own with earlier | ⟨step, pending, rfl⟩
      · exact .inl earlier
      · obtain ⟨saved, listed, found⟩ := mem_saveSteps pending
        exact .inr ⟨call, mem_cons_self, saved, listed, found⟩
    · exact .inr ⟨other, mem_cons_of_mem _ listed, found⟩

theorem contentsAfter_nil_of_no_layers (ranged : Over [] history) :
    connector.contentsAfter history = [] := by
  cases history with
  | nil => rfl
  | cons call rest => cases ranged call mem_cons_self

/-! ## Agreement -/

section Agreement

variable {layers : List String} {mm : List String}

/-- A hit leads to a saved prompt whose keys are those of the looked up prefix. -/
theorem exists_saved_of_found
    (found : connector.foundMatchForPrompt (exactStore (connector.contentsAfter history)) prompt
      mm = true) :
    ∃ call ∈ history, ∃ saved ∈ call.prompts, saved.isStore = true ∧
      ∀ name, connector.savedKey name saved =
        connector.objectKey name (connector.lookupTokens prompt) mm := by
  rw [foundMatchForPrompt_exact] at found
  obtain ⟨call, listed, saved, present, isStore, same⟩ := mem_contentsAfter found
  refine ⟨call, listed, saved, present, isStore, fun name => objectKey_eq_iff.mpr ⟨rfl, ?_⟩⟩
  rcases same with layer | marker
  · exact (objectKey_eq_iff.mp layer).2.symm
  · exact (objectKey_eq_iff.mp marker).2.symm

/-- For an aligned prompt the lookup agrees once the layer objects of a found
prefix are in the store. -/
theorem Aligned.lookupAgrees (aligned : connector.Aligned prompt)
    (stored : connector.foundMatchForPrompt (exactStore (connector.contentsAfter history)) prompt
        mm = true →
      ∀ layer ∈ layers, connector.objectKey layer (connector.lookupTokens prompt) mm ∈
        connector.contentsAfter history) :
    connector.LookupAgrees layers prompt mm history where
  loaded := by
    intro found blockIds key read
    simp only [loadKeys, makeMeta, Bool.false_eq_true, if_false] at read
    obtain ⟨layer, present, rfl⟩ := mem_map.mp read
    have prefixes : (connector.savedMeta ⟨prompt, blockIds, false, mm⟩).tokenIds =
        connector.lookupTokens prompt := (aligned.lookupTokens blockIds false mm).symm
    obtain ⟨call, listed, saved, member, isStore, keys⟩ := exists_saved_of_found found
    have same : connector.savedKey layer saved = connector.objectKey layer
        (connector.savedMeta ⟨prompt, blockIds, false, mm⟩).tokenIds mm := by
      rw [prefixes]
      exact keys layer
    refine ⟨?_, call, listed, saved, member, isStore, keys markerName, layer, present, same⟩
    exact same ▸ keys layer ▸ stored found layer present
  found := by
    intro blockIds _ marker
    rw [foundMatchForPrompt_exact, aligned.lookupTokens blockIds true mm]
    exact marker

theorem lookupAgrees_of_no_layers (ranged : Over [] history) :
    connector.LookupAgrees [] prompt mm history where
  loaded := by
    intro _ blockIds key read
    simp [loadKeys, makeMeta] at read
  found := by
    intro blockIds _ marker
    rw [contentsAfter_nil_of_no_layers ranged] at marker
    cases marker

/-- The puts of one call keep the store covered when its layer is the only one. -/
theorem sound_saveSteps {contents : List String} {layerName : String}
    (only : ∀ other ∈ layers, other = layerName ∧
      (connector.gpuDirectEnabled = true → other = markerName))
    (covered : connector.Covered layers contents) {requests : List ReqMeta} :
    connector.Sound layers contents (requests.flatMap (connector.requestSteps layerName)) := by
  induction requests generalizing contents with
  | nil => exact covered
  | cons request rest ih =>
    rw [flatMap_cons]
    refine sound_requestSteps (fun _ later _ => ih later) covered fun other present => ?_
    obtain ⟨same, direct⟩ := only other present
    by_cases enabled : connector.gpuDirectEnabled = true
    · exact .inl (direct enabled)
    · exact .inr ⟨same, fun impossible => absurd impossible enabled⟩

theorem contentsAfter_covered (ranged : Over layers history)
    (single : ∀ layer ∈ layers, ∀ other ∈ layers, layer = other)
    (direct : connector.gpuDirectEnabled = true → ∀ layer ∈ layers, layer = markerName) :
    connector.Covered layers (connector.contentsAfter history) := by
  suffices general : ∀ contents, connector.Covered layers contents →
      connector.Covered layers (history.foldl connector.applyCall contents) from
    general [] fun _ _ found => nomatch found
  induction history with
  | nil => exact fun _ covered => covered
  | cons call rest ih =>
    intro contents covered
    have own := ranged call mem_cons_self
    refine ih (fun other later => ranged other (mem_cons_of_mem _ later)) _ ?_
    refine Sound.puts (sound_saveSteps (fun other present => ⟨?_, ?_⟩) covered)
    · exact single other present _ own
    · exact fun enabled => direct enabled other present

/-! ## Disagreement -/

/-- A call that saves one prompt and whose puts are all stored. -/
def storedCall (saved : SavedPrompt) (layerName : String) : SaveCall where
  layerName := layerName
  prompts := [saved]
  outcomes := [.stored, .stored]

theorem applyCall_stored (contents : List String) (layerName : String) (prompt : List Token)
    (mm : List String) (block : Nat) :
    connector.applyCall contents (storedCall ⟨prompt, [block], true, mm⟩ layerName) =
      connector.savedKey markerName ⟨prompt, [block], true, mm⟩ ::
        connector.savedKey layerName ⟨prompt, [block], true, mm⟩ :: contents := by
  simp [applyCall, saveKvLayer, saveSteps, requestSteps, storedCall, savedMeta, makeMeta,
    SaveState.put, savedKey, markerKey]

theorem applyCall_stored_of_no_blocks (enabled : connector.gpuDirectEnabled = true)
    (contents : List String) (layerName : String) (prompt : List Token) (mm : List String) :
    connector.applyCall contents (storedCall ⟨prompt, [], true, mm⟩ layerName) =
      connector.savedKey markerName ⟨prompt, [], true, mm⟩ :: contents := by
  simp [applyCall, saveKvLayer, saveSteps, requestSteps, storedCall, savedMeta, makeMeta,
    SaveState.put, savedKey, markerKey, enabled]

variable {contents : List String} {layer : String}

/-- A prompt saved with all its layers has its objects in the store. -/
theorem mem_contentsAfter_stored (block : Nat) (present : layer ∈ layers) :
    connector.savedKey layer ⟨prompt, [block], true, mm⟩ ∈
        (layers.map (storedCall ⟨prompt, [block], true, mm⟩)).foldl connector.applyCall
          contents ∧
      connector.savedKey markerName ⟨prompt, [block], true, mm⟩ ∈
        (layers.map (storedCall ⟨prompt, [block], true, mm⟩)).foldl connector.applyCall
          contents := by
  have kept : ∀ (names : List String) {contents : List String} {key : String}, key ∈ contents →
      key ∈ (names.map (storedCall ⟨prompt, [block], true, mm⟩)).foldl connector.applyCall
        contents := by
    intro names
    induction names with
    | nil => exact fun earlier => earlier
    | cons name rest ih =>
      intro contents key earlier
      rw [map_cons, foldl_cons, applyCall_stored]
      exact ih (mem_cons_of_mem _ (mem_cons_of_mem _ earlier))
  induction layers generalizing contents with
  | nil => cases present
  | cons name rest ih =>
    rw [map_cons, foldl_cons, applyCall_stored]
    rcases mem_cons.mp present with rfl | later
    · exact ⟨kept rest (mem_cons_of_mem _ mem_cons_self),
        kept rest mem_cons_self⟩
    · exact ih later

theorem storedCalls_over {saved : SavedPrompt} : Over layers (layers.map (storedCall saved)) := by
  intro call listed
  obtain ⟨layer, present, rfl⟩ := mem_map.mp listed
  exact present

theorem storedCalls_completed (block : Nat) :
    connector.Completed layers (layers.map (storedCall ⟨prompt, [block], true, mm⟩)) := by
  intro call listed saved member _ layer present
  obtain ⟨name, -, rfl⟩ := mem_map.mp listed
  rw [mem_singleton.mp member]
  exact (mem_contentsAfter_stored block present).1

/-- After a complete save the lookup of a prompt that is not aligned misses it. -/
theorem aligned_of_lookupAgrees (distinct : Function.Injective connector.safeHash)
    (agrees : ∀ history, Over layers history → connector.Completed layers history →
      connector.LookupAgrees layers prompt mm history) :
    layers = [] ∨ connector.Aligned prompt := by
  rcases layers.eq_nil_or_concat with none | ⟨front, last, rfl⟩
  · exact .inl none
  · refine .inr ?_
    have stored : ∀ layer ∈ front.concat last, _ := fun layer present =>
      @mem_contentsAfter_stored connector prompt _ mm [] layer 0 present
    have hit := (agrees _ (storedCalls_over) (storedCalls_completed 0)).found [0]
      (fun layer present => (stored layer present).1) (stored last (by simp)).2
    rw [foundMatchForPrompt_exact] at hit
    obtain ⟨call, listed, saved, member, -, same⟩ := mem_contentsAfter hit
    obtain ⟨name, -, rfl⟩ := mem_map.mp listed
    rw [mem_singleton.mp member] at same
    rcases same with layer | marker
    · exact aligned_of_savedKey_eq distinct layer.symm
    · exact aligned_of_savedKey_eq distinct marker.symm

/-- A single put of the marker is a hit, and every layer object is then read. -/
theorem mem_of_lookupAgrees (aligned : connector.Aligned prompt) {blockIds : List Nat}
    (agrees : connector.LookupAgrees layers prompt mm history)
    (marker : connector.savedKey markerName ⟨prompt, blockIds, true, mm⟩ ∈
      connector.contentsAfter history) {layer : String} (present : layer ∈ layers) :
    connector.savedKey layer ⟨prompt, blockIds, true, mm⟩ ∈ connector.contentsAfter history := by
  have hit : connector.foundMatchForPrompt (exactStore (connector.contentsAfter history)) prompt
      mm = true := by
    rw [foundMatchForPrompt_exact, aligned.lookupTokens blockIds true mm]
    exact marker
  refine (agrees.loaded hit blockIds _ ?_).1
  simp only [loadKeys, makeMeta, Bool.false_eq_true, if_false]
  exact mem_map.mpr ⟨layer, present, rfl⟩

theorem savedKey_ne {name name' : String} (different : name ≠ name') (saved : SavedPrompt) :
    connector.savedKey name saved ≠ connector.savedKey name' saved :=
  fun same => different (objectKey_eq_iff.mp same).1

/-- One call with one of two layers puts the marker and not the other layer. -/
theorem single_of_lookupAgrees (aligned : connector.Aligned prompt)
    (agrees : ∀ history, Over layers history → connector.LookupAgrees layers prompt mm history)
    {other : String} (present : layer ∈ layers) (present' : other ∈ layers) :
    layer = other := by
  have one : ∀ {saved missing : String}, saved ∈ layers → missing ∈ layers →
      missing ≠ markerName → saved = missing := by
    intro saved missing listed listed' named
    by_contra different
    have contents : connector.contentsAfter [storedCall ⟨prompt, [0], true, mm⟩ saved] = _ :=
      applyCall_stored [] saved prompt mm 0
    have stored := mem_of_lookupAgrees aligned
      (agrees [storedCall ⟨prompt, [0], true, mm⟩ saved] fun call member =>
        mem_singleton.mp member ▸ listed)
      (contents.symm ▸ mem_cons_self) listed'
    rw [contents] at stored
    simp [savedKey_ne named, savedKey_ne (Ne.symm different)] at stored
  by_cases named : layer = markerName
  · by_cases named' : other = markerName
    · rw [named, named']
    · exact one present present' named'
  · exact (one present' present named).symm

/-- Without blocks the direct path puts the marker only. -/
theorem marker_of_lookupAgrees (aligned : connector.Aligned prompt)
    (agrees : ∀ history, Over layers history → connector.LookupAgrees layers prompt mm history)
    (enabled : connector.gpuDirectEnabled = true) (present : layer ∈ layers) :
    layer = markerName := by
  by_contra named
  have contents : connector.contentsAfter [storedCall ⟨prompt, [], true, mm⟩ layer] = _ :=
    applyCall_stored_of_no_blocks enabled [] layer prompt mm
  have stored := mem_of_lookupAgrees aligned
    (agrees [storedCall ⟨prompt, [], true, mm⟩ layer] fun call member =>
      mem_singleton.mp member ▸ present)
    (contents.symm ▸ mem_cons_self) present
  rw [contents] at stored
  simp [savedKey_ne named] at stored

end Agreement

/-- Over histories of complete saves the lookup agrees exactly for aligned
prompts, if the digest tells all inputs apart.  Over all histories it also has to be the
only layer that is saved, and the direct path must not be able to skip it. -/
theorem prefixLookup_agrees_iff (connector : Connector)
    (distinct : Function.Injective connector.safeHash) (layers : List String)
    (prompt : List Token) (mm : List String) :
    ((∀ history, Over layers history → connector.Completed layers history →
        connector.LookupAgrees layers prompt mm history) ↔
      layers = [] ∨ connector.Aligned prompt) ∧
    ((∀ history, Over layers history → connector.LookupAgrees layers prompt mm history) ↔
      layers = [] ∨ connector.Aligned prompt ∧
        (∀ layer ∈ layers, ∀ other ∈ layers, layer = other) ∧
        (connector.gpuDirectEnabled = true → ∀ layer ∈ layers, layer = markerName)) := by
  refine ⟨⟨aligned_of_lookupAgrees distinct, ?_⟩, ⟨fun agrees => ?_, ?_⟩⟩
  · rintro (rfl | aligned) history ranged completed
    · exact lookupAgrees_of_no_layers ranged
    · refine aligned.lookupAgrees fun found layer present => ?_
      obtain ⟨call, listed, saved, member, isStore, keys⟩ := exists_saved_of_found found
      exact keys layer ▸ completed call listed saved member isStore layer present
  · rcases aligned_of_lookupAgrees distinct
      fun history ranged _ => agrees history ranged with none | aligned
    · exact .inl none
    · exact .inr ⟨aligned, fun layer present other present' =>
        single_of_lookupAgrees aligned agrees present present',
        fun enabled layer present => marker_of_lookupAgrees aligned agrees enabled present⟩
  · rintro (rfl | ⟨aligned, single, direct⟩) history ranged
    · exact lookupAgrees_of_no_layers ranged
    · refine aligned.lookupAgrees fun found layer present => ?_
      rw [foundMatchForPrompt_exact] at found
      exact contentsAfter_covered ranged single direct _ _ found layer present

theorem threeTokens_are_found :
    Function.Injective fourTokenBlocks.safeHash ∧
      ∀ history, Over ["layer"] history →
        fourTokenBlocks.LookupAgrees ["layer"] [1, 2, 3] [] history := by
  refine ⟨fourTokenBlocks_safeHash_injective, (prefixLookup_agrees_iff fourTokenBlocks
    fourTokenBlocks_safeHash_injective ["layer"] [1, 2, 3] []).2.mpr (.inr ⟨?_, ?_, ?_⟩)⟩
  · exact .inr (by decide)
  · simp
  · simp [fourTokenBlocks]

/-- Five tokens are saved with their only layer.  Their own lookup asks for the
empty prefix and misses; the lookup of nine tokens hits, and eight are loaded. -/
theorem fiveTokens_are_not_found :
    let saved : SavedPrompt := ⟨[1, 2, 3, 4, 5], [0, 1], true, []⟩
    let history := [storedCall saved "layer"]
    let store := exactStore (fourTokenBlocks.contentsAfter history)
    let longer : List Token := [1, 2, 3, 4, 5, 6, 7, 8, 9]
    fourTokenBlocks.contentsAfter history =
        [fourTokenBlocks.savedKey markerName saved, fourTokenBlocks.savedKey "layer" saved] ∧
      fourTokenBlocks.foundMatchForPrompt store saved.promptTokenIds [] = false ∧
      fourTokenBlocks.foundMatchForPrompt store longer [] = true ∧
      ∀ key ∈ fourTokenBlocks.loadKeys ["layer"] (makeMeta longer [0, 1, 2] 4 false []),
        key ∉ fourTokenBlocks.contentsAfter history := by
  decide +kernel

end Connector

end Mooncake.Vllm
