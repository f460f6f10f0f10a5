import Mooncake.Vllm.PrefixLookup

/-!
# Matched tokens and resumed requests

The count of matched tokens is the length of the prefix that was looked up, less the tokens
that are computed.  A request that comes back from preemption is loaded with a prefix of
all its tokens, whose length follows the counters of the scheduler.
-/

namespace Mooncake.Vllm.Connector

open List

/-! ## Matched tokens -/

/-- Computed tokens are a part of the prefix that was found, or the count is negative. -/
theorem matchedTokens_sane_iff (connector : Connector) (store : StoreApi) (prompt : List Token)
    (mm : List String) (computed : Nat) :
    let count := connector.getNumNewMatchedTokens store prompt mm computed
    let aligned := alignToBlockSize ((prompt.length : Int) - 1) connector.blockSize
    (0 ≤ count ∧ computed + count ≤ max (computed : Int) aligned) ↔
      (connector.foundMatchForPrompt store prompt mm = true → (computed : Int) ≤ aligned) := by
  intro count aligned
  have value : count =
      if connector.foundMatchForPrompt store prompt mm then aligned - computed else 0 := rfl
  split at value
  · rename_i found
    constructor
    · intro ⟨nonneg, _⟩ _
      omega
    · intro within
      have covered := within found
      exact ⟨by omega, by omega⟩
  · rename_i missing
    constructor
    · intro _ found
      exact absurd found missing
    · intro _
      exact ⟨by omega, by omega⟩

/-- Of six tokens four are found, and five are computed. -/
theorem computed_past_match :
    let store : StoreApi := ⟨some fun _ => some 1, fun _ => none⟩
    fourTokenBlocks.getNumNewMatchedTokens store [1, 2, 3, 4, 5, 6] [] 5 = -1 := by
  decide +kernel

/-! ## Resumed requests -/

variable {connector : Connector}

theorem exists_resumes {needLoad : AList fun _ : String => LoadRequest} {load : LoadRequest}
    {requests : List CachedRequest} {metas : List ReqMeta} {request : CachedRequest}
    (built : connector.cachedRequestMetas needLoad requests = some metas)
    (scheduled : request ∈ requests) (resumed : request.resumedFromPreemption = true)
    (waits : needLoad.lookup request.reqId = some load) :
    ∃ made ∈ metas, connector.Resumes needLoad made request := by
  induction requests generalizing metas with
  | nil => cases scheduled
  | cons first rest ih =>
    rcases mem_cons.mp scheduled with rfl | later
    · cases blocks : request.newBlockIds with
      | none => simp [cachedRequestMetas, waits, resumed, blocks] at built
      | some blockIds =>
        simp only [cachedRequestMetas, waits, resumed, blocks, Bool.not_true,
          Bool.false_eq_true, if_false, Option.map_eq_some_iff] at built
        obtain ⟨others, -, rfl⟩ := built
        exact ⟨_, mem_cons_self, resumed, load, blockIds, waits, blocks, rfl⟩
    · have tail : ∃ others, connector.cachedRequestMetas needLoad rest = some others ∧
          others ⊆ metas := by
        unfold cachedRequestMetas at built
        split at built
        · exact ⟨metas, built, List.Subset.refl _⟩
        · split at built
          · exact ⟨metas, built, List.Subset.refl _⟩
          · split at built
            · cases built
            · obtain ⟨others, after, rfl⟩ := Option.map_eq_some_iff.mp built
              exact ⟨others, after, subset_cons_self _ _⟩
      obtain ⟨others, after, contained⟩ := tail
      obtain ⟨made, listed, resumes⟩ := ih after later
      exact ⟨made, contained listed, resumes⟩

theorem exists_made {store : StoreApi} {needLoad : AList fun _ : String => LoadRequest}
    {newRequests : List NewRequest} {cachedRequests : List CachedRequest} {metas : List ReqMeta}
    (built : connector.buildConnectorMeta store needLoad newRequests cachedRequests = some metas)
    {request : CachedRequest} (scheduled : request ∈ cachedRequests)
    (resumed : request.resumedFromPreemption = true) {load : LoadRequest}
    (waits : needLoad.lookup request.reqId = some load) :
    ∃ made ∈ metas, connector.Resumes needLoad made request := by
  unfold buildConnectorMeta at built
  split at built
  · cases built
  · rename_i running found
    obtain ⟨made, listed, resumes⟩ := exists_resumes found scheduled resumed waits
    dsimp only at built
    split at built
    · cases built
    · exact ⟨made, Option.some.inj built ▸ mem_append_right _ listed, resumes⟩

/-- The prefix that is loaded, of a request with the given tokens. -/
theorem takeAligned_eq_lookupTokens_iff {prompt generated : List Token} {total : Nat}
    {blockIds : List Nat} {mm : List String} :
    (makeMeta ((prompt ++ generated).take total) blockIds connector.blockSize false mm).tokenIds =
        connector.lookupTokens prompt ↔
      (min total (prompt ++ generated).length - 1) / connector.blockSize =
        (prompt.length - 2) / connector.blockSize := by
  set all := prompt ++ generated with allTokens
  set size := connector.blockSize with sizeOf
  have loaded : (min total all.length - 1) / size * size ≤ min total all.length - 1 :=
    Nat.div_mul_le_self _ _
  have looked : (prompt.length - 2) / size * size ≤ prompt.length - 2 := Nat.div_mul_le_self _ _
  rw [lookupTokens_eq, makeMeta, alignToBlockSize_length, length_take, take_take,
    ← sizeOf, Nat.min_eq_left (by omega)]
  constructor
  · intro same
    have lengths := congrArg List.length same
    rw [length_take_of_le (by omega), length_take_of_le (by omega)] at lengths
    exact Nat.eq_of_mul_eq_mul_right connector.blockSize_pos lengths
  · intro same
    rw [same, allTokens, take_append_of_le_length (by omega)]

/-- The prefix that is loaded for a resumed request is the one whose marker was looked up
exactly if the two lengths are cut to the same number of blocks. -/
theorem resumedLoad_matches_iff (connector : Connector) (store : StoreApi)
    (needLoad : AList fun _ : String => LoadRequest) (newRequests : List NewRequest)
    (cachedRequests : List CachedRequest) (metas : List ReqMeta)
    (built : connector.buildConnectorMeta store needLoad newRequests cachedRequests = some metas)
    (request : CachedRequest) (scheduled : request ∈ cachedRequests)
    (resumed : request.resumedFromPreemption = true) (prompt generated : List Token)
    (mm : List String)
    (waits : needLoad.lookup request.reqId = some ⟨prompt ++ generated, mm⟩) :
    ∃ made ∈ metas, connector.Resumes needLoad made request ∧
      ((made.tokenIds = connector.lookupTokens prompt ∧
          ∀ layers, connector.loadKeys layers made = layers.map fun layer =>
            connector.objectKey layer (connector.lookupTokens prompt) mm) ↔
        (min (request.numComputedTokens + request.numNewTokens)
            (prompt.length + generated.length) - 1) / connector.blockSize =
          (prompt.length - 2) / connector.blockSize) := by
  obtain ⟨made, listed, resumes⟩ := exists_made built scheduled resumed waits
  refine ⟨made, listed, resumes, ?_⟩
  obtain ⟨-, load, blockIds, found, -, rfl⟩ := resumes
  cases Option.some.inj (waits.symm.trans found)
  rw [← length_append, ← takeAligned_eq_lookupTokens_iff]
  refine ⟨And.left, fun tokens => ⟨tokens, fun layers => ?_⟩⟩
  rw [← tokens]
  rfl

def oneWaiting (prompt : List Token) : AList fun _ : String => LoadRequest :=
  (∅ : AList fun _ : String => LoadRequest).insert "request" ⟨prompt, []⟩

/-- Six tokens are looked up and loaded by their first four. -/
theorem resumed_loads_match :
    ∃ metas, fourTokenBlocks.buildConnectorMeta (exactStore []) (oneWaiting [1, 2, 3, 4, 5, 6]) []
        [⟨"request", true, 4, 2, some [0, 1]⟩] = some metas ∧
      ∃ made ∈ metas, made.tokenIds = fourTokenBlocks.lookupTokens [1, 2, 3, 4, 5, 6] := by
  refine ⟨_, rfl, ?_⟩
  obtain ⟨made, listed, -, same⟩ := resumedLoad_matches_iff fourTokenBlocks (exactStore [])
    (oneWaiting [1, 2, 3, 4, 5, 6]) [] [⟨"request", true, 4, 2, some [0, 1]⟩] _ rfl _
    mem_cons_self rfl [1, 2, 3, 4, 5, 6] [] [] (AList.lookup_insert _)
  exact ⟨made, listed, (same.mpr (by decide)).1⟩

/-- Nine tokens are looked up by their first four, and loaded with eight. -/
theorem resumed_loads_more :
    let prompt : List Token := [1, 2, 3, 4, 5, 6, 7, 8, 9]
    let request : CachedRequest := ⟨"request", true, 4, 5, some [0, 1, 2]⟩
    (fourTokenBlocks.buildConnectorMeta (exactStore []) (oneWaiting prompt) [] [request]).map
        (List.map ReqMeta.tokenIds) = some [[1, 2, 3, 4, 5, 6, 7, 8]] ∧
      fourTokenBlocks.lookupTokens prompt = [1, 2, 3, 4] := by
  decide +kernel

end Mooncake.Vllm.Connector
