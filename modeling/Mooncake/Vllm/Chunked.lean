import Mathlib.Data.List.Forall2
import Mooncake.Vllm.Saving

/-!
# Chunked prefill

The scheduler computes a long prompt in several steps.  A request whose lookup misses is
stored in its first step, with the aligned length of its whole prompt.
-/

namespace Mooncake.Vllm

open List

namespace Connector

/-- A new request, the tokens that are computed already, and those of this step. -/
structure ScheduledRequest extends NewRequest where
  numComputedTokens : Nat
  numScheduledTokens : Nat

/-- The parts of a `SchedulerOutput` that are read. -/
structure SchedulerOutput where
  scheduledNewReqs : List ScheduledRequest
  scheduledCachedReqs : List CachedRequest

/-- `build_connector_meta` on the output of the scheduler. -/
def buildFrom (connector : Connector) (store : StoreApi)
    (needLoad : AList fun _ : String => LoadRequest) (output : SchedulerOutput) :
    Option (List ReqMeta) :=
  connector.buildConnectorMeta store needLoad
    (output.scheduledNewReqs.map ScheduledRequest.toNewRequest) output.scheduledCachedReqs

/-- A new request that is not loaded and whose lookup misses. -/
def Misses (connector : Connector) (store : StoreApi)
    (needLoad : AList fun _ : String => LoadRequest) (request : NewRequest) : Bool :=
  decide (request.reqId ∉ needLoad) &&
    !connector.foundMatchForPrompt store request.promptTokenIds request.mmHashes

/-- The metadata with which a request is stored. -/
def storeMeta (connector : Connector) (request : NewRequest) : ReqMeta :=
  makeMeta request.promptTokenIds request.blockIds connector.blockSize true request.mmHashes

section Stores

variable {connector : Connector} {store : StoreApi}
  {needLoad : AList fun _ : String => LoadRequest}

theorem filter_isStore_new (requests : List NewRequest) :
    (requests.filterMap (connector.newRequestMeta store needLoad)).filter ReqMeta.isStore =
      (requests.filter (connector.Misses store needLoad)).map connector.storeMeta := by
  induction requests with
  | nil => rfl
  | cons request rest ih =>
    by_cases loaded : request.reqId ∈ needLoad
    · have shape : ∃ made, connector.newRequestMeta store needLoad request = some made ∧
          made.isStore = false := by
        simp [newRequestMeta, loaded, makeMeta]
      obtain ⟨made, meta_, isStore⟩ := shape
      simp [meta_, isStore, Misses, loaded, ih]
    · cases found : connector.foundMatchForPrompt store request.promptTokenIds
          request.mmHashes with
      | true => simp [newRequestMeta, Misses, loaded, found, ih]
      | false =>
        have shape : connector.newRequestMeta store needLoad request =
            some (connector.storeMeta request) := by
          simp [newRequestMeta, loaded, found, storeMeta]
        have isStore : (connector.storeMeta request).isStore = true := rfl
        simp [shape, isStore, Misses, loaded, found, ih]

theorem filter_isStore_buildConnectorMeta {newRequests : List NewRequest}
    {cachedRequests : List CachedRequest} {metas : List ReqMeta}
    (built : connector.buildConnectorMeta store needLoad newRequests cachedRequests =
      some metas) :
    metas.filter ReqMeta.isStore =
      (newRequests.filter (connector.Misses store needLoad)).map connector.storeMeta := by
  unfold buildConnectorMeta at built
  split at built
  · cases built
  · rename_i resumed cached
    dsimp only at built
    split at built
    · cases built
    · obtain rfl := Option.some.inj built
      have loads : resumed.filter ReqMeta.isStore = [] := by
        rw [filter_eq_nil_iff]
        intro made listed
        obtain ⟨_, -, -, _, _, -, -, rfl⟩ := mem_cachedRequestMetas cached listed
        exact Bool.false_ne_true
      rw [filter_append, loads, append_nil, filter_isStore_new]

theorem length_storeMeta (request : NewRequest) :
    (connector.storeMeta request).tokenIds.length =
      (request.promptTokenIds.length - 1) / connector.blockSize * connector.blockSize :=
  length_tokenIds_makeMeta

end Stores

/-- Every request to store is as long as what has been computed of it after this step. -/
def StoresComputed (connector : Connector) (store : StoreApi)
    (needLoad : AList fun _ : String => LoadRequest) (output : SchedulerOutput)
    (metas : List ReqMeta) : Prop :=
  List.Forall₂
    (fun owner made =>
      made.tokenIds.length ≤ owner.numComputedTokens + owner.numScheduledTokens)
    (output.scheduledNewReqs.filter fun request =>
      connector.Misses store needLoad request.toNewRequest)
    (metas.filter ReqMeta.isStore)

/-- Only computed tokens are stored exactly when each new request that is not loaded and whose
lookup misses is computed up to the last block boundary before its last token. -/
theorem storesComputed_iff (connector : Connector) (store : StoreApi)
    (needLoad : AList fun _ : String => LoadRequest) (output : SchedulerOutput)
    (metas : List ReqMeta) (built : connector.buildFrom store needLoad output = some metas) :
    connector.StoresComputed store needLoad output metas ↔
      ∀ request ∈ output.scheduledNewReqs,
        connector.Misses store needLoad request.toNewRequest = true →
          (request.promptTokenIds.length - 1) / connector.blockSize * connector.blockSize ≤
            request.numComputedTokens + request.numScheduledTokens := by
  rw [StoresComputed, filter_isStore_buildConnectorMeta built, filter_map, map_map,
    forall₂_map_right_iff]
  refine forall₂_same.trans ?_
  simp only [mem_filter, and_imp, Function.comp_apply, length_storeMeta]

/-- Nine tokens, of which this step computes as many as the scheduler says. -/
def nineTokens (numScheduledTokens : Nat) : SchedulerOutput where
  scheduledNewReqs :=
    [{ reqId := "0"
       promptTokenIds := [1, 2, 3, 4, 5, 6, 7, 8, 9]
       blockIds := [0, 1, 2]
       mmHashes := []
       numComputedTokens := 0
       numScheduledTokens := numScheduledTokens }]
  scheduledCachedReqs := []

/-- The prompt is computed in one step. -/
theorem wholePrompt_storesComputed :
    ∃ metas, fourTokenBlocks.buildFrom (exactStore []) ∅ (nineTokens 9) = some metas ∧
      metas.map (fun made => made.tokenIds.length) = [8] ∧
      fourTokenBlocks.StoresComputed (exactStore []) ∅ (nineTokens 9) metas := by
  refine ⟨_, rfl, rfl, (storesComputed_iff fourTokenBlocks (exactStore []) ∅ (nineTokens 9) _
    rfl).mpr ?_⟩
  intro request present missed
  obtain rfl := mem_singleton.mp present
  decide

/-- The first step computes one block of four tokens, and eight tokens are stored. -/
theorem firstChunk_stores_too_much :
    ∃ metas, fourTokenBlocks.buildFrom (exactStore []) ∅ (nineTokens 4) = some metas ∧
      metas.map (fun made => (made.isStore, made.tokenIds.length)) = [(true, 8)] ∧
      ¬ fourTokenBlocks.StoresComputed (exactStore []) ∅ (nineTokens 4) metas := by
  refine ⟨_, rfl, rfl, fun computed => ?_⟩
  have first := (forall₂_cons.mp computed).1
  revert first
  decide

end Connector

end Mooncake.Vllm
