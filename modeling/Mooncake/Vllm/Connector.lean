import Mathlib.Algebra.Order.Ring.Int
import Mathlib.Data.List.AList
import Mathlib.Data.List.Basic
import Mathlib.Logic.Function.Basic

/-!
# The store connector of vLLM

Keys, request metadata, prefix lookup, and the puts of `save_kv_layer`.  A tensor
of token ids is a list of 64-bit words, the payloads of the puts are left out, and
the store is the set of keys that were put.
-/

namespace Mooncake.Vllm

abbrev Token := BitVec 64

/-- What the connector reads from its configuration, and the digest it uses, which is
written in hexadecimal. -/
structure Connector where
  blockSize : Nat
  cachePrefix : String
  gpuDirectEnabled : Bool
  safeHash : List UInt8 → String
  blockSize_pos : 0 < blockSize
  safeHash_plain : ∀ bytes, ':' ∉ (safeHash bytes).toList

def alignToBlockSize (numTokens : Int) (blockSize : Nat) : Int :=
  if numTokens ≤ 0 then 0
  else (numTokens - 1) / blockSize * blockSize

/-! ## Requests -/

structure ReqMeta where
  tokenIds : List Token
  slotMapping : List Nat
  blockIds : List Nat
  isStore : Bool
  mmHashes : List String

def makeMeta (tokenIds : List Token) (blockIds : List Nat) (blockSize : Nat) (isStore : Bool)
    (mmHashes : List String) : ReqMeta :=
  let validNumTokens := (alignToBlockSize tokenIds.length blockSize).toNat
  { tokenIds := tokenIds.take validNumTokens
    slotMapping := (blockIds.flatMap fun block =>
      (List.range blockSize).map fun offset => offset + block * blockSize).take validNumTokens
    blockIds := blockIds
    isStore := isStore
    mmHashes := mmHashes }

/-! ## Keys -/

/-- `numpy().tobytes()` of one token: eight bytes, the lowest first. -/
def tokenBytes (token : Token) : List UInt8 :=
  (List.range 8).map fun position => UInt8.ofBitVec (token.extractLsb' (8 * position) 8)

def markerName : String := "__marker__"

namespace Connector

variable (connector : Connector)

/-- The bytes that are hashed for a token prefix. -/
def prefixBytes (tokenIds : List Token) (mmHashes : List String) : List UInt8 :=
  tokenIds.flatMap tokenBytes ++
    if mmHashes = [] then [] else ("-".intercalate mmHashes).toUTF8.toList

def dataFormat : String :=
  if connector.gpuDirectEnabled then "raw-gpu-blocks" else "safetensors"

def objectKey (layerName : String) (tokenIds : List Token) (mmHashes : List String) : String :=
  connector.cachePrefix ++ ":" ++ connector.dataFormat ++ ":" ++
    connector.safeHash (prefixBytes tokenIds mmHashes) ++ ":" ++ layerName

def markerKey (tokenIds : List Token) (mmHashes : List String) : String :=
  connector.objectKey markerName tokenIds mmHashes

end Connector

/-! ## The store, as the connector sees it -/

/-- The methods that the lookup calls.  `is_exist` may be missing; a call that
raises answers nothing. -/
structure StoreApi where
  isExist : Option (String → Option Int)
  get : String → Option (Option (List UInt8))

/-- A store that answers exactly whether a key was put. -/
def exactStore (contents : List String) : StoreApi where
  isExist := some fun key => some (if key ∈ contents then 1 else 0)
  get := fun key => some (if key ∈ contents then some [] else none)

namespace Connector

variable (connector : Connector)

def lookupTokens (promptTokenIds : List Token) : List Token :=
  promptTokenIds.take
    (alignToBlockSize ((promptTokenIds.length : Int) - 1) connector.blockSize).toNat

def foundMatchForPrompt (store : StoreApi) (promptTokenIds : List Token)
    (mmHashes : List String) : Bool :=
  let key := connector.markerKey (connector.lookupTokens promptTokenIds) mmHashes
  let fallback := match store.get key with
    | some payload => payload.isSome
    | none => false
  match store.isExist with
  | none => fallback
  | some isExist =>
    match isExist key with
    | some answer => answer = 1
    | none => fallback

/-- `get_num_new_matched_tokens`, without its second component, which is false. -/
def getNumNewMatchedTokens (store : StoreApi) (promptTokenIds : List Token)
    (mmHashes : List String) (numComputedTokens : Int) : Int :=
  if connector.foundMatchForPrompt store promptTokenIds mmHashes then
    alignToBlockSize ((promptTokenIds.length : Int) - 1) connector.blockSize - numComputedTokens
  else 0

structure NewRequest where
  reqId : String
  promptTokenIds : List Token
  blockIds : List Nat
  mmHashes : List String

structure CachedRequest where
  reqId : String
  resumedFromPreemption : Bool
  numComputedTokens : Nat
  numNewTokens : Nat
  newBlockIds : Option (List Nat)

/-- A request of `_requests_need_load`. -/
structure LoadRequest where
  allTokenIds : List Token
  mmHashes : List String

/-- The loop of `build_connector_meta` over the new requests. -/
def newRequestMeta (store : StoreApi) (needLoad : AList fun _ : String => LoadRequest)
    (request : NewRequest) : Option ReqMeta :=
  let made := fun isStore => makeMeta request.promptTokenIds request.blockIds
    connector.blockSize isStore request.mmHashes
  if request.reqId ∈ needLoad then some (made false)
  else if connector.foundMatchForPrompt store request.promptTokenIds request.mmHashes then none
  else some (made true)

/-- The loop over the running requests; it fails on a missing block list. -/
def cachedRequestMetas (needLoad : AList fun _ : String => LoadRequest) :
    List CachedRequest → Option (List ReqMeta)
  | [] => some []
  | request :: rest =>
    match needLoad.lookup request.reqId with
    | none => cachedRequestMetas needLoad rest
    | some load =>
      if !request.resumedFromPreemption then cachedRequestMetas needLoad rest
      else
        match request.newBlockIds with
        | none => none
        | some blockIds =>
          (cachedRequestMetas needLoad rest).map fun metas =>
            makeMeta (load.allTokenIds.take
              (request.numComputedTokens + request.numNewTokens)) blockIds
              connector.blockSize false load.mmHashes :: metas

/-- `build_connector_meta`; it fails unless every request to load was scheduled. -/
def buildConnectorMeta (store : StoreApi) (needLoad : AList fun _ : String => LoadRequest)
    (newRequests : List NewRequest) (cachedRequests : List CachedRequest) :
    Option (List ReqMeta) :=
  match connector.cachedRequestMetas needLoad cachedRequests with
  | none => none
  | some resumed =>
    let scheduled := newRequests.filter fun request => request.reqId ∈ needLoad
    if scheduled.length + resumed.length ≠ needLoad.keys.length then none
    else some (newRequests.filterMap (connector.newRequestMeta store needLoad) ++ resumed)

/-- The object keys that `start_load_kv` reads for a request. -/
def loadKeys (layers : List String) (request : ReqMeta) : List String :=
  if request.isStore then []
  else layers.map fun layerName =>
    connector.objectKey layerName request.tokenIds request.mmHashes

end Connector

/-! ## Metadata of a step -/

namespace Connector

variable {connector : Connector} {store : StoreApi}
  {needLoad : AList fun _ : String => LoadRequest}

/-- The metadata that a request which comes back from preemption is loaded with. -/
def Resumes (connector : Connector) (needLoad : AList fun _ : String => LoadRequest)
    (made : ReqMeta) (request : CachedRequest) : Prop :=
  request.resumedFromPreemption = true ∧
    ∃ load blockIds, needLoad.lookup request.reqId = some load ∧
      request.newBlockIds = some blockIds ∧
      made = makeMeta (load.allTokenIds.take
        (request.numComputedTokens + request.numNewTokens)) blockIds connector.blockSize false
        load.mmHashes

theorem mem_cachedRequestMetas {requests : List CachedRequest} {metas : List ReqMeta}
    (built : connector.cachedRequestMetas needLoad requests = some metas) {made : ReqMeta}
    (listed : made ∈ metas) : ∃ request ∈ requests, connector.Resumes needLoad made request := by
  induction requests generalizing metas with
  | nil =>
    cases built
    cases listed
  | cons request rest ih =>
    have tail : ∀ {others}, connector.cachedRequestMetas needLoad rest = some others →
        made ∈ others → ∃ other ∈ request :: rest, connector.Resumes needLoad made other := by
      intro others later member
      obtain ⟨other, present, shape⟩ := ih later member
      exact ⟨other, List.mem_cons_of_mem _ present, shape⟩
    unfold cachedRequestMetas at built
    split at built
    · exact tail built listed
    · rename_i load found
      split at built
      · exact tail built listed
      · rename_i resumed
        split at built
        · cases built
        · rename_i blockIds blocks
          obtain ⟨others, later, rfl⟩ := Option.map_eq_some_iff.mp built
          rcases List.mem_cons.mp listed with rfl | member
          · exact ⟨request, List.mem_cons_self, by simpa using resumed, load, blockIds, found,
              blocks, rfl⟩
          · exact tail later member

end Connector

/-! ## Saving -/

inductive PutOutcome where
  | stored
  | rejected
  | raised
  deriving DecidableEq, Repr

/-- One put of `save_kv_layer`.  A rejected put of a layer object raises; the
status of the marker is ignored. -/
structure PutStep where
  key : String
  checked : Bool
  deriving DecidableEq, Repr

/-- The keys in the store and the puts that are still to come. -/
structure SaveState where
  contents : List String
  pending : List PutStep

def SaveState.put (state : SaveState) (outcome : PutOutcome) : SaveState :=
  match state.pending with
  | [] => state
  | step :: rest =>
    match outcome with
    | .stored => { contents := step.key :: state.contents, pending := rest }
    | .rejected => { state with pending := if step.checked then [] else rest }
    | .raised => { state with pending := [] }

namespace Connector

variable (connector : Connector)

/-- The body of the loop of `save_kv_layer` for a request to store.  Without
blocks the direct path returns before its put. -/
def requestSteps (layerName : String) (request : ReqMeta) : List PutStep :=
  let layerKey := connector.objectKey layerName request.tokenIds request.mmHashes
  let marker := connector.markerKey request.tokenIds request.mmHashes
  (if connector.gpuDirectEnabled ∧ request.blockIds = [] then []
    else [{ key := layerKey, checked := true }]) ++
    [{ key := marker, checked := false }]

def saveSteps (layerName : String) (requests : List ReqMeta) : List PutStep :=
  (requests.filter ReqMeta.isStore).flatMap (connector.requestSteps layerName)

/-- `save_kv_layer`, with the outcomes of its puts. -/
def saveKvLayer (layerName : String) (requests : List ReqMeta) (outcomes : List PutOutcome)
    (contents : List String) : List String :=
  (outcomes.foldl SaveState.put
    { contents := contents, pending := connector.saveSteps layerName requests }).contents

end Connector

end Mooncake.Vllm
