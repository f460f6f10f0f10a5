import Mooncake.Vllm.Saving

/-!
# Markers during a save

One client saves the layers of a request while other clients look up prefixes.
The marker is put after every layer, so it is in the store as soon as the first
layer is.
-/

namespace Mooncake.Vllm

open List

/-- The saving client takes its next put, or another client looks up a prompt. -/
inductive Action where
  | put (outcome : PutOutcome)
  | lookup (prompt : List Token) (mmHashes : List String)

/-- The store with the puts to come, and the prefixes that lookups have found. -/
structure System where
  save : SaveState
  hits : List (List Token × List String)

namespace Connector

section Model

variable (connector : Connector)

def act (system : System) : Action → System
  | .put outcome => { system with save := system.save.put outcome }
  | .lookup prompt mm =>
    if connector.foundMatchForPrompt (exactStore system.save.contents) prompt mm then
      { system with hits := (connector.lookupTokens prompt, mm) :: system.hits }
    else system

/-- The start of the calls of `save_kv_layer` for one request, layer by layer. -/
def saving (layers : List String) (request : ReqMeta) (contents : List String) : System where
  save :=
    { contents := contents
      pending := layers.flatMap fun layer => connector.saveSteps layer [request] }
  hits := []

/-- Every marker has its layer objects, and a reader that saw a hit finds them. -/
structure MarkersComplete (layers : List String) (system : System) : Prop where
  covered : connector.Covered layers system.save.contents
  readable : ∀ hit ∈ system.hits, ∀ layer ∈ layers,
    connector.objectKey layer hit.1 hit.2 ∈ system.save.contents

/-- Apart from layers that are named like the marker, there is only the first
layer, and its put is not skipped. -/
def SavedAtOnce (layers : List String) (request : ReqMeta) : Prop :=
  request.isStore = true → ∀ layer ∈ layers, layer = markerName ∨
    layers.head? = some layer ∧
      (connector.gpuDirectEnabled = true → request.blockIds ≠ [])

end Model

variable {connector : Connector} {layers : List String} {request : ReqMeta}

/-! ## One step and whole runs -/

/-- What every step keeps: the pending puts are sound and hits stay readable. -/
structure Saving (connector : Connector) (layers : List String) (system : System) : Prop where
  sound : connector.Sound layers system.save.contents system.save.pending
  readable : ∀ hit ∈ system.hits, ∀ layer ∈ layers,
    connector.objectKey layer hit.1 hit.2 ∈ system.save.contents

theorem Saving.act {system : System} (saving : connector.Saving layers system)
    (action : Action) : connector.Saving layers (connector.act system action) := by
  cases action with
  | put outcome =>
    refine ⟨saving.sound.put outcome, fun hit seen layer present => ?_⟩
    exact system.save.subset_put (saving.readable hit seen layer present)
  | lookup prompt mm =>
    simp only [Connector.act]
    split
    · rename_i found
      refine ⟨saving.sound, fun hit seen layer present => ?_⟩
      rcases mem_cons.mp seen with rfl | earlier
      · rw [foundMatchForPrompt_exact] at found
        exact saving.sound.covered _ _ found layer present
      · exact saving.readable hit earlier layer present
    · exact saving

theorem Saving.run {system : System} (saving : connector.Saving layers system)
    (actions : List Action) :
    connector.MarkersComplete layers (actions.foldl connector.act system) := by
  induction actions generalizing system with
  | nil => exact ⟨saving.sound.covered, saving.readable⟩
  | cons action rest ih => exact ih (saving.act action)

/-! ## The puts of a request -/

theorem saving_eq (isStore : request.isStore = true) (contents : List String) :
    connector.saving layers request contents =
      { save :=
          { contents := contents
            pending := layers.flatMap fun layer => connector.requestSteps layer request }
        hits := [] } := by
  simp [Connector.saving, saveSteps, isStore]

theorem sound_of_prepared {contents : List String}
    (covered : connector.Covered layers contents)
    (prepared : connector.Prepared layers contents request) (names : List String) :
    connector.Sound layers contents
      (names.flatMap fun layer => connector.requestSteps layer request) := by
  induction names generalizing contents with
  | nil => exact covered
  | cons name rest ih =>
    exact sound_requestSteps_of_prepared (fun _ later ready => ih later ready) covered
      prepared

theorem SavedAtOnce.saving (once : connector.SavedAtOnce layers request)
    {contents : List String} (covered : connector.Covered layers contents) :
    connector.Saving layers (connector.saving layers request contents) := by
  cases isStore : request.isStore with
  | false =>
    have idle : (connector.saving layers request contents).save.pending = [] := by
      simp [Connector.saving, saveSteps, isStore]
    refine ⟨?_, by simp [Connector.saving]⟩
    rw [idle]
    exact covered
  | true =>
    rw [saving_eq isStore]
    refine ⟨?_, by simp⟩
    cases layers with
    | nil => exact covered
    | cons first rest =>
      dsimp only
      rw [flatMap_cons]
      refine sound_requestSteps (fun _ later ready => sound_of_prepared later ready rest)
        covered fun other present => ?_
      rcases once isStore other present with marker | ⟨head, blocks⟩
      · exact .inl marker
      · exact .inr ⟨(Option.some.inj head).symm, blocks⟩

/-- The store right after the first marker has no other layer. -/
theorem savedAtOnce_of_markersComplete
    (complete : ∀ actions : List Action, connector.MarkersComplete layers
      (actions.foldl connector.act (connector.saving layers request []))) :
    connector.SavedAtOnce layers request := by
  intro isStore layer present
  rw [saving_eq isStore] at complete
  cases layers with
  | nil => cases present
  | cons first rest =>
    by_cases skipped : connector.gpuDirectEnabled = true ∧ request.blockIds = []
    · have covered := (complete [.put .stored]).covered request.tokenIds request.mmHashes
      simp only [foldl_cons, foldl_nil, act, SaveState.put, flatMap_cons,
        requestSteps, if_pos skipped, nil_append, cons_append, mem_singleton,
        forall_const] at covered
      exact .inl (objectKey_eq_iff.mp (covered layer present)).1
    · have covered := (complete [.put .stored, .put .stored]).covered request.tokenIds
        request.mmHashes
      simp only [foldl_cons, foldl_nil, act, SaveState.put, flatMap_cons,
        requestSteps, if_neg skipped, nil_append, cons_append, mem_cons,
        not_mem_nil, or_false, true_or, forall_const] at covered
      rcases covered layer (mem_cons.mp present) with marker | same
      · exact .inl (objectKey_eq_iff.mp marker).1
      · refine .inr ⟨?_, fun enabled empty => skipped ⟨enabled, empty⟩⟩
        rw [(objectKey_eq_iff.mp same).1]
        rfl

/-- From any store with complete markers, every reachable state has complete
markers exactly if the request is saved at once. -/
theorem markersComplete_iff (connector : Connector) (layers : List String)
    (request : ReqMeta) :
    (∀ contents, connector.Covered layers contents → ∀ actions : List Action,
        connector.MarkersComplete layers
          (actions.foldl connector.act (connector.saving layers request contents))) ↔
      connector.SavedAtOnce layers request := by
  constructor
  · intro complete
    exact savedAtOnce_of_markersComplete (complete [] fun _ _ found => nomatch found)
  · intro once contents covered actions
    exact (once.saving covered).run actions

/-- Six tokens in two layers: after the puts of the first layer another client
finds the prefix, and the object of the second layer is missing. -/
theorem firstLayer_is_a_hit :
    let request := makeMeta [1, 2, 3, 4, 5, 6] [0, 1] 4 true []
    let actions : List Action := [.put .stored, .put .stored, .lookup [1, 2, 3, 4, 5, 6] []]
    let system := actions.foldl fourTokenBlocks.act
      (fourTokenBlocks.saving ["layer0", "layer1"] request [])
    system.hits = [([1, 2, 3, 4], [])] ∧
      fourTokenBlocks.markerKey [1, 2, 3, 4] [] ∈ system.save.contents ∧
      fourTokenBlocks.objectKey "layer1" [1, 2, 3, 4] [] ∉ system.save.contents := by
  decide +kernel

end Connector

end Mooncake.Vllm
