import Mathlib.Data.List.Basic

/-!
# Runs of a step function

A step function answers with the next state or refuses.  A run takes a list of
actions and refuses as soon as one of them is refused.
-/

namespace Mooncake.Library.Runs

open List

variable {σ α : Type} {step : σ → α → Option σ} {start final : σ} {actions : List α}

def run (step : σ → α → Option σ) (start : σ) (actions : List α) : Option σ :=
  actions.foldlM step start

theorem run_cons {action : α} {rest : List α} :
    run step start (action :: rest) = some final ↔
      ∃ next, step start action = some next ∧ run step next rest = some final := by
  simp [run, foldlM_cons, Option.bind_eq_some_iff]

theorem run_append {front back : List α} :
    run step start (front ++ back) = some final ↔
      ∃ middle, run step start front = some middle ∧ run step middle back = some final := by
  simp [run, foldlM_append, Option.bind_eq_some_iff]

/-- A guarded step was allowed, and this is where it leads. -/
theorem of_guard {guard : Prop} [Decidable guard] {next : σ}
    (stepped : (if guard then some next else none) = some final) : guard ∧ next = final := by
  rwa [Option.ite_none_right_eq_some, Option.some.injEq] at stepped

/-- What every allowed step keeps holds after every run of allowed steps. -/
theorem run_invariant (invariant : σ → Prop) (allowed : α → Prop)
    (kept : ∀ {state action next}, step state action = some next → allowed action →
      invariant state → invariant next)
    (ran : run step start actions = some final)
    (all : ∀ action ∈ actions, allowed action) (holds : invariant start) :
    invariant final := by
  induction actions generalizing start with
  | nil => exact Option.some.inj ran ▸ holds
  | cons action rest ih =>
    obtain ⟨next, stepped, later⟩ := run_cons.mp ran
    exact ih later (fun other present => all other (mem_cons_of_mem _ present))
      (kept stepped (all action mem_cons_self) holds)

theorem run_preserves (invariant : σ → Prop)
    (kept : ∀ {state action next}, step state action = some next → invariant state →
      invariant next)
    (ran : run step start actions = some final) (holds : invariant start) : invariant final :=
  run_invariant invariant (fun _ => True) (fun stepped _ => kept stepped) ran
    (fun _ _ => trivial) holds

/-- What holds after a step only if it held before is traced back to the start of a run. -/
theorem run_back {safe : σ → Prop}
    (lasting : ∀ {state action next}, step state action = some next → safe next → safe state)
    (ran : run step start actions = some final) (holds : safe final) : safe start := by
  induction actions generalizing start with
  | nil => exact Option.some.inj ran ▸ holds
  | cons action rest ih =>
    obtain ⟨next, stepped, later⟩ := run_cons.mp ran
    exact lasting stepped (ih later)

/-- When good steps keep a state sound and safe, a step that is not good ends the safety of a
sound state, and lost safety does not come back, a run from a sound and safe state stays safe
exactly when all its steps are good. -/
theorem run_safe_iff (sound safe : σ → Prop) (good : α → Prop)
    (kept : ∀ {state action next}, step state action = some next → sound state → good action →
      sound next ∧ (safe state → safe next))
    (broken : ∀ {state action next}, step state action = some next → sound state →
      ¬ good action → ¬ safe next)
    (lasting : ∀ {state action next}, step state action = some next → safe next → safe state)
    (ran : run step start actions = some final)
    (soundStart : sound start) (safeStart : safe start) :
    safe final ↔ ∀ action ∈ actions, good action := by
  induction actions generalizing start with
  | nil =>
    obtain rfl := Option.some.inj ran
    exact iff_of_true safeStart (fun _ present => absurd present not_mem_nil)
  | cons action rest ih =>
    obtain ⟨next, stepped, later⟩ := run_cons.mp ran
    rw [forall_mem_cons]
    by_cases fine : good action
    · obtain ⟨soundNext, safeNext⟩ := kept stepped soundStart fine
      exact (ih later soundNext (safeNext safeStart)).trans (and_iff_right fine).symm
    · refine iff_of_false (fun safeFinal => broken stepped soundStart fine ?_)
        fun all => fine all.1
      exact run_back lasting later safeFinal

/-- Every step of a run meets the demand in the state that it finds. -/
def Meets (step : σ → α → Option σ) (demand : σ → α → Prop) : σ → List α → Prop
  | _, [] => True
  | state, action :: rest =>
    demand state action ∧
      match step state action with
      | some next => Meets step demand next rest
      | none => True

/-- What every step that meets the demand keeps holds after every run of such steps. -/
theorem run_invariant_of_meets (invariant : σ → Prop) {demand : σ → α → Prop}
    (kept : ∀ {state action next}, step state action = some next → demand state action →
      invariant state → invariant next)
    (ran : run step start actions = some final)
    (meets : Meets step demand start actions) (holds : invariant start) :
    invariant final := by
  induction actions generalizing start with
  | nil => exact Option.some.inj ran ▸ holds
  | cons action rest ih =>
    obtain ⟨next, stepped, later⟩ := run_cons.mp ran
    obtain ⟨met, others⟩ := meets
    rw [stepped] at others
    exact ih later others (kept stepped met holds)

/-- Where the demand decides whether a step keeps the invariant, a run meets it exactly when
the invariant holds in every state that the run reaches. -/
theorem always_iff_meets (sound invariant : σ → Prop) {demand : σ → α → Prop}
    (kept : ∀ {state action next}, step state action = some next → sound state → sound next)
    (decided : ∀ {state action next}, step state action = some next → sound state →
      invariant state → (invariant next ↔ demand state action))
    (refused : ∀ {state action}, step state action = none → demand state action)
    (soundStart : sound start) (holds : invariant start) :
    (∀ front, front <+: actions → ∀ state, run step start front = some state →
      invariant state) ↔ Meets step demand start actions := by
  induction actions generalizing start with
  | nil =>
    refine iff_of_true (fun front within state ran => ?_) trivial
    rw [prefix_nil.mp within] at ran
    exact Option.some.inj ran ▸ holds
  | cons action rest ih =>
    cases stepped : step start action with
    | none =>
      refine iff_of_true (fun front within state ran => ?_) ⟨refused stepped, ?_⟩
      · cases front with
        | nil => exact Option.some.inj ran ▸ holds
        | cons first later =>
          obtain ⟨rfl, -⟩ := cons_prefix_cons.mp within
          obtain ⟨next, moved, -⟩ := run_cons.mp ran
          cases stepped.symm.trans moved
      · rw [stepped]
        trivial
    | some next =>
      have later := @ih next (kept stepped soundStart)
      constructor
      · intro always
        have here : invariant next := always [action] (by simp) next (by simp [run, stepped])
        refine ⟨(decided stepped soundStart holds).mp here, ?_⟩
        rw [stepped]
        refine (later here).mp fun front within state ran => ?_
        exact always (action :: front) (cons_prefix_cons.mpr ⟨rfl, within⟩) state
          (run_cons.mpr ⟨next, stepped, ran⟩)
      · rintro ⟨met, others⟩ front within state ran
        rw [stepped] at others
        have here := (decided stepped soundStart holds).mpr met
        cases front with
        | nil => exact Option.some.inj ran ▸ holds
        | cons first back =>
          obtain ⟨rfl, inside⟩ := cons_prefix_cons.mp within
          obtain ⟨middle, moved, ran⟩ := run_cons.mp ran
          obtain rfl := Option.some.inj (stepped.symm.trans moved)
          exact (later here).mpr others back inside state ran

/-! ## Steps that always succeed -/

/-- Every action meets the demand in the state that it finds. -/
def Along (next : σ → α → σ) (demand : σ → α → Prop) : σ → List α → Prop
  | _, [] => True
  | state, action :: rest =>
    demand state action ∧ Along next demand (next state action) rest

/-- Where a condition decides a property of each step, and steps that meet it keep the
invariant under which it does, the condition decides the property of whole runs. -/
theorem along_iff {next : σ → α → σ} {invariant : σ → Prop} {property condition : σ → α → Prop}
    (decided : ∀ {state action}, invariant state →
      (property state action ↔ condition state action))
    (kept : ∀ {state action}, invariant state → condition state action →
      invariant (next state action))
    (holds : invariant start) (actions : List α) :
    Along next property start actions ↔ Along next condition start actions := by
  induction actions generalizing start with
  | nil => exact Iff.rfl
  | cons action rest ih =>
    exact (and_congr_left' (decided holds)).trans (and_congr_right fun met => ih (kept holds met))

end Mooncake.Library.Runs
