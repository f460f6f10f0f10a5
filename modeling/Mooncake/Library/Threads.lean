import Mooncake.Library.Runs

/-!
# Interleaved programs

A thread runs a list of statements: an action of its own, or the start of a new
thread.  A schedule names the thread that moves next, so a run over all schedules
covers every interleaving.  What holds within each program, such as one action coming
before another, holds in the trace of every run.
-/

namespace Mooncake.Library.Threads

open Runs List

inductive Statement (α : Type) where
  | act (action : α)
  | fork (program : List α)
  deriving DecidableEq, Repr

structure Pool (α : Type) where
  threads : List (List (Statement α))
  trace : List α := []
  deriving DecidableEq, Repr

variable {α : Type}

def Pool.step (pool : Pool α) (thread : Nat) : Option (Pool α) :=
  match pool.threads[thread]? with
  | some (.act action :: rest) =>
    some ⟨pool.threads.set thread rest, pool.trace ++ [action]⟩
  | some (.fork program :: rest) =>
    some ⟨pool.threads.set thread rest ++ [program.map .act], pool.trace⟩
  | _ => none

variable {pool : Pool α} {program : List (Statement α)} {schedule : List Nat}

theorem Pool.step_cases {next : Pool α} {thread : Nat} (stepped : pool.step thread = some next) :
    (∃ action rest, pool.threads[thread]? = some (.act action :: rest) ∧
      next = ⟨pool.threads.set thread rest, pool.trace ++ [action]⟩) ∨
    ∃ program rest, pool.threads[thread]? = some (.fork program :: rest) ∧
      next = ⟨pool.threads.set thread rest ++ [program.map .act], pool.trace⟩ := by
  unfold Pool.step at stepped
  split at stepped
  · rename_i action rest found
    exact .inl ⟨action, rest, found, (Option.some.inj stepped).symm⟩
  · rename_i program rest found
    exact .inr ⟨program, rest, found, (Option.some.inj stepped).symm⟩
  · cases stepped

/-! ## The actions of a program -/

def acts (program : List (Statement α)) : List α :=
  program.filterMap fun statement =>
    match statement with
    | .act action => some action
    | .fork _ => none

@[simp]
theorem acts_nil : acts ([] : List (Statement α)) = [] := rfl

@[simp]
theorem acts_act (action : α) (rest : List (Statement α)) :
    acts (.act action :: rest) = action :: acts rest := rfl

@[simp]
theorem acts_fork (program : List α) (rest : List (Statement α)) :
    acts (.fork program :: rest) = acts rest := rfl

@[simp]
theorem acts_append (front back : List (Statement α)) :
    acts (front ++ back) = acts front ++ acts back := by
  simp [acts]

@[simp]
theorem acts_map_act (program : List α) : acts (program.map .act) = program := by
  induction program with
  | nil => rfl
  | cons action rest ih => rw [map_cons, acts_act, ih]

theorem mem_acts {action : α} :
    action ∈ acts program ↔ .act action ∈ program := by
  induction program with
  | nil => simp
  | cons statement rest ih => cases statement <;> simp [ih]

/-! ## Rules for runs -/

section Justified

variable (demands : α → Prop) (meets : α → α → Prop)

/-- Every action of the program that demands an earlier one finds it in the history or
before itself in the program. -/
def Justified (history program : List α) : Prop :=
  ∀ front action back, program = front ++ action :: back → demands action →
    ∃ earlier ∈ history ++ front, meets action earlier

variable {demands meets}

variable {history program : List α} {action : α}

theorem Justified.grow (justified : Justified demands meets history program) :
    Justified demands meets (history ++ [action]) program := by
  intro front other back split demanded
  obtain ⟨earlier, present, met⟩ := justified front other back split demanded
  refine ⟨earlier, ?_, met⟩
  simp only [mem_append] at present ⊢
  tauto

theorem Justified.tail (justified : Justified demands meets history (action :: program)) :
    Justified demands meets (history ++ [action]) program := by
  intro front other back split demanded
  obtain ⟨earlier, present, met⟩ :=
    justified (action :: front) other back (by rw [split]; rfl) demanded
  exact ⟨earlier, by simpa using present, met⟩

/-- The next action of a justified program keeps the trace justified. -/
theorem Justified.extend (held : Justified demands meets [] history)
    (justified : Justified demands meets history (action :: program)) :
    Justified demands meets [] (history ++ [action]) := by
  intro front other back split demanded
  rcases eq_nil_or_concat back with rfl | ⟨rest, last, rfl⟩
  · obtain ⟨rfl, same⟩ := append_inj' split rfl
    obtain rfl := singleton_inj.mp same
    obtain ⟨earlier, present, met⟩ := justified [] action program rfl demanded
    exact ⟨earlier, by simpa using present, met⟩
  · rw [concat_eq_append, ← cons_append, ← append_assoc] at split
    exact held front other rest (append_inj' split rfl).1 demanded

/-- Programs that are justified on their own make justified traces. -/
theorem run_justified {pool final : Pool α} {schedule : List Nat}
    (ran : run Pool.step pool schedule = some final) (start : pool.trace = [])
    (acting : ∀ program ∈ pool.threads, Justified demands meets [] (acts program))
    (forking : ∀ program ∈ pool.threads, ∀ task, .fork task ∈ program →
      Justified demands meets [] task) : Justified demands meets [] final.trace := by
  have grows : ∀ {history program : List α}, Justified demands meets [] program →
      Justified demands meets history program := by
    intro history program justified front action back split demanded
    obtain ⟨earlier, present, met⟩ := justified front action back split demanded
    exact ⟨earlier, mem_append_right _ present, met⟩
  refine (run_preserves (fun state : Pool α => Justified demands meets [] state.trace ∧
    ∀ program ∈ state.threads, Justified demands meets state.trace (acts program) ∧
      ∀ task, .fork task ∈ program → Justified demands meets [] task) ?_ ran ⟨?_, ?_⟩).1
  · rintro state moving next stepped ⟨held, all⟩
    rcases Pool.step_cases stepped with ⟨action, rest, found, rfl⟩ | ⟨program, rest, found, rfl⟩
    · obtain ⟨own, tasks⟩ := all _ (mem_of_getElem? found)
      refine ⟨held.extend own, fun other present => ?_⟩
      rcases mem_or_eq_of_mem_set present with old | rfl
      · exact ⟨(all other old).1.grow, (all other old).2⟩
      · exact ⟨own.tail, fun task later => tasks task (mem_cons_of_mem _ later)⟩
    · obtain ⟨own, tasks⟩ := all _ (mem_of_getElem? found)
      refine ⟨held, fun other present => ?_⟩
      rcases mem_append.mp present with changed | new
      · rcases mem_or_eq_of_mem_set changed with old | rfl
        · exact all other old
        · exact ⟨own, fun task later => tasks task (mem_cons_of_mem _ later)⟩
      · rw [mem_singleton.mp new, acts_map_act]
        exact ⟨grows (tasks program mem_cons_self), by simp⟩
  · rw [start]
    intro front action back split
    simp at split
  · exact fun program present => ⟨grows (acting program present), forking program present⟩

end Justified

/-- A thread can run to its end while all others rest. -/
theorem run_alone {thread : Nat} (found : pool.threads[thread]? = some program) :
    ∃ schedule final, run Pool.step pool schedule = some final ∧
      final.trace = pool.trace ++ acts program := by
  induction program generalizing pool with
  | nil => exact ⟨[], pool, rfl, by simp⟩
  | cons statement rest ih =>
    have inside := (List.getElem?_eq_some_iff.mp found).1
    cases statement with
    | act action =>
      obtain ⟨schedule, final, ran, trace⟩ :=
        @ih ⟨pool.threads.set thread rest, pool.trace ++ [action]⟩ (by simp [inside])
      refine ⟨thread :: schedule, final, run_cons.mpr ⟨_, ?_, ran⟩, by simp [trace]⟩
      simp [Pool.step, found]
    | fork task =>
      obtain ⟨schedule, final, ran, trace⟩ :=
        @ih ⟨pool.threads.set thread rest ++ [task.map .act], pool.trace⟩
          (by rw [getElem?_append_left (by simpa using inside)]; simp [inside])
      refine ⟨thread :: schedule, final, run_cons.mpr ⟨_, ?_, ran⟩, by simp [trace]⟩
      simp [Pool.step, found]

end Mooncake.Library.Threads
