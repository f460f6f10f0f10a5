import Mooncake.Segment.Release

/-!
# Memory is freed only when nothing uses it

The rollback of a mount call releases a chunk whatever its unmount answered, and a chunk that
the master refuses is released while the transfer engine still holds it.  In every run the
memory that is released is unused exactly when neither happens.
-/

namespace Mooncake.Segment

open Library.Ownership Library.Runs List

variable {text : UuidText} {limits : Limits}

/-! ## Steps -/

/-- A round of a rollback unmounts its chunk. -/
def MemoryAction.RollsBack : MemoryAction → Prop
  | .rollbackChunk answers => answers.Succeeds
  | _ => True

/-- A chunk that is registered after the call of the engine is mounted. -/
def MemoryAction.Admitted : MemoryAction → Prop
  | .mountChunk (some _) answers => answers.register.registers = true →
      answers.register.code = .ok ∧ answers.mountSegment = .ok ()
  | _ => True

/-- A round of a rollback drops the registration of its chunk. -/
def MemoryAction.Unregisters : MemoryAction → Prop
  | .rollbackChunk answers => answers.unregister.drops = true
  | _ => True

theorem release_of_nonnull {state : RealClient} {region : Region} {prior : Option (List Region)}
    (nonnull : region.base ≠ 0) :
    (state.release region prior).releases = state.releases ++ [⟨region, state.client, prior⟩] := by
  rw [RealClient.release, if_neg nonnull]

variable {state next : RealClient} {action : MemoryAction}

variable {obtained : Option Nat} {answers : MountAnswers}

section Step

variable (sound : Sound text limits state)

include sound

theorem Sound.step_mountChunk
    (stepped : state.mountChunk text limits obtained answers = some next) :
    Sound text limits next ∧ Releases (fun release => release.Unheld ∧
      ((MemoryAction.mountChunk obtained answers).Admitted → ¬ release.StillRegistered))
      state next := by
  obtain ⟨kind, chunk, remaining, mounted, out, mounting, outcome⟩ := sound.mountChunk_cases stepped
  have back := sound.reduces_rollingBack mounting (fun _ => Nat.le_refl _)
  rcases outcome with ⟨-, rfl⟩ | ⟨region, rfl, nonnull, nonempty, free, fresh, outcome⟩
  · exact ⟨sound.reduce back, releases_of_eq rfl⟩
  · have unheld : ∀ id memory, state.client.holds id memory → memory.Apart region :=
      fun id memory held => free _ (sound.held id memory held)
    rcases outcome with ⟨-, rfl⟩ | ⟨registered, refused, rfl⟩ | ⟨-, -, rfl⟩
    · refine ⟨sound.reduce (back.release _ _), releases_release rfl ⟨unheld, fun _ => ?_⟩⟩
      rintro ⟨prior, same, more⟩
      cases same
      exact Nat.lt_irrefl _ more
    · refine ⟨sound.reduce (.release (sound.reduces_rollingBack mounting fun other => ?_) _ _),
        releases_release rfl ⟨unheld, fun admitted => ?_⟩⟩
      · exact (sublist_append_left _ _).count_le _
      · exact absurd (admitted registered) refused
    · exact ⟨sound.mounted mounting nonnull nonempty free fresh, releases_of_eq rfl⟩

theorem Sound.rollbackChunk_cases {answers : UnmountAnswers}
    (stepped : state.rollbackChunk text answers = some next) :
    ∃ chunk rest id, state.control = .rollingBack (chunk :: rest) ∧
      chunk.segmentId = text.uuidToString id ∧ InFlight text state.client chunk ∧
      (chunk.segmentId, chunk.region) ∈ state.owners text ∧
      ((answers.Succeeds ∧ next =
          ({ state with
            client := state.client.dropMounted id
              (state.client.unregister chunk.region.base answers.unregister).registered
            control := .rollingBack rest } : RealClient).release chunk.region
              (some chunk.prior)) ∨
        (¬ answers.Succeeds ∧ next =
          ({ state with control := .rollingBack rest } : RealClient).release chunk.region
            (some chunk.prior))) := by
  unfold RealClient.rollbackChunk at stepped
  split at stepped
  swap
  · cases stepped
  rename_i chunk rest rolling
  have flying := sound.inFlight chunk (by rw [rolling]; exact mem_cons_self)
  have owner : (chunk.segmentId, chunk.region) ∈ state.owners text := by
    rw [RealClient.owners, rolling]
    exact mem_cons_self
  obtain ⟨id, -, named⟩ := sound.named _ owner
  simp only at named
  refine ⟨chunk, rest, id, rolling, named, flying, owner, ?_⟩
  rw [named, text.stringToUuid_uuidToString] at stepped
  rcases unmountSegmentById_immediate answers none (flying.mounted id named) with
    ⟨failed, error, kept⟩ | ⟨succeeds, erased⟩
  · simp only [kept] at stepped
    exact .inr ⟨failed, (Option.some.inj stepped).symm⟩
  · simp only [erased] at stepped
    exact .inl ⟨succeeds, (Option.some.inj stepped).symm⟩

theorem Sound.step_rollbackChunk {answers : UnmountAnswers}
    (stepped : state.rollbackChunk text answers = some next) (succeeds : answers.Succeeds) :
    Sound text limits next ∧ Releases (fun release => release.Unheld ∧
      (answers.unregister.drops = true → ¬ release.StillRegistered)) state next := by
  obtain ⟨chunk, rest, id, rolling, named, flying, owner, ⟨-, rfl⟩ | ⟨failed, -⟩⟩ :=
    sound.rollbackChunk_cases stepped
  swap
  · exact absurd succeeds failed
  refine ⟨sound.reduce (.release (sound.reduces_rollback rolling named) _ _),
    releases_release rfl ⟨?_, ?_⟩⟩
  · have exclusive := sound.exclusive id (mem_of_lookup (flying.mounted id named))
    exact fun _ _ held => sound.apart_of_gone (named ▸ owner)
      (fun _ _ held => holds_dropMounted held) (gone_dropMounted _ exclusive) held
  · rintro drops ⟨prior, -, more⟩
    simp only [ClientState.dropMounted,
      count_unregister_self state.client chunk.region drops] at more
    exact Nat.not_lt_zero _ more

omit sound in
theorem Releases.mono {weak strong : Release → Prop}
    (implies : ∀ release, strong release → weak release) (releases : Releases strong state next) :
    Releases weak state next := by
  obtain ⟨new, same, all⟩ := releases
  exact ⟨new, same, fun release present => implies release (all release present)⟩

/-- As long as rollbacks go through, a step keeps every segment's memory and releases only
memory of segments that are gone. -/
theorem Sound.step (stepped : state.step text limits action = some next)
    (rollsBack : action.RollsBack) :
    Sound text limits next ∧ Releases (fun release => release.Unheld ∧
      (action.Admitted → action.Unregisters → ¬ release.StillRegistered)) state next := by
  have strong : ∀ release : Release, release.Unheld ∧ ¬ release.StillRegistered →
      release.Unheld ∧ (action.Admitted → action.Unregisters → ¬ release.StillRegistered) :=
    fun _ both => ⟨both.1, fun _ _ => both.2⟩
  cases action with
  | call call =>
    simp only [RealClient.step] at stepped
    split at stepped
    · rename_i idle
      cases stepped
      exact ⟨sound.reduce (sound.reduces_enter idle), releases_of_eq (enter_releases ..)⟩
    · cases stepped
  | mountChunk obtained answers =>
    obtain ⟨kept, releases⟩ := sound.step_mountChunk stepped
    exact ⟨kept, releases.mono fun _ both => ⟨both.1, fun admitted _ => both.2 admitted⟩⟩
  | rollbackChunk answers =>
    obtain ⟨kept, releases⟩ := sound.step_rollbackChunk stepped rollsBack
    exact ⟨kept, releases.mono fun _ both => ⟨both.1, fun _ drops => both.2 drops⟩⟩
  | unmountNext answers =>
    obtain ⟨reduces, same⟩ := sound.reduces_unmountNext stepped
    exact ⟨sound.reduce reduces, releases_of_eq same⟩
  | cleanupNext =>
    obtain ⟨reduces, releases⟩ := sound.cleanupNext stepped
    exact ⟨sound.reduce reduces, releases.mono strong⟩
  | leave =>
    obtain ⟨reduces, same⟩ := sound.reduces_leave stepped
    exact ⟨sound.reduce reduces, releases_of_eq same⟩
  | finishTimer id unregister =>
    obtain rfl := Option.some.inj stepped
    exact ⟨sound.reduce (sound.finishTimer id unregister), releases_of_eq rfl⟩
  | runCallback index =>
    obtain ⟨reduces, releases⟩ := sound.runCallback stepped
    exact ⟨sound.reduce reduces, releases.mono strong⟩

/-- A rollback that fails releases memory that is mounted and registered. -/
theorem Sound.failed_rollback (stepped : state.step text limits action = some next)
    (fails : ¬ action.RollsBack) :
    ∃ release ∈ next.releases, ¬ release.Unheld ∧ release.StillRegistered := by
  cases action with
  | rollbackChunk answers =>
    obtain ⟨chunk, rest, id, rolling, named, flying, owner, ⟨succeeds, -⟩ | ⟨-, rfl⟩⟩ :=
      sound.rollbackChunk_cases stepped
    · exact absurd succeeds fails
    · rw [release_of_nonnull flying.nonnull]
      refine ⟨_, mem_append_right _ (mem_singleton.mpr rfl), fun unheld => ?_,
        chunk.prior, rfl, flying.registered⟩
      exact unheld id chunk.region (.inl (flying.mounted id named))
        (Region.overlaps_self (sound.nonempty _ owner))
  | _ => exact absurd trivial fails

end Step

/-! ## Runs -/

theorem mountChunk_grows (stepped : state.mountChunk text limits obtained answers = some next) :
    Releases (fun _ => True) state next := by
  simp only [RealClient.mountChunk] at stepped
  split at stepped
  swap
  · cases stepped
  split at stepped
  · cases stepped
  split at stepped
  · cases stepped
    exact releases_of_eq rfl
  split at stepped
  · cases stepped
    exact releases_of_eq rfl
  split at stepped
  · cases stepped
  split at stepped
  · cases stepped
    exact releases_release rfl trivial
  · cases stepped
    exact releases_of_eq rfl

theorem runCallback_grows {index : Nat} (stepped : state.runCallback text index = some next) :
    Releases (fun _ => True) state next := by
  obtain ⟨kind, id, -, rfl⟩ := runCallback_eq stepped
  unfold RealClient.releaseSegmentRecord
  split
  · exact releases_of_eq rfl
  · rename_i record found
    exact releases_release (withRecords_releases ..) trivial

theorem releases_grow (stepped : state.step text limits action = some next) :
    Releases (fun _ => True) state next := by
  cases action with
  | call call =>
    simp only [RealClient.step] at stepped
    split at stepped
    · cases stepped
      exact releases_of_eq (enter_releases ..)
    · cases stepped
  | mountChunk obtained answers => exact mountChunk_grows stepped
  | rollbackChunk answers =>
    simp only [RealClient.step, RealClient.rollbackChunk] at stepped
    split at stepped
    · cases stepped
      exact releases_release rfl trivial
    · cases stepped
  | unmountNext answers =>
    obtain ⟨kind, gracePeriodMs, firstError, segmentId, id, rest, toCleanup, -, outcome⟩ :=
      unmountNext_cases stepped
    rcases outcome with ⟨error, rfl⟩ | ⟨segment, callback, -, rfl⟩ |
      ⟨registered, -, rfl | ⟨record, -, rfl⟩⟩
    · exact releases_of_eq rfl
    · exact releases_of_eq rfl
    · exact releases_of_eq rfl
    · exact releases_of_eq (withRecords_releases ..)
  | cleanupNext =>
    simp only [RealClient.step, RealClient.cleanupNext] at stepped
    split at stepped
    · cases stepped
      exact releases_release rfl trivial
    · cases stepped
  | leave =>
    simp only [RealClient.step, RealClient.leave] at stepped
    split at stepped
    · cases stepped
      exact releases_of_eq (withRecords_releases ..)
    · cases stepped
      exact releases_of_eq rfl
    · cases stepped
      exact releases_of_eq rfl
    · cases stepped
  | finishTimer id unregister =>
    obtain rfl := Option.some.inj stepped
    exact releases_of_eq rfl
  | runCallback index => exact runCallback_grows stepped

theorem start_owners (setup : SetupSegments) (registered : List Region) :
    (RealClient.start setup registered).owners text = setup.segments.entries.map
      fun entry => (text.uuidToString entry.1, entry.2) := by
  simp [RealClient.start, RealClient.owners, RealClient.stored, Control.owners, Control.chunks,
    Control.toCleanup, ownersOf, Function.comp_def]

theorem sound_start {setup : SetupSegments} {registered : List Region} :
    Sound text limits (RealClient.start setup registered) where
  separate := by
    have keys : setup.segments.entries.Pairwise fun first second => first.1 ≠ second.1 :=
      pairwise_map.mp setup.segments.nodupKeys
    rw [start_owners]
    refine pairwise_map.mpr ((keys.and setup.apart).imp fun both => ⟨fun same => ?_, both.2⟩)
    exact both.1 (text.uuidToString_injective same)
  nonempty := by
    rw [start_owners]
    intro owner present
    obtain ⟨entry, inside, rfl⟩ := mem_map.mp present
    exact setup.nonempty entry inside
  named := by
    rw [start_owners]
    intro owner present
    obtain ⟨entry, inside, rfl⟩ := mem_map.mp present
    exact ⟨entry.1, mem_keys_of_mem inside, rfl⟩
  held := by
    intro id region held
    rw [start_owners]
    have mounted : setup.segments.lookup id = some region :=
      held.resolve_right fun unmounting => by simp [RealClient.start] at unmounting
    exact mem_map.mpr ⟨⟨id, region⟩, AList.mem_lookup_iff.mp mounted, rfl⟩
  exclusive := by simp [RealClient.start]
  pending := by simp [RealClient.start]
  inFlight := by simp [RealClient.start, Control.chunks]
  doomed := by simp [RealClient.start, Control.toCleanup]
  taken := by simp [RealClient.start]
  selected := by simp [RealClient.start, Control.toUnmount]
  sized := trivial

/-- What is released in a run has a property exactly when all steps are good, if good steps
release only what has it and other steps release something that has not. -/
theorem releases_iff (property : Release → Prop) (good : MemoryAction → Prop)
    (kept : ∀ {state action next}, RealClient.step text limits state action = some next →
      Sound text limits state → good action →
      Sound text limits next ∧ Releases property state next)
    (broken : ∀ {state action next}, RealClient.step text limits state action = some next →
      Sound text limits state → ¬ good action → ∃ release ∈ next.releases, ¬ property release)
    {setup : SetupSegments} {registered : List Region} {actions : List MemoryAction}
    {final : RealClient}
    (ran : run (RealClient.step text limits) (.start setup registered) actions = some final) :
    (∀ release ∈ final.releases, property release) ↔ ∀ action ∈ actions, good action := by
  refine run_safe_iff (Sound text limits)
    (fun state => ∀ release ∈ state.releases, property release) good ?_ ?_ ?_ ran (sound_start) (by simp [RealClient.start])
  · intro state action next stepped sound fine
    obtain ⟨sound, new, grown, clean⟩ := kept stepped sound fine
    refine ⟨sound, fun safe release present => ?_⟩
    rw [grown] at present
    exact (mem_append.mp present).elim (safe release) (clean release)
  · intro state action next stepped sound bad safe
    obtain ⟨release, present, fails⟩ := broken stepped sound bad
    exact fails (safe release present)
  · intro state action next stepped safe release present
    obtain ⟨new, grown, -⟩ := releases_grow stepped
    exact safe release (by rw [grown]; exact mem_append_left _ present)

/-- In every run of mount calls, unmount calls and timers, no memory of a segment that is
mounted or on its way out is released, exactly when every round of a rollback unmounts its
chunk. -/
theorem released_memory_unheld_iff {text : UuidText} {limits : Limits} {setup : SetupSegments}
    {registered : List Region} {actions : List MemoryAction} {final : RealClient}
    (ran : run (RealClient.step text limits) (.start setup registered) actions = some final) :
    (∀ release ∈ final.releases, ∀ id region, release.client.holds id region →
        ¬ region.Overlaps release.region) ↔
      ∀ action ∈ actions, action.RollsBack := by
  refine releases_iff Release.Unheld MemoryAction.RollsBack ?_ ?_ ran
  · intro state action next stepped sound good
    obtain ⟨kept, releases⟩ := sound.step stepped good
    exact ⟨kept, releases.mono fun _ both => both.1⟩
  · intro state action next stepped sound bad
    obtain ⟨release, present, used, -⟩ := sound.failed_rollback stepped bad
    exact ⟨release, present, used⟩

/-- The texts of ids in unary, first part and second part. -/
def unaryText : UuidText where
  uuidToString id := String.ofList (List.replicate id.1.toNat 'a' ++ List.replicate id.2.toNat 'b')
  stringToUuid text :=
    some (UInt64.ofNat (text.toList.count 'a'), UInt64.ofNat (text.toList.count 'b'))
  stringToUuid_uuidToString id := by simp [count_replicate]

def pageLimits : Limits := ⟨4096, 4096, 4096, by decide, by decide⟩

def noSegments : SetupSegments := ⟨∅, by simp, by simp⟩

/-- A file of two chunks: the first is mounted, the second is not mapped, and the rollback gets
the given answers. -/
def halfMount (answers : UnmountAnswers) : List MemoryAction :=
  [.call (.mountSegment (.opened 8192) 0 8192), .mountChunk (some 4096) ⟨.success, (0, 1), .ok ()⟩,
    .mountChunk none ⟨.success, (0, 2), .ok ()⟩, .rollbackChunk answers]

theorem rolledBack_memory_is_unheld :
    ∃ final, run (RealClient.step unaryText pageLimits) (.start noSegments [])
        (halfMount ⟨.ok (), .ok (), .success⟩) = some final ∧ final.releases.length = 1 ∧
      ∀ release ∈ final.releases, ∀ id region, release.client.holds id region →
        ¬ region.Overlaps release.region := by
  obtain ⟨final, ran⟩ : ∃ final, run (RealClient.step unaryText pageLimits)
      (.start noSegments []) (halfMount ⟨.ok (), .ok (), .success⟩) = some final := ⟨_, rfl⟩
  refine ⟨final, ran, ?_, (released_memory_unheld_iff ran).mpr ?_⟩
  · cases ran
    rfl
  · simp [halfMount, MemoryAction.RollsBack, UnmountAnswers.Succeeds, UnregisterOutcome.success]

theorem failedRollback_frees_mounted_memory :
    ∃ final, run (RealClient.step unaryText pageLimits) (.start noSegments [])
        (halfMount ⟨.error .rpcFail, .ok (), .success⟩) = some final ∧
      ∃ release ∈ final.releases, ∃ id region, release.client.holds id region ∧
        region.Overlaps release.region :=
  ⟨_, rfl, _, mem_singleton.mpr rfl, (0, 1), ⟨4096, 4096⟩, .inl rfl, by decide⟩

/-! ## Registrations -/

end Mooncake.Segment
