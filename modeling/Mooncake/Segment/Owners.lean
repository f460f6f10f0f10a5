import Mooncake.Segment.Memory

/-!
# Every segment owns its memory

As long as no rollback fails, a segment that is mounted or on its way out has memory that is
in use and that no other segment shares.  A call or a timer gives memory up only for a
segment that is gone.
-/

namespace Mooncake.Segment

open Library.Ownership Library.Runs List

variable {γ : Type}

def Region.Apart (first second : Region) : Prop :=
  ¬ first.Overlaps second

instance : Std.Symm Region.Apart where
  symm first second apart overlaps := apart (by
    unfold Region.Overlaps at overlaps ⊢
    omega)

variable {region : Region} {client : ClientState γ} {id : UUID}

theorem Region.overlaps_self (nonempty : 0 < region.size) :
    region.Overlaps region := by
  unfold Region.Overlaps
  omega

theorem Region.base_ne_of_apart {first second : Region} (apart : first.Apart second)
    (one : 0 < first.size) (two : 0 < second.size) : first.base ≠ second.base := by
  intro same
  refine apart ?_
  unfold Region.Overlaps
  omega

/-- The wrapping check of a mount accepts every range that is really apart. -/
theorem Region.clashes_of_apart {first second : Region} (apart : first.Apart second) :
    first.clashes second = false := by
  refine decide_eq_false fun clash => apart ?_
  have left := Nat.mod_le (first.size + first.base) (2 ^ 64)
  have right := Nat.mod_le (second.size + second.base) (2 ^ 64)
  unfold Region.Overlaps
  omega

theorem UuidText.uuidToString_injective (text : UuidText) {first second : UUID}
    (same : text.uuidToString first = text.uuidToString second) : first = second := by
  have read := text.stringToUuid_uuidToString second
  rw [← same, text.stringToUuid_uuidToString] at read
  exact Option.some.inj read

/-! ## The store client -/

theorem gone_iff :
    client.Gone id ↔ ∀ region, ¬ client.holds id region := by
  simp only [ClientState.Gone, ClientState.holds, not_or, forall_and,
    ← Option.mem_def, ← AList.lookup_isSome, Option.isSome_iff_exists, not_exists]

theorem gone_of_holds {before after : ClientState γ}
    (holds : ∀ id region, after.holds id region → before.holds id region) (gone : before.Gone id) :
    after.Gone id :=
  gone_iff.mpr fun region held => gone_iff.mp gone region (holds id region held)

theorem count_unregister {base : Nat} {outcome : UnregisterOutcome}
    (elsewhere : region.base ≠ base) :
    (client.unregister base outcome).registered.count region = client.registered.count region := by
  unfold ClientState.unregister
  split
  · exact count_filter (by simpa using elsewhere)
  · rfl

theorem count_unregister_self (client : ClientState γ) {outcome : UnregisterOutcome}
    (region : Region) (drops : outcome.drops = true) :
    (client.unregister region.base outcome).registered.count region = 0 := by
  rw [ClientState.unregister, if_pos drops]
  exact count_eq_zero.mpr fun present => by simpa using of_mem_filter present

theorem holds_dropMounted {other : UUID} {registered : List Region}
    (held : (client.dropMounted id registered).holds other region) :
    client.holds other region := by
  refine held.imp_left fun mounted => ?_
  have present : other ∈ client.mountedSegments.erase id := mem_of_lookup mounted
  exact (AList.lookup_erase_ne (AList.mem_erase.mp present).1).symm.trans mounted

theorem gone_dropMounted (registered : List Region)
    (exclusive : id ∉ client.gracefullyUnmountingSegments) :
    (client.dropMounted id registered).Gone id :=
  ⟨fun held => (AList.mem_erase.mp held).1 rfl, exclusive⟩

/-- The master and the transfer engine let an immediate unmount through. -/
def UnmountAnswers.Succeeds (answers : UnmountAnswers) : Prop :=
  answers.unmountSegment = .ok () ∧ answers.unregister.code ≠ .failed

theorem unmountSegmentById_immediate (answers : UnmountAnswers) {segment : Region}
    (callback : Option γ) (found : client.mountedSegments.lookup id = some segment) :
    (¬ answers.Succeeds ∧
        ∃ error, unmountSegmentById answers client id 0 callback = (.error error, client)) ∨
      (answers.Succeeds ∧ unmountSegmentById answers client id 0 callback =
        (.ok (), client.dropMounted id
          (client.unregister segment.base answers.unregister).registered)) := by
  have impl : unmountSegmentById answers client id 0 callback =
      unmountSegmentImpl answers client id segment := by
    simp [unmountSegmentById, found]
  rw [impl]
  by_cases succeeds : answers.Succeeds
  · refine .inr ⟨succeeds, ?_⟩
    cases drops : answers.unregister.drops <;> simp [unmountSegmentImpl, succeeds.1, succeeds.2,
      ClientState.unregister, ClientState.dropMounted, drops]
  · rcases unmountSegmentImpl_cases answers client id segment with kept | ⟨master, engine, -⟩
    · exact .inl ⟨succeeds, kept⟩
    · exact absurd ⟨master, engine⟩ succeeds

/-! ## The invariant -/

section Invariant

variable (text : UuidText) (limits : Limits)

/-- A chunk in the hands of the current call is mounted, and a registration of its memory was
added since the memory was obtained. -/
structure InFlight (client : ClientState MemoryKind) (chunk : Chunk) : Prop where
  nonnull : chunk.region.base ≠ 0
  mounted : ∀ id, chunk.segmentId = text.uuidToString id →
    client.mountedSegments.lookup id = some chunk.region
  registered : chunk.prior.count chunk.region < client.registered.count chunk.region

/-- The chunks of a mount call are not larger than a memory region of the engine. -/
def Control.Sized : Control → Prop
  | .mounting _ alignedMaxChunk _ _ _ =>
    0 < alignedMaxChunk ∧ alignedMaxChunk ≤ limits.maxMrSize
  | _ => True

structure Sound (state : RealClient) : Prop where
  separate : Separate Region.Apart (state.owners text)
  nonempty : ∀ owner ∈ state.owners text, 0 < owner.2.size
  named : ∀ owner ∈ state.owners text, ∃ id ∈ state.generated, owner.1 = text.uuidToString id
  held : ∀ id region, state.client.holds id region →
    (text.uuidToString id, region) ∈ state.owners text
  exclusive : ∀ id ∈ state.client.mountedSegments,
    id ∉ state.client.gracefullyUnmountingSegments
  pending : ∀ id ∈ state.client.cleanupCallbacks, id ∈ state.client.gracefullyUnmountingSegments
  inFlight : ∀ chunk ∈ state.control.chunks, InFlight text state.client chunk
  doomed : ∀ owner ∈ state.control.toCleanup, ∀ id, owner.1 = text.uuidToString id →
    state.client.Gone id
  taken : ∀ entry ∈ state.taken, state.client.Gone entry.2 ∧ entry.2 ∈ state.generated
  selected : ∀ entry ∈ state.control.toUnmount, entry.1 = text.uuidToString entry.2
  sized : state.control.Sized limits

/-- A step that mounts nothing: memory is handed on or given up, and what is still held keeps
its memory. -/
structure Reduces (state next : RealClient) : Prop where
  owners : (next.owners text).Subperm (state.owners text)
  generated : next.generated = state.generated
  holds : ∀ id region, next.client.holds id region → state.client.holds id region
  kept : ∀ id region, next.client.holds id region →
    (text.uuidToString id, region) ∈ next.owners text
  exclusive : ∀ id ∈ next.client.mountedSegments,
    id ∉ next.client.gracefullyUnmountingSegments
  pending : ∀ id ∈ next.client.cleanupCallbacks, id ∈ next.client.gracefullyUnmountingSegments
  inFlight : ∀ chunk ∈ next.control.chunks, InFlight text next.client chunk
  doomed : ∀ owner ∈ next.control.toCleanup, owner ∈ state.control.toCleanup ∨
    ∀ id, owner.1 = text.uuidToString id → next.client.Gone id
  taken : ∀ entry ∈ next.taken, entry ∈ state.taken ∨
    (next.client.Gone entry.2 ∧ entry.2 ∈ state.generated)
  selected : ∀ entry ∈ next.control.toUnmount, entry.1 = text.uuidToString entry.2
  sized : next.control.Sized limits

variable {text limits}

variable {state next : RealClient} {client : ClientState MemoryKind} {property : Release → Prop}
  {kind : MemoryKind} {chunk remaining : Nat} {out : Option Nat}

theorem Sound.reduce (sound : Sound text limits state) (reduces : Reduces text limits state next) :
    Sound text limits next where
  separate := sound.separate.subperm reduces.owners
  nonempty := fun owner present => sound.nonempty owner (reduces.owners.subset present)
  named := by
    rw [reduces.generated]
    exact fun owner present => sound.named owner (reduces.owners.subset present)
  held := reduces.kept
  exclusive := reduces.exclusive
  pending := reduces.pending
  inFlight := reduces.inFlight
  doomed := by
    intro owner present id same
    rcases reduces.doomed owner present with old | gone
    · exact gone_of_holds reduces.holds (sound.doomed owner old id same)
    · exact gone id same
  taken := by
    intro entry present
    rw [reduces.generated]
    rcases reduces.taken entry present with old | new
    · obtain ⟨gone, generated⟩ := sound.taken entry old
      exact ⟨gone_of_holds reduces.holds gone, generated⟩
    · exact new
  selected := reduces.selected
  sized := reduces.sized

/-- When the memory of a segment that is gone is given up, the others keep theirs. -/
theorem Sound.kept_of_released {owners : List (String × Region)} (sound : Sound text limits state)
    (released : (state.owners text).Perm ((text.uuidToString id, region) :: owners))
    (holds : ∀ id region, client.holds id region → state.client.holds id region)
    (gone : client.Gone id) {other : UUID} {memory : Region} (held : client.holds other memory) :
    (text.uuidToString other, memory) ∈ owners := by
  have present := released.subset (sound.held other memory (holds other memory held))
  rcases mem_cons.mp present with same | rest
  · have same : other = id := text.uuidToString_injective (congrArg Prod.fst same)
    exact absurd held (gone_iff.mp (same ▸ gone) memory)
  · exact rest

theorem Sound.apart_of_gone (sound : Sound text limits state)
    (owner : (text.uuidToString id, region) ∈ state.owners text)
    (holds : ∀ id region, client.holds id region → state.client.holds id region)
    (gone : client.Gone id) {other : UUID} {memory : Region} (held : client.holds other memory) :
    memory.Apart region := by
  have present := sound.held other memory (holds other memory held)
  refine sound.separate.apart_of_ne present owner fun same => ?_
  have same : other = id := text.uuidToString_injective same
  exact gone_iff.mp (same ▸ gone) memory held

/-! ## What is released -/

/-- No segment that is mounted or on its way out overlaps the memory. -/
def Release.Unheld (release : Release) : Prop :=
  ∀ id region, release.client.holds id region → region.Apart release.region

/-- A mount call releases the memory although a registration of it, made since the memory was
obtained, still stands. -/
def Release.StillRegistered (release : Release) : Prop :=
  ∃ prior, release.prior = some prior ∧
    prior.count release.region < release.client.registered.count release.region

def Releases (property : Release → Prop) (state next : RealClient) : Prop :=
  ∃ new, next.releases = state.releases ++ new ∧ ∀ release ∈ new, property release

theorem releases_of_eq (same : next.releases = state.releases) : Releases property state next :=
  ⟨[], by rw [same, append_nil], by simp⟩

theorem releases_release {prior : Option (List Region)} (same : next.releases = state.releases)
    (holds : property ⟨region, next.client, prior⟩) :
    Releases property state (next.release region prior) := by
  unfold RealClient.release
  split
  · exact releases_of_eq same
  · exact ⟨[⟨region, next.client, prior⟩], by rw [same], by simpa using holds⟩

theorem Reduces.release (reduces : Reduces text limits state next) (region : Region)
    (prior : Option (List Region)) :
    Reduces text limits state (next.release region prior) := by
  unfold RealClient.release
  split
  · exact reduces
  · exact { reduces with }

/-! ## Steps of a mount call -/

theorem Control.owners_rollingBack {control : Control} {mounted : List Chunk}
    (mounting : control = .mounting kind chunk remaining mounted out) :
    (Control.rollingBack mounted).owners = control.owners := by
  subst mounting
  rfl

theorem Sound.reduces_rollingBack (sound : Sound text limits state) {mounted : List Chunk}
    (mounting : state.control = .mounting kind chunk remaining mounted out)
    {registered : List Region}
    (grown : ∀ region, state.client.registered.count region ≤ registered.count region) :
    Reduces text limits state
      { state with
        client := { state.client with registered := registered }
        control := .rollingBack mounted } where
  owners := by
    unfold RealClient.owners
    rw [Control.owners_rollingBack mounting]
    exact List.Subperm.refl _
  generated := rfl
  holds := fun _ _ held => held
  kept := by
    unfold RealClient.owners
    rw [Control.owners_rollingBack mounting]
    exact sound.held
  exclusive := sound.exclusive
  pending := sound.pending
  inFlight := by
    intro chunk present
    have old := sound.inFlight chunk (by rw [mounting]; exact present)
    exact ⟨old.nonnull, old.mounted, Nat.lt_of_lt_of_le old.registered (grown chunk.region)⟩
  doomed := fun _ present => absurd present not_mem_nil
  taken := fun _ present => .inl present
  selected := fun _ present => absurd present not_mem_nil
  sized := trivial

/-- Memory that is not in use passes the checks of a mount. -/
theorem Sound.admits (sound : Sound text limits state) (nonnull : region.base ≠ 0)
    (nonempty : region.size ≠ 0) (small : region.size ≤ limits.maxMrSize)
    (free : ∀ owner ∈ state.owners text, owner.2.Apart region) :
    state.client.admits limits.maxMrSize region = true := by
  have clear : (state.client.mountedSegments.entries.all
      fun entry => !entry.2.clashes region) = true := by
    refine all_eq_true.mpr fun entry present => ?_
    have located : state.client.mountedSegments.lookup entry.1 = some entry.2 :=
      AList.mem_lookup_iff.mpr present
    rw [Region.clashes_of_apart (free _ (sound.held entry.1 entry.2 (.inl located)))]
    rfl
  simp [ClientState.admits, nonnull, nonempty, small, clear]

theorem Sound.mountChunk_cases (sound : Sound text limits state) {obtained : Option Nat}
    {answers : MountAnswers} (stepped : state.mountChunk text limits obtained answers = some next) :
    ∃ kind chunk remaining mounted out,
      state.control = .mounting kind chunk remaining mounted out ∧
      ((obtained = none ∧ next = { state with control := .rollingBack mounted }) ∨
        ∃ region : Region, obtained = some region.base ∧ region.base ≠ 0 ∧ 0 < region.size ∧
          (∀ owner ∈ state.owners text, owner.2.Apart region) ∧
          answers.uuid ∉ state.generated ∧
          ((answers.register.registers = false ∧
              next = ({ state with control := .rollingBack mounted } : RealClient).release region
                (some state.client.registered)) ∨
            (answers.register.registers = true ∧
              ¬ (answers.register.code = .ok ∧ answers.mountSegment = .ok ()) ∧
              next = ({ state with
                client := state.client.register region
                control := .rollingBack mounted } : RealClient).release region
                  (some state.client.registered)) ∨
            (answers.register.code = .ok ∧ answers.mountSegment = .ok () ∧
              next =
                { state with
                  client := state.client.addMounted answers.uuid region
                  control := .mounting kind chunk (remaining - region.size)
                    (mounted ++ [⟨text.uuidToString answers.uuid, region,
                      state.client.registered⟩]) out
                  generated := answers.uuid :: state.generated }))) := by
  unfold RealClient.mountChunk at stepped
  split at stepped
  swap
  · cases stepped
  rename_i kind chunk remaining mounted out mounting
  refine ⟨kind, chunk, remaining, mounted, out, mounting, ?_⟩
  have sized := sound.sized
  rw [mounting] at sized
  obtain ⟨positive, small⟩ := sized
  split at stepped
  · cases stepped
  rename_i left
  have nonempty : min remaining chunk ≠ 0 := by omega
  rw [if_neg nonempty] at stepped
  cases obtained with
  | none => exact .inl ⟨rfl, (Option.some.inj stepped).symm⟩
  | some base =>
    refine .inr ⟨⟨base, min remaining chunk⟩, rfl, ?_⟩
    simp only at stepped
    split at stepped
    · cases stepped
    rename_i allowed
    simp only [not_or, not_exists, not_and] at allowed
    obtain ⟨nonnull, free, fresh⟩ := allowed
    refine ⟨nonnull, Nat.pos_of_ne_zero nonempty, free, fresh, ?_⟩
    have admitted : state.client.admits limits.maxMrSize ⟨base, min remaining chunk⟩ = true :=
      sound.admits nonnull nonempty (by simp only; omega) free
    rw [mountSegmentAndGetId_eq] at stepped
    rw [if_pos admitted] at stepped
    by_cases registered : answers.register.code = .ok
    · rw [if_pos registered] at stepped
      cases acknowledged : answers.mountSegment with
      | error error =>
        rw [acknowledged] at stepped
        exact .inr (.inl ⟨answers.register.done registered, by simp,
          (Option.some.inj stepped).symm⟩)
      | ok =>
        rw [acknowledged] at stepped
        exact .inr (.inr ⟨registered, rfl, (Option.some.inj stepped).symm⟩)
    · rw [if_neg registered] at stepped
      cases left : answers.register.registers with
      | true =>
        rw [left] at stepped
        exact .inr (.inl ⟨rfl, fun both => registered both.1, (Option.some.inj stepped).symm⟩)
      | false =>
        rw [left] at stepped
        exact .inl ⟨rfl, (Option.some.inj stepped).symm⟩

/-- A chunk is mounted under a fresh id, on memory that was not in use. -/
theorem Sound.mounted (sound : Sound text limits state) {left : Nat} {mounted : List Chunk}
    (mounting : state.control = .mounting kind chunk remaining mounted out)
    (nonnull : region.base ≠ 0) (nonempty : 0 < region.size)
    (free : ∀ owner ∈ state.owners text, owner.2.Apart region) (fresh : id ∉ state.generated) :
    Sound text limits
      { state with
        client := state.client.addMounted id region
        control := .mounting kind chunk left
          (mounted ++ [⟨text.uuidToString id, region, state.client.registered⟩]) out
        generated := id :: state.generated } := by
  let new : Chunk := ⟨text.uuidToString id, region, state.client.registered⟩
  have owners : ((Control.mounting kind chunk left (mounted ++ [new]) out).owners ++
      state.stored text).Perm ((text.uuidToString id, region) :: state.owners text) := by
    unfold RealClient.owners
    rw [mounting]
    simp [Control.owners, Control.chunks, Control.toCleanup, new]
  have unnamed : ∀ owner ∈ state.owners text, owner.1 ≠ text.uuidToString id := by
    intro owner present same
    obtain ⟨other, generated, named⟩ := sound.named owner present
    exact fresh (text.uuidToString_injective (same.symm.trans named) ▸ generated)
  have gone : state.client.Gone id :=
    gone_iff.mpr fun memory held => unnamed _ (sound.held id memory held) rfl
  refine
    { separate := ?_, nonempty := ?_, named := ?_, held := ?_, exclusive := ?_,
      pending := sound.pending, inFlight := ?_,
      doomed := fun _ present => absurd present not_mem_nil, taken := ?_,
      selected := fun _ present => absurd present not_mem_nil, sized := ?_ }
  · refine Separate.subperm (Separate.cons sound.separate ?_ ?_) owners.subperm
    · exact fun owner present same => unnamed owner present same.symm
    · exact fun owner present => Std.Symm.symm _ _ (free owner present)
  · intro owner present
    rcases mem_cons.mp (owners.subset present) with rfl | old
    · exact nonempty
    · exact sound.nonempty owner old
  · intro owner present
    rcases mem_cons.mp (owners.subset present) with rfl | old
    · exact ⟨id, mem_cons_self, rfl⟩
    · obtain ⟨other, generated, named⟩ := sound.named owner old
      exact ⟨other, mem_cons_of_mem _ generated, named⟩
  · intro other memory held
    refine owners.symm.subset ?_
    by_cases same : other = id
    · subst same
      rcases held with mounted | unmounting
      · obtain rfl := Option.some.inj ((AList.lookup_insert _).symm.trans mounted)
        exact mem_cons_self
      · exact absurd (.inr unmounting) (gone_iff.mp gone memory)
    · refine mem_cons_of_mem _ (sound.held other memory (held.imp_left fun mounted => ?_))
      exact (AList.lookup_insert_ne same).symm.trans mounted
  · intro other present
    rcases (AList.mem_insert _).mp present with rfl | old
    · exact gone.2
    · exact sound.exclusive other old
  · intro inFlight present
    rcases mem_append.mp present with old | added
    · have flying := sound.inFlight inFlight (by rw [mounting]; exact old)
      refine ⟨flying.nonnull, fun other named => ?_, ?_⟩
      · have owner : (inFlight.segmentId, inFlight.region) ∈ state.owners text := by
          refine mem_append_left _ (mem_append_left _ ?_)
          rw [mounting]
          exact mem_map.mpr ⟨inFlight, old, rfl⟩
        have different : other ≠ id := fun same => unnamed _ owner (same ▸ named)
        exact (AList.lookup_insert_ne different).trans (flying.mounted other named)
      · exact Nat.lt_of_lt_of_le flying.registered
          ((sublist_append_left _ _).count_le _)
    · obtain rfl := mem_singleton.mp added
      refine ⟨nonnull, fun other named => ?_, ?_⟩
      · rw [← text.uuidToString_injective named]
        exact AList.lookup_insert _
      · simp [ClientState.addMounted, ClientState.register]
  · intro entry present
    obtain ⟨absent, generated⟩ := sound.taken entry present
    have different : entry.2 ≠ id := fun same => fresh (same ▸ generated)
    refine ⟨⟨fun held => ?_, absent.2⟩, mem_cons_of_mem _ generated⟩
    exact ((AList.mem_insert _).mp held).elim different absent.1
  · have sized := sound.sized
    rw [mounting] at sized
    exact sized

theorem Sound.reduces_rollback (sound : Sound text limits state) {chunk : Chunk} {rest : List Chunk}
    (rolling : state.control = .rollingBack (chunk :: rest))
    (named : chunk.segmentId = text.uuidToString id) {outcome : UnregisterOutcome} :
    Reduces text limits state
      { state with
        client := state.client.dropMounted id
          (state.client.unregister chunk.region.base outcome).registered
        control := .rollingBack rest } := by
  have owners : state.owners text = (text.uuidToString id, chunk.region) ::
      ((Control.rollingBack rest).owners ++ state.stored text) := by
    unfold RealClient.owners
    rw [rolling, ← named]
    rfl
  have mounted := (sound.inFlight chunk (by rw [rolling]; exact mem_cons_self)).mounted id named
  have exclusive := sound.exclusive id (mem_of_lookup mounted)
  refine
    { owners := by rw [owners]; exact (sublist_cons_self _ _).subperm
      generated := rfl
      holds := fun _ _ held => holds_dropMounted held
      kept := fun other memory held => ?_
      exclusive := fun other held => sound.exclusive other (AList.mem_erase.mp held).2
      pending := sound.pending
      inFlight := fun other present => ?_
      doomed := fun _ present => absurd present not_mem_nil
      taken := fun _ present => .inl present
      selected := fun _ present => absurd present not_mem_nil
      sized := trivial }
  · exact sound.kept_of_released (.of_eq owners) (fun _ _ held => holds_dropMounted held)
      (gone_dropMounted _ exclusive) held
  · have flying := sound.inFlight other (by rw [rolling]; exact mem_cons_of_mem _ present)
    have inside : (other.segmentId, other.region) ∈
        (Control.rollingBack rest).owners ++ state.stored text :=
      mem_append_left _ (mem_append_left _ (mem_map.mpr ⟨other, present, rfl⟩))
    have unrelated := (pairwise_cons.mp (owners ▸ sound.separate)).1 _ inside
    refine ⟨flying.nonnull, fun key same => ?_, ?_⟩
    · have different : key ≠ id := fun equal => unrelated.1 (by rw [same, equal])
      exact (AList.lookup_erase_ne different).trans (flying.mounted key same)
    · have elsewhere : other.region.base ≠ chunk.region.base := (Region.base_ne_of_apart unrelated.2
          (sound.nonempty _ (owners ▸ mem_cons_self))
          (sound.nonempty _ (owners ▸ mem_cons_of_mem _ inside))).symm
      exact (count_unregister elsewhere).symm ▸ flying.registered

end Invariant

end Mooncake.Segment
