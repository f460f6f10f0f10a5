import Mooncake.Segment.Owners

/-!
# Unmount calls and timers keep the owners

An immediate unmount hands the record of a segment to the current call, which releases it at
the end; a graceful one leaves it to the callback of the timer.  Both come after the segment
is gone from the store client.
-/

namespace Mooncake.Segment

open Library.Ownership Library.Runs List

variable {text : UuidText} {limits : Limits}

/-- The memory in use is the same, and the client holds no more than before. -/
theorem Sound.reduces_of_perm {state next : RealClient} (sound : Sound text limits state)
    (owners : (next.owners text).Perm (state.owners text))
    (generated : next.generated = state.generated)
    (holds : ∀ id region, next.client.holds id region → state.client.holds id region)
    (exclusive : ∀ id ∈ next.client.mountedSegments,
      id ∉ next.client.gracefullyUnmountingSegments)
    (pending : ∀ id ∈ next.client.cleanupCallbacks,
      id ∈ next.client.gracefullyUnmountingSegments)
    (inFlight : ∀ chunk ∈ next.control.chunks, InFlight text next.client chunk)
    (doomed : ∀ owner ∈ next.control.toCleanup, owner ∈ state.control.toCleanup ∨
      ∀ id, owner.1 = text.uuidToString id → next.client.Gone id)
    (taken : ∀ entry ∈ next.taken, entry ∈ state.taken ∨
      (next.client.Gone entry.2 ∧ entry.2 ∈ state.generated))
    (selected : ∀ entry ∈ next.control.toUnmount, entry.1 = text.uuidToString entry.2)
    (sized : next.control.Sized limits) : Reduces text limits state next where
  owners := owners.subperm
  generated := generated
  holds := holds
  kept := fun id region held => owners.symm.subset (sound.held id region (holds id region held))
  exclusive := exclusive
  pending := pending
  inFlight := inFlight
  doomed := doomed
  taken := taken
  selected := selected
  sized := sized

/-! ## Entering a call -/

theorem mountSegmentChunk_sized {file : FileAnswer} {offset size chunk : Nat}
    (chosen : mountSegmentChunk limits file offset size = some chunk) :
    0 < chunk ∧ chunk ≤ limits.maxMrSize := by
  unfold mountSegmentChunk at chosen
  split at chosen
  · cases chosen
  split at chosen
  · cases chosen
  rename_i large
  split at chosen
  · cases chosen
  · cases chosen
  split at chosen
  · cases chosen
  split at chosen
  · cases chosen
  cases chosen
  exact ⟨Nat.mul_pos (Nat.div_pos (Nat.le_of_not_lt large) limits.pageSize_pos)
    limits.pageSize_pos, Nat.div_mul_le_self _ _⟩

theorem allocateSegmentChunk_sized {size chunk total : Nat}
    (chosen : allocateSegmentChunk limits size = some (chunk, total)) :
    0 < chunk ∧ chunk ≤ limits.maxMrSize := by
  unfold allocateSegmentChunk at chosen
  split at chosen
  · cases chosen
  split at chosen
  · cases chosen
  split at chosen
  · cases chosen
  simp only at chosen
  split at chosen
  · cases chosen
  rename_i large
  split at chosen
  · cases chosen
  cases chosen
  exact ⟨Nat.mul_pos (Nat.div_pos (Nat.le_of_not_lt large) limits.slabSize_pos)
    limits.slabSize_pos, Nat.le_trans (Nat.div_mul_le_self _ _) (Nat.div_mul_le_self _ _)⟩

variable {state next : RealClient} {records : AList fun _ : String => Region} {kind : MemoryKind}
  {region : Region}

variable {segmentIds : List String} {entry : String × UUID} {segmentId : String}
  {answers : UnmountAnswers}

theorem mem_selectToUnmount (present : entry ∈ (selectToUnmount text records segmentIds).2) :
    entry.1 ∈ records ∧ text.stringToUuid entry.1 = some entry.2 := by
  unfold selectToUnmount at present
  revert present
  refine List.foldlRecOn segmentIds _ (motive := fun selected : ReturnCode × List (String × UUID) =>
    entry ∈ selected.2 → entry.1 ∈ records ∧ text.stringToUuid entry.1 = some entry.2)
    (fun present => absurd present not_mem_nil) fun selected known segmentId _ => ?_
  cases read : text.stringToUuid segmentId with
  | none => exact known
  | some id =>
    by_cases recorded : segmentId ∈ records
    · simp only [if_pos recorded]
      intro present
      rcases mem_append.mp present with old | new
      · exact known old
      · obtain rfl := mem_singleton.mp new
        exact ⟨recorded, read⟩
    · simp only [if_neg recorded]
      exact known

theorem ownersOf_records_sublist :
    (ownersOf (state.records kind)).Sublist (state.stored text) := by
  cases kind with
  | mapped => exact (sublist_append_left _ _).trans (sublist_append_left _ _)
  | allocated => exact (sublist_append_right _ _).trans (sublist_append_left _ _)

theorem mem_stored_of_record (found : (state.records kind).lookup segmentId = some region) :
    (segmentId, region) ∈ state.stored text :=
  (ownersOf_records_sublist).subset (mem_ownersOf.mpr found)

theorem Sound.selected_named (sound : Sound text limits state)
    (present : entry ∈ (selectToUnmount text (state.records kind) segmentIds).2) :
    entry.1 = text.uuidToString entry.2 := by
  obtain ⟨recorded, read⟩ := mem_selectToUnmount present
  obtain ⟨region, found⟩ := exists_lookup_of_mem recorded
  obtain ⟨id, -, named⟩ := sound.named _ (mem_append_right _ (mem_stored_of_record found))
  simp only at named
  rw [named, text.stringToUuid_uuidToString] at read
  rw [named, Option.some.inj read]

theorem Sound.reduces_fresh (sound : Sound text limits state) (idle : state.control.owners = [])
    {control : Control} {replies : List Reply} (chunks : control.chunks = [])
    (toCleanup : control.toCleanup = [])
    (selected : ∀ entry ∈ control.toUnmount, entry.1 = text.uuidToString entry.2)
    (sized : control.Sized limits) :
    Reduces text limits state { state with control := control, replies := replies } := by
  have none : control.owners = [] := by simp [Control.owners, chunks, toCleanup]
  refine sound.reduces_of_perm (.of_eq ?_) rfl (fun _ _ held => held) sound.exclusive
    sound.pending ?_ ?_ (fun _ present => .inl present) selected sized
  · exact congrArg (fun owners => owners ++ state.stored text) (none.trans idle.symm)
  · simp [chunks]
  · simp [toCleanup]

theorem Sound.reduces_enter (sound : Sound text limits state) (idle : state.control = .idle)
    {call : Call} :
    Reduces text limits state (state.enter text limits call) := by
  have empty : state.control.owners = [] := by rw [idle]; rfl
  have refused : Reduces text limits state state.refuse :=
    sound.reduces_fresh empty rfl rfl (by simp [Control.toUnmount]) trivial
  have unmounting : ∀ kind segmentIds gracePeriodSeconds,
      Reduces text limits state (state.startUnmount text kind segmentIds gracePeriodSeconds) := by
    intro kind segmentIds gracePeriodSeconds
    unfold RealClient.startUnmount
    split
    · exact refused
    · exact sound.reduces_fresh empty rfl rfl (fun _ present => sound.selected_named present)
        trivial
  cases call with
  | mountSegment file offset size =>
    simp only [RealClient.enter, RealClient.mountSegment]
    split
    · exact refused
    split
    · exact refused
    · rename_i chosen
      exact sound.reduces_fresh empty rfl rfl (by simp [Control.toUnmount])
        (mountSegmentChunk_sized chosen)
  | allocateAndMountSegment size =>
    simp only [RealClient.enter, RealClient.allocateAndMountSegment]
    split
    · exact refused
    split
    · exact refused
    · rename_i chosen
      exact sound.reduces_fresh empty rfl rfl (by simp [Control.toUnmount])
        (allocateSegmentChunk_sized chosen)
  | unmountSegment segmentIds gracePeriodSeconds => exact unmounting _ _ _
  | unmountAndFreeSegment segmentIds gracePeriodSeconds => exact unmounting _ _ _

theorem enter_releases (state : RealClient) (call : Call) :
    (state.enter text limits call).releases = state.releases := by
  have unmounting : ∀ kind segmentIds gracePeriodSeconds,
      (state.startUnmount text kind segmentIds gracePeriodSeconds).releases = state.releases := by
    intro kind segmentIds gracePeriodSeconds
    unfold RealClient.startUnmount
    split <;> rfl
  cases call with
  | mountSegment file offset size =>
    simp only [RealClient.enter, RealClient.mountSegment]
    split
    · rfl
    · split <;> rfl
  | allocateAndMountSegment size =>
    simp only [RealClient.enter, RealClient.allocateAndMountSegment]
    split
    · rfl
    · split <;> rfl
  | unmountSegment segmentIds gracePeriodSeconds => exact unmounting _ _ _
  | unmountAndFreeSegment segmentIds gracePeriodSeconds => exact unmounting _ _ _

/-! ## Leaving a call -/

theorem ownersOf_foldl_insert {mounted : List Chunk}
    (separate : Separate Region.Apart
      (mounted.map (fun chunk => (chunk.segmentId, chunk.region)) ++ ownersOf records)) :
    (ownersOf (mounted.foldl
      (fun records chunk => records.insert chunk.segmentId chunk.region) records)).Perm
        (mounted.map (fun chunk => (chunk.segmentId, chunk.region)) ++ ownersOf records) := by
  induction mounted generalizing records with
  | nil => exact .refl _
  | cons chunk rest ih =>
    have absent : chunk.segmentId ∉ records := by
      intro present
      obtain ⟨region, found⟩ := exists_lookup_of_mem present
      exact separate.not_mem_rest (mem_append_right _ (mem_ownersOf.mpr found))
    have inserted := ownersOf_insert chunk.region absent
    have moved : (rest.map (fun chunk => (chunk.segmentId, chunk.region)) ++
        ownersOf (records.insert chunk.segmentId chunk.region)).Perm
          ((chunk :: rest).map (fun chunk => (chunk.segmentId, chunk.region)) ++
            ownersOf records) := by
      rw [inserted]
      exact perm_middle
    exact (ih (separate.subperm moved.subperm)).trans moved

theorem stored_withRecords (state : RealClient) (kind : MemoryKind) (extra : List (String × Region))
    (owners : (ownersOf records).Perm (extra ++ ownersOf (state.records kind))) :
    ((state.withRecords kind records).stored text).Perm (extra ++ state.stored text) := by
  cases kind with
  | mapped =>
    have placed := (owners.append_right (ownersOf state.allocatedSegmentRecords)).append_right
      (state.setupSegments.map fun segment => (text.uuidToString segment.1, segment.2))
    simpa only [RealClient.stored, RealClient.records, RealClient.withRecords,
      append_assoc] using placed
  | allocated =>
    have placed := ((owners.append_left (ownersOf state.mountedSegmentRecords)).trans
      (perm_append_comm_assoc ..)).append_right
      (state.setupSegments.map fun segment => (text.uuidToString segment.1, segment.2))
    simpa only [RealClient.stored, RealClient.records, RealClient.withRecords,
      append_assoc] using placed

theorem withRecords_eq (state : RealClient) (kind : MemoryKind)
    (records : AList fun _ : String => Region) :
    ∃ mapped allocated, ∀ client control taken,
      RealClient.withRecords
          { state with client := client, control := control, taken := taken } kind records =
        { state with
          client := client
          control := control
          taken := taken
          mountedSegmentRecords := mapped
          allocatedSegmentRecords := allocated } := by
  cases kind with
  | mapped => exact ⟨records, state.allocatedSegmentRecords, fun _ _ _ => rfl⟩
  | allocated => exact ⟨state.mountedSegmentRecords, records, fun _ _ _ => rfl⟩

theorem withRecords_releases (state : RealClient) (kind : MemoryKind)
    (records : AList fun _ : String => Region) :
    (state.withRecords kind records).releases = state.releases := by
  cases kind <;> rfl

theorem Sound.reduces_leave (sound : Sound text limits state) (left : state.leave = some next) :
    Reduces text limits state next ∧ next.releases = state.releases := by
  unfold RealClient.leave at left
  split at left
  · rename_i kind chunk mounted out mounting
    cases left
    have owners : state.owners text =
        mounted.map (fun chunk => (chunk.segmentId, chunk.region)) ++ state.stored text := by
      simp [RealClient.owners, mounting, Control.owners, Control.chunks, Control.toCleanup]
    have separate : Separate Region.Apart
        (mounted.map (fun chunk => (chunk.segmentId, chunk.region)) ++
          ownersOf (state.records kind)) :=
      sound.separate.subperm
        (owners ▸ ((ownersOf_records_sublist).append_left _).subperm)
    have stored := @stored_withRecords text _ state kind _ (ownersOf_foldl_insert separate)
    rw [← owners] at stored
    obtain ⟨mapped, allocated, same⟩ := withRecords_eq state kind (mounted.foldl
      (fun records chunk => records.insert chunk.segmentId chunk.region) (state.records kind))
    rw [same] at stored ⊢
    exact ⟨sound.reduces_of_perm stored rfl (fun _ _ held => held) sound.exclusive sound.pending
      (by simp [RealClient.reply, Control.chunks]) (by simp [RealClient.reply, Control.toCleanup])
      (fun _ present => .inl present) (by simp [RealClient.reply, Control.toUnmount]) trivial, rfl⟩
  · rename_i rolling
    cases left
    exact ⟨sound.reduces_fresh (by rw [rolling]; rfl) rfl rfl (by simp [Control.toUnmount]) trivial,
      rfl⟩
  · rename_i unmounting
    cases left
    exact ⟨sound.reduces_fresh (by rw [unmounting]; rfl) rfl rfl (by simp [Control.toUnmount])
      trivial, rfl⟩
  · cases left

/-! ## Unmounting -/

theorem stored_eraseRecord (found : (state.records kind).lookup segmentId = some region) :
    (state.stored text).Perm ((segmentId, region) ::
      (state.withRecords kind ((state.records kind).erase segmentId)).stored text) := by
  have erased := ownersOf_erase found
  cases kind with
  | mapped =>
    exact stored_withRecords
      (state.withRecords .mapped ((state.records .mapped).erase segmentId)) .mapped
      [(segmentId, region)] erased
  | allocated =>
    exact stored_withRecords
      (state.withRecords .allocated ((state.records .allocated).erase segmentId)) .allocated
      [(segmentId, region)] erased

/-- The grace period is over for the segment: it moves to those on their way out. -/
theorem holds_beginGracefulUnmount {client : ClientState MemoryKind} {id other : UUID}
    {segment : Region} {callback : Option MemoryKind}
    (found : client.mountedSegments.lookup id = some segment)
    (exclusive : id ∉ client.gracefullyUnmountingSegments)
    (held : (client.beginGracefulUnmount id segment callback).holds other region) :
    client.holds other region := by
  by_cases same : other = id
  · subst same
    rcases held with mounted | unmounting
    · exact absurd rfl (AList.mem_erase.mp (mem_of_lookup mounted)).1
    · simp only [ClientState.beginGracefulUnmount, if_neg exclusive,
        AList.lookup_insert] at unmounting
      exact .inl (found.trans unmounting)
  · refine held.imp (fun mounted => ?_) fun unmounting => ?_
    · exact (AList.lookup_erase_ne same).symm.trans mounted
    · simp only [ClientState.beginGracefulUnmount, if_neg exclusive,
        AList.lookup_insert_ne same] at unmounting
      exact unmounting

/-- What one round of an unmount does: nothing, a move to those on their way out, or an
immediate unmount whose record, if it is there, is handed to the call. -/
theorem unmountNext_cases (stepped : state.unmountNext answers = some next) :
    ∃ kind gracePeriodMs firstError segmentId id rest toCleanup,
      state.control = .unmounting kind gracePeriodMs firstError ((segmentId, id) :: rest)
        toCleanup ∧
      ((∃ error, next =
          { state with
            control := .unmounting kind gracePeriodMs error rest toCleanup }) ∨
        (∃ segment callback, state.client.mountedSegments.lookup id = some segment ∧
          next =
            { state with
              client := state.client.beginGracefulUnmount id segment callback
              control := .unmounting kind gracePeriodMs firstError rest toCleanup }) ∨
        (∃ registered, id ∈ state.client.mountedSegments ∧
          (next =
              { state with
                client := state.client.dropMounted id registered
                control := .unmounting kind gracePeriodMs firstError rest toCleanup } ∨
            ∃ record, (state.records kind).lookup segmentId = some record ∧
              next =
                ({ state with
                  client := state.client.dropMounted id registered
                  control := .unmounting kind gracePeriodMs firstError rest
                    (toCleanup ++ [(segmentId, record)]) } : RealClient).withRecords kind
                  ((state.records kind).erase segmentId)))) := by
  unfold RealClient.unmountNext at stepped
  split at stepped
  swap
  · cases stepped
  rename_i kind gracePeriodMs firstError segmentId id rest toCleanup unmounting
  refine ⟨kind, gracePeriodMs, firstError, segmentId, id, rest, toCleanup, unmounting, ?_⟩
  dsimp only at stepped
  cases found : state.client.mountedSegments.lookup id with
  | none =>
    have refused : ∀ callback, unmountSegmentById answers state.client id gracePeriodMs callback =
        (.error .invalidParams, state.client) := by
      intro callback
      simp [unmountSegmentById, found]
    rw [refused] at stepped
    exact .inl ⟨_, (Option.some.inj stepped).symm⟩
  | some segment =>
    by_cases immediate : gracePeriodMs = 0
    · subst immediate
      rcases unmountSegmentById_immediate answers
        (if 0 ≠ 0 then some kind else none) found with ⟨-, error, kept⟩ | ⟨-, erased⟩
      · rw [kept] at stepped
        exact .inl ⟨_, (Option.some.inj stepped).symm⟩
      · rw [erased] at stepped
        refine .inr (.inr ⟨(state.client.unregister segment.base answers.unregister).registered,
          mem_of_lookup found, ?_⟩)
        simp only [if_true] at stepped
        split at stepped
        · exact .inl (Option.some.inj stepped).symm
        · rename_i record located
          refine .inr ⟨record, ?_, ?_⟩
          · cases kind <;> exact located
          · cases kind <;> exact (Option.some.inj stepped).symm
    · cases acknowledged : answers.gracefulUnmountSegment with
      | error error =>
        have refused : ∀ callback, unmountSegmentById answers state.client id gracePeriodMs
            callback = (.error error, state.client) := by
          intro callback
          simp [unmountSegmentById, found, immediate, acknowledged]
        rw [refused] at stepped
        exact .inl ⟨_, (Option.some.inj stepped).symm⟩
      | ok =>
        have accepted : ∀ callback, unmountSegmentById answers state.client id gracePeriodMs
            callback = (.ok (), state.client.beginGracefulUnmount id segment callback) := by
          intro callback
          simp [unmountSegmentById, found, immediate, acknowledged]
        rw [accepted] at stepped
        simp only [if_neg immediate] at stepped
        exact .inr (.inl ⟨segment, _, rfl, (Option.some.inj stepped).symm⟩)

variable (sound : Sound text limits state)

include sound

theorem Sound.reduces_unmountNext (stepped : state.unmountNext answers = some next) :
    Reduces text limits state next ∧ next.releases = state.releases := by
  obtain ⟨kind, gracePeriodMs, firstError, segmentId, id, rest, toCleanup, unmounting, outcome⟩ :=
    unmountNext_cases stepped
  have control : state.control.owners = toCleanup := by rw [unmounting]; rfl
  have named : segmentId = text.uuidToString id :=
    sound.selected (segmentId, id) (by rw [unmounting]; exact mem_cons_self)
  have selected : ∀ entry ∈ rest, entry.1 = text.uuidToString entry.2 := fun entry present =>
    sound.selected entry (by rw [unmounting]; exact mem_cons_of_mem _ present)
  have doomed : ∀ owner ∈ toCleanup, owner ∈ state.control.toCleanup := by
    rw [unmounting]
    exact fun _ present => present
  have same : ∀ error rest, ((Control.unmounting kind gracePeriodMs error rest toCleanup).owners ++
      state.stored text).Perm (state.owners text) := by
    intro error rest
    rw [RealClient.owners, control]
    exact .refl _
  rcases outcome with ⟨error, rfl⟩ | ⟨segment, callback, found, rfl⟩ | ⟨registered, present, moved⟩
  · exact ⟨sound.reduces_of_perm (same _ _) rfl (fun _ _ held => held) sound.exclusive
      sound.pending (by simp [Control.chunks]) (fun _ present => .inl (doomed _ present))
      (fun _ present => .inl present) selected trivial, rfl⟩
  · have exclusive := sound.exclusive id (mem_of_lookup found)
    refine ⟨sound.reduces_of_perm (same _ _) rfl
      (fun _ _ held => holds_beginGracefulUnmount found exclusive held) ?_ ?_
      (by simp [Control.chunks])
      (fun _ present => .inl (doomed _ present)) (fun _ present => .inl present) selected trivial,
      rfl⟩
    · intro other held going
      obtain ⟨different, mounted⟩ := AList.mem_erase.mp held
      exact (mem_beginGracefulUnmount.mp going).elim different (sound.exclusive other mounted)
    · intro other stored
      obtain ⟨value, located⟩ := exists_lookup_of_mem stored
      refine mem_beginGracefulUnmount.mpr ?_
      exact (lookup_beginGracefulUnmount located).imp And.left
        fun old => sound.pending other (mem_of_lookup old)
  · have gone : (state.client.dropMounted id registered).Gone id :=
      gone_dropMounted registered (sound.exclusive id present)
    have exclusive : ∀ other ∈ (state.client.dropMounted id registered).mountedSegments,
        other ∉ state.client.gracefullyUnmountingSegments :=
      fun other held => sound.exclusive other (AList.mem_erase.mp held).2
    rcases moved with rfl | ⟨record, found, rfl⟩
    · exact ⟨sound.reduces_of_perm (same _ _) rfl (fun _ _ held => holds_dropMounted held) exclusive
        sound.pending (by simp [Control.chunks]) (fun _ present => .inl (doomed _ present))
        (fun _ present => .inl present) selected trivial, rfl⟩
    · have owners := (@stored_eraseRecord text _ _ _ _ found).symm.append_left toCleanup
      obtain ⟨mapped, allocated, same⟩ := withRecords_eq state kind
        ((state.records kind).erase segmentId)
      rw [same, append_cons] at owners
      rw [same]
      refine ⟨sound.reduces_of_perm ?_ rfl (fun _ _ held => holds_dropMounted held) exclusive
        sound.pending (by simp [Control.chunks]) ?_ (fun _ held => .inl held) selected trivial, rfl⟩
      · unfold RealClient.owners
        rw [control]
        exact owners
      · intro owner inside
        refine (mem_append.mp inside).imp (doomed owner) fun new other same => ?_
        obtain rfl := mem_singleton.mp new
        obtain rfl : id = other := text.uuidToString_injective (named.symm.trans same)
        exact gone

/-! ## Releasing -/

theorem Sound.cleanupNext (stepped : state.cleanupNext = some next) :
    Reduces text limits state next ∧
      Releases (fun release => release.Unheld ∧ ¬ release.StillRegistered) state next := by
  unfold RealClient.cleanupNext at stepped
  split at stepped
  swap
  · cases stepped
  rename_i kind gracePeriodMs firstError segmentId record rest unmounting
  cases stepped
  have owners : state.owners text = (segmentId, record) :: (rest ++ state.stored text) := by
    rw [RealClient.owners, unmounting]
    rfl
  have owner : (segmentId, record) ∈ state.owners text := by rw [owners]; exact mem_cons_self
  obtain ⟨id, -, rfl⟩ := sound.named _ owner
  have gone := sound.doomed (text.uuidToString id, record)
    (by rw [unmounting]; exact mem_cons_self) id rfl
  refine ⟨.release ?_ _ _, releases_release rfl ⟨?_, ?_⟩⟩
  · refine
      { owners := by rw [owners]; exact (sublist_cons_self _ _).subperm
        generated := rfl
        holds := fun _ _ held => held
        kept := fun other memory held => ?_
        exclusive := sound.exclusive
        pending := sound.pending
        inFlight := by simp [Control.chunks]
        doomed := fun owner present =>
          .inl (by rw [unmounting]; exact mem_cons_of_mem _ present)
        taken := fun _ present => .inl present
        selected := by simp [Control.toUnmount]
        sized := trivial }
    exact sound.kept_of_released (.of_eq owners) (fun _ _ held => held) gone held
  · exact fun _ _ held => sound.apart_of_gone owner (fun _ _ held => held) gone held
  · rintro ⟨prior, absent, -⟩
    cases absent

theorem Sound.finishTimer (id : UUID) (unregister : UnregisterOutcome) :
    Reduces text limits state (state.finishTimer id unregister) := by
  unfold RealClient.finishTimer
  rw [finishGracefulUnmount_eq]
  have holds : ∀ other region,
      (ClientState.holds { state.client with
        gracefullyUnmountingSegments := state.client.gracefullyUnmountingSegments.erase id
        cleanupCallbacks := state.client.cleanupCallbacks.erase id
        registered := state.client.registeredAfter id unregister } other region) →
      state.client.holds other region := by
    intro other region held
    refine held.imp_right fun unmounting => ?_
    have different := (AList.mem_erase.mp (mem_of_lookup unmounting)).1
    exact (AList.lookup_erase_ne different).symm.trans unmounting
  refine sound.reduces_of_perm (.refl _) rfl holds ?_ ?_ ?_ (fun _ present => .inl present) ?_
    sound.selected sound.sized
  · exact fun other held going => sound.exclusive other held (AList.mem_erase.mp going).2
  · intro other stored
    obtain ⟨different, old⟩ := AList.mem_erase.mp stored
    exact AList.mem_erase.mpr ⟨different, sound.pending other old⟩
  · intro chunk present
    have flying := sound.inFlight chunk present
    refine ⟨flying.nonnull, flying.mounted, ?_⟩
    unfold ClientState.registeredAfter
    cases located : state.client.gracefullyUnmountingSegments.lookup id with
    | none => exact flying.registered
    | some segment =>
      -- a chunk in hand is mounted, so its memory is not that of the segment that goes
      have owner : (chunk.segmentId, chunk.region) ∈ state.owners text :=
        mem_append_left _ (mem_append_left _ (mem_map.mpr ⟨chunk, present, rfl⟩))
      have other := sound.held id segment (.inr located)
      have apart : chunk.region.Apart segment := by
        refine sound.separate.apart_of_ne owner other fun same => ?_
        exact sound.exclusive id (mem_of_lookup (flying.mounted id same)) (mem_of_lookup located)
      have elsewhere := Region.base_ne_of_apart apart (sound.nonempty _ owner)
        (sound.nonempty _ other)
      exact (count_unregister elsewhere).symm ▸ flying.registered
  · intro entry present
    refine (mem_append.mp present).imp_right fun new => ?_
    cases stored : state.client.cleanupCallbacks.lookup id with
    | none => simp [stored] at new
    | some kind =>
      rw [stored] at new
      cases mem_singleton.mp new
      have going := sound.pending id (mem_of_lookup stored)
      obtain ⟨segment, located⟩ := exists_lookup_of_mem going
      obtain ⟨other, generated, same⟩ := sound.named _ (sound.held id segment (.inr located))
      refine ⟨⟨fun held => sound.exclusive id held going, fun held => ?_⟩, ?_⟩
      · exact (AList.mem_erase.mp held).1 rfl
      · exact text.uuidToString_injective same ▸ generated

omit sound in
theorem runCallback_eq {index : Nat} (stepped : state.runCallback text index = some next) :
    ∃ kind id, (kind, id) ∈ state.taken ∧
      next = ({ state with taken := state.taken.eraseIdx index }
        : RealClient).releaseSegmentRecord kind (text.uuidToString id) := by
  unfold RealClient.runCallback at stepped
  cases found : state.taken[index]? with
  | none => simp [found] at stepped
  | some entry =>
    obtain ⟨kind, id⟩ := entry
    rw [found] at stepped
    refine ⟨kind, id, mem_of_getElem? found, ?_⟩
    cases kind <;> exact (Option.some.inj stepped).symm

theorem Sound.runCallback {index : Nat} (stepped : state.runCallback text index = some next) :
    Reduces text limits state next ∧
      Releases (fun release => release.Unheld ∧ ¬ release.StillRegistered) state next := by
  obtain ⟨kind, id, called, rfl⟩ := runCallback_eq stepped
  obtain ⟨gone, -⟩ := sound.taken (kind, id) called
  have taken : ∀ entry ∈ state.taken.eraseIdx index, entry ∈ state.taken :=
    fun _ present => mem_of_mem_eraseIdx present
  have records : RealClient.records { state with taken := state.taken.eraseIdx index } kind =
      state.records kind := by
    cases kind <;> rfl
  unfold RealClient.releaseSegmentRecord
  rw [records]
  cases found : (state.records kind).lookup (text.uuidToString id) with
  | none =>
    refine ⟨?_, releases_of_eq rfl⟩
    exact sound.reduces_of_perm (.refl _) rfl (fun _ _ held => held) sound.exclusive
      sound.pending sound.inFlight (fun _ present => .inl present)
      (fun entry present => .inl (taken entry present)) sound.selected sound.sized
  | some record =>
    have owners := ((@stored_eraseRecord text _ _ _ _ found).append_left
      state.control.owners).trans perm_middle
    obtain ⟨mapped, allocated, same⟩ := withRecords_eq state kind
      ((state.records kind).erase (text.uuidToString id))
    rw [same] at owners
    have owner := owners.symm.subset mem_cons_self
    dsimp only
    rw [same]
    refine ⟨.release ?_ _ _, releases_release rfl ⟨?_, ?_⟩⟩
    · exact
        { owners := ((sublist_cons_self _ _).subperm).trans owners.symm.subperm
          generated := rfl
          holds := fun _ _ held => held
          kept := fun _ _ held =>
            sound.kept_of_released owners (fun _ _ held => held) gone held
          exclusive := sound.exclusive
          pending := sound.pending
          inFlight := sound.inFlight
          doomed := fun _ present => .inl present
          taken := fun entry present => .inl (taken entry present)
          selected := sound.selected
          sized := sound.sized }
    · exact fun _ _ held => sound.apart_of_gone owner (fun _ _ held => held) gone held
    · rintro ⟨prior, absent, -⟩
      cases absent

end Mooncake.Segment
