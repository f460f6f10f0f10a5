import Mooncake.Dummy.Marks

/-!
# A connected dummy client has its memory mapped

The real client answers a ping with OK without looking at the memory of the client, so a
client that was forgotten, or that talks to another real client than before, goes on as if
nothing had happened.  Where no OK hides such a loss, every registered memory is mapped
whenever the client considers itself connected.
-/

namespace Mooncake.Dummy.Heartbeat

open List
open Segment (UUID)
open Shm Library.Runs

namespace Link

variable {link : Link}

/-! ## The application -/

variable {base : UInt64} {next : Link} {delivered : Bool} {generation : Nat}
  {status : Expected ClientStatus}

section Steps

variable (kept : link.Kept)

include kept

theorem Kept.allocate {size : UInt64} {fd : Int}
    (stepped : link.allocate base size fd = some next) :
    next.Kept := by
  unfold Link.allocate at stepped
  split at stepped
  · obtain rfl := Option.some.inj stepped
    refine ⟨fun shm present mark marked => ?_, fun shm present marked => ?_, kept.bounded,
      kept.fresh, kept.trusted, kept.looping, kept.setup, fun index shm found registered => ?_⟩
    · rcases mem_append.mp present with old | new
      · exact kept.marked shm old mark marked
      · rw [mem_singleton.mp new] at marked
        cases marked
    · rcases mem_append.mp present with old | new
      · exact kept.mapped shm old marked
      · rw [mem_singleton.mp new] at marked
        cases marked
    · rw [getElem?_append] at found
      split at found
      · exact kept.covered index shm found registered
      · rw [mem_singleton.mp (mem_of_getElem? found)] at registered
        cases registered
  · cases stepped

theorem Kept.beginRegister (shm : ShmSegment) {setup : Bool}
    (stopped : setup = true → link.pingThread = .stopped) :
    (link.beginRegister shm setup).Kept := by
  have free : ∀ app, (InSetup app → setup = true) → Kept { link with app := app } :=
    fun app only => kept.ofApp fun inside => stopped (only inside)
  unfold Link.beginRegister
  split <;> apply free <;> cases setup <;> simp [InSetup]

theorem Kept.setupLocal (stepped : link.setupLocal base = some next) :
    next.Kept := by
  unfold Link.setupLocal at stepped
  split at stepped
  · rename_i guard
    obtain ⟨shm, -, rfl⟩ := Option.map_eq_some_iff.mp stepped
    exact kept.beginRegister shm fun _ => guard.2
  · cases stepped

theorem Kept.registerBuffer {buffer size : UInt64}
    (stepped : link.registerBuffer buffer size = some next) : next.Kept := by
  unfold Link.registerBuffer at stepped
  split at stepped
  · split at stepped
    · exact Option.some.inj stepped ▸ kept
    · split at stepped
      · exact Option.some.inj stepped ▸ kept
      · split at stepped
        · exact Option.some.inj stepped ▸ kept
        · split at stepped
          · exact Option.some.inj stepped ▸ kept
          · obtain rfl := Option.some.inj stepped
            exact kept.beginRegister _ fun impossible => by cases impossible
  · cases stepped

omit kept in
/-- A registration is refused, or its memory is mapped and its segments are marked. -/
theorem serveRegister_cases (link : Link) (shm : ShmSegment) (isLocal : Bool)
    (answers : RegisterAnswers) :
    ∃ real : RealClient, real.generation = link.real.generation ∧
      (∀ base, link.Maps base → MapsBase real.shms link.config.clientId base) ∧
      ((∃ status, status ≠ some 0 ∧
          link.serveRegister shm isLocal answers = (status, { link with real := real })) ∨
        MapsBase real.shms link.config.clientId shm.base ∧
          link.serveRegister shm isLocal answers =
            (some 0, Link.updateShms { link with real := real } shm.base fun other =>
              { other with mark := some link.losses })) := by
  have maps := fun base => @handleIpcShmRegister_maps link.config.clientId base link.real
    link.config.maxMrSize ⟨link.config.clientId, shm.base, shm.size, isLocal⟩ answers
  unfold Link.serveRegister
  generalize link.real.handleIpcShmRegister link.config.maxMrSize
    ⟨link.config.clientId, shm.base, shm.size, isLocal⟩ answers = handled at maps
  obtain ⟨status, real⟩ := handled
  refine ⟨real, (maps 0).1, fun base => (maps base).2.1, ?_⟩
  by_cases answered : status = some 0
  · refine .inr ⟨(maps 0).2.2 answered, ?_⟩
    dsimp only
    rw [if_pos answered, answered]
  · refine .inl ⟨status, answered, ?_⟩
    dsimp only
    rw [if_neg answered]

theorem Kept.mark (maps : link.Maps base) :
    (link.updateShms base fun shm => { shm with mark := some link.losses }).Kept :=
  kept.updateShms fun _ _ same => ⟨same, rfl, maps⟩

variable {answers : RegisterAnswers} {other : Nat} {answer : Option Nat}

theorem Kept.serveApp (stepped : link.serveApp answers = some next) : next.Kept := by
  unfold Link.serveApp at stepped
  split at stepped
  · rename_i base setup calling
    obtain ⟨shm, -, rfl⟩ := Option.map_eq_some_iff.mp stepped
    have stopped : ∀ status, InSetup (.answered base setup status) →
        link.pingThread = .stopped := by
      intro status inside
      apply kept.setup
      rw [calling]
      cases setup <;> exact inside
    obtain ⟨real, same, more, ⟨status, -, served⟩ | ⟨maps, served⟩⟩ :=
      serveRegister_cases link shm (setup || shm.isLocal) answers
    · rw [served]
      exact (kept.ofReal same more).ofApp (stopped status)
    · rw [served]
      exact ((kept.ofReal same more).mark maps).ofApp (stopped _)
  · cases stepped

theorem Kept.filterShms (stopped : link.pingThread = .stopped) (keeps : ShmSegment → Bool) :
    Kept { link with shms := link.shms.filter keeps } := by
  refine ⟨fun shm present => kept.marked shm (mem_of_mem_filter present),
    fun shm present => kept.mapped shm (mem_of_mem_filter present), kept.bounded,
    kept.fresh, kept.trusted, kept.looping, kept.setup, fun index shm found registered _ => ?_⟩
  obtain ⟨old, was⟩ := mem_iff_getElem?.mp (mem_of_mem_filter (mem_of_getElem? found))
  exact kept.covered old shm was registered (by rw [stopped]; trivial)

theorem Kept.finishRegister {setup succeeded : Bool}
    (stopped : setup = true → link.pingThread = .stopped)
    (current : succeeded = true →
      ∀ shm ∈ link.shms, shm.base = base → shm.mark = some link.losses) :
    (link.finishRegister base setup succeeded).Kept := by
  unfold Link.finishRegister
  split
  · rename_i noted
    apply Kept.ofApp _ False.elim
    apply kept.updateShms
    intro shm present same
    have marked := current noted shm present same
    exact ⟨same, marked, same ▸ kept.mapped shm present marked⟩
  · split
    · rename_i failed
      exact (kept.filterShms (stopped failed) _).ofApp False.elim
    · exact kept.ofApp False.elim

theorem Kept.receiveApp (careful : link.Careful (.receiveApp delivered))
    (stepped : link.receiveApp delivered = some next) : next.Kept := by
  have inside : ∀ setup, (setup = true → InSetup link.app) →
      setup = true → link.pingThread = .stopped :=
    fun _ only yes => kept.setup (only yes)
  unfold Link.receiveApp at stepped
  split at stepped
  · rename_i base setup calling
    split at stepped
    · cases stepped
    · obtain rfl := Option.some.inj stepped
      refine kept.finishRegister (inside setup ?_) fun impossible => by cases impossible
      rintro rfl
      rw [calling]
      trivial
  · rename_i base setup status calling
    obtain rfl := Option.some.inj stepped
    refine kept.finishRegister (inside setup ?_) fun succeeded => ?_
    · rintro rfl
      rw [calling]
      trivial
    · rw [Bool.and_eq_true, decide_eq_true_iff] at succeeded
      obtain ⟨rfl, rfl⟩ := succeeded
      exact careful base setup calling
  · cases stepped

/-! ## The ping thread -/

theorem Kept.notInSetup (running : link.pingThread ≠ .stopped) :
    ¬ InSetup link.app :=
  fun inside => running (kept.setup inside)

theorem Kept.startPing (stepped : link.startPing = some next) : next.Kept := by
  unfold Link.startPing at stepped
  split at stepped
  · rename_i guard
    obtain rfl := Option.some.inj stepped
    refine kept.move ?_ False.elim rfl fun _ _ _ _ _ => .inl ?_
    · rw [guard.1]
      exact id
    · rw [guard.2]
      trivial
  · cases stepped

theorem Kept.beginRound (idle : ¬ InSetup link.app) (unknown : link.lastPing = none) :
    Kept { link with pingThread := .scanning 0, since := link.losses } := by
  refine ⟨kept.marked, kept.mapped, Nat.le_refl _, fun generation trusts => ?_, fun _ => rfl,
    fun _ => unknown, fun setup => (idle setup).elim, fun index _ _ _ covers => ?_⟩
  · exact kept.fresh generation (.inl (trusts.resolve_right fun impossible => by cases impossible))
  · exact absurd covers (Nat.not_lt_zero index)

theorem Kept.fail (idle : ¬ InSetup link.app) {lastPing : Option Nat} (unknown : lastPing = none)
    (connected : Bool) :
    Kept { link with lastPing := lastPing, connected := connected, pingThread := .retrying } := by
  refine kept.ofPing idle (fun _ => unknown) (fun generation relies => ?_)
    fun _ _ _ _ covers => covers.elim
  rw [unknown] at relies
  rcases relies with impossible | impossible <;> cases impossible

theorem Kept.wake (stepped : link.wake = some next) :
    next.Kept := by
  unfold Link.wake at stepped
  split at stepped
  · rename_i asleep
    obtain rfl := Option.some.inj stepped
    refine kept.move (kept.notInSetup (by simp [asleep])) False.elim rfl fun _ _ _ _ _ => .inl ?_
    rw [asleep]
    trivial
  · rename_i asleep
    obtain rfl := Option.some.inj stepped
    refine kept.beginRound (kept.notInSetup (by simp [asleep])) (kept.looping ?_)
    rw [asleep]
    trivial
  · cases stepped

theorem Kept.know {phase : PingPhase} (idle : ¬ InSetup link.app) (trusted : link.Trusts generation)
    (behind : ∀ index, Covers link.pingThread index)
    (quiet : okInFlight phase = none ∧ ¬ InLoop phase) {connected : Bool} :
    Kept { link with
      lastPing := some generation, connected := connected, pingThread := phase } := by
  refine kept.ofPing idle (fun inside => (quiet.2 inside).elim) (fun other relies => .inl ?_)
    fun index _ _ _ _ => .inl (behind index)
  rcases relies with known | flies
  · exact Option.some.inj known ▸ trusted
  · rw [quiet.1] at flies
    cases flies

omit kept in
theorem okAnswer_some (answered : okAnswer delivered status generation = some other) :
    status = .ok .ok ∧ generation = other := by
  unfold okAnswer at answered
  split at answered
  · rename_i arrived
    exact ⟨arrived.2, Option.some.inj answered⟩
  · cases answered

theorem Kept.afterPing (idle : ¬ InSetup link.app) (behind : ∀ index, Covers link.pingThread index)
    (trusts : ∀ generation, answer = some generation → link.Trusts generation) :
    (link.afterPing answer).Kept := by
  cases answer with
  | some generation =>
    exact kept.know idle (trusts generation rfl) behind ⟨rfl, id⟩
  | none => exact (kept.fail idle rfl false).beginRound idle rfl

theorem Kept.afterCheck (idle : ¬ InSetup link.app) (behind : ∀ index, Covers link.pingThread index)
    (unknown : link.lastPing = none)
    (trusts : ∀ generation, answer = some generation → link.Trusts generation) :
    (link.afterCheck answer).Kept := by
  cases answer with
  | some generation => exact kept.know idle (trusts generation rfl) behind ⟨rfl, id⟩
  | none => exact kept.fail idle unknown link.connected

omit kept in
theorem ping_real (real : RealClient) (clientId : UUID) (answers : PingAnswers) :
    (real.ping clientId answers).2.generation = real.generation ∧
      (real.ping clientId answers).2.shms = real.shms := by
  unfold RealClient.ping
  split
  · exact ⟨rfl, rfl⟩
  · split <;> exact ⟨rfl, rfl⟩

omit kept in
/-- An OK says that the client object is there and healthy, and that the queue had room. -/
theorem ping_ok {real : RealClient} {clientId : UUID} {answers : PingAnswers}
    (answered : (real.ping clientId answers).1 = .ok .ok) :
    answers.clientReady = true ∧ answers.pushed = true ∧ answers.pingHealthy = true := by
  unfold RealClient.ping at answered
  split at answered
  · cases answered
  · split at answered
    · cases answered
    · split at answered
      · simp_all
      · cases answered

omit kept in
theorem okInFlight_pinged (flies : okInFlight (.pinged status generation) = some other) :
    status = .ok .ok ∧ generation = other :=
  match status, flies with
  | .ok .ok, flies => ⟨rfl, Option.some.inj flies⟩

omit kept in
theorem okInFlight_checked (flies : okInFlight (.checked status generation) = some other) :
    status = .ok .ok ∧ generation = other :=
  match status, flies with
  | .ok .ok, flies => ⟨rfl, Option.some.inj flies⟩

theorem Kept.servePing {answers : PingAnswers} (careful : link.Careful (.servePing answers))
    (stepped : link.servePing answers = some next) :
    next.Kept := by
  have same := ping_real link.real link.config.clientId answers
  have sound : (link.real.ping link.config.clientId answers).1 = .ok .ok →
      link.losses = link.since := fun answered =>
    careful (ping_ok answered).1 (ping_ok answered).2.1 (ping_ok answered).2.2
  unfold Link.servePing at stepped
  generalize link.real.ping link.config.clientId answers = answer at same sound stepped
  obtain ⟨status, real⟩ := answer
  have served : Kept { link with real := real } :=
    kept.ofReal same.1 fun base maps => by rw [same.2]; exact maps
  dsimp only at stepped
  split at stepped
  · rename_i phase
    obtain rfl := Option.some.inj stepped
    refine served.ofPing (kept.notInSetup (by simp [phase])) False.elim
      (fun generation relies => relies.imp .inl fun flies => ?_)
      fun _ _ _ _ _ => .inl (by rw [phase]; trivial)
    obtain ⟨healthy, rfl⟩ := okInFlight_pinged flies
    exact ⟨same.1.symm, sound healthy⟩
  · rename_i phase
    obtain rfl := Option.some.inj stepped
    refine served.ofPing (kept.notInSetup (by simp [phase]))
      (fun _ => kept.looping (by rw [phase]; trivial))
      (fun generation relies => relies.imp .inl fun flies => ?_)
      fun _ _ _ _ _ => .inl (by rw [phase]; trivial)
    obtain ⟨healthy, rfl⟩ := okInFlight_checked flies
    exact ⟨same.1.symm, sound healthy⟩
  · cases stepped

theorem Kept.receivePing (stepped : link.receivePing delivered = some next) :
    next.Kept := by
  have silent : ∀ generation, (none : Option Nat) = some generation → link.Trusts generation :=
    fun _ impossible => by cases impossible
  unfold Link.receivePing at stepped
  split at stepped
  · rename_i phase
    split at stepped
    · cases stepped
    · obtain rfl := Option.some.inj stepped
      refine kept.afterPing (kept.notInSetup (by simp [phase])) (fun _ => ?_) silent
      rw [phase]
      trivial
  · rename_i status generation phase
    obtain rfl := Option.some.inj stepped
    refine kept.afterPing (kept.notInSetup (by simp [phase])) (fun _ => ?_)
      fun other answered => .inr ?_
    · rw [phase]
      trivial
    · obtain ⟨rfl, rfl⟩ := okAnswer_some answered
      rw [phase, okInFlight]
  · rename_i phase
    split at stepped
    · cases stepped
    · obtain rfl := Option.some.inj stepped
      refine kept.afterCheck (kept.notInSetup (by simp [phase])) (fun _ => ?_)
        (kept.looping ?_) silent <;> rw [phase] <;> trivial
  · rename_i status generation phase
    obtain rfl := Option.some.inj stepped
    refine kept.afterCheck (kept.notInSetup (by simp [phase])) (fun _ => ?_) (kept.looping ?_)
      fun other answered => .inr ?_
    · rw [phase]
      trivial
    · rw [phase]
      trivial
    · obtain ⟨rfl, rfl⟩ := okAnswer_some answered
      rw [phase, okInFlight]
  · cases stepped

theorem Kept.scan (stepped : link.scan = some next) :
    next.Kept := by
  unfold Link.scan at stepped
  split at stepped
  · rename_i index phase
    have idle := kept.notInSetup (by simp [phase])
    have unknown : link.lastPing = none := kept.looping (by rw [phase]; trivial)
    split at stepped
    · rename_i beyond
      obtain rfl := Option.some.inj stepped
      refine kept.move idle (fun _ => unknown) rfl fun other shm found _ _ => .inl ?_
      rw [phase]
      exact Nat.lt_of_lt_of_le (List.getElem?_eq_some_iff.mp found).1
        (getElem?_eq_none_iff.mp beyond)
    · rename_i shm found
      split at stepped
      · rename_i skipped
        obtain rfl := Option.some.inj stepped
        refine kept.move idle (fun _ => unknown) rfl
          fun other segment there registered covers => .inl ?_
        rw [phase]
        rcases Nat.lt_or_eq_of_le (Nat.le_of_lt_succ covers) with before | rfl
        · exact before
        · rw [found] at there
          rw [← Option.some.inj there] at registered
          simp [registered] at skipped
      · split at stepped
        · exact Option.some.inj stepped ▸ kept.fail idle unknown link.connected
        · obtain rfl := Option.some.inj stepped
          refine kept.move idle (fun _ => unknown) rfl fun _ _ _ _ covers => .inl ?_
          rw [phase]
          exact covers
  · cases stepped

theorem Kept.serveRound (stepped : link.serveRound answers = some next) :
    next.Kept := by
  unfold Link.serveRound at stepped
  split at stepped
  · rename_i index phase
    obtain ⟨shm, found, rfl⟩ := Option.map_eq_some_iff.mp stepped
    have idle := kept.notInSetup (by simp [phase])
    have unknown : link.lastPing = none := kept.looping (by rw [phase]; trivial)
    obtain ⟨real, same, more, ⟨status, failed, served⟩ | ⟨maps, served⟩⟩ :=
      serveRegister_cases link shm shm.isLocal answers
    · rw [served]
      refine (kept.ofReal same more).move idle (fun _ => unknown) rfl
        fun _ _ _ _ covers => .inl ?_
      rw [phase]
      exact covers.resolve_right fun ended => failed ended.2
    · rw [served]
      refine ((kept.ofReal same more).mark maps).move idle (fun _ => unknown) rfl
        fun other segment there _ covers => ?_
      rcases covers with before | ⟨rfl, -⟩
      · refine .inl ?_
        rw [Link.updateShms, phase]
        exact before
      · rw [Link.updateShms, getElem?_map, found] at there
        refine .inr ?_
        rw [← Option.some.inj there]
        dsimp only
        rw [if_pos rfl]
        rfl
  · cases stepped

theorem Kept.receiveRound (stepped : link.receiveRound delivered = some next) :
    next.Kept := by
  unfold Link.receiveRound at stepped
  split at stepped
  · rename_i index phase
    split at stepped
    · cases stepped
    · obtain rfl := Option.some.inj stepped
      exact kept.fail (kept.notInSetup (by simp [phase]))
        (kept.looping (by rw [phase]; trivial)) link.connected
  · rename_i index status phase
    have idle := kept.notInSetup (by simp [phase])
    have unknown : link.lastPing = none := kept.looping (by rw [phase]; trivial)
    split at stepped
    · rename_i arrived
      obtain rfl := Option.some.inj stepped
      refine kept.move idle (fun _ => unknown) rfl
        fun other _ _ _ covers => .inl ?_
      rw [phase]
      rcases Nat.lt_or_eq_of_le (Nat.le_of_lt_succ covers) with before | ended
      · exact .inl before
      · exact .inr ⟨ended, arrived.2⟩
    · exact Option.some.inj stepped ▸ kept.fail idle unknown link.connected
  · cases stepped

/-! ## The real client -/

theorem Kept.expire {unregister : Nat → Bool} (careful : link.Careful (.expire unregister))
    (stepped : link.expire unregister = some next) :
    next.Kept := by
  obtain ⟨real, expired, rfl⟩ := Option.map_eq_some_iff.mp stepped
  unfold RealClient.monitorExpire at expired
  split at expired
  · rename_i monitor
    obtain rfl := Option.some.inj expired
    rw [monitor]
    exact kept.ofReal rfl fun _ maps => maps
  · rename_i client rest monitor
    obtain rfl := Option.some.inj expired
    rw [monitor]
    by_cases own : client = link.config.clientId
    · subst own
      dsimp only
      rw [if_pos rfl]
      exact kept.lose (Nat.le_refl _) (careful rest monitor)
    · dsimp only
      rw [if_neg own]
      exact kept.ofReal rfl fun _ maps => unmapShmInternal_maps (Ne.symm own) unregister maps
  · cases expired

theorem Kept.restart : link.restart.Kept := by
  apply kept.lose (Nat.le_succ _)
  intro trusts
  exact absurd (kept.fresh _ trusts) (Nat.not_succ_le_self _)

/-! ## Runs -/

theorem Kept.step {action : LinkAction} (stepped : link.step action = some next)
    (careful : link.Careful action) : next.Kept := by
  cases action with
  | tick duration =>
    obtain rfl := Option.some.inj stepped
    exact ⟨kept.marked, kept.mapped, kept.bounded, kept.fresh, kept.trusted, kept.looping,
      kept.setup, kept.covered⟩
  | allocate base size fd => exact kept.allocate stepped
  | setupLocal base => exact kept.setupLocal stepped
  | startPing => exact kept.startPing stepped
  | registerBuffer buffer size => exact kept.registerBuffer stepped
  | serveApp answers => exact kept.serveApp stepped
  | receiveApp delivered => exact kept.receiveApp careful stepped
  | wake => exact kept.wake stepped
  | servePing answers => exact kept.servePing careful stepped
  | receivePing delivered => exact kept.receivePing stepped
  | scan => exact kept.scan stepped
  | serveRound answers => exact kept.serveRound stepped
  | receiveRound delivered => exact kept.receiveRound stepped
  | otherPing client =>
    obtain rfl := Option.some.inj stepped
    exact kept.ofReal rfl fun _ maps => maps
  | monitorWake =>
    obtain ⟨real, moved, rfl⟩ := Option.map_eq_some_iff.mp stepped
    unfold RealClient.monitorWake at moved
    split at moved
    · obtain rfl := Option.some.inj moved
      exact kept.ofReal rfl fun _ maps => maps
    · cases moved
  | monitorPop =>
    obtain ⟨real, moved, rfl⟩ := Option.map_eq_some_iff.mp stepped
    unfold RealClient.monitorPop at moved
    split at moved
    · obtain rfl := Option.some.inj moved
      exact kept.ofReal rfl fun _ maps => maps
    · cases moved
  | monitorScan =>
    obtain ⟨real, moved, rfl⟩ := Option.map_eq_some_iff.mp stepped
    unfold RealClient.monitorScan at moved
    split at moved
    · obtain rfl := Option.some.inj moved
      exact kept.ofReal rfl fun _ maps => maps
    · cases moved
  | expire unregister => exact kept.expire careful stepped
  | restart => exact Option.some.inj stepped ▸ kept.restart

end Steps

/-- The client after `connect`, without memory. -/
def start (config : LinkConfig) (real : RealClient) : Link := { config := config, real := real }

theorem Kept.start (config : LinkConfig) (real : RealClient) : (Link.start config real).Kept where
  marked _ absent := by cases absent
  mapped _ absent := by cases absent
  bounded := Nat.le_refl 0
  fresh _ trusts := by rcases trusts with impossible | impossible <;> cases impossible
  trusted _ := rfl
  looping _ := rfl
  setup _ := rfl
  covered _ _ found := by cases found

/-- In every run whose steps hide no loss, a connected client has its memory mapped. -/
theorem connectedMapped_of_careful (config : LinkConfig) (real : RealClient)
    (actions : List LinkAction) (final : Link)
    (ran : run Link.step (start config real) actions = some final)
    (careful : Meets Link.step Link.Careful (start config real) actions) :
    final.ConnectedMapped := by
  have kept : final.Kept := run_invariant_of_meets Link.Kept
    (fun stepped demanded holds => holds.step stepped demanded) ran careful
    (Kept.start config real)
  exact kept.connectedMapped

/-! ### Two runs -/

/-- One client, whose pings keep it for ten ticks. -/
def oneClient : Link :=
  start { clientId := (0, 1), maxMrSize := 4096, liveTtl := 10 } { generation := 0 }

def healthyPing : PingAnswers := ⟨true, true, true⟩

def mappedAt (base : UInt64) : RegisterAnswers := ⟨some 3, mmapAt base, .success⟩

/-- The setup registers the local buffer, and the first ping is answered. -/
def setupActions : List LinkAction :=
  [.allocate 4096 64 3, .setupLocal 4096, .serveApp (mappedAt 8192), .receiveApp true, .startPing,
    .servePing healthyPing, .receivePing true]

/-- The real client restarts, and the next ping fails. -/
def recoveryActions : List LinkAction :=
  setupActions ++
    [.restart, .wake, .receivePing false, .scan, .serveRound (mappedAt 8192), .receiveRound true,
      .scan, .servePing healthyPing, .receivePing true, .servePing healthyPing, .receivePing true]

def recovered : Link where
  config := oneClient.config
  real :=
    { generation := 1
      shms := stateAfter [mapAt 4096 8192 true .success]
      pingQueue := [(0, 1), (0, 1)] }
  lastPing := some 1
  shms :=
    [{ base := 4096, size := 64, fd := 3, isLocal := true, registered := true, mark := some 1 }]
  pingThread := .sleeping
  losses := 1
  since := 1

theorem recovery_connectedMapped :
    run Link.step oneClient recoveryActions = some recovered ∧ recovered.Settled ∧
      recovered.connected = true ∧ recovered.lastPing = some recovered.real.generation ∧
      recovered.ConnectedMapped := by
  have ran : run Link.step oneClient recoveryActions = some recovered := rfl
  refine ⟨ran, ⟨rfl, rfl, rfl⟩, rfl, rfl, connectedMapped_of_careful _ _ _ _ ran ?_⟩
  refine ⟨trivial, trivial, trivial, fun _ _ _ shm present _ => ?_, trivial, fun _ _ _ => rfl,
    trivial, trivial, trivial, trivial, trivial, trivial, trivial, trivial, fun _ _ _ => rfl,
    trivial, fun _ _ _ => rfl, trivial, trivial⟩
  cases present with
  | head => rfl
  | tail _ absent => cases absent

/-- The pings stay away for too long and the monitor forgets the client.  Then a ping is
answered with OK. -/
def lateActions : List LinkAction :=
  setupActions ++
    [.monitorWake, .monitorPop, .monitorScan, .expire fun _ => true, .tick 100, .monitorWake,
      .monitorScan, .expire fun _ => true, .expire fun _ => true, .wake, .servePing healthyPing,
      .receivePing true]

def forgotten : Link where
  config := oneClient.config
  clock := 100
  real := { generation := 0, pingQueue := [(0, 1)] }
  lastPing := some 0
  shms :=
    [{ base := 4096, size := 64, fd := 3, isLocal := true, registered := true, mark := some 0 }]
  pingThread := .sleeping
  losses := 1

theorem latePing_unmapped :
    run Link.step oneClient lateActions = some forgotten ∧ ¬ forgotten.ConnectedMapped := by
  refine ⟨rfl, fun mapped => ?_⟩
  obtain ⟨shm, present, -⟩ := mapped ⟨rfl, rfl, rfl⟩ rfl rfl _ (mem_singleton.mpr rfl) rfl
  cases present

end Link

end Mooncake.Dummy.Heartbeat
