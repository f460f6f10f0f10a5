import Mooncake.Library.Rebase
import Mooncake.Read.Client

/-!
# Leases of cached query results

A query result leaves a process as the milliseconds its lease still has, and the
receiver adds them to its own reading of the common clock.  The real client answers
`batch_query` of a dummy client in this form, and the dummy client sends its cache
back in the same form with `get_into_ranges`.
-/

namespace Mooncake.Read

open Library.Keyed Library.Rebase

/-! ## The conversions -/

def ticksPerMs : Int := 1000000

structure GetReplicaListResponse where
  replicas : List Replica
  leaseTtlMs : Nat
  deriving DecidableEq, Repr

abbrev CachedQueryResultResponse := Expected GetReplicaListResponse

def remainingLeaseTtlMs (query : QueryResult) (now : Int) : Nat :=
  if query.isLeaseExpired now then 0
  else ((query.leaseTimeout - now) / ticksPerMs).toNat

def toCachedQueryResultResponse (query : Expected QueryResult) (now : Int) :
    CachedQueryResultResponse :=
  match query with
  | .error error => .error error
  | .ok query =>
    if query.isLeaseExpired now then .error .objectNotFound
    else .ok ⟨query.replicas, remainingLeaseTtlMs query now⟩

def fromCachedQueryResultResponse (cached : CachedQueryResultResponse) (now : Int) :
    Expected QueryResult :=
  match cached with
  | .error error => .error error
  | .ok value => .ok ⟨value.replicas, now + ticksPerMs * value.leaseTtlMs⟩

/-- `batch_get_query_results` of the real client; `queried` is what `BatchQuery` returns. -/
def batchGetQueryResults (client : Bool) (keys : List ObjectKey)
    (queried : List (Expected QueryResult)) (now : Int) : List CachedQueryResultResponse :=
  if !client then keys.map fun _ => .error .invalidParams
  else if queried.length ≠ keys.length then keys.map fun _ => .error .rpcFail
  else queried.map fun query => toCachedQueryResultResponse query now

/-- `batch_query` of the dummy client, on the response of its call. -/
def batchQuery (keys : List ObjectKey) (response : Expected (List CachedQueryResultResponse))
    (now : Int) : List (Expected QueryResult) :=
  match response with
  | .error error => keys.map fun _ => .error error
  | .ok cachedResults =>
    if cachedResults.length ≠ keys.length then keys.map fun _ => .error .rpcFail
    else cachedResults.map fun cached =>
      match cached with
      | .error error => .error error
      | .ok value => .ok ⟨value.replicas, now + ticksPerMs * value.leaseTtlMs⟩

abbrev QueryResultCache := AList fun _ : ObjectKey => Expected QueryResult

abbrev CachedQueryResults := AList fun _ : ObjectKey => CachedQueryResultResponse

/-- The entry of the receiver's cache; errors and expired entries are skipped. -/
def reusableQueryResult (now : Int) (cached : CachedQueryResultResponse) :
    Option (Expected QueryResult) :=
  match fromCachedQueryResultResponse cached now with
  | .error _ => none
  | .ok query => if query.isLeaseExpired now then none else some (.ok query)

def buildQueryResultCacheFromCachedResults (cachedResults : CachedQueryResults) (now : Int) :
    QueryResultCache :=
  rebuild (reusableQueryResult now) cachedResults

/-- The entry that is sent; an expired query result is skipped, an error is not. -/
def sendableQueryResult (now : Int) (query : Expected QueryResult) :
    Option CachedQueryResultResponse :=
  match query with
  | .error error => some (toCachedQueryResultResponse (.error error) now)
  | .ok query =>
    if query.isLeaseExpired now then none
    else some (toCachedQueryResultResponse (.ok query) now)

def buildCachedQueryResultsFromQueryResultCache (cache : Option QueryResultCache) (now : Int) :
    CachedQueryResults :=
  match cache with
  | none => ∅
  | some cache => rebuild (sendableQueryResult now) cache

/-! ## Round trips of one entry -/

/-- A round trip: the real client answers `batch_query`, or the dummy client sends its
cache with `get_into_ranges`. -/
inductive RoundTrip where
  | batchQuery (trip : Trip)
  | getIntoRanges (trip : Trip)
  deriving DecidableEq, Repr

def RoundTrip.trip : RoundTrip → Trip
  | .batchQuery trip => trip
  | .getIntoRanges trip => trip

/-- What a round trip makes of a query result; `none` is an entry that was skipped. -/
def RoundTrip.convert (entry : Expected QueryResult) : RoundTrip → Option (Expected QueryResult)
  | .batchQuery trip =>
    some (fromCachedQueryResultResponse (toCachedQueryResultResponse entry trip.sent)
      trip.received)
  | .getIntoRanges trip =>
    (sendableQueryResult trip.sent entry).bind (reusableQueryResult trip.received)

def convertAll (entry : Expected QueryResult) (trips : List RoundTrip) :
    Option (Expected QueryResult) :=
  trips.foldlM RoundTrip.convert entry

/-- `batch_query` converts each result on its own. -/
theorem batchQuery_converts {keys : List ObjectKey} {queried : List (Expected QueryResult)}
    (aligned : queried.length = keys.length) (trip : Trip) (index : Nat) :
    (batchQuery keys (.ok (batchGetQueryResults true keys queried trip.sent))
        trip.received)[index]? =
      queried[index]?.bind fun entry => RoundTrip.convert entry (.batchQuery trip) := by
  have answered : batchGetQueryResults true keys queried trip.sent =
      queried.map fun query => toCachedQueryResultResponse query trip.sent := by
    simp [batchGetQueryResults, aligned]
  simp only [batchQuery, answered, List.length_map, aligned, ne_eq, not_true_eq_false, if_false,
    List.getElem?_map, Option.map_map]
  cases queried[index]? with
  | none => rfl
  | some entry =>
    simp only [Option.map_some, Function.comp_apply, Option.bind_some, RoundTrip.convert,
      fromCachedQueryResultResponse]

/-- The cache that reaches the real client holds each entry as converted on its own. -/
theorem getIntoRanges_converts (cache : QueryResultCache) (trip : Trip) (key : ObjectKey) :
    (buildQueryResultCacheFromCachedResults
        (buildCachedQueryResultsFromQueryResultCache (some cache) trip.sent)
        trip.received).lookup key =
      (cache.lookup key).bind fun entry => RoundTrip.convert entry (.getIntoRanges trip) := by
  simp only [buildQueryResultCacheFromCachedResults, buildCachedQueryResultsFromQueryResultCache,
    lookup_rebuild, Option.bind_assoc]
  rfl

/-! ## The lease after a round trip -/

variable {query result : QueryResult} {entry : Expected QueryResult} {trip : RoundTrip}

theorem isLeaseExpired_eq_false {now : Int} :
    query.isLeaseExpired now = false ↔ now < query.leaseTimeout := by
  simp [QueryResult.isLeaseExpired]

/-- A query result after a trip that took it along. -/
def rebased (query : QueryResult) (trip : Trip) : QueryResult :=
  ⟨query.replicas, rebase ticksPerMs query.leaseTimeout trip⟩

theorem fromCached_toCached {trip : Trip} (unexpired : query.isLeaseExpired trip.sent = false) :
    fromCachedQueryResultResponse (toCachedQueryResultResponse (.ok query) trip.sent)
      trip.received = .ok (rebased query trip) := by
  have later := isLeaseExpired_eq_false.mp unexpired
  have whole : 0 ≤ (query.leaseTimeout - trip.sent) / ticksPerMs :=
    Int.ediv_nonneg (by omega) (by decide)
  simp [toCachedQueryResultResponse, fromCachedQueryResultResponse, remainingLeaseTtlMs, unexpired,
    rebased, rebase, whole]

/-- An entry that arrives as a query result was one, and its lease was rebased. -/
theorem RoundTrip.convert_ok (arrived : RoundTrip.convert entry trip = some (.ok result)) :
    ∃ query, entry = .ok query ∧ result = rebased query trip.trip := by
  cases entry with
  | error error => cases trip <;> cases arrived
  | ok query =>
    refine ⟨query, rfl, ?_⟩
    cases expired : query.isLeaseExpired trip.trip.sent with
    | true =>
      cases trip <;>
        simp_all [RoundTrip.convert, RoundTrip.trip, toCachedQueryResultResponse,
          fromCachedQueryResultResponse, sendableQueryResult]
    | false =>
      cases trip with
      | batchQuery trip =>
        dsimp only [RoundTrip.trip] at expired
        rw [RoundTrip.convert, fromCached_toCached expired] at arrived
        cases arrived
        rfl
      | getIntoRanges trip =>
        dsimp only [RoundTrip.trip] at expired
        simp only [RoundTrip.convert, sendableQueryResult, expired, Bool.false_eq_true,
          if_false, Option.bind_some, reusableQueryResult, fromCached_toCached expired]
          at arrived
        split at arrived
        · cases arrived
        · cases arrived
          rfl

theorem RoundTrip.convert_of_long (long : trip.trip.sent + ticksPerMs ≤ query.leaseTimeout) :
    RoundTrip.convert (.ok query) trip = some (.ok (rebased query trip.trip)) := by
  have ticks : 0 < ticksPerMs := by decide
  have unexpired : query.isLeaseExpired trip.trip.sent = false :=
    isLeaseExpired_eq_false.mpr (by omega)
  cases trip with
  | batchQuery trip => exact congrArg some (fromCached_toCached unexpired)
  | getIntoRanges trip =>
    dsimp only [RoundTrip.trip] at long unexpired ⊢
    have whole : 1 ≤ (query.leaseTimeout - trip.sent) / ticksPerMs :=
      (Int.le_ediv_iff_mul_le ticks).mpr (by omega)
    have fresh : (rebased query trip).isLeaseExpired trip.received = false := by
      refine isLeaseExpired_eq_false.mpr ?_
      have scaled := Int.mul_le_mul_of_nonneg_left whole ticks.le
      simp only [rebased, rebase]
      omega
    simp [RoundTrip.convert, sendableQueryResult, unexpired, reusableQueryResult,
      fromCached_toCached unexpired, fresh]

/-- The cache that reaches the real client lacks the keys that the sender's cache lacks, and those
whose entry is an error, expired when it was sent or expired when it arrived.  It holds every
other query result with its replicas and its rebased lease. -/
theorem getIntoRanges_keeps_unexpired (cache : QueryResultCache) (trip : Trip) (key : ObjectKey) :
    let received := buildQueryResultCacheFromCachedResults
      (buildCachedQueryResultsFromQueryResultCache (some cache) trip.sent) trip.received
    (received.lookup key = none ↔ ∀ query, cache.lookup key = some (.ok query) →
      query.leaseTimeout ≤ trip.sent ∨ (rebased query trip).leaseTimeout ≤ trip.received) ∧
    ∀ arrived, received.lookup key = some arrived →
      ∃ query, cache.lookup key = some (.ok query) ∧ arrived = .ok (rebased query trip) := by
  intro received
  rw [show received.lookup key = _ from getIntoRanges_converts cache trip key]
  cases found : cache.lookup key with
  | none => simp
  | some entry =>
    rw [Option.bind_some]
    cases entry with
    | error error => simp [RoundTrip.convert, sendableQueryResult, toCachedQueryResultResponse,
        reusableQueryResult, fromCachedQueryResultResponse]
    | ok query =>
      cases early : query.isLeaseExpired trip.sent with
      | true =>
        have late : query.leaseTimeout ≤ trip.sent := by
          simpa [QueryResult.isLeaseExpired] using early
        simp [RoundTrip.convert, sendableQueryResult, early, late]
      | false =>
        have unexpired := isLeaseExpired_eq_false.mp early
        simp only [RoundTrip.convert, sendableQueryResult, early, Bool.false_eq_true, if_false,
          Option.bind_some, reusableQueryResult, fromCached_toCached early]
        cases expired : (rebased query trip).isLeaseExpired trip.received with
        | true =>
          have late : (rebased query trip).leaseTimeout ≤ trip.received := by
            simpa [QueryResult.isLeaseExpired] using expired
          simp [late]
        | false =>
          have kept := isLeaseExpired_eq_false.mp expired
          simp [unexpired, kept, eq_comm]

/-! ## Any number of round trips -/

/-- An entry that arrives after all trips has its lease rebased by all of them. -/
theorem convertAll_ok {trips : List RoundTrip}
    (arrived : convertAll entry trips = some (.ok result)) :
    ∃ query, entry = .ok query ∧ result.replicas = query.replicas ∧
      result.leaseTimeout = rebaseAll ticksPerMs query.leaseTimeout (trips.map RoundTrip.trip) := by
  induction trips generalizing entry with
  | nil =>
    cases arrived
    exact ⟨result, rfl, rfl, rfl⟩
  | cons trip rest ih =>
    obtain ⟨next, converted, later⟩ := Option.bind_eq_some_iff.mp arrived
    obtain ⟨middle, rfl, replicas, lease⟩ := ih later
    obtain ⟨query, rfl, rfl⟩ := RoundTrip.convert_ok converted
    exact ⟨query, rfl, replicas, lease⟩

theorem convertAll_of_long (trips : List RoundTrip) :
    ∃ bound, ∀ query : QueryResult, bound ≤ query.leaseTimeout →
      ∃ result, convertAll (.ok query) trips = some (.ok result) := by
  induction trips with
  | nil => exact ⟨0, fun query _ => ⟨query, rfl⟩⟩
  | cons trip rest ih =>
    obtain ⟨bound, survives⟩ := ih
    refine ⟨max (trip.trip.sent + ticksPerMs)
      (bound + trip.trip.sent - trip.trip.received + ticksPerMs), fun query long => ?_⟩
    have converted := RoundTrip.convert_of_long (le_trans (le_max_left _ _) long)
    have dropped := Int.emod_lt_of_pos (query.leaseTimeout - trip.trip.sent)
      (show 0 < ticksPerMs by decide)
    have enough : bound ≤ (rebased query trip.trip).leaseTimeout := by
      have second := le_trans (le_max_right _ _) long
      simp only [rebased, rebase_eq]
      omega
    obtain ⟨result, later⟩ := survives _ enough
    exact ⟨result, Option.bind_eq_some_iff.mpr ⟨_, converted, later⟩⟩

/-- The lease of an entry that arrives is later than the original one iff the trips take
more time than rounding drops; and the clock readings rule that out for every query result
iff the trips take no more time than rounding drops in any case. -/
theorem cachedLease_not_extended_iff (trips : List RoundTrip) :
    (∀ query result : QueryResult, convertAll (.ok query) trips = some (.ok result) →
      (result.leaseTimeout ≤ query.leaseTimeout ↔
        transit (trips.map RoundTrip.trip) ≤
          rounding ticksPerMs query.leaseTimeout (trips.map RoundTrip.trip))) ∧
    ((∀ query result : QueryResult, convertAll (.ok query) trips = some (.ok result) →
      result.leaseTimeout ≤ query.leaseTimeout) ↔
      transit (trips.map RoundTrip.trip) ≤
        leastRounding ticksPerMs (trips.map RoundTrip.trip)) := by
  have each : ∀ query result : QueryResult, convertAll (.ok query) trips = some (.ok result) →
      (result.leaseTimeout ≤ query.leaseTimeout ↔
        transit (trips.map RoundTrip.trip) ≤
          rounding ticksPerMs query.leaseTimeout (trips.map RoundTrip.trip)) := by
    intro query result arrived
    obtain ⟨_, ⟨⟩, -, lease⟩ := convertAll_ok arrived
    rw [lease]
    exact rebaseAll_le_iff _ _
  refine ⟨each, ?_, ?_⟩
  · intro kept
    -- a long lease that starts a whole number of milliseconds after the first reading
    obtain ⟨bound, survives⟩ := convertAll_of_long trips
    cases trips with
    | nil => exact le_rfl
    | cons trip rest =>
      let query : QueryResult := ⟨[], trip.trip.sent + ticksPerMs * (bound - trip.trip.sent).toNat⟩
      have long : bound ≤ query.leaseTimeout := by
        simp only [query, ticksPerMs]
        omega
      obtain ⟨result, arrived⟩ := survives query long
      have slow := (each query result arrived).mp (kept query result arrived)
      have aligned : query.leaseTimeout ≡ trip.trip.sent [ZMOD ticksPerMs] := by
        simp [query, Int.ModEq]
      rwa [rounding_congr aligned] at slow
  · intro slow query result arrived
    exact (each query result arrived).mpr (slow.trans (leastRounding_le (by decide)))

/-- A lease of 10 ms is sent at 0 and arrives 5 ms later: it ends at 15 ms. -/
theorem lateArrival_extends_lease :
    convertAll (.ok ⟨[], 10000000⟩) [.batchQuery ⟨0, 5000000⟩] = some (.ok ⟨[], 15000000⟩) := by
  decide

end Mooncake.Read
