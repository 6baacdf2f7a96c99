import Philo.Provider.Auth.CacheHolds

/-! `get_or_refresh` of calls that come one after the other, as a function. The
interleaved system takes the same steps when it runs such calls. -/

namespace Philo

open FairLock

/-- The cache between two calls: no refresh is in flight. -/
structure QuietCache (Key : Type) where
  now : Instant
  credentials : Key → Option DynamicCredential

namespace QuietCache

def empty {Key : Type} : QuietCache Key := ⟨0, fun _ => none⟩

def elapse {Key : Type} (cache : QuietCache Key) (elapsed : Duration) : QuietCache Key :=
  { cache with now := cache.now + elapsed }

def afterFetch {Key : Type} [DecidableEq Key] (cache : QuietCache Key) (key : Key)
    (finishedAt : Instant) (result : Auth.FetchResult) : QuietCache Key where
  now := finishedAt
  credentials := match result with
    | .ok credential => Function.update cache.credentials key (some credential)
    | .error _ => cache.credentials

/-- `get_or_refresh` of a call that meets no other. A fetch takes `fetchTime` and
gives the result that `fetch` has at its end. -/
def getOrRefresh {Key : Type} [DecidableEq Key] (cache : QuietCache Key)
    (request : Auth.RefreshCall Key) (fetchTime : Duration) (fetch : Instant → Auth.FetchResult) :
    Auth.FetchResult × QuietCache Key :=
  let cached := cache.credentials request.key
  match cached.filter (·.isFreshAt cache.now request.refreshWindow) with
  | some credential => (.ok credential, cache)
  | none =>
    let fallback := cached.filter fun credential => decide (cache.now < credential.expiresAt)
    let finishedAt := cache.now + fetchTime
    let result := fetch finishedAt
    (Auth.finalResult request.allowStillValidFallback fallback result,
      cache.afterFetch request.key finishedAt result)

section Answers

variable {Key : Type} [DecidableEq Key] {cache : QuietCache Key}
  {request : Auth.RefreshCall Key} {fetchTime : Duration} {fetch : Instant → Auth.FetchResult}

/-- A call whose fetch fails still answers with a cached credential that is fresh, or
that it may fall back to. -/
theorem getOrRefresh_of_reusable {credential : DynamicCredential}
    (cached : cache.credentials request.key = some credential)
    (unexpired : cache.now < credential.expiresAt)
    (reusable : request.allowStillValidFallback = true ∨
      credential.isFreshAt cache.now request.refreshWindow = true)
    {error : LlmError} (failed : fetch (cache.now + fetchTime) = .error error) :
    (cache.getOrRefresh request fetchTime fetch).1 = .ok credential := by
  by_cases fresh : credential.isFreshAt cache.now request.refreshWindow = true
  · simp [getOrRefresh, cached, Option.filter_some, fresh]
  · have allowed := reusable.resolve_right fresh
    simp [getOrRefresh, cached, Option.filter_some, fresh, unexpired, failed, allowed,
      Auth.finalResult]

theorem getOrRefresh_of_absent {credential : DynamicCredential}
    (absent : cache.credentials request.key = none)
    (fetched : fetch (cache.now + fetchTime) = .ok credential) :
    cache.getOrRefresh request fetchTime fetch =
      (.ok credential, cache.afterFetch request.key (cache.now + fetchTime) (.ok credential)) := by
  simp [getOrRefresh, absent, fetched, Auth.finalResult]

def Holds (cache : QuietCache Key) (condition : Key → DynamicCredential → Prop) : Prop :=
  ∀ key credential, cache.credentials key = some credential → condition key credential

variable {condition : Key → DynamicCredential → Prop}

omit [DecidableEq Key] in
theorem Holds.elapse (holds : cache.Holds condition) (elapsed : Duration) :
    (cache.elapse elapsed).Holds condition := holds

/-- The answer is what the call fetched, or something cached that it may reuse. -/
theorem Holds.getOrRefresh_ok (holds : cache.Holds condition) {credential : DynamicCredential}
    (answered : (cache.getOrRefresh request fetchTime fetch).1 = .ok credential) :
    fetch (cache.now + fetchTime) = .ok credential ∨
      condition request.key credential ∧ request.MayReuse credential := by
  simp only [getOrRefresh] at answered
  split at answered
  · rename_i cached hit
    cases answered
    rcases Option.filter_eq_some_iff.mp hit with ⟨isCached, fresh⟩
    exact .inr ⟨holds _ _ isCached, .inr (DynamicCredential.refreshWindow_of_isFreshAt fresh)⟩
  · rcases Auth.finalResult_eq_ok.mp answered with isFetched | ⟨_, allowed, isFallback⟩
    · exact .inl isFetched
    · exact .inr ⟨holds _ _ (Option.filter_eq_some_iff.mp isFallback).1, .inl allowed⟩

theorem Holds.afterFetch (holds : cache.Holds condition) {finishedAt : Instant}
    {result : Auth.FetchResult} {key : Key}
    (fetched : ∀ credential, result = .ok credential → condition key credential) :
    (cache.afterFetch key finishedAt result).Holds condition := by
  intro other credential isStored
  cases result with
  | error error => exact holds other credential isStored
  | ok published =>
    by_cases sameKey : other = key
    · have isPublished : published = credential := by
        simpa [QuietCache.afterFetch, sameKey] using isStored
      rw [sameKey, ← isPublished]
      exact fetched published rfl
    · refine holds other credential ?_
      simpa [QuietCache.afterFetch, sameKey] using isStored

theorem Holds.getOrRefresh (holds : cache.Holds condition)
    (fetched : ∀ finishedAt credential, fetch finishedAt = .ok credential →
      condition request.key credential) :
    (cache.getOrRefresh request fetchTime fetch).2.Holds condition := by
  simp only [QuietCache.getOrRefresh]
  split
  · exact holds
  · exact holds.afterFetch (fetched _)

end Answers

end QuietCache

namespace Auth

variable {CallId Key : Type} [DecidableEq CallId] [DecidableEq Key]

structure World.IsQuiet (world : World CallId Key) (cache : QuietCache Key) : Prop where
  now : world.now = cache.now
  credentials : world.credentials = cache.credentials
  inflight : world.inflight = fun _ => none
  lock : world.lock = .free

structure RanAlone (world : World CallId Key) (call : CallId) (result : FetchResult)
    (next : World CallId Key) : Prop where
  returned : next.point call = .returned result
  others : ∀ other, other ≠ call → (∀ notify, world.point other ≠ .notified notify) →
    next.point other = world.point other

theorem World.wake_of_not_notified {notify : Option Nat} {point : Point}
    (unregistered : ∀ waitsFor, point ≠ .notified waitsFor) : World.wake notify point = point := by
  cases point with
  | notified waitsFor => exact absurd rfl (unregistered waitsFor)
  | _ => rfl

variable {requests : CallId → RefreshCall Key} {world : World CallId Key}
  {cache : QuietCache Key} {call : CallId}

theorem run_hit (quiet : world.IsQuiet cache) (idle : world.point call = .idle)
    {credential : DynamicCredential} (hit : (cache.credentials (requests call).key).filter
      (·.isFreshAt cache.now (requests call).refreshWindow) = some credential) :
    ∃ next, (cacheSystem requests).run world [.start call, .acquire call, .examine call] =
        some next ∧ RanAlone world call (.ok credential) next ∧ next.IsQuiet cache := by
  have stands : (world.calls call).point = .idle := idle
  rw [← quiet.credentials, ← quiet.now] at hit
  refine ⟨_, by
    simp [cacheSystem, System.run, step, World.point, stands, World.acquire, World.examine,
      World.examineLocked, World.moveTo, World.setCall, World.enterLock, World.leaveLock,
      quiet.lock, free, holder, enter, leave, hit]
    rfl, ?_⟩
  refine ⟨⟨?_, ?_⟩, ⟨quiet.now, quiet.credentials, quiet.inflight, rfl⟩⟩
  · simp [World.point]
  · intro other different _
    simp [World.point, different]

def refreshActions (call : CallId) (fetchTime : Duration) (result : FetchResult) :
    List (Action CallId) :=
  [.start call, .acquire call, .examine call, .tick fetchTime, .completeFetch call result,
    .acquire call, .publish call, .notifyWaiters call]

/-- A call that finds no fresh credential fetches, and both outcomes leave no trace in
flight. -/
theorem run_miss (quiet : world.IsQuiet cache) (idle : world.point call = .idle)
    (miss : (cache.credentials (requests call).key).filter
      (·.isFreshAt cache.now (requests call).refreshWindow) = none) (fetchTime : Duration)
    (result : FetchResult) :
    ∃ next, (cacheSystem requests).run world (refreshActions call fetchTime result) =
        some next ∧
      RanAlone world call (finalResult (requests call).allowStillValidFallback
        ((cache.credentials (requests call).key).filter fun credential =>
          decide (cache.now < credential.expiresAt)) result) next ∧
      next.IsQuiet (cache.afterFetch (requests call).key (cache.now + fetchTime) result) := by
  have stands : (world.calls call).point = .idle := idle
  rw [← quiet.credentials, ← quiet.now] at miss ⊢
  cases result
  all_goals
    refine ⟨_, by
      simp [refreshActions, cacheSystem, System.run, step, World.point, stands, World.acquire,
        World.examine, World.examineLocked, World.moveTo, World.setCall, World.enterLock,
        World.leaveLock, quiet.lock, free, holder, enter, leave, miss, quiet.inflight,
        World.openEntry, World.completeFetch, World.recordFetch, World.publish, World.publishLocked,
        World.storeCredential, World.closeEntry, World.notifyWaiters, World.wakeAll]
      rfl, ?_⟩
    refine ⟨⟨?_, ?_⟩, ⟨?_, ?_, ?_, rfl⟩⟩
    · simp [World.point]
    · intro other different unregistered
      simp only [World.point, ne_eq, different, not_false_eq_true, Function.update_of_ne]
      exact World.wake_of_not_notified unregistered
    · rfl
    · simp [QuietCache.afterFetch, quiet.credentials]
    · simp

/-- The interleaved system does what `getOrRefresh` says when a call runs alone. -/
theorem run_getOrRefresh (quiet : world.IsQuiet cache) (idle : world.point call = .idle)
    (fetchTime : Duration) (fetch : Instant → FetchResult) :
    ∃ actions next, (cacheSystem requests).run world actions = some next ∧
      RanAlone world call (cache.getOrRefresh (requests call) fetchTime fetch).1 next ∧
      next.IsQuiet (cache.getOrRefresh (requests call) fetchTime fetch).2 := by
  simp only [QuietCache.getOrRefresh]
  split
  · next hit => exact ⟨_, run_hit quiet idle hit⟩
  · next miss => exact ⟨_, run_miss quiet idle miss fetchTime _⟩

/-- The first call fetches; the second finds what is cached too old, its own fetch
fails, and it falls back. -/
theorem run_getOrRefresh_fallback : ∃ first second world next,
    (cacheSystem fallbackRequest).run .initial first = some world ∧
      RanAlone .initial false (.ok expiresAtTen) world ∧
      (cacheSystem fallbackRequest).run world second = some next ∧
      RanAlone world true (.ok expiresAtTen) next ∧
      next.IsQuiet ((QuietCache.empty.afterFetch () 5 (.ok expiresAtTen)).afterFetch () 6
        (.error (.credential .refreshFailed))) := by
  rcases @run_getOrRefresh _ _ _ _ fallbackRequest .initial .empty false ⟨rfl, rfl, rfl, rfl⟩ rfl 5
    (fun _ => .ok expiresAtTen) with ⟨first, world, ran, alone, quiet⟩
  have idle : world.point true = .idle := by
    apply alone.others true (by decide)
    intro notify isNotified
    cases isNotified
  rcases run_getOrRefresh quiet idle 1 (fun _ => .error (.credential .refreshFailed)) with
    ⟨second, next, ranAgain, again, failed⟩
  exact ⟨first, second, world, next, ran, alone, ranAgain, again, failed⟩

end Auth

end Philo
