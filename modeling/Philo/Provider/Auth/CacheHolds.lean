import Philo.Provider.Auth.CacheSafety

/-! A condition that every fetched credential meets is met by every credential that
the cache hands out, however the calls overlap and whichever futures are dropped. A call
may be stricter about its own fetch than about what it finds. -/

namespace Philo.Auth

variable {CallId Key : Type}

/-- A call hands out a credential of the cache only if it can find it fresh, or may fall
back to it. -/
def RefreshCall.MayReuse (request : RefreshCall Key) (credential : DynamicCredential) : Prop :=
  request.allowStillValidFallback = true ∨ request.refreshWindow < credential.expiresAt

def Point.carried : Point → Option DynamicCredential
  | .acquiring (.publish result) | .queued (.publish result) | .locked (.publish result)
  | .notifying _ result | .returned result => result.toOption
  | _ => none

theorem mem_carried_returned {result : FetchResult} {credential : DynamicCredential} :
    credential ∈ (Point.returned result).carried ↔ result = .ok credential := by
  cases result <;> simp [Point.carried, Except.toOption]

/-- Everything cached meets the condition under its key, and what a call has in hand is
also what that call may return. -/
structure World.Holds (requests : CallId → RefreshCall Key)
    (condition : Key → DynamicCredential → Prop) (returns : CallId → DynamicCredential → Prop)
    (world : World CallId Key) : Prop where
  cached : ∀ key credential, world.credentials key = some credential → condition key credential
  fallback : ∀ call, ∀ credential ∈ (world.calls call).fallback,
    condition (requests call).key credential
  carried : ∀ call, ∀ credential ∈ (world.point call).carried,
    condition (requests call).key credential ∧ returns call credential

def FetchMeets (requests : CallId → RefreshCall Key)
    (condition : Key → DynamicCredential → Prop) (returns : CallId → DynamicCredential → Prop) :
    Action CallId → Prop
  | .completeFetch call (.ok credential) =>
    condition (requests call).key credential ∧ returns call credential
  | _ => True

def ReturnsReused (requests : CallId → RefreshCall Key)
    (condition : Key → DynamicCredential → Prop) (returns : CallId → DynamicCredential → Prop) :
    Prop :=
  ∀ call credential, condition (requests call).key credential →
    (requests call).MayReuse credential → returns call credential

namespace World

variable {requests : CallId → RefreshCall Key} {condition : Key → DynamicCredential → Prop}
  {returns : CallId → DynamicCredential → Prop} {world next : World CallId Key}
  {action : Action CallId} {call : CallId}

theorem holds_initial : Holds requests condition returns (initial : World CallId Key) where
  cached key credential isCached := by cases isCached
  fallback call credential isFallback := by cases isFallback
  carried call credential isCarried := by cases isCarried

theorem Holds.wakeAll (holds : world.Holds requests condition returns) (notify : Option Nat) :
    (world.wakeAll notify).Holds requests condition returns where
  cached := holds.cached
  fallback := holds.fallback
  carried call credential isCarried := by
    rw [point_wakeAll] at isCarried
    rcases wake_cases notify (world.point call) with same | ⟨_, _, woken⟩
    · rw [same] at isCarried
      exact holds.carried call credential isCarried
    · rw [woken] at isCarried
      cases isCarried

theorem Holds.finish (holds : world.Holds requests condition returns)
    (reused : ReturnsReused requests condition returns) {notify : Option Nat}
    {result : FetchResult} (stands : world.point call = .notifying notify result) :
    ∀ credential, finalResult (requests call).allowStillValidFallback
        (world.calls call).fallback result = .ok credential →
      condition (requests call).key credential ∧ returns call credential := by
  intro credential isFinal
  rcases finalResult_eq_ok.mp isFinal with rfl | ⟨_, allowed, isFallback⟩
  · exact holds.carried call credential (by rw [stands]; rfl)
  · have meets := holds.fallback call credential isFallback
    exact ⟨meets, reused call credential meets (.inl allowed)⟩

variable [DecidableEq CallId]

theorem Holds.update (holds : world.Holds requests condition returns) {progress : Progress}
    (credentials : next.credentials = world.credentials)
    (calls : next.calls = Function.update world.calls call progress)
    (fallback : ∀ credential ∈ progress.fallback, condition (requests call).key credential)
    (carried : ∀ credential ∈ progress.point.carried,
      condition (requests call).key credential ∧ returns call credential) :
    next.Holds requests condition returns where
  cached := credentials ▸ holds.cached
  fallback other credential isFallback := by
    rw [calls, Function.update_apply] at isFallback
    split at isFallback
    case isTrue same => exact same ▸ fallback credential isFallback
    case isFalse => exact holds.fallback other credential isFallback
  carried other credential isCarried := by
    rw [point, calls, Function.update_apply] at isCarried
    split at isCarried
    case isTrue same => exact same ▸ carried credential isCarried
    case isFalse => exact holds.carried other credential isCarried

theorem Holds.letGo (holds : world.Holds requests condition returns) {progress : Progress}
    (credentials : next.credentials = world.credentials)
    (calls : next.calls = Function.update world.calls call progress)
    (same : progress.fallback = (world.calls call).fallback)
    (bare : progress.point.carried = none) : next.Holds requests condition returns :=
  holds.update credentials calls (same ▸ holds.fallback call) (by simp [bare])

theorem Holds.carryOn (holds : world.Holds requests condition returns) {before after : Point}
    (stands : world.point call = before) (credentials : next.credentials = world.credentials)
    (calls : next.calls = (world.moveTo call after).calls)
    (same : after.carried = before.carried) : next.Holds requests condition returns := by
  refine holds.update credentials calls (holds.fallback call) fun credential isCarried => ?_
  rw [same, ← stands] at isCarried
  exact holds.carried call credential isCarried

variable [DecidableEq Key]

theorem Holds.publishLocked (holds : world.Holds requests condition returns)
    {result : FetchResult} (stands : world.point call = .locked (.publish result)) :
    (world.publishLocked (requests call) call result).Holds requests condition returns := by
  have moved : (world.moveTo call
      (.notifying (world.inflight (requests call).key) result)).Holds requests condition returns :=
    holds.carryOn stands rfl rfl rfl
  cases result with
  | error error => exact ⟨moved.cached, moved.fallback, moved.carried⟩
  | ok credential =>
    refine ⟨?_, moved.fallback, moved.carried⟩
    intro key other isCached
    by_cases sameKey : key = (requests call).key
    · have isPublished : credential = other := by
        simpa [World.publishLocked, closeEntry, storeCredential, sameKey] using isCached
      rw [sameKey, ← isPublished]
      exact (holds.carried call credential (by rw [stands]; rfl)).1
    · apply holds.cached key other
      simpa [World.publishLocked, closeEntry, storeCredential, moveTo, setCall, sameKey] using
        isCached

theorem Holds.afterStep (holds : world.Holds requests condition returns)
    (reused : ReturnsReused requests condition returns)
    (meets : FetchMeets requests condition returns action)
    (transition : Transition requests world action next) :
    next.Holds requests condition returns := by
  cases transition with
  | tick elapsed => exact ⟨holds.cached, holds.fallback, holds.carried⟩
  | start | rewoken | join | createNotified | abandon | leave => exact holds.letGo rfl rfl rfl rfl
  | @lock call target stands | @enqueue call target stands | @granted call target stands =>
    exact holds.carryOn stands rfl rfl (by cases target <;> rfl)
  | @hit call credential stands cached fresh =>
    have found := holds.cached _ _ cached
    have mayReuse : (requests call).MayReuse credential :=
      .inr (DynamicCredential.refreshWindow_of_isFreshAt fresh)
    refine holds.update rfl rfl (holds.fallback call) fun other isCarried => ?_
    cases isCarried
    exact ⟨found, reused call credential found mayReuse⟩
  | @lead call fallback stands entry captured =>
    refine holds.update rfl rfl (fun credential isFallback => ?_) (by simp [Point.carried])
    rw [captured] at isFallback
    exact holds.cached _ _ (Option.filter_eq_some_iff.mp isFallback).1
  | @completeFetch call result stands =>
    cases result with
    | ok fetched =>
      refine holds.update rfl rfl (holds.fallback call) fun credential isCarried => ?_
      cases isCarried
      exact meets
    | error error => exact holds.letGo rfl rfl rfl rfl
  | publish stands =>
    have published := holds.publishLocked stands
    exact ⟨published.cached, published.fallback, published.carried⟩
  | @notifyWaiters call notify result stands =>
    have woken := holds.wakeAll notify
    refine woken.update rfl rfl (woken.fallback call) fun credential isCarried => ?_
    exact holds.finish reused stands credential (mem_carried_returned.mp isCarried)

end World

variable [DecidableEq CallId] [DecidableEq Key]

/-- Every credential that a call returns is one that it may return, if its own fetches
give such credentials and reuse does. -/
theorem returned_meets {requests : CallId → RefreshCall Key}
    {condition : Key → DynamicCredential → Prop} {returns : CallId → DynamicCredential → Prop}
    (reused : ReturnsReused requests condition returns) {actions : List (Action CallId)}
    (meets : ∀ action ∈ actions, FetchMeets requests condition returns action)
    {world : World CallId Key} {call : CallId}
    (visits : (cacheSystem requests).Visits .initial actions world)
    {credential : DynamicCredential} (returned : world.point call = .returned (.ok credential)) :
    returns call credential := by
  have holds : world.Holds requests condition returns := by
    refine System.visits_invariant (fun _ action => FetchMeets requests condition returns action)
      (fun world => world.Holds requests condition returns) ?_ World.holds_initial ?_ visits
    · intro world action next holds meets stepped
      exact holds.afterStep reused meets (transition_of_step stepped)
    · rintro world action ⟨first, later, rfl, _⟩
      exact meets action (by simp)
  exact (holds.carried call credential (by rw [returned]; rfl)).2

end Philo.Auth
