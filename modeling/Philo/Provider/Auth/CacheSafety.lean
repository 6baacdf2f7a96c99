import Philo.Provider.Auth.CacheInvariant

/-! What a call may return: a credential that was fetched for its own key and was
not expired when the call last looked. -/

namespace Philo.Auth

variable {CallId Key : Type}

def Point.isBeforeFetch : Point → Bool
  | .idle | .acquiring .examine | .queued .examine | .locked .examine | .cloned _
  | .notified _ | .woken | .fetching => true
  | _ => false

def Point.pending : Point → Option FetchResult
  | .acquiring (.publish result) | .queued (.publish result) | .locked (.publish result)
  | .notifying _ result => some result
  | _ => none

/-- The credential was fetched under the key, and expires after the call last
examined the cache and after it finished its own fetch. -/
structure Vouched (key : Key) (produced : List (Key × DynamicCredential))
    (progress : Progress) (credential : DynamicCredential) : Prop where
  fetched : (key, credential) ∈ produced
  examined : progress.examinedAt < credential.expiresAt
  finished : ∀ instant ∈ progress.fetchedAt, instant < credential.expiresAt

structure CallSafe (request : RefreshCall Key) (produced : List (Key × DynamicCredential))
    (now : Instant) (progress : Progress) : Prop where
  unfetched : progress.point.isBeforeFetch = true → progress.fetchedAt = none
  examinedBefore : progress.examinedAt ≤ now
  leading : progress.point = .fetching → ∀ credential ∈ progress.fallback,
    (request.key, credential) ∈ produced ∧ progress.examinedAt < credential.expiresAt
  pending : ∀ result credential, progress.point.pending = some result →
    finalResult request.allowStillValidFallback progress.fallback result = .ok credential →
    Vouched request.key produced progress credential
  returned : ∀ credential, progress.point = .returned (.ok credential) →
    Vouched request.key produced progress credential

variable {request : RefreshCall Key} {produced more : List (Key × DynamicCredential)}
  {now later : Instant} {progress : Progress}

theorem Vouched.mono {key : Key} {credential : DynamicCredential}
    (vouched : Vouched key produced progress credential) (grows : produced ⊆ more) :
    Vouched key more progress credential :=
  { vouched with fetched := grows vouched.fetched }

theorem CallSafe.mono (safe : CallSafe request produced now progress)
    (grows : produced ⊆ more) (passes : now ≤ later) : CallSafe request more later progress where
  unfetched := safe.unfetched
  examinedBefore := Nat.le_trans safe.examinedBefore passes
  leading atFetch credential member :=
    have captured := safe.leading atFetch credential member
    ⟨grows captured.1, captured.2⟩
  pending result credential isPending final :=
    (safe.pending result credential isPending final).mono grows
  returned credential isReturned := (safe.returned credential isReturned).mono grows

structure Point.Continues (before after : Point) : Prop where
  unfetched : after.isBeforeFetch = true → before.isBeforeFetch = true
  notFetching : after ≠ .fetching
  pending : ∀ result, after.pending = some result → before.pending = some result
  notReturned : ∀ credential, after ≠ .returned (.ok credential)

section Continues

variable {target : Section}

theorem Point.continues_locked : (Point.acquiring target).Continues (.locked target) := by
  cases target <;> constructor <;> simp [Point.isBeforeFetch, Point.pending]

theorem Point.continues_queued : (Point.acquiring target).Continues (.queued target) := by
  cases target <;> constructor <;> simp [Point.isBeforeFetch, Point.pending]

theorem Point.continues_granted : (Point.queued target).Continues (.locked target) := by
  cases target <;> constructor <;> simp [Point.isBeforeFetch, Point.pending]

end Continues

theorem CallSafe.moveTo (safe : CallSafe request produced now progress) {point : Point}
    (continues : progress.point.Continues point) :
    CallSafe request produced now { progress with point } where
  unfetched before := safe.unfetched (continues.unfetched before)
  examinedBefore := safe.examinedBefore
  leading atFetch := absurd atFetch continues.notFetching
  pending result credential isPending final := by
    have kept := safe.pending result credential (continues.pending result isPending) final
    exact ⟨kept.fetched, kept.examined, kept.finished⟩
  returned credential isReturned := absurd isReturned (continues.notReturned credential)

theorem CallSafe.hit (safe : CallSafe request produced now progress)
    (unfetched : progress.point.isBeforeFetch = true) {credential : DynamicCredential}
    (fetched : (request.key, credential) ∈ produced) (fresh : now < credential.expiresAt) :
    CallSafe request produced now
      { progress with point := .returned (.ok credential), examinedAt := now } where
  unfetched before := by cases before
  examinedBefore := Nat.le_refl _
  leading atFetch := by cases atFetch
  pending result other isPending := by cases isPending
  returned other isReturned := by
    cases isReturned
    refine ⟨fetched, fresh, ?_⟩
    simp [safe.unfetched unfetched]

theorem CallSafe.join (safe : CallSafe request produced now progress)
    (unfetched : progress.point.isBeforeFetch = true) (notify : Nat) :
    CallSafe request produced now
      { progress with point := .cloned notify, examinedAt := now } where
  unfetched _ := safe.unfetched unfetched
  examinedBefore := Nat.le_refl _
  leading atFetch := by cases atFetch
  pending result credential isPending := by cases isPending
  returned credential isReturned := by cases isReturned

theorem CallSafe.lead (safe : CallSafe request produced now progress)
    (unfetched : progress.point.isBeforeFetch = true) {fallback : Option DynamicCredential}
    (captured : ∀ credential ∈ fallback,
      (request.key, credential) ∈ produced ∧ now < credential.expiresAt) :
    CallSafe request produced now
      { progress with point := .fetching, examinedAt := now, fallback } where
  unfetched _ := safe.unfetched unfetched
  examinedBefore := Nat.le_refl _
  leading _ := captured
  pending result credential isPending := by cases isPending
  returned credential isReturned := by cases isReturned

theorem finalResult_eq_ok {allowed : Bool} {fallback : Option DynamicCredential}
    {result : FetchResult} {credential : DynamicCredential} :
    finalResult allowed fallback result = .ok credential ↔
      result = .ok credential ∨
        (∃ error, result = .error error) ∧ allowed = true ∧ fallback = some credential := by
  cases result with
  | ok fetched => simp [finalResult]
  | error error => cases allowed <;> cases fallback <;> simp [finalResult]

theorem CallSafe.completeFetch (safe : CallSafe request produced now progress)
    (atFetch : progress.point = .fetching) (grows : produced ⊆ more) {result : FetchResult}
    (fetched : ∀ credential, result = .ok credential →
      (request.key, credential) ∈ more ∧ now < credential.expiresAt)
    (failed : ∀ error, result = .error error → request.allowStillValidFallback = true →
      ∀ credential ∈ progress.fallback, now < credential.expiresAt) :
    CallSafe request more now
      { progress with point := .acquiring (.publish result), fetchedAt := some now } where
  unfetched before := by cases before
  examinedBefore := safe.examinedBefore
  leading isFetching := by cases isFetching
  pending pendingResult credential isPending final := by
    cases isPending
    have expires : (request.key, credential) ∈ more ∧ now < credential.expiresAt := by
      rcases finalResult_eq_ok.mp final with isOk | ⟨⟨error, isError⟩, allowed, isFallback⟩
      · exact fetched credential isOk
      · exact ⟨grows (safe.leading atFetch credential isFallback).1,
          failed error isError allowed credential isFallback⟩
    refine ⟨expires.1, Nat.lt_of_le_of_lt safe.examinedBefore expires.2, ?_⟩
    rintro _ ⟨⟩
    exact expires.2
  returned credential isReturned := by cases isReturned

theorem CallSafe.finish (safe : CallSafe request produced now progress) {result : FetchResult}
    (isPending : progress.point.pending = some result) :
    CallSafe request produced now { progress with
      point := .returned (finalResult request.allowStillValidFallback progress.fallback
        result) } where
  unfetched before := by cases before
  examinedBefore := safe.examinedBefore
  leading isFetching := by cases isFetching
  pending pendingResult credential isPending := by cases isPending
  returned credential isReturned := by
    have vouched := safe.pending result credential isPending (Point.returned.inj isReturned)
    exact ⟨vouched.fetched, vouched.examined, vouched.finished⟩

/-! ## All calls together -/

structure CacheSafe (requests : CallId → RefreshCall Key) (world : World CallId Key) :
    Prop where
  cached : ∀ key credential, world.credentials key = some credential →
    (key, credential) ∈ world.produced
  calls : ∀ call, CallSafe (requests call) world.produced world.now (world.calls call)

def FetchUnexpired (world : World CallId Key) : Action CallId → Prop
  | .completeFetch _ (.ok credential) => world.now < credential.expiresAt
  | _ => True

def FallbackUnexpired (requests : CallId → RefreshCall Key) (world : World CallId Key) :
    Action CallId → Prop
  | .completeFetch call (.error _) => (requests call).allowStillValidFallback = true →
      ∀ credential ∈ (world.calls call).fallback, world.now < credential.expiresAt
  | _ => True

instance (world : World CallId Key) (action : Action CallId) :
    Decidable (FetchUnexpired world action) :=
  match action with
  | .completeFetch _ (.ok credential) =>
    inferInstanceAs (Decidable (world.now < credential.expiresAt))
  | .completeFetch _ (.error _) | .tick _ | .start _ | .acquire _ | .resume _ | .examine _
  | .createNotified _ | .publish _ | .notifyWaiters _ | .drop _ => isTrue trivial

instance (requests : CallId → RefreshCall Key) (world : World CallId Key)
    (action : Action CallId) : Decidable (FallbackUnexpired requests world action) :=
  match action with
  | .completeFetch call (.error _) =>
    inferInstanceAs (Decidable ((requests call).allowStillValidFallback = true →
      ∀ credential ∈ (world.calls call).fallback, world.now < credential.expiresAt))
  | .completeFetch _ (.ok _) | .tick _ | .start _ | .acquire _ | .resume _ | .examine _
  | .createNotified _ | .publish _ | .notifyWaiters _ | .drop _ => isTrue trivial

variable {requests : CallId → RefreshCall Key} {world next : World CallId Key}
  {action : Action CallId} {call : CallId}

theorem cacheSafe_initial : CacheSafe requests (World.initial : World CallId Key) where
  cached key credential isCached := by cases isCached
  calls call := by constructor <;> simp [World.initial, Point.pending]

theorem CacheSafe.wakeAll (safe : CacheSafe requests world) (notify : Option Nat) :
    CacheSafe requests (world.wakeAll notify) where
  cached := safe.cached
  calls call := by
    have before := safe.calls call
    simp only [World.wakeAll]
    rcases World.wake_cases notify (world.calls call).point with same | ⟨_, stands, woken⟩
    · rw [same]
      exact before
    · rw [woken]
      exact before.moveTo (by
        rw [stands]
        constructor <;> simp [Point.isBeforeFetch, Point.pending])

variable [DecidableEq CallId]

theorem CacheSafe.setCall (safe : CacheSafe requests world)
    (moved : CallSafe (requests call) world.produced world.now progress) :
    CacheSafe requests (world.setCall call progress) where
  cached := safe.cached
  calls other := by
    rw [World.calls_setCall]
    split
    case isTrue same =>
      rw [same]
      exact moved
    case isFalse => exact safe.calls other

theorem CacheSafe.moveTo (safe : CacheSafe requests world) {before after : Point}
    (stands : world.point call = before) (continues : before.Continues after) :
    CacheSafe requests (world.moveTo call after) := by
  rw [← stands] at continues
  exact safe.setCall ((safe.calls call).moveTo continues)

theorem CacheSafe.completeFetch (safe : CacheSafe requests world) {result : FetchResult}
    (stands : world.point call = .fetching)
    (unexpired : FetchUnexpired world (.completeFetch call result))
    (fallback : FallbackUnexpired requests world (.completeFetch call result)) :
    CacheSafe requests ((world.setCall call { world.calls call with
      point := .acquiring (.publish result), fetchedAt := some world.now }).recordFetch
        (requests call).key result) := by
  cases result with
  | error error =>
    refine safe.setCall ((safe.calls call).completeFetch stands (fun _ => id) ?_ ?_)
    · intro credential isOk
      cases isOk
    · intro _ _ allowed
      exact fallback allowed
  | ok credential =>
    let grown : World CallId Key :=
      { world with produced := ((requests call).key, credential) :: world.produced }
    have grows : world.produced ⊆ grown.produced := fun _ => List.mem_cons_of_mem _
    have safeGrown : CacheSafe requests grown :=
      ⟨fun key other isCached => grows (safe.cached key other isCached),
        fun other => (safe.calls other).mono grows (Nat.le_refl _)⟩
    refine safeGrown.setCall ((safe.calls call).completeFetch stands grows ?_ ?_)
    · intro other isOk
      cases isOk
      exact ⟨List.mem_cons_self, unexpired⟩
    · intro error isError
      cases isError

variable [DecidableEq Key]

theorem CacheSafe.publishLocked (safe : CacheSafe requests world) {result : FetchResult}
    (stands : world.point call = .locked (.publish result)) :
    CacheSafe requests (world.publishLocked (requests call) call result) := by
  have moved : CacheSafe requests
      (world.moveTo call (.notifying (world.inflight (requests call).key) result)) :=
    safe.moveTo stands (by constructor <;> simp [Point.isBeforeFetch, Point.pending])
  cases result with
  | error error => exact ⟨moved.cached, moved.calls⟩
  | ok credential =>
    refine ⟨?_, moved.calls⟩
    intro key other isCached
    by_cases sameKey : key = (requests call).key
    · have isPublished : credential = other := by
        simpa [World.publishLocked, World.closeEntry, World.storeCredential, sameKey] using
          isCached
      rw [sameKey, ← isPublished]
      exact ((safe.calls call).pending (.ok credential) credential
        (congrArg Point.pending stands) rfl).fetched
    · refine moved.cached key other ?_
      simpa [World.publishLocked, World.closeEntry, World.storeCredential, sameKey] using
        isCached

theorem CacheSafe.afterStep (safe : CacheSafe requests world)
    (noDrop : ∀ call, action ≠ .drop call) (unexpired : FetchUnexpired world action)
    (fallbackUnexpired : FallbackUnexpired requests world action)
    (transition : Transition requests world action next) : CacheSafe requests next := by
  cases transition with
  | tick elapsed =>
    exact ⟨safe.cached, fun call => (safe.calls call).mono (fun _ => id) (Nat.le_add_right ..)⟩
  | start stands =>
    exact safe.moveTo stands (by constructor <;> simp [Point.isBeforeFetch, Point.pending])
  | lock stands free =>
    have moved := safe.moveTo stands Point.continues_locked
    exact ⟨moved.cached, moved.calls⟩
  | enqueue stands taken =>
    have moved := safe.moveTo stands Point.continues_queued
    exact ⟨moved.cached, moved.calls⟩
  | granted stands holds => exact safe.moveTo stands Point.continues_granted
  | rewoken stands =>
    exact safe.moveTo stands (by constructor <;> simp [Point.isBeforeFetch, Point.pending])
  | @hit call credential stands cached fresh =>
    have before : (world.point call).isBeforeFetch = true := by rw [stands]; rfl
    have moved := safe.setCall ((safe.calls call).hit before (safe.cached _ _ cached)
      (DynamicCredential.expiresAt_of_isFreshAt fresh))
    exact ⟨moved.cached, moved.calls⟩
  | @join call notify stands entry =>
    have before : (world.point call).isBeforeFetch = true := by rw [stands]; rfl
    have moved := safe.setCall ((safe.calls call).join before notify)
    exact ⟨moved.cached, moved.calls⟩
  | @lead call fallback stands entry captured =>
    have before : (world.point call).isBeforeFetch = true := by rw [stands]; rfl
    have valid : ∀ credential ∈ fallback, ((requests call).key, credential) ∈
        world.produced ∧ world.now < credential.expiresAt := by
      intro credential member
      rw [captured] at member
      rcases Option.filter_eq_some_iff.mp member with ⟨isCached, unexpired⟩
      exact ⟨safe.cached _ _ isCached, of_decide_eq_true unexpired⟩
    have moved := safe.setCall ((safe.calls call).lead before valid)
    exact ⟨moved.cached, moved.calls⟩
  | createNotified stands =>
    exact safe.moveTo stands (by constructor <;> simp [Point.isBeforeFetch, Point.pending])
  | completeFetch stands => exact safe.completeFetch stands unexpired fallbackUnexpired
  | publish stands =>
    have moved := safe.publishLocked stands
    exact ⟨moved.cached, moved.calls⟩
  | @notifyWaiters call notify result stands =>
    have woken := safe.wakeAll notify
    have isPending : ((world.wakeAll notify).point call).pending = some result := by
      rw [World.point_wakeAll, stands]
      rfl
    exact woken.setCall ((woken.calls call).finish isPending)
  | abandon stands => exact absurd rfl (noDrop _)
  | leave stands => exact absurd rfl (noDrop _)

def SingleFlight (requests : CallId → RefreshCall Key) (world : World CallId Key) : Prop :=
  ∀ first second, world.point first = .fetching → world.point second = .fetching →
    (requests first).key = (requests second).key → first = second

def ReturnsVouched (requests : CallId → RefreshCall Key) (world : World CallId Key) : Prop :=
  ∀ call credential, world.point call = .returned (.ok credential) →
    Vouched (requests call).key world.produced (world.calls call) credential

omit [DecidableEq CallId] [DecidableEq Key] in
theorem EntriesOwned.singleFlight (owned : EntriesOwned requests world) :
    SingleFlight requests world := by
  intro first second firstFetches secondFetches sameKey
  refine owned.unique (requests second).key first second ⟨sameKey, ?_⟩ ⟨rfl, ?_⟩
  · rw [firstFetches]
    rfl
  · rw [secondFetches]
    rfl

/-- Without dropped futures, and as long as no fallback expires during the fetch
that it stands in for, fetches are single and returned credentials are valid. -/
theorem singleFlight_and_returnsVouched (requests : CallId → RefreshCall Key)
    (actions : List (Action CallId)) (noDrop : ∀ call, .drop call ∉ actions)
    (unexpired : ∀ world action,
      (cacheSystem requests).Takes .initial actions world action →
        FetchUnexpired world action)
    (fallbackUnexpired : ∀ world action,
      (cacheSystem requests).Takes .initial actions world action →
        FallbackUnexpired requests world action)
    (world : World CallId Key)
    (visits : (cacheSystem requests).Visits .initial actions world) :
    SingleFlight requests world ∧ ReturnsVouched requests world := by
  have safe : EntriesOwned requests world ∧ CacheSafe requests world := by
    refine System.visits_invariant
      (fun world action => (∀ call, action ≠ .drop call) ∧ FetchUnexpired world action ∧
        FallbackUnexpired requests world action)
      (fun world => EntriesOwned requests world ∧ CacheSafe requests world) ?_
      ⟨entriesOwned_initial, cacheSafe_initial⟩ ?_ visits
    · rintro world action next ⟨owned, safe⟩ ⟨notDrop, fetched, fallback⟩ stepped
      have kept : ¬ Abandons world action := by
        rintro ⟨call, isDrop, _⟩
        exact notDrop call isDrop
      exact ⟨owned.afterStep kept stepped,
        safe.afterStep notDrop fetched fallback (transition_of_step stepped)⟩
    · intro world action takes
      refine ⟨?_, unexpired world action takes, fallbackUnexpired world action takes⟩
      rintro call rfl
      rcases takes with ⟨first, later, rfl, _⟩
      exact noDrop call (by simp)
  exact ⟨safe.1.singleFlight, fun call credential isReturned =>
    (safe.2.calls call).returned credential isReturned⟩

/-! ## The fallback that expires on the way -/

def fallbackRequest (second : Bool) : RefreshCall Unit := ⟨(), if second then 30 else 0, true⟩

def sampleKey : ApiKey := ⟨"k", by decide, by decide, by decide⟩

def expiresAtTen : DynamicCredential := ⟨sampleKey, .bearer, 10, by decide, trivial⟩

def refreshBegun : List (Action Bool) :=
  [.start false, .acquire false, .examine false, .completeFetch false (.ok expiresAtTen), .acquire
    false, .publish false, .notifyWaiters false, .start true, .acquire true, .examine true]

def refreshFails (elapsed : Duration) : List (Action Bool) :=
  refreshBegun ++ [.tick elapsed, .completeFetch true (.error (.credential .refreshFailed)),
    .acquire true, .publish true, .notifyWaiters true]

/-- The failing refresh takes longer than the fallback lives: the call returns a
credential that expired ten units before its fetch was over. -/
theorem slowRefresh_returns_expired :
    ∃ world, (cacheSystem fallbackRequest).run .initial (refreshFails 20) = some world ∧
      world.point true = .returned (.ok expiresAtTen) ∧
      ¬ ReturnsVouched fallbackRequest world := by
  refine ⟨_, rfl, rfl, ?_⟩
  intro vouched
  have finished := (vouched true expiresAtTen rfl).finished 20 rfl
  exact absurd finished (by decide)

theorem quickRefresh_returns_vouched :
    ∃ world, (cacheSystem fallbackRequest).run .initial (refreshFails 5) = some world ∧
      world.point true = .returned (.ok expiresAtTen) ∧
      SingleFlight fallbackRequest world ∧ ReturnsVouched fallbackRequest world := by
  refine ⟨_, rfl, rfl, singleFlight_and_returnsVouched fallbackRequest (refreshFails 5) ?_
    (System.takes_forall FetchUnexpired (by decide))
    (System.takes_forall (FallbackUnexpired fallbackRequest) (by decide)) _ ?_⟩
  · intro call
    simp [refreshFails, refreshBegun]
  · exact ⟨refreshFails 5, [], rfl, rfl⟩

end Philo.Auth
