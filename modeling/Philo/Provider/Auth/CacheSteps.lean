import Philo.Provider.Auth.Cache

/-! What one action can do to the cache, said once: every invariant is proved by
cases on `Transition` and never unfolds `step`. -/

namespace Philo.Auth

variable {CallId Key : Type}

namespace World

variable (world : World CallId Key) (call other : CallId)

@[simp] theorem point_enterLock : (world.enterLock call).point other = world.point other := rfl

@[simp] theorem point_wakeAll (notify : Option Nat) :
    (world.wakeAll notify).point call = wake notify (world.point call) := rfl

theorem wake_cases (notify : Option Nat) (point : Point) : wake notify point = point ∨
    ∃ waitsFor, point = .notified waitsFor ∧ wake notify point = .woken := by
  cases point with
  | notified waitsFor =>
    by_cases fires : notify = some waitsFor
    · exact .inr ⟨waitsFor, rfl, if_pos fires⟩
    · exact .inl (if_neg fires)
  | _ => exact .inl rfl

variable [DecidableEq CallId]

@[simp] theorem point_leaveLock : (world.leaveLock call).point other = world.point other := rfl

theorem calls_setCall (progress : Progress) : (world.setCall call progress).calls other =
    if other = call then progress else world.calls other :=
  Function.update_apply ..

@[simp] theorem point_setCall (progress : Progress) : (world.setCall call progress).point other =
      if other = call then progress.point else world.point other := by
  rw [point, calls_setCall]
  split <;> rfl

@[simp] theorem point_moveTo (point : Point) : (world.moveTo call point).point other =
    if other = call then point else world.point other :=
  world.point_setCall call other _

@[simp] theorem point_publishLocked [DecidableEq Key] (request : RefreshCall Key)
    (result : FetchResult) : (world.publishLocked request call result).point other =
      if other = call then .notifying (world.inflight request.key) result
      else world.point other := by
  cases result <;> exact world.point_moveTo call other _

@[simp] theorem inflight_publishLocked [DecidableEq Key]
    (request : RefreshCall Key) (result : FetchResult) :
    (world.publishLocked request call result).inflight =
      Function.update world.inflight request.key none := by
  cases result <;> rfl

end World

open World

variable [DecidableEq CallId] [DecidableEq Key]

def Point.isUnqueuedAwait : Point → Bool
  | .idle | .acquiring _ | .notified _ | .woken | .fetching => true
  | _ => false

inductive Transition (requests : CallId → RefreshCall Key) (world : World CallId Key) :
    Action CallId → World CallId Key → Prop where
  | tick (elapsed : Duration) :
      Transition requests world (.tick elapsed) { world with now := world.now + elapsed }
  | start {call : CallId} (stands : world.point call = .idle) :
      Transition requests world (.start call) (world.moveTo call (.acquiring .examine))
  | lock {call : CallId} {target : Section} (stands : world.point call = .acquiring target)
      (free : world.lock.holder = none) :
      Transition requests world (.acquire call)
        ((world.moveTo call (.locked target)).enterLock call)
  | enqueue {call : CallId} {target : Section}
      (stands : world.point call = .acquiring target) (taken : world.lock.holder ≠ none) :
      Transition requests world (.acquire call)
        ((world.moveTo call (.queued target)).enterLock call)
  | granted {call : CallId} {target : Section} (stands : world.point call = .queued target)
      (holds : world.lock.holder = some call) :
      Transition requests world (.resume call) (world.moveTo call (.locked target))
  | rewoken {call : CallId} (stands : world.point call = .woken) :
      Transition requests world (.resume call) (world.moveTo call (.acquiring .examine))
  | hit {call : CallId} {credential : DynamicCredential}
      (stands : world.point call = .locked .examine)
      (cached : world.credentials (requests call).key = some credential)
      (fresh : credential.isFreshAt world.now (requests call).refreshWindow = true) :
      Transition requests world (.examine call)
        ((world.setCall call { world.calls call with
          point := .returned (.ok credential), examinedAt := world.now }).leaveLock call)
  | join {call : CallId} {notify : Nat} (stands : world.point call = .locked .examine)
      (entry : world.inflight (requests call).key = some notify) :
      Transition requests world (.examine call)
        ((world.setCall call { world.calls call with
          point := .cloned notify, examinedAt := world.now }).leaveLock call)
  | lead {call : CallId} {fallback : Option DynamicCredential}
      (stands : world.point call = .locked .examine)
      (entry : world.inflight (requests call).key = none)
      (captured : fallback = (world.credentials (requests call).key).filter
        fun credential => decide (world.now < credential.expiresAt)) :
      Transition requests world (.examine call)
        (((world.setCall call { world.calls call with
          point := .fetching, examinedAt := world.now, fallback }).openEntry
            (requests call).key).leaveLock call)
  | createNotified {call : CallId} {notify : Nat}
      (stands : world.point call = .cloned notify) :
      Transition requests world (.createNotified call) (world.moveTo call (.notified notify))
  | completeFetch {call : CallId} {result : FetchResult}
      (stands : world.point call = .fetching) :
      Transition requests world (.completeFetch call result)
        ((world.setCall call { world.calls call with
          point := .acquiring (.publish result), fetchedAt := some world.now }).recordFetch
            (requests call).key result)
  | publish {call : CallId} {result : FetchResult}
      (stands : world.point call = .locked (.publish result)) :
      Transition requests world (.publish call)
        ((world.publishLocked (requests call) call result).leaveLock call)
  | notifyWaiters {call : CallId} {notify : Option Nat} {result : FetchResult}
      (stands : world.point call = .notifying notify result) :
      Transition requests world (.notifyWaiters call)
        ((world.wakeAll notify).moveTo call (.returned (finalResult
          (requests call).allowStillValidFallback (world.calls call).fallback result)))
  | abandon {call : CallId} (stands : (world.point call).isUnqueuedAwait = true) :
      Transition requests world (.drop call) (world.moveTo call .dropped)
  | leave {call : CallId} {target : Section} (stands : world.point call = .queued target) :
      Transition requests world (.drop call) ((world.moveTo call .dropped).leaveLock call)

variable {requests : CallId → RefreshCall Key} {world next : World CallId Key}

theorem Transition.of_examine {call : CallId}
    (stepped : world.examine (requests call) call = some next) :
    Transition requests world (.examine call) next := by
  simp only [examine] at stepped
  split at stepped
  case h_2 => exact absurd stepped (by simp)
  case h_1 stands =>
    cases stepped
    simp only [examineLocked]
    split
    case h_1 credential found =>
      rcases Option.filter_eq_some_iff.mp found with ⟨cached, fresh⟩
      exact .hit stands cached fresh
    case h_2 =>
      split
      case h_1 notify entry => exact .join stands entry
      case h_2 entry => exact .lead stands entry rfl

theorem Transition.of_drop {call : CallId} (stepped : world.drop call = some next) :
    Transition requests world (.drop call) next := by
  simp only [drop] at stepped
  split at stepped
  case h_6 target stands =>
    cases stepped
    exact .leave stands
  case h_7 => exact absurd stepped (by simp)
  all_goals
    rename_i stands
    cases stepped
    exact .abandon (by rw [stands]; rfl)

theorem transition_of_step {action : Action CallId}
    (stepped : step requests world action = some next) :
    Transition requests world action next := by
  cases action with
  | tick elapsed =>
    cases stepped
    exact .tick elapsed
  | start call =>
    simp only [step] at stepped
    split at stepped
    · cases stepped
      exact .start ‹_›
    · cases stepped
  | acquire call =>
    simp only [step, acquire] at stepped
    split at stepped
    · split at stepped
      · cases stepped
        exact .lock ‹_› ‹_›
      · cases stepped
        exact .enqueue ‹_› ‹_›
    · cases stepped
  | resume call =>
    simp only [step, resume] at stepped
    split at stepped
    · split at stepped
      · cases stepped
        exact .granted ‹_› ‹_›
      · cases stepped
    · cases stepped
      exact .rewoken ‹_›
    · cases stepped
  | examine call => exact .of_examine stepped
  | createNotified call =>
    simp only [step, createNotified] at stepped
    split at stepped
    · cases stepped
      exact .createNotified ‹_›
    · cases stepped
  | completeFetch call result =>
    simp only [step, completeFetch] at stepped
    split at stepped
    · cases stepped
      exact .completeFetch ‹_›
    · cases stepped
  | publish call =>
    simp only [step, publish] at stepped
    split at stepped
    · cases stepped
      exact .publish ‹_›
    · cases stepped
  | notifyWaiters call =>
    simp only [step, notifyWaiters] at stepped
    split at stepped
    · cases stepped
      exact .notifyWaiters ‹_›
    · cases stepped
  | drop call => exact .of_drop stepped

end Philo.Auth
