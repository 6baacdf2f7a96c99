import Philo.Foundation.FairLock
import Philo.Foundation.System
import Philo.Provider.Auth.Credential

/-! `DynamicCredentialCache::get_or_refresh` under concurrency. A call is at one
of its control points; every action moves one call from one point to the next, so
that a run is an arbitrary interleaving. Code between two control points touches
no shared state, or does so while holding the lock, and runs in one action.

The lock is tokio's fair `Mutex`: a released permit goes to the task that has
waited longest, which holds it even before it is polled again. -/

namespace Philo.Auth

open Std Function

/-- The arguments of one call. The cache compares keys and does nothing else with
them, so their type is left open. -/
structure RefreshCall (Key : Type) where
  key : Key
  refreshWindow : Duration
  allowStillValidFallback : Bool

abbrev FetchResult := Except LlmError DynamicCredential

inductive Section where
  | examine
  | publish (result : FetchResult)

inductive Point where
  /-- The future exists and was not polled. -/
  | idle
  /-- In `state.lock().await`, not queued yet: the first poll is still to come, or
  was put off by the runtime. -/
  | acquiring (target : Section)
  /-- Suspended in `state.lock().await`. -/
  | queued (target : Section)
  /-- Holding the guard. -/
  | locked (target : Section)
  /-- The guard is gone, the clone of the `Notify` is at hand. -/
  | cloned (notify : Nat)
  /-- Suspended in `notified().await`. -/
  | notified (notify : Nat)
  /-- Woken by `notify_waiters` and not polled yet. -/
  | woken
  /-- Suspended in `fetch().await`. -/
  | fetching
  /-- The second guard is gone, `notify_waiters` is still to be called. -/
  | notifying (notify : Option Nat) (result : FetchResult)
  | returned (result : FetchResult)
  | dropped

/-- A call in progress. The two instants are history: no action reads them. -/
structure Progress where
  point : Point
  fallback : Option DynamicCredential
  examinedAt : Instant
  fetchedAt : Option Instant

/-- The shared state and all calls. `produced` is history as well: every
credential that a fetch returned, with the key it was fetched under. -/
structure World (CallId Key : Type) where
  now : Instant
  credentials : Key → Option DynamicCredential
  inflight : Key → Option Nat
  nextNotify : Nat
  lock : FairLock CallId
  calls : CallId → Progress
  produced : List (Key × DynamicCredential)

inductive Action (CallId : Type) where
  | tick (elapsed : Duration)
  | start (call : CallId)
  | acquire (call : CallId)
  | resume (call : CallId)
  | examine (call : CallId)
  | createNotified (call : CallId)
  | completeFetch (call : CallId) (result : FetchResult)
  | publish (call : CallId)
  | notifyWaiters (call : CallId)
  | drop (call : CallId)

def finalResult (allowStillValidFallback : Bool) (fallback : Option DynamicCredential) :
    FetchResult → FetchResult
  | .ok credential => .ok credential
  | .error error =>
    match allowStillValidFallback, fallback with
    | true, some credential => .ok credential
    | true, none | false, _ => .error error

namespace World

variable {CallId Key : Type} [DecidableEq CallId] [DecidableEq Key]

def initial : World CallId Key where
  now := 0
  credentials _ := none
  inflight _ := none
  nextNotify := 0
  lock := .free
  calls _ := ⟨.idle, none, 0, none⟩
  produced := []

def point (world : World CallId Key) (call : CallId) : Point := (world.calls call).point

def setCall (world : World CallId Key) (call : CallId) (progress : Progress) :
    World CallId Key :=
  { world with calls := update world.calls call progress }

def moveTo (world : World CallId Key) (call : CallId) (point : Point) : World CallId Key :=
  world.setCall call { world.calls call with point }

def enterLock (world : World CallId Key) (call : CallId) : World CallId Key :=
  { world with lock := world.lock.enter call }

def leaveLock (world : World CallId Key) (call : CallId) : World CallId Key :=
  { world with lock := world.lock.leave call }

def acquire (world : World CallId Key) (call : CallId) : Option (World CallId Key) :=
  match world.point call with
  | .acquiring target =>
    if world.lock.holder = none then
      some ((world.moveTo call (.locked target)).enterLock call)
    else some ((world.moveTo call (.queued target)).enterLock call)
  | _ => none

def resume (world : World CallId Key) (call : CallId) : Option (World CallId Key) :=
  match world.point call with
  | .queued target =>
    if world.lock.holder = some call then some (world.moveTo call (.locked target))
    else none
  | .woken => some (world.moveTo call (.acquiring .examine))
  | _ => none

def openEntry (world : World CallId Key) (key : Key) : World CallId Key :=
  { world with
    inflight := update world.inflight key (some world.nextNotify)
    nextNotify := world.nextNotify + 1 }

/-- The first critical section, up to the end of its block. -/
def examineLocked (request : RefreshCall Key) (world : World CallId Key) (call : CallId) :
    World CallId Key :=
  let cached := world.credentials request.key
  let progress := { world.calls call with examinedAt := world.now }
  match cached.filter (·.isFreshAt world.now request.refreshWindow) with
  | some credential => world.setCall call { progress with point := .returned (.ok credential) }
  | none =>
    match world.inflight request.key with
    | some notify => world.setCall call { progress with point := .cloned notify }
    | none =>
      let fallback := cached.filter fun credential => decide (world.now < credential.expiresAt)
      (world.setCall call { progress with point := .fetching, fallback }).openEntry
        request.key

def examine (request : RefreshCall Key) (world : World CallId Key) (call : CallId) :
    Option (World CallId Key) :=
  match world.point call with
  | .locked .examine => some ((world.examineLocked request call).leaveLock call)
  | _ => none

def createNotified (world : World CallId Key) (call : CallId) : Option (World CallId Key) :=
  match world.point call with
  | .cloned notify => some (world.moveTo call (.notified notify))
  | _ => none

def recordFetch (world : World CallId Key) (key : Key) : FetchResult → World CallId Key
  | .ok credential => { world with produced := (key, credential) :: world.produced }
  | .error _ => world

def completeFetch (request : RefreshCall Key) (world : World CallId Key) (call : CallId)
    (result : FetchResult) : Option (World CallId Key) :=
  match world.point call with
  | .fetching =>
    let progress := { world.calls call with
      point := .acquiring (.publish result), fetchedAt := some world.now }
    some ((world.setCall call progress).recordFetch request.key result)
  | _ => none

def storeCredential (world : World CallId Key) (key : Key) : FetchResult → World CallId Key
  | .ok credential => { world with credentials := update world.credentials key (some credential) }
  | .error _ => world

def closeEntry (world : World CallId Key) (key : Key) : World CallId Key :=
  { world with inflight := update world.inflight key none }

/-- The second critical section, up to `drop(state)`. -/
def publishLocked (request : RefreshCall Key) (world : World CallId Key) (call : CallId)
    (result : FetchResult) : World CallId Key :=
  (world.moveTo call (.notifying (world.inflight request.key) result)).storeCredential
    request.key result |>.closeEntry request.key

def publish (request : RefreshCall Key) (world : World CallId Key) (call : CallId) :
    Option (World CallId Key) :=
  match world.point call with
  | .locked (.publish result) => some ((world.publishLocked request call result).leaveLock call)
  | _ => none

/-- `notify_waiters` wakes the `Notified` futures that exist now. -/
def wake (notify : Option Nat) : Point → Point
  | .notified waitsFor => if notify = some waitsFor then .woken else .notified waitsFor
  | point => point

def wakeAll (world : World CallId Key) (notify : Option Nat) : World CallId Key :=
  { world with calls := fun call =>
      { world.calls call with point := wake notify (world.calls call).point } }

def notifyWaiters (request : RefreshCall Key) (world : World CallId Key) (call : CallId) :
    Option (World CallId Key) :=
  match world.point call with
  | .notifying notify result =>
    let final := finalResult request.allowStillValidFallback (world.calls call).fallback
      result
    some ((world.wakeAll notify).moveTo call (.returned final))
  | _ => none

/-- Dropping the future at an await point, or before its first poll. A queued
future gives up its place, or the permit that it was handed. -/
def drop (world : World CallId Key) (call : CallId) : Option (World CallId Key) :=
  match world.point call with
  | .idle | .acquiring _ | .notified _ | .woken | .fetching => some (world.moveTo call .dropped)
  | .queued _ => some ((world.moveTo call .dropped).leaveLock call)
  | _ => none

end World

variable {CallId Key : Type} [DecidableEq CallId] [DecidableEq Key]

def step (requests : CallId → RefreshCall Key) (world : World CallId Key) :
    Action CallId → Option (World CallId Key)
  | .tick elapsed => some { world with now := world.now + elapsed }
  | .start call =>
    match world.point call with
    | .idle => some (world.moveTo call (.acquiring .examine))
    | _ => none
  | .acquire call => world.acquire call
  | .resume call => world.resume call
  | .examine call => world.examine (requests call) call
  | .createNotified call => world.createNotified call
  | .completeFetch call result => world.completeFetch (requests call) call result
  | .publish call => world.publish (requests call) call
  | .notifyWaiters call => world.notifyWaiters (requests call) call
  | .drop call => world.drop call

def cacheSystem (requests : CallId → RefreshCall Key) :
    System (World CallId Key) (Action CallId) where
  step := step requests

end Philo.Auth
