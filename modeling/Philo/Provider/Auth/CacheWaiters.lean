import Philo.Provider.Auth.CacheProgress

/-! The calls that wait for a refresh of another call. -/

namespace Philo.Auth

open World

variable {CallId Key : Type}

def Point.waitsOn : Point → Option Nat
  | .cloned notify | .notified notify => some notify
  | _ => none

/-- Whoever waits for a `Notify` will be notified: it is still in the table, or its
refresher is on the way to `notify_waiters`. -/
def WaitersServed (world : World CallId Key) : Prop :=
  ∀ call notify, (world.point call).waitsOn = some notify →
    (∃ key, world.inflight key = some notify) ∨
      ∃ other result, world.point other = .notifying (some notify) result

def Point.unregistered : Point → Option Nat
  | .cloned notify => some notify
  | _ => none

def Point.fires : Point → Option Nat
  | .notifying notify _ => notify
  | _ => none

/-- When a `Notify` fires, no call is in the window between reading it and
registering with it. -/
def RegisteredInTime (world : World CallId Key) : Action CallId → Prop
  | .notifyWaiters call => ∀ notify ∈ (world.point call).fires, ∀ other,
      (world.point other).unregistered ≠ some notify
  | _ => True

instance [Fintype CallId] (world : World CallId Key) (action : Action CallId) :
    Decidable (RegisteredInTime world action) :=
  match action with
  | .notifyWaiters call => inferInstanceAs (Decidable (∀ notify ∈ (world.point call).fires,
      ∀ other, (world.point other).unregistered ≠ some notify))
  | .tick _ | .start _ | .acquire _ | .resume _ | .examine _ | .createNotified _
  | .completeFetch _ _ | .publish _ | .drop _ => isTrue trivial

theorem waitersServed_initial : WaitersServed (initial : World CallId Key) := by
  intro call notify waits
  cases waits

variable {world next : World CallId Key}

/-- Steps that lose neither an entry nor a notifier, and whose new waiters found an
entry. -/
theorem WaitersServed.of_kept (served : WaitersServed world)
    (waiters : ∀ call notify, (next.point call).waitsOn = some notify →
      (world.point call).waitsOn = some notify ∨ ∃ key, world.inflight key = some notify)
    (entries : ∀ key notify, world.inflight key = some notify →
      next.inflight key = some notify)
    (notifiers : ∀ call notify result, world.point call = .notifying (some notify) result →
      next.point call = .notifying (some notify) result) : WaitersServed next := by
  intro call notify waits
  have before : (∃ key, world.inflight key = some notify) ∨
      ∃ other result, world.point other = .notifying (some notify) result := by
    rcases waiters call notify waits with waited | found
    · exact served call notify waited
    · exact .inl found
  rcases before with ⟨key, entry⟩ | ⟨other, result, fires⟩
  · exact .inl ⟨key, entries key notify entry⟩
  · exact .inr ⟨other, result, notifiers other notify result fires⟩

variable [DecidableEq CallId] {call : CallId} {progress : Progress}

theorem WaitersServed.setCall (served : WaitersServed world)
    (noNotifier : ∀ notify result, world.point call ≠ .notifying notify result)
    (waiters : ∀ notify, progress.point.waitsOn = some notify →
      (world.point call).waitsOn = some notify ∨ ∃ key, world.inflight key = some notify) :
    WaitersServed (world.setCall call progress) := by
  refine served.of_kept ?_ (fun _ _ entry => entry) ?_
  · intro other notify waits
    rw [point_setCall] at waits
    split at waits
    case isTrue same =>
      rw [same]
      exact waiters notify waits
    case isFalse => exact .inl waits
  · intro other notify result fires
    have different : other ≠ call := fun same => noNotifier _ _ (same ▸ fires)
    rw [point_setCall, if_neg different]
    exact fires

theorem WaitersServed.notifyWaiters (served : WaitersServed world) {notify : Option Nat}
    {result final : FetchResult} (stands : world.point call = .notifying notify result)
    (inTime : ∀ fired ∈ notify, ∀ other, (world.point other).unregistered ≠ some fired) :
    WaitersServed ((world.wakeAll notify).moveTo call (.returned final)) := by
  intro waiter waitsFor waits
  have different : waiter ≠ call := by
    intro same
    simp [same, Point.waitsOn] at waits
  rw [point_moveTo, if_neg different, point_wakeAll] at waits
  -- Whoever still waits was not registered with the `Notify` that fired.
  have waited : (world.point waiter).waitsOn = some waitsFor ∧ notify ≠ some waitsFor := by
    cases place : world.point waiter with
    | cloned source =>
      rw [place] at waits
      cases waits
      exact ⟨rfl, fun fires => inTime waitsFor fires waiter (by rw [place]; rfl)⟩
    | notified source =>
      rw [place, wake] at waits
      split at waits
      case isTrue => cases waits
      case isFalse otherNotify =>
        cases waits
        exact ⟨rfl, otherNotify⟩
    | _ =>
      rw [place] at waits
      cases waits
  rcases served waiter waitsFor waited.1 with ⟨key, entry⟩ | ⟨other, pending, fires⟩
  · exact .inl ⟨key, entry⟩
  · have notCall : other ≠ call := by
      intro same
      rw [same, stands] at fires
      cases fires
      exact waited.2 rfl
    refine .inr ⟨other, pending, ?_⟩
    rw [point_moveTo, if_neg notCall, point_wakeAll, fires]
    rfl

variable [DecidableEq Key] {requests : CallId → RefreshCall Key} {action : Action CallId}

omit [DecidableEq CallId] in
theorem WaitersServed.openEntry (served : WaitersServed world) {key : Key}
    (absent : world.inflight key = none) : WaitersServed (world.openEntry key) := by
  refine served.of_kept (fun _ _ waits => .inl waits) ?_ (fun _ _ _ fires => fires)
  intro other notify entry
  have different : other ≠ key := by
    intro same
    rw [same, absent] at entry
    cases entry
  exact (Function.update_of_ne different ..).trans entry

theorem WaitersServed.publishLocked (served : WaitersServed world) {result : FetchResult}
    {request : RefreshCall Key} (stands : world.point call = .locked (.publish result)) :
    WaitersServed (world.publishLocked request call result) := by
  intro waiter waitsFor waits
  have different : waiter ≠ call := by
    intro same
    simp [same, Point.waitsOn] at waits
  rw [point_publishLocked, if_neg different] at waits
  rcases served waiter waitsFor waits with ⟨key, entry⟩ | ⟨other, pending, fires⟩
  · by_cases sameKey : key = request.key
    · refine .inr ⟨call, result, ?_⟩
      rw [point_publishLocked, if_pos rfl, ← sameKey, entry]
    · refine .inl ⟨key, ?_⟩
      rw [inflight_publishLocked, Function.update_of_ne sameKey]
      exact entry
  · have notCall : other ≠ call := by
      intro same
      simp [same, stands] at fires
    refine .inr ⟨other, pending, ?_⟩
    rw [point_publishLocked, if_neg notCall]
    exact fires

theorem WaitersServed.afterStep (served : WaitersServed world)
    (inTime : RegisteredInTime world action) (undropped : ∀ call, action ≠ .drop call)
    (transition : Transition requests world action next) : WaitersServed next := by
  cases transition with
  | tick elapsed => exact served
  | start stands => exact served.setCall (by simp [stands]) (by simp [Point.waitsOn])
  | lock stands free => exact served.setCall (by simp [stands]) (by simp [Point.waitsOn])
  | enqueue stands taken => exact served.setCall (by simp [stands]) (by simp [Point.waitsOn])
  | granted stands holds => exact served.setCall (by simp [stands]) (by simp [Point.waitsOn])
  | rewoken stands => exact served.setCall (by simp [stands]) (by simp [Point.waitsOn])
  | hit stands cached fresh => exact served.setCall (by simp [stands]) (by simp [Point.waitsOn])
  | join stands entry =>
    refine served.setCall (by simp [stands]) ?_
    rintro _ ⟨⟩
    exact .inr ⟨_, entry⟩
  | lead stands entry captured =>
    exact (served.setCall (by simp [stands]) (by simp [Point.waitsOn])).openEntry entry
  | createNotified stands =>
    refine served.setCall (by simp [stands]) ?_
    rintro _ ⟨⟩
    exact .inl (by rw [stands]; rfl)
  | @completeFetch call result stands =>
    cases result <;> exact served.setCall (by simp [stands]) (by simp [Point.waitsOn])
  | publish stands => exact served.publishLocked stands
  | notifyWaiters stands =>
    refine served.notifyWaiters stands ?_
    rw [RegisteredInTime, stands] at inTime
    exact inTime
  | @abandon call stands => exact absurd rfl (undropped call)
  | @leave call target stands => exact absurd rfl (undropped call)

/-! ## Executions at rest -/

def World.runnable (world : World CallId Key) (call : CallId) : Bool :=
  match world.point call with
  | .queued _ => decide (world.lock.holder = some call)
  | .notified _ | .returned _ | .dropped => false
  | _ => true

omit [DecidableEq Key] in
theorem LockConsistent.outside_of_rest (consistent : LockConsistent world)
    (rest : ∀ call, world.runnable call = false) (call : CallId) :
    (world.point call).lockStage = .outside := by
  have notLocked : ∀ other target, world.point other ≠ .locked target := by
    intro other target stands
    simpa [runnable, stands] using rest other
  cases place : world.point call with
  | locked target => exact absurd place (notLocked call target)
  | queued target =>
    have waits : world.lockStage call = .waiting := by
      rw [lockStage, place]
      rfl
    rcases consistent.exists_holder waits with ⟨other, holds, isInside⟩
    have atRest := rest other
    rw [lockStage] at isInside
    cases otherPlace : world.point other with
    | locked otherTarget => exact absurd otherPlace (notLocked other otherTarget)
    | queued otherTarget => simp [runnable, otherPlace, holds] at atRest
    | _ => simp [otherPlace, Point.lockStage] at isInside
  | _ => rfl

omit [DecidableEq Key] in
/-- When no task can go on, every call that was not dropped has returned. -/
theorem returned_of_rest (owned : EntriesOwned requests world)
    (consistent : LockConsistent world) (served : WaitersServed world)
    (undropped : ∀ call, world.point call ≠ .dropped)
    (rest : ∀ call, world.runnable call = false) (call : CallId) :
    ∃ result, world.point call = .returned result := by
  have outside := consistent.outside_of_rest rest
  have noOwner : ∀ key other, ¬ Owns requests world key other := by
    intro key other owns
    have atRest := rest other
    have otherOutside := outside other
    have isOwner := owns.2
    cases place : world.point other <;>
      simp [runnable, place, Point.ownsEntry, Point.lockStage] at atRest otherOutside isOwner
  have atRest := rest call
  cases place : world.point call with
  | returned result => exact ⟨result, rfl⟩
  | dropped => exact absurd place (undropped call)
  | queued target =>
    have isOutside := outside call
    simp [place, Point.lockStage] at isOutside
  | notified notify =>
    rcases served call notify (by rw [place]; rfl) with ⟨key, entry⟩ | ⟨other, result, fires⟩
    · rcases (owned.exact key).mp (by rw [entry]; rfl) with ⟨owner, owns⟩
      exact absurd owns (noOwner key owner)
    · have otherAtRest := rest other
      simp [runnable, fires] at otherAtRest
  | _ => simp [runnable, place] at atRest

/-! ## Runs without dropped futures -/

def Undropped (world : World CallId Key) : Prop := ∀ call, world.point call ≠ .dropped

omit [DecidableEq Key] in
theorem Undropped.setCall (undropped : Undropped world) (stays : progress.point ≠ .dropped) :
    Undropped (world.setCall call progress) := by
  intro other
  rw [point_setCall]
  split
  case isTrue => exact stays
  case isFalse => exact undropped other

omit [DecidableEq CallId] [DecidableEq Key] in
theorem Undropped.wakeAll (undropped : Undropped world) (notify : Option Nat) :
    Undropped (world.wakeAll notify) := by
  intro other
  rw [point_wakeAll]
  rcases wake_cases notify (world.point other) with same | ⟨waitsFor, _, woken⟩
  · rw [same]
    exact undropped other
  · simp [woken]

theorem Undropped.afterStep (undropped : Undropped world) (noDrop : ∀ call, action ≠ .drop call)
    (transition : Transition requests world action next) : Undropped next := by
  cases transition with
  | tick elapsed => exact undropped
  | completeFetch stands =>
    rename_i call result
    cases result <;> exact undropped.setCall (by simp)
  | publish stands =>
    rename_i call result
    cases result <;> exact undropped.setCall (by simp)
  | notifyWaiters stands => exact (undropped.wakeAll _).setCall (by simp)
  | abandon stands => exact absurd rfl (noDrop _)
  | leave stands => exact absurd rfl (noDrop _)
  | _ => exact undropped.setCall (by simp)

structure Sound (requests : CallId → RefreshCall Key) (world : World CallId Key) : Prop where
  owned : EntriesOwned requests world
  consistent : LockConsistent world
  served : WaitersServed world
  undropped : Undropped world

omit [DecidableEq CallId] [DecidableEq Key] in
theorem sound_initial : Sound requests (initial : World CallId Key) where
  owned := entriesOwned_initial
  consistent := lockConsistent_initial
  served := waitersServed_initial
  undropped := by simp [Undropped, initial, point]

theorem Sound.afterStep (sound : Sound requests world)
    (noDrop : ∀ call, action ≠ .drop call) (inTime : RegisteredInTime world action)
    (stepped : step requests world action = some next) : Sound requests next := by
  have transition := transition_of_step stepped
  have kept : ¬ Abandons world action := by
    rintro ⟨call, isDrop, _⟩
    exact noDrop call isDrop
  exact {
    owned := sound.owned.afterStep kept stepped
    consistent := sound.consistent.afterStep transition
    served := sound.served.afterStep inTime noDrop transition
    undropped := sound.undropped.afterStep noDrop transition }

end Philo.Auth
