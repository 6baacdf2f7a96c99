import Mathlib.Algebra.BigOperators.Ring.Finset
import Mathlib.Algebra.Group.Action.Defs
import Mathlib.Algebra.Order.BigOperators.Group.Finset
import Philo.Provider.Auth.CacheInvariant

/-! Which calls return. Every action of a call uses up some of the work that is
left, so a fair execution comes to rest; a call that is suspended there was either
left waiting by a lost notification or does not exist. -/

namespace Philo.Auth

open World Finset

variable {CallId Key : Type}

/-! ## The lock -/

def Point.lockStage : Point → LockStage
  | .queued _ => .waiting
  | .locked _ => .holding
  | _ => .outside

def World.lockStage (world : World CallId Key) (call : CallId) : LockStage :=
  (world.point call).lockStage

def LockConsistent (world : World CallId Key) : Prop := world.lock.Consistent world.lockStage

theorem lockConsistent_initial : LockConsistent (initial : World CallId Key) :=
  FairLock.consistent_free

theorem lockStage_wakeAll (world : World CallId Key) (notify : Option Nat) :
    (world.wakeAll notify).lockStage = world.lockStage := by
  funext call
  rw [lockStage, lockStage, point_wakeAll]
  rcases wake_cases notify (world.point call) with same | ⟨waitsFor, stands, woken⟩
  · rw [same]
  · rw [woken, stands]
    rfl

variable [DecidableEq CallId]

theorem lockStage_setCall (world : World CallId Key) (call : CallId) (progress : Progress) :
    (world.setCall call progress).lockStage =
      Function.update world.lockStage call progress.point.lockStage := by
  funext other
  rw [lockStage, point_setCall, Function.update_apply]
  split <;> rfl

theorem lockStage_kept {world : World CallId Key} {call : CallId} {progress : Progress}
    (same : progress.point.lockStage = (world.point call).lockStage) :
    (world.setCall call progress).lockStage = world.lockStage := by
  rw [lockStage_setCall, same]
  exact Function.update_eq_self call world.lockStage

variable [DecidableEq Key] {requests : CallId → RefreshCall Key}
  {world next : World CallId Key} {action : Action CallId}

section

omit [DecidableEq Key]
variable {call : CallId} {progress : Progress}

theorem LockConsistent.setCall (consistent : LockConsistent world)
    (same : progress.point.lockStage = (world.point call).lockStage) :
    LockConsistent (world.setCall call progress) := by
  rw [LockConsistent, lockStage_kept same]
  exact consistent

theorem LockConsistent.enterLock (consistent : LockConsistent world)
    (outside : (world.point call).lockStage = .outside)
    (inside : progress.point.lockStage ≠ .outside)
    (granted : progress.point.lockStage = .holding → world.lock.holder = none) :
    LockConsistent ((world.setCall call progress).enterLock call) := by
  have entered := consistent.enter call outside inside granted
  rw [← lockStage_setCall] at entered
  exact entered

theorem LockConsistent.grant (consistent : LockConsistent world)
    (holds : world.lock.holder = some call) (holding : progress.point.lockStage = .holding) :
    LockConsistent (world.setCall call progress) := by
  have granted := FairLock.Consistent.grant consistent holds
  rw [← holding, ← lockStage_setCall] at granted
  exact granted

theorem LockConsistent.leaveLock (consistent : LockConsistent world)
    (outside : progress.point.lockStage = .outside) :
    LockConsistent ((world.setCall call progress).leaveLock call) := by
  have left := consistent.leave call
  rw [← outside, ← lockStage_setCall] at left
  exact left

end

theorem LockConsistent.afterStep (consistent : LockConsistent world)
    (transition : Transition requests world action next) : LockConsistent next := by
  cases transition with
  | tick elapsed => exact consistent
  | start stands => exact consistent.setCall (by rw [stands]; rfl)
  | lock stands free =>
    exact consistent.enterLock (by rw [stands]; rfl) (by simp [Point.lockStage]) fun _ => free
  | enqueue stands taken =>
    exact consistent.enterLock (by rw [stands]; rfl) (by simp [Point.lockStage])
      (by simp [Point.lockStage])
  | granted stands holds => exact consistent.grant holds rfl
  | rewoken stands => exact consistent.setCall (by rw [stands]; rfl)
  | hit stands cached fresh => exact consistent.leaveLock rfl
  | join stands entry => exact consistent.leaveLock rfl
  | lead stands entry captured => exact consistent.leaveLock rfl
  | createNotified stands => exact consistent.setCall (by rw [stands]; rfl)
  | @completeFetch call result stands =>
    cases result <;> exact consistent.setCall (by rw [stands]; rfl)
  | @publish call result stands => cases result <;> exact consistent.leaveLock rfl
  | @notifyWaiters call notify result stands =>
    have woken : LockConsistent (world.wakeAll notify) := by
      rw [LockConsistent, lockStage_wakeAll]
      exact consistent
    exact woken.setCall (by rw [point_wakeAll, stands]; rfl)
  | @abandon call stands =>
    have outside : (world.point call).lockStage = .outside := by
      cases place : world.point call <;> simp_all [Point.isUnqueuedAwait, Point.lockStage]
    exact consistent.setCall outside.symm
  | leave stands => exact consistent.leaveLock rfl

/-! ## The work that is left -/

/-- What a call has before it until it returns. A call that is notified starts
over, so the one that notifies sets aside five units for each call. -/
def Point.work (calls : Nat) : Point → Nat
  | .idle | .woken => 5 * calls + 12
  | .acquiring .examine => 5 * calls + 11
  | .queued .examine => 5 * calls + 10
  | .locked .examine => 5 * calls + 9
  | .cloned _ | .fetching => 5 * calls + 8
  | .notified _ | .acquiring (.publish _) => 5 * calls + 7
  | .queued (.publish _) => 5 * calls + 6
  | .locked (.publish _) => 5 * calls + 5
  | .notifying _ _ => 5 * calls + 4
  | .returned _ | .dropped => 0

variable [Fintype CallId]

def World.work (world : World CallId Key) : Nat :=
  ∑ call, (world.point call).work (Fintype.card CallId)

omit [DecidableEq Key] in
theorem work_setCall_lt {call : CallId} {progress : Progress}
    (less : progress.point.work (Fintype.card CallId) <
      (world.point call).work (Fintype.card CallId)) :
    (world.setCall call progress).work < world.work := by
  refine sum_lt_sum ?_ ⟨call, mem_univ call, ?_⟩
  · intro other _
    rw [point_setCall]
    split
    case isTrue same => exact same ▸ Nat.le_of_lt less
    case isFalse => exact Nat.le_refl _
  · rw [point_setCall, if_pos rfl]
    exact less

theorem work_wake_le (calls : Nat) (notify : Option Nat) (point : Point) :
    (wake notify point).work calls ≤ point.work calls + 5 := by
  rcases wake_cases notify point with same | ⟨waitsFor, rfl, woken⟩
  · rw [same]
    exact Nat.le_add_right ..
  · rw [woken]
    exact Nat.le_refl _

omit [DecidableEq Key] in
theorem work_notifyWaiters_lt {call : CallId} {notify : Option Nat} {result final : FetchResult}
    (stands : world.point call = .notifying notify result) :
    ((world.wakeAll notify).moveTo call (.returned final)).work < world.work := by
  let calls := Fintype.card CallId
  let next := (world.wakeAll notify).moveTo call (.returned final)
  have pointwise : ∀ other ∈ univ, (next.point other).work calls +
      (if other = call then 5 * calls + 4 else 0) ≤ (world.point other).work calls + 5 := by
    intro other _
    by_cases same : other = call
    · subst same
      simp [next, stands, Point.work]
    · simpa [next, same] using work_wake_le calls notify (world.point other)
  have summed := sum_le_sum pointwise
  simp only [sum_add_distrib, sum_ite_eq', mem_univ, if_true,
    sum_const, card_univ, smul_eq_mul] at summed
  change next.work + (5 * calls + 4) ≤ world.work + calls * 5 at summed
  change next.work < world.work
  omega

def Action.call? : Action CallId → Option CallId
  | .tick _ => none
  | .start call | .acquire call | .resume call | .examine call | .createNotified call
  | .completeFetch call _ | .publish call | .notifyWaiters call | .drop call => some call

theorem Transition.work_le_of_tick (transition : Transition requests world action next)
    (noPoll : ¬ action.call?.isSome = true) : next.work ≤ world.work := by
  cases transition with
  | tick elapsed => exact Nat.le_refl _
  | _ => exact absurd rfl noPoll

theorem Transition.work_lt (transition : Transition requests world action next)
    (polls : action.call?.isSome = true) : next.work < world.work := by
  cases transition with
  | tick elapsed => cases polls
  | start stands => exact work_setCall_lt (by simp [stands, Point.work])
  | @lock call target stands free =>
    exact work_setCall_lt (by cases target <;> simp [stands, Point.work])
  | @enqueue call target stands taken =>
    exact work_setCall_lt (by cases target <;> simp [stands, Point.work])
  | @granted call target stands holds =>
    exact work_setCall_lt (by cases target <;> simp [stands, Point.work])
  | rewoken stands => exact work_setCall_lt (by simp [stands, Point.work])
  | hit stands cached fresh => exact work_setCall_lt (by simp [stands, Point.work])
  | join stands entry => exact work_setCall_lt (by simp [stands, Point.work])
  | lead stands entry captured => exact work_setCall_lt (by simp [stands, Point.work])
  | createNotified stands => exact work_setCall_lt (by simp [stands, Point.work])
  | @completeFetch call result stands =>
    cases result <;> exact work_setCall_lt (by simp [stands, Point.work])
  | @publish call result stands =>
    cases result <;> exact work_setCall_lt (by simp [stands, Point.work])
  | notifyWaiters stands => exact work_notifyWaiters_lt stands
  | @abandon call stands =>
    refine work_setCall_lt ?_
    cases place : world.point call with
    | acquiring target => cases target <;> simp [Point.work]
    | _ => simp_all [Point.work, Point.isUnqueuedAwait]
  | @leave call target stands =>
    exact work_setCall_lt (by cases target <;> simp [stands, Point.work])

end Philo.Auth
