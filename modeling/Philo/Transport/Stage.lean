import Philo.Domain.LlmError
import Philo.Foundation.Async

/-! Deadlines, cancellation, and the stages that bound an await. -/

namespace Philo

open Async

/-- What a request knows about its own lifetime. Cancellation is an event of the
surroundings. -/
structure RequestLifecycle where
  startedAt : Instant
  deadline : Option Instant
  deriving DecidableEq

namespace RequestLifecycle

def remaining (lifecycle : RequestLifecycle) (now : Instant) : Option Duration :=
  lifecycle.deadline.map (· - now)

def preflight (lifecycle : RequestLifecycle) (cancelledAt : Option Instant) (now : Instant) :
    Except LlmError Unit :=
  if cancelledAt.any (· ≤ now) then .error .cancelled
  else if lifecycle.deadline.any (· ≤ now) then
    .error (.timeout ⟨.overall, true, some (now - lifecycle.startedAt), none, none, false⟩)
  else .ok ()

end RequestLifecycle

def lifecyclePreflight (lifecycle : RequestLifecycle) (cancelledAt : Option Instant) :
    Async LlmError Unit := fun now => some (0, lifecycle.preflight cancelledAt now)

/-- A timer that bounds one await: its stage, its limit if it has one, and what a timeout
reports about the attempt. -/
structure StageLimit where
  stage : TimeoutStage
  limit : Option Duration
  attemptNumber : Option UInt32
  domainEventDelivered : Bool

namespace StageLimit

/-- The earlier of the overall deadline and the end of the stage, and whether it is
the overall one. -/
def effectiveDeadline (stage : StageLimit) (lifecycle : RequestLifecycle) (now : Instant) :
    Option Instant × Bool :=
  match lifecycle.deadline, stage.limit.map (now + ·) with
  | some overall, some stageEnd =>
    if overall ≤ stageEnd then (some overall, true) else (some stageEnd, false)
  | none, some stageEnd => (some stageEnd, false)
  | some overall, none => (some overall, true)
  | none, none => (none, false)

def timeoutError (stage : StageLimit) (lifecycle : RequestLifecycle) (overallLimited : Bool)
    (now : Instant) : LlmError :=
  .timeout ⟨stage.stage, overallLimited, some (now - lifecycle.startedAt), stage.limit,
    stage.attemptNumber, stage.domainEventDelivered⟩

end StageLimit

section Await

variable {α : Type}

/-- `await_with_stage`: the select is biased, so cancellation comes before the timer and
the timer before the future. -/
def awaitWithStage (lifecycle : RequestLifecycle) (cancelledAt : Option Instant)
    (stage : StageLimit) (future : Async LlmError α) : Async LlmError α := fun now =>
  match lifecycle.preflight cancelledAt now with
  | .error error => some (0, .error error)
  | .ok () =>
    let (deadline, overallLimited) := stage.effectiveDeadline lifecycle now
    unlessAt cancelledAt (fun _ => .cancelled)
      (unlessAt deadline (stage.timeoutError lifecycle overallLimited) future) now

def awaitWithLifecycle (lifecycle : RequestLifecycle) (cancelledAt : Option Instant)
    (future : Async LlmError α) : Async LlmError α :=
  awaitWithStage lifecycle cancelledAt ⟨.overall, none, none, false⟩ future

theorem future_of_awaitWithStage {lifecycle : RequestLifecycle} {cancelledAt : Option Instant}
    {stage : StageLimit} {future : Async LlmError α} {now elapsed : Nat} {value : α}
    (awaited : awaitWithStage lifecycle cancelledAt stage future now =
      some (elapsed, .ok value)) : future now = some (elapsed, .ok value) := by
  unfold awaitWithStage at awaited
  split at awaited
  · simp at awaited
  · exact (unlessAt_eq_ok.mp (unlessAt_eq_ok.mp awaited).1).1

section Undisturbed

variable {lifecycle : RequestLifecycle} (noDeadline : lifecycle.deadline = none)
  {stage : TimeoutStage} {limit : Duration} {attemptNumber : Option UInt32} {delivered : Bool}

include noDeadline

/-- Without a deadline and without cancellation, only the stage's own timer is left. -/
theorem awaitWithStage_undisturbed (future : Async LlmError α) (now : Instant) :
    awaitWithStage lifecycle none ⟨stage, some limit, attemptNumber, delivered⟩ future now =
      unlessAt (some (now + limit))
        (StageLimit.timeoutError ⟨stage, some limit, attemptNumber, delivered⟩ lifecycle false)
        future now := by
  simp [awaitWithStage, RequestLifecycle.preflight, StageLimit.effectiveDeadline, noDeadline]

theorem awaitWithStage_undisturbed_eq_ok {future : Async LlmError α} {now elapsed : Nat}
    {value : α} :
    awaitWithStage lifecycle none ⟨stage, some limit, attemptNumber, delivered⟩ future now =
        some (elapsed, .ok value) ↔
      future now = some (elapsed, .ok value) ∧ elapsed < limit := by
  rw [awaitWithStage_undisturbed noDeadline, unlessAt_eq_ok]
  simp

theorem awaitWithStage_resolvesWithin (future : Async LlmError α) (now : Instant) :
    (awaitWithStage lifecycle none ⟨stage, some limit, attemptNumber, delivered⟩
      future).ResolvesWithin now limit := by
  have resolves := resolvesWithin_unlessAt (now + limit)
    (StageLimit.timeoutError ⟨stage, some limit, attemptNumber, delivered⟩ lifecycle false)
    future now
  rw [Nat.add_sub_cancel_left] at resolves
  simpa only [ResolvesWithin, awaitWithStage_undisturbed noDeadline] using resolves

theorem lifecyclePreflight_undisturbed (now : Instant) :
    lifecyclePreflight lifecycle none now = some (0, .ok ()) := by
  simp [lifecyclePreflight, RequestLifecycle.preflight, noDeadline]

end Undisturbed

end Await

end Philo
