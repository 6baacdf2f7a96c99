import Philo.Client.Call

/-! What the steps of a call are made of. Every step is a chain of a few moves, so that a
fact about calls holds in every state of a run as soon as each move keeps it. -/

namespace Philo

open Relation Result

/-! ## Events that decide nothing -/

def LifecycleEventKind.isQuiet : LifecycleEventKind → Bool
  | .attemptStarted _ | .retryScheduled .. => false
  | _ => true

/-- The events only add to what is known about a call that goes on: none is an end of the
trace, an attempt or a wait. -/
def Notes (kinds : List LifecycleEventKind) : Prop :=
  (kinds.all fun kind => kind.isInner && kind.isQuiet) = true

section Notes

variable {kinds : List LifecycleEventKind}

theorem Notes.isInner (notes : Notes kinds) : ∀ kind ∈ kinds, kind.isInner = true :=
  fun kind member => (Bool.and_eq_true_iff.mp (List.all_eq_true.mp notes kind member)).1

theorem Notes.isQuiet (notes : Notes kinds) : ∀ kind ∈ kinds, kind.isQuiet = true :=
  fun kind member => (Bool.and_eq_true_iff.mp (List.all_eq_true.mp notes kind member)).2

theorem notes_of_isExecutorStep {kind : LifecycleEventKind}
    (step : kind.isExecutorStep = true) : Notes [kind] := by
  cases kind <;> first | rfl | cases step

theorem notes_failureKinds (attempt : UInt32) (error : LlmError) :
    Notes (Call.failureKinds attempt error) := by
  cases error <;> rfl

theorem notes_of_retryOutcome {policies : CallPolicies} {call : Call} {error : LlmError}
    {randomSample : Nat}
    (stops : call.retryOutcome policies error randomSample = .error kinds) : Notes kinds := by
  rcases Call.kinds_of_retryOutcome stops with ⟨_, _, _, rfl⟩
  rfl

theorem notes_firstEventKinds (stream : StreamState) (event : AssistantEvent) :
    Notes (Call.firstEventKinds stream event) := by
  unfold Call.firstEventKinds
  split
  · rfl
  · cases event <;> rfl

end Notes

/-! ## Moves -/

def Phase.isLive : Phase → Bool
  | .starting => true
  | .streaming stream => !stream.terminal
  | .unpolled | .discarded | .gone => false

namespace Point

def isBusy : Point → Bool
  | .opening | .waiting .. | .reading .. => true
  | .idle | .stopped => false

def isSettled : Point → Bool
  | .idle | .opening | .reading .. => true
  | .waiting .. | .stopped => false

def delay : Point → Duration
  | .waiting _ delay _ => delay
  | .idle | .opening | .reading .. | .stopped => 0

theorem delay_of_isSettled {point : Point} (settled : point.isSettled = true) :
    point.delay = 0 := by
  cases point <;> first | rfl | cases settled

end Point

structure Call.Schedule.Fits (policies : CallPolicies) (call : Call) (schedule : Call.Schedule) :
    Prop where
  undelivered : call.delivered = false
  follows : schedule.next.toNat = call.attempt.toNat + 1
  allowed : schedule.next.toNat ≤ policies.retries.maxAttempts.toNat
  totalWait : call.totalWaited + schedule.plan.effectiveDelay ≤
    policies.retryWait.maxTotalWait.val
  beforeDeadline : ∀ deadline ∈ call.lifecycle.deadline, deadline ≤ maxInstant →
    schedule.plan.effectiveDelay + policies.retries.minimumAttemptBudget ≤
      deadline - call.now

section Moves

variable {policies : CallPolicies} {call : Call}

theorem fits_of_retryOutcome {error : LlmError} {randomSample : Nat} {schedule : Call.Schedule}
    (retries : call.retryOutcome policies error randomSample = .ok schedule) :
    schedule.Fits policies call := by
  simp only [Call.retryOutcome, bind_eq_ok, okOr_eq_ok, Except.ok.injEq] at retries
  rcases retries with ⟨next, advanced, reason, decided, plan, planned, rfl⟩
  have follows := checkedAddU32_eq_some advanced
  have decision := decideRetry_eq_retry decided
  have fits := calculateRetryWait_fits planned
  refine ⟨?_, follows, ?_, fits.1, ?_⟩
  · have state := decision.1
    unfold Call.deliveryState at state
    split at state
    · cases state
    · next undelivered => simpa using undelivered
  · rw [follows]
    exact UInt32.lt_iff_toNat_lt.mp decision.2
  · intro deadline isDeadline representable
    refine fits.2 (deadline - call.now) ?_ ?_
    · simp [Call.remaining, RequestLifecycle.remaining, Option.mem_def.mp isDeadline]
    · exact Nat.lt_of_le_of_lt (Nat.le_trans (Nat.sub_le _ _) representable) (by decide)

inductive Call.Move (policies : CallPolicies) : Call → Call → Prop
  /-- Neither the retries nor the trace depend on this. -/
  | aside (call : Call) (now : Instant) (cancelledAt : Option Instant) (eventSeen : Bool) :
      Move policies call { call with now, cancelledAt, eventSeen }
  | begin {call : Call} (unpolled : call.phase = .unpolled) (lifecycle : RequestLifecycle)
      (timed : lifecycle = call.lifecycle ∨
        ∀ deadline ∈ lifecycle.deadline, deadline ≤ maxInstant) :
      Move policies call ({ call with phase := .starting, lifecycle }.observe [.requestStarted])
  | openFirst {call : Call} (unpolled : call.phase = .unpolled) (lifecycle : RequestLifecycle)
      (timed : ∀ deadline ∈ lifecycle.deadline, deadline ≤ maxInstant)
      (idempotency : ResolvedIdempotency) {kinds : List LifecycleEventKind}
      (notes : Notes kinds) :
      Move policies call ((({ call with phase := .starting, lifecycle, idempotency }.observe
        [.requestStarted]).observe kinds).openAttempt 1)
  | discard {call : Call} (unpolled : call.phase = .unpolled) :
      Move policies call { call with phase := .discarded }
  | report {call : Call} (live : call.phase.isLive = true) {kinds : List LifecycleEventKind}
      (notes : Notes kinds) : Move policies call (call.observe kinds)
  | schedule {call : Call} {schedule : Call.Schedule} (fits : schedule.Fits policies call)
      (live : call.phase.isLive = true) (settled : call.point.isSettled = true)
      (due : Instant) :
      Move policies call { call.observe (schedule.kinds call.attempt) with
        point := .waiting schedule.next schedule.plan.effectiveDelay due }
  /-- The wait is over, and the next attempt starts. -/
  | resume {call : Call} {number : UInt32} {delay : Duration} {due : Instant}
      (waiting : call.point = .waiting number delay due) :
      Move policies call ({ call with
        totalWaited := Duration.saturatingAdd call.totalWaited delay }.openAttempt number)
  /-- The stream is handed to the caller. -/
  | handOut {call : Call} (opening : call.point = .opening) :
      Move policies call { call with point := .idle, phase := .streaming .fresh }
  | read {call : Call} (live : call.phase.isLive = true)
      (settled : call.point.isSettled = true) (deadline : Option Instant)
      (overallLimited : Bool) :
      Move policies call { call with point := .reading deadline overallLimited }
  | deliver {call : Call} {stream : StreamState} (settled : call.point.isSettled = true)
      (streaming : call.phase = .streaming stream) (live : stream.terminal = false)
      (event : AssistantEvent) : Move policies call (call.deliver stream event)
  | fail {call : Call} (live : call.phase.isLive = true) (error : LlmError) :
      Move policies call (call.fail error)
  /-- A stream that is over stays at its end. -/
  | yieldEnded {call : Call} {stream : StreamState}
      (streaming : call.phase = .streaming stream) (isOver : stream.terminal = true) :
      Move policies call (call.yield .ended)
  | dropStream {call : Call} {stream : StreamState}
      (streaming : call.phase = .streaming stream) :
      Move policies call (call.dropStream stream)

/-! ## Every step is a chain of moves -/

abbrev Call.Moves (policies : CallPolicies) : Call → Call → Prop :=
  ReflTransGen (Call.Move policies)

theorem moves_retryAfterFailure (live : call.phase.isLive = true)
    (settled : call.point.isSettled = true) (error : LlmError) (randomSample : Nat) :
    call.Moves policies (call.retryAfterFailure policies error randomSample) := by
  have reported : call.Moves policies (call.observe (Call.failureKinds call.attempt error)) :=
    .single (.report live (notes_failureKinds call.attempt error))
  simp only [Call.retryAfterFailure]
  split
  · next kinds stops =>
      exact (reported.tail (.report (by exact live) (notes_of_retryOutcome stops))).tail
        (.fail (by exact live) error)
  · next schedule retries =>
      have fits := fits_of_retryOutcome retries
      have stillFits : schedule.Fits policies
          (call.observe (Call.failureKinds call.attempt error)) :=
        ⟨fits.undelivered, fits.follows, fits.allowed, fits.totalWait, fits.beforeDeadline⟩
      have scheduled := reported.tail
        (.schedule stillFits live settled (call.now + schedule.plan.effectiveDelay))
      split
      · exact scheduled.tail (.fail (by exact live) _)
      · exact scheduled

theorem moves_beginRead (live : call.phase.isLive = true)
    (settled : call.point.isSettled = true) (randomSample : Nat) :
    call.Moves policies (call.beginRead policies randomSample) := by
  simp only [Call.beginRead]
  split
  · exact moves_retryAfterFailure live settled _ randomSample
  · exact .single (.read live settled _ _)

theorem moves_begin (setup : CallSetup) (unpolled : call.phase = .unpolled)
    (planning : Planning) : call.Moves policies (call.begin setup planning) := by
  simp only [Call.begin]
  split
  · exact (ReflTransGen.single (.begin unpolled call.lifecycle (.inl rfl))).tail (.fail rfl _)
  · next lifecycle built =>
      have timed := requestLifecycle_representable built
      have polled : call.Moves policies
          ({ call with phase := .starting, lifecycle }.observe [.requestStarted]) :=
        .single (.begin unpolled lifecycle (.inr timed))
      split
      · exact polled.tail (.fail rfl _)
      · exact polled.tail (.fail rfl _)
      · exact (polled.tail (.report rfl (by rfl))).tail (.fail rfl _)
      · next idempotency _ =>
          exact .single (.openFirst unpolled lifecycle timed idempotency (by rfl))

/-- The future of `stream_with_control` is dropped between its first poll and its end. -/
def AbandonsStart (call : Call) (action : CallAction) : Prop :=
  call.phase = .starting ∧ action = .dropFuture

variable (busy : call.point.isBusy = true → call.phase.isLive = true)

include busy

theorem moves_wake {randomSample : Nat} {next : Call}
    (woken : call.wake policies randomSample = some next) : call.Moves policies next := by
  unfold Call.wake at woken
  split at woken
  · next number delay due waiting =>
      split at woken
      · cases woken
        exact .single (.fail (busy (by rw [waiting]; rfl)) _)
      · split at woken <;> cases woken
        exact .single (.resume waiting)
  · next deadline overallLimited reading =>
      have live := busy (by rw [reading]; rfl)
      have settled : call.point.isSettled = true := by rw [reading]; rfl
      split at woken
      · cases woken
        exact moves_retryAfterFailure live settled _ randomSample
      · split at woken <;> cases woken
        exact moves_retryAfterFailure live settled _ randomSample
  · cases woken
  · cases woken
  · cases woken

theorem moves_opened (opening : call.point = .opening) (randomSample : Nat) :
    call.Moves policies (call.opened policies randomSample) := by
  have live := busy (by rw [opening]; rfl)
  have unread : call.Moves policies { call with eventSeen := false } :=
    .single (.aside call call.now call.cancelledAt false)
  unfold Call.opened
  split
  · exact unread.tail (.handOut (by exact opening))
  · refine unread.trans (moves_beginRead (by exact live) ?_ randomSample)
    exact congrArg Point.isSettled opening

/-- Dropping the future while it starts is the one step that is no chain of moves. -/
theorem moves_of_step {setup : CallSetup} {action : CallAction} {next : Call}
    (stepped : call.step setup action = some next) : call.Moves setup.policies next ∨
      AbandonsStart call action ∧ next = { call with point := .stopped, phase := .gone } := by
  cases action with
  | tick duration =>
    cases stepped
    exact .inl (.single (.aside call _ call.cancelledAt call.eventSeen))
  | cancel =>
    cases stepped
    exact .inl (.single (.aside call call.now _ call.eventSeen))
  | begin planning =>
    simp only [Call.step] at stepped
    split at stepped <;> cases stepped
    next unpolled => exact .inl (moves_begin setup unpolled planning)
  | report kind =>
    simp only [Call.step] at stepped
    split at stepped <;> cases stepped
    next enabled =>
      exact .inl (.single (.report (busy (by rw [enabled.1]; rfl))
        (notes_of_isExecutorStep enabled.2)))
  | opened result randomSample =>
    simp only [Call.step] at stepped
    split at stepped
    · next opening =>
        cases result with
        | ok =>
          cases stepped
          exact .inl (moves_opened busy opening randomSample)
        | error error =>
          cases stepped
          exact .inl (moves_retryAfterFailure (busy (by rw [opening]; rfl))
            (by rw [opening]; rfl) error randomSample)
    · cases stepped
  | wake randomSample => exact .inl (moves_wake busy stepped)
  | arrive item randomSample =>
    simp only [Call.step] at stepped
    split at stepped
    · next deadline overallLimited stream reading streaming =>
        have live := busy (by rw [reading]; rfl)
        have settled : call.point.isSettled = true := by rw [reading]; rfl
        split at stepped <;> cases stepped
        · refine .inl (.single (.deliver settled streaming ?_ _))
          simpa [streaming, Phase.isLive] using live
        · exact .inl (moves_retryAfterFailure live settled _ randomSample)
        · exact .inl (moves_retryAfterFailure live settled _ randomSample)
    · cases stepped
  | poll randomSample =>
    simp only [Call.step] at stepped
    split at stepped
    · next stream streaming =>
        split at stepped
        · next isOver =>
            cases stepped
            exact .inl (.single (.yieldEnded streaming isOver))
        · next unended =>
            have live : call.phase.isLive = true := by simpa [streaming, Phase.isLive] using unended
            split at stepped <;> cases stepped
            · next idle => exact .inl (moves_beginRead live (by rw [idle]; rfl) randomSample)
            · have failed : call.Move setup.policies (call.fail .truncatedStream) :=
                .fail live .truncatedStream
              simp only [Call.fail, streaming] at failed
              exact .inl (.single failed)
    · cases stepped
  | dropFuture =>
    simp only [Call.step] at stepped
    split at stepped <;> cases stepped
    · next unpolled => exact .inl (.single (.discard unpolled))
    · next starting => exact .inr ⟨⟨starting, rfl⟩, rfl⟩
  | dropStream =>
    simp only [Call.step] at stepped
    split at stepped <;> cases stepped
    next streaming => exact .inl (.single (.dropStream streaming))

end Moves

end Philo
