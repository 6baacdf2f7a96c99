import Philo.Client.Trace
import Philo.Execution.Executor

/-! One call of the client, from `stream_with_control` to the end of the `AssistantStream`.
A step takes the call from one await to the next. What the call waits for (the planner,
the attempts, the response stream, the clock, the random samples) and what the caller
does are the actions. -/

namespace Philo

open Result

/-! ## What a call is made with -/

inductive RequestTimeout where
  | after (duration : Duration)
  | at (deadline : Instant) (representable : deadline ≤ maxInstant)

def RequestTimeout.deadline (timeout : RequestTimeout) (now : Instant) :
    Except LlmError Instant :=
  match timeout with
  | .at deadline _ => .ok deadline
  | .after duration =>
    if now + duration ≤ maxInstant then .ok (now + duration)
    else .error (.validation ⟨"timeout", .overflow,
      "relative timeout cannot be represented as an absolute deadline"⟩)

def requestLifecycle (timeout : Option RequestTimeout) (now : Instant) :
    Except LlmError RequestLifecycle :=
  match timeout with
  | none => .ok ⟨now, none⟩
  | some timeout => do
    let deadline ← timeout.deadline now
    .ok ⟨now, some deadline⟩

theorem requestLifecycle_representable {timeout : Option RequestTimeout} {now : Instant}
    {lifecycle : RequestLifecycle} (built : requestLifecycle timeout now = .ok lifecycle) :
    ∀ deadline ∈ lifecycle.deadline, deadline ≤ maxInstant := by
  intro deadline isDeadline
  cases timeout with
  | none =>
    cases built
    simp at isDeadline
  | some timeout =>
    simp only [requestLifecycle, bind_eq_ok, Except.ok.injEq] at built
    rcases built with ⟨computed, isComputed, rfl⟩
    cases isDeadline
    cases timeout with
    | «at» fixed representable =>
      cases isComputed
      exact representable
    | after duration =>
      simp only [RequestTimeout.deadline] at isComputed
      split at isComputed
      · next fits =>
          cases isComputed
          exact fits
      · cases isComputed

/-- Backoff bounds, for the time that the lifecycle of a request has left. That time is the
distance of two points of the clock, and so shorter than the longest duration. -/
theorem backoffBounds_of_lifecycle {timeout : Option RequestTimeout} {start : Instant}
    {lifecycle : RequestLifecycle} (built : requestLifecycle timeout start = .ok lifecycle)
    (policy : RetryWaitPolicy) {retryIndex : Nat} (small : retryIndex ≤ 31) (randomSample : Nat)
    (serverDelay : Option Duration) (totalWaited : Duration) (now : Instant) (budget : Duration) :
    BackoffBounds policy retryIndex randomSample serverDelay totalWaited (lifecycle.remaining now)
      budget := by
  apply (backoffBounds_iff policy randomSample serverDelay totalWaited _ budget small).mpr
  intro _ time isLeft longest
  rcases Option.map_eq_some_iff.mp isLeft with ⟨deadline, isDeadline, rfl⟩
  have early : deadline ≤ maxInstant := requestLifecycle_representable built deadline isDeadline
  have short : maxInstant < maxDuration := by decide
  exact absurd (Nat.le_trans longest (Nat.le_trans (Nat.sub_le ..) early)) (Nat.not_le.mpr short)

theorem thirdRetry_backoffBounds :
    ∃ lifecycle, requestLifecycle (some (.after 5000000000)) 7 = .ok lifecycle ∧
      calculateRetryWait .new 2 123456789 (some 3000000000) 0 (lifecycle.remaining 1000000007)
        100000000 = some ⟨123456789, true, false, 3000000000⟩ ∧
      BackoffBounds .new 2 123456789 (some 3000000000) 0 (lifecycle.remaining 1000000007)
        100000000 := by
  have built : requestLifecycle (some (.after 5000000000)) 7 = .ok ⟨7, some 5000000007⟩ := rfl
  exact ⟨_, built, by decide +kernel, backoffBounds_of_lifecycle built .new (by decide) ..⟩

structure CallPolicies where
  timeouts : TimeoutPolicy
  retries : RetryPolicy
  retryWait : RetryWaitPolicy

structure ControlPolicies where
  timeouts : Option TimeoutPolicy
  retries : Option RetryPolicy
  retryWait : Option RetryWaitPolicy

structure CallSetup where
  client : CallPolicies
  control : ControlPolicies
  timeout : Option RequestTimeout

/-- A control can only tighten what the client allows. -/
def CallSetup.policies (setup : CallSetup) : CallPolicies where
  timeouts := setup.control.timeouts.elim setup.client.timeouts
    setup.client.timeouts.tightenWith
  retries := setup.control.retries.elim setup.client.retries setup.client.retries.tightenWith
  retryWait := setup.control.retryWait.elim setup.client.retryWait
    setup.client.retryWait.tightenWith

/-- How planning ends: `CallPlanner::plan` rejects the request, the driver or the
idempotency policy does, or the runner can start. -/
inductive Planning where
  | rejected (error : LlmError)
  | unprepared (error : LlmError)
  | ready (idempotency : ResolvedIdempotency)

/-! ## The state of a call -/

inductive Point where
  | idle
  | opening
  | waiting (next : UInt32) (delay : Duration) (due : Instant)
  | reading (deadline : Option Instant) (overallLimited : Bool)
  | stopped
  deriving DecidableEq

structure StreamState where
  firstEventSeen : Bool
  terminal : Bool
  partialOutput : Bool
  usageKnown : Bool
  eventCount : Nat

def StreamState.fresh : StreamState := ⟨false, false, false, false, 0⟩

def StreamState.count (stream : StreamState) (event : AssistantEvent) : StreamState :=
  let isUsage :=
    match event with
    | .usage _ | .detailedUsage _ => true
    | _ => false
  { stream with
    firstEventSeen := true
    eventCount := saturatingAdd stream.eventCount 1
    partialOutput := true
    usageKnown := stream.usageKnown || isUsage }

/-- Who holds the call: the future of `stream_with_control` before its first poll or
after it, the stream that it returned, or nobody. A future may be dropped unpolled. -/
inductive Phase where
  | unpolled
  | discarded
  | starting
  | streaming (stream : StreamState)
  | gone

structure Call where
  now : Instant
  cancelledAt : Option Instant
  lifecycle : RequestLifecycle
  idempotency : ResolvedIdempotency
  attempt : UInt32
  eventSeen : Bool
  totalWaited : Duration
  /-- `RequestExecutionState::delivered`. -/
  delivered : Bool
  /-- `RequestExecutionState::terminal`. -/
  terminal : Bool
  point : Point
  phase : Phase
  log : CallLog

namespace Call

def initial (now : Instant) : Call where
  now
  cancelledAt := none
  lifecycle := ⟨now, none⟩
  idempotency := ⟨none, none, .unknown, none⟩
  attempt := 0
  eventSeen := false
  totalWaited := 0
  delivered := false
  terminal := false
  point := .stopped
  phase := .unpolled
  log := []

def observe (call : Call) (kinds : List LifecycleEventKind) : Call :=
  { call with log := call.log ++ kinds.map fun kind => (call.now, .observed kind) }

def yield (call : Call) (item : Yield) : Call :=
  { call with log := call.log ++ [(call.now, .yielded item)] }

def deliveryState (call : Call) : DeliveryState :=
  if call.delivered then .domainEventDelivered else .nothingDelivered

def remaining (call : Call) : Option Duration := call.lifecycle.remaining call.now

def preflight (call : Call) : Except LlmError Unit :=
  call.lifecycle.preflight call.cancelledAt call.now

/-! ## Ends -/

def failStream (call : Call) (stream : StreamState) (error : LlmError) : Call :=
  let failed := { call with
    point := .stopped
    terminal := true
    phase := .streaming { stream with terminal := true } }
  (failed.observe [.ofTerminalError error stream.partialOutput]).yield (.failed error)

/-- The runner gives up: the future of `stream_with_control` returns the error, or the
stream does. -/
def fail (call : Call) (error : LlmError) : Call :=
  match call.phase with
  | .starting =>
    let failed := { call with point := .stopped, terminal := true, phase := .gone }
    failed.observe [.ofTerminalError error false]
  | .streaming stream => call.failStream stream error
  | .unpolled | .discarded | .gone => call

/-! ## Attempts -/

def openAttempt (call : Call) (number : UInt32) : Call :=
  { call with attempt := number, point := .opening }.observe [.attemptStarted number]

def failureKinds (attempt : UInt32) (error : LlmError) : List LifecycleEventKind :=
  .attemptFailed attempt (.fromError error) ::
    match error with
    | .timeout timeout => [.attemptTimedOut attempt timeout.timeoutStage timeout.overallLimited]
    | _ => []

def stoppedKinds (attempt : UInt32) (reason : RetryStopReason) : List LifecycleEventKind :=
  [.retryDecided attempt none (some reason), .retryExhausted attempt reason]

structure Schedule where
  next : UInt32
  reason : RetryReason
  plan : RetryWaitPlan
  serverDelay : Option Duration

def Schedule.kinds (schedule : Schedule) (attempt : UInt32) : List LifecycleEventKind :=
  [.retryDecided attempt (some schedule.reason) none,
    .retryScheduled attempt schedule.next schedule.reason schedule.plan.effectiveDelay
      (schedule.plan.serverDelayValid && schedule.serverDelay.any (schedule.plan.clientDelay ≤ ·))
      schedule.plan.serverDelayCapped]

def serverDelayOf : LlmError → Option Duration
  | .httpStatus error => error.retryAfter
  | _ => none

/-- The decision of `retry_after_failure`: the events that report the end, or the
scheduled attempt. -/
def retryOutcome (policies : CallPolicies) (call : Call) (error : LlmError)
    (randomSample : Nat) : Except (List LifecycleEventKind) Schedule := do
  let next ← okOr (checkedAddU32 call.attempt 1)
    (stoppedKinds call.attempt .attemptsExhausted)
  let replaySafe := call.idempotency.replaySafe
  let reason ← okOr
    (decideRetry error call.deliveryState call.attempt policies.retries call.remaining
      replaySafe).reason
    (stoppedKinds call.attempt (retryStopReason error call.deliveryState call.attempt
      policies.retries call.remaining replaySafe))
  let plan ← okOr
    (calculateRetryWait policies.retryWait (call.attempt.toNat - 1) randomSample
      (serverDelayOf error) call.totalWaited call.remaining
      policies.retries.minimumAttemptBudget)
    [.retryDecided call.attempt (some reason) none,
      .retryExhausted call.attempt .deadlineInsufficient]
  .ok ⟨next, reason, plan, serverDelayOf error⟩

theorem kinds_of_retryOutcome {policies : CallPolicies} {call : Call} {error : LlmError}
    {randomSample : Nat} {kinds : List LifecycleEventKind}
    (stops : call.retryOutcome policies error randomSample = .error kinds) :
    ∃ reason stopReason exhausted, kinds = [.retryDecided call.attempt reason stopReason,
      .retryExhausted call.attempt exhausted] := by
  simp only [retryOutcome, bind_eq_error, okOr_eq_error] at stops
  rcases stops with ⟨_, rfl⟩ | ⟨_, _, ⟨_, rfl⟩ | ⟨reason, _, ⟨_, rfl⟩ | ⟨_, _, stops⟩⟩⟩
  · exact ⟨_, _, _, rfl⟩
  · exact ⟨_, _, _, rfl⟩
  · exact ⟨_, _, _, rfl⟩
  · cases stops

/-- `retry_after_failure`, and what its callers do with the result: they give up, or
they wait. -/
def retryAfterFailure (policies : CallPolicies) (call : Call) (error : LlmError)
    (randomSample : Nat) : Call :=
  let reported := call.observe (failureKinds call.attempt error)
  match retryOutcome policies call error randomSample with
  | .error kinds => (reported.observe kinds).fail error
  | .ok schedule =>
    let delay := schedule.plan.effectiveDelay
    let scheduled := { reported.observe (schedule.kinds call.attempt) with
      point := .waiting schedule.next delay (call.now + delay) }
    match call.preflight with
    | .error waitError => scheduled.fail waitError
    | .ok () => scheduled

/-! ## Reading -/

def readStage (policies : CallPolicies) (call : Call) : StageLimit where
  stage := if call.eventSeen then .idleStream else .firstEvent
  limit := some (if call.eventSeen then policies.timeouts.idleStream
    else policies.timeouts.firstEvent)
  attemptNumber := some call.attempt
  domainEventDelivered := call.delivered

def beginRead (policies : CallPolicies) (call : Call) (randomSample : Nat) : Call :=
  let stage := call.readStage policies
  if call.lifecycle.deadline.any (· ≤ call.now) then
    call.retryAfterFailure policies
      (StageLimit.timeoutError { stage with stage := .overall } call.lifecycle true call.now)
      randomSample
  else
    let (deadline, overallLimited) := stage.effectiveDeadline call.lifecycle call.now
    { call with point := .reading deadline overallLimited }

def firstEventKinds (stream : StreamState) (event : AssistantEvent) :
    List LifecycleEventKind :=
  if stream.firstEventSeen then []
  else
    let first :=
      match event with
      | .start _ providerRequestId generationId =>
        LifecycleEventKind.firstSseEvent providerRequestId generationId
      | _ => .firstSseEvent none none
    [first, .firstDomainEventDelivered]

def deliver (call : Call) (stream : StreamState) (event : AssistantEvent) : Call :=
  let counted := stream.count event
  let received := { call with
    eventSeen := true
    delivered := true
    point := .idle
    phase := .streaming counted }.observe (firstEventKinds stream event)
  match event with
  | .done finishReason =>
    let completed := { received with
      terminal := true, phase := .streaming { counted with terminal := true } }
    (completed.observe [.finishSeen finishReason, .doneSeen,
      .requestCompleted counted.eventCount counted.usageKnown]).yield
        (.event call.attempt event)
  | _ => received.yield (.event call.attempt event)

/-! ## Beginning and dropping -/

/-- The first poll of `stream_with_control`, up to the first attempt. -/
def begin (setup : CallSetup) (call : Call) (planning : Planning) : Call :=
  let polled := { call with phase := .starting }.observe [.requestStarted]
  match requestLifecycle setup.timeout call.now with
  | .error error => polled.fail error
  | .ok lifecycle =>
    let polled := { polled with lifecycle }
    match polled.preflight, planning with
    | .error error, _ | .ok (), .rejected error => polled.fail error
    | .ok (), .unprepared error => (polled.observe [.validationCompleted]).fail error
    | .ok (), .ready idempotency =>
      let prepared := { polled with idempotency }.observe [.validationCompleted,
        .idempotencyPrepared idempotency.capability idempotency.key.isSome
          idempotency.source]
      prepared.openAttempt 1

def dropStream (call : Call) (stream : StreamState) : Call :=
  let dropped := { call with point := .stopped, phase := .gone }
  if stream.terminal = false ∧ call.terminal = false then
    { dropped with
      terminal := true
      cancelledAt := call.cancelledAt.or (some call.now) }.observe
        [.requestCancelled stream.partialOutput]
  else dropped

end Call

/-! ## Steps -/

inductive CallAction where
  /-- Time passes. -/
  | tick (duration : Duration)
  /-- `RequestControl::cancel`, or `AssistantStream::cancel`. -/
  | cancel
  /-- The future is polled for the first time. -/
  | begin (planning : Planning)
  /-- The executor reports a step of the attempt. -/
  | report (kind : LifecycleEventKind)
  /-- The attempt is open, or has failed. -/
  | opened (result : Except LlmError Unit) (randomSample : Nat)
  /-- A timer or the cancellation wakes the call. -/
  | wake (randomSample : Nat)
  /-- The response stream has an item, or is at its end. -/
  | arrive (item : Option (Except LlmError AssistantEvent)) (randomSample : Nat)
  /-- The consumer polls the stream while nothing is in progress. -/
  | poll (randomSample : Nat)
  | dropFuture
  | dropStream

namespace Call

/-- The attempt is open: the stream is handed to the caller, or goes on reading. -/
def opened (policies : CallPolicies) (call : Call) (randomSample : Nat) : Call :=
  let opened := { call with eventSeen := false }
  match call.phase with
  | .starting => { opened with point := .idle, phase := .streaming .fresh }
  | _ => opened.beginRead policies randomSample

/-- What a timer or the cancellation does to an await. The retry wait is
`await_with_lifecycle`; a read looks at the cancellation before its timer. -/
def wake (policies : CallPolicies) (call : Call) (randomSample : Nat) : Option Call :=
  match call.point with
  | .waiting next delay due =>
    match call.preflight with
    | .error error => some (call.fail error)
    | .ok () =>
      if due ≤ call.now then
        some ({ call with
          totalWaited := Duration.saturatingAdd call.totalWaited delay }.openAttempt next)
      else none
  | .reading deadline overallLimited =>
    if call.cancelledAt.any (· ≤ call.now) then
      some (call.retryAfterFailure policies .cancelled randomSample)
    else if deadline.any (· ≤ call.now) then
      some (call.retryAfterFailure policies
        ((call.readStage policies).timeoutError call.lifecycle overallLimited call.now)
        randomSample)
    else none
  | .idle | .opening | .stopped => none

def step (setup : CallSetup) (call : Call) : CallAction → Option Call
  | .tick duration => some { call with now := call.now + duration }
  | .cancel => some { call with cancelledAt := call.cancelledAt.or (some call.now) }
  | .begin planning =>
    match call.phase with
    | .unpolled => some (call.begin setup planning)
    | _ => none
  | .report kind =>
    if call.point = .opening ∧ kind.isExecutorStep = true then some (call.observe [kind])
    else none
  | .opened result randomSample =>
    if call.point = .opening then
      match result with
      | .ok () => some (call.opened setup.policies randomSample)
      | .error error => some (call.retryAfterFailure setup.policies error randomSample)
    else none
  | .wake randomSample => call.wake setup.policies randomSample
  | .arrive item randomSample =>
    match call.point, call.phase with
    | .reading _ _, .streaming stream =>
      match item with
      | some (.ok event) => some (call.deliver stream event)
      | some (.error error) => some (call.retryAfterFailure setup.policies error randomSample)
      | none => some (call.retryAfterFailure setup.policies .truncatedStream randomSample)
    | _, _ => none
  | .poll randomSample =>
    match call.phase with
    | .streaming stream =>
      if stream.terminal then some (call.yield .ended)
      else
        match call.point with
        | .idle => some (call.beginRead setup.policies randomSample)
        | .stopped => some (call.failStream stream .truncatedStream)
        | .opening | .waiting .. | .reading .. => none
    | _ => none
  | .dropFuture =>
    match call.phase with
    | .unpolled => some { call with phase := .discarded }
    | .starting => some { call with point := .stopped, phase := .gone }
    | _ => none
  | .dropStream =>
    match call.phase with
    | .streaming stream => some (call.dropStream stream)
    | _ => none

def system (setup : CallSetup) : System Call CallAction := ⟨Call.step setup⟩

end Call

end Philo
