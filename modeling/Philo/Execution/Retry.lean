import Philo.Domain.LlmError

/-! Retries: which failures are worth another attempt, and how long to wait for it. -/

namespace Philo

open Result

/-! ## Saturating durations -/

def maxDuration : Duration := 2 ^ 64 * 1000000000 - 1

namespace Duration

def saturatingAdd (left right : Duration) : Duration := min (left + right) maxDuration

def saturatingMul (duration : Duration) (factor : Nat) : Duration :=
  min (duration * factor) maxDuration

theorem saturatingAdd_le_iff {left right bound : Duration} (representable : bound < maxDuration) :
    saturatingAdd left right ≤ bound ↔ left + right ≤ bound := by
  unfold saturatingAdd
  constructor
  · intro bounded
    rcases Nat.le_total (left + right) maxDuration with below | above
    · rwa [Nat.min_eq_left below] at bounded
    · rw [Nat.min_eq_right above] at bounded
      exact absurd bounded (Nat.not_le.mpr representable)
  · intro bounded
    exact Nat.le_trans (Nat.min_le_left _ _) bounded

end Duration

/-! ## Policies -/

def maxAttemptsHardLimit : UInt32 := 8

structure RetryPolicy where
  maxAttempts : UInt32
  minimumAttemptBudget : Duration
  attemptsPositive : 0 < maxAttempts.toNat
  attemptsBounded : maxAttempts ≤ maxAttemptsHardLimit
  budgetPositive : 0 < minimumAttemptBudget

namespace RetryPolicy

def new : RetryPolicy := ⟨1, 100000000, by decide, by decide, by decide⟩

def standard : RetryPolicy := ⟨3, 100000000, by decide, by decide, by decide⟩

def withMaxAttempts (policy : RetryPolicy) (value : UInt32) :
    Except ValidationError RetryPolicy :=
  if positive : 0 < value.toNat then
    if bounded : value ≤ maxAttemptsHardLimit then
      .ok { policy with
        maxAttempts := value, attemptsPositive := positive, attemptsBounded := bounded }
    else .error ⟨"max_attempts", .outOfRange, "max attempts exceeds the SDK hard limit"⟩
  else .error ⟨"max_attempts", .zero, "max attempts must be positive"⟩

def withMinimumAttemptBudget (policy : RetryPolicy) (value : Duration) :
    Except ValidationError RetryPolicy :=
  if positive : 0 < value then
    .ok { policy with minimumAttemptBudget := value, budgetPositive := positive }
  else .error ⟨"minimum_attempt_budget", .zero, "minimum attempt budget must be positive"⟩

def tightenWith (policy request : RetryPolicy) : RetryPolicy where
  maxAttempts :=
    if policy.maxAttempts ≤ request.maxAttempts then policy.maxAttempts
    else request.maxAttempts
  minimumAttemptBudget := max policy.minimumAttemptBudget request.minimumAttemptBudget
  attemptsPositive := by
    split
    · exact policy.attemptsPositive
    · exact request.attemptsPositive
  attemptsBounded := by
    split
    · exact policy.attemptsBounded
    · exact request.attemptsBounded
  budgetPositive := lt_of_lt_of_le policy.budgetPositive (le_max_left _ _)

end RetryPolicy

def maxConfiguredWait : Duration := 3600 * 1000000000

abbrev ConfiguredWait := { wait : Duration // 0 < wait ∧ wait ≤ maxConfiguredWait }

def validateWait (field : String) (value : Duration) :
    Except ValidationError ConfiguredWait :=
  if positive : 0 < value then
    if bounded : value ≤ maxConfiguredWait then .ok ⟨value, positive, bounded⟩
    else .error ⟨field, .outOfRange, "retry wait duration exceeds the SDK hard limit"⟩
  else .error ⟨field, .zero, "retry wait duration must be positive"⟩

structure RetryWaitPolicy where
  baseDelay : ConfiguredWait
  maxDelay : ConfiguredWait
  serverDelayCap : ConfiguredWait
  maxTotalWait : ConfiguredWait

namespace RetryWaitPolicy

def new : RetryWaitPolicy where
  baseDelay := ⟨100000000, by decide⟩
  maxDelay := ⟨5 * 1000000000, by decide⟩
  serverDelayCap := ⟨60 * 1000000000, by decide⟩
  maxTotalWait := ⟨60 * 1000000000, by decide⟩

def withBaseDelay (policy : RetryWaitPolicy) (value : Duration) :
    Except ValidationError RetryWaitPolicy := do
  let baseDelay ← validateWait "base_delay" value
  .ok { policy with baseDelay }

def withMaxDelay (policy : RetryWaitPolicy) (value : Duration) :
    Except ValidationError RetryWaitPolicy := do
  let maxDelay ← validateWait "max_delay" value
  .ok { policy with maxDelay }

def withServerDelayCap (policy : RetryWaitPolicy) (value : Duration) :
    Except ValidationError RetryWaitPolicy := do
  let serverDelayCap ← validateWait "server_delay_cap" value
  .ok { policy with serverDelayCap }

def withMaxTotalWait (policy : RetryWaitPolicy) (value : Duration) :
    Except ValidationError RetryWaitPolicy := do
  let maxTotalWait ← validateWait "max_total_wait" value
  .ok { policy with maxTotalWait }

def tightenWith (policy request : RetryWaitPolicy) : RetryWaitPolicy where
  baseDelay := max policy.baseDelay request.baseDelay
  maxDelay := min policy.maxDelay request.maxDelay
  serverDelayCap := min policy.serverDelayCap request.serverDelayCap
  maxTotalWait := min policy.maxTotalWait request.maxTotalWait

end RetryWaitPolicy

/-! ## The decision -/

inductive DeliveryState where
  | nothingDelivered
  | domainEventDelivered
  deriving DecidableEq, Repr

inductive RetryReason where
  | connectFailure | stageTimeout | requestTimeoutStatus | rateLimited
  | transientServerError | earlyBodyFailure | earlyTruncation | credentialTimeout
  deriving DecidableEq, Repr

inductive RetryStopReason where
  | nonRetryable | deliveryBoundaryClosed | attemptsExhausted | deadlineInsufficient
  | replayUnsafe
  deriving DecidableEq, Repr

inductive RetryDecision where
  | fail
  | retry (reason : RetryReason)
  deriving DecidableEq, Repr

def RetryDecision.reason : RetryDecision → Option RetryReason
  | .fail => none
  | .retry reason => some reason

def retryReason (error : LlmError) (replaySafe : Bool) : Option RetryReason :=
  match error with
  | .transport error =>
    if error.stage = .connect then some .connectFailure
    else if error.stage = .body ∧ replaySafe = true then some .earlyBodyFailure
    else none
  | .timeout error =>
    if error.timeoutStage ∈ [.connect, .responseHeader, .firstEvent] ∧
        error.overallLimited = false then some .stageTimeout
    else none
  | .credential kind => if kind = .timeout then some .credentialTimeout else none
  | .httpStatus error =>
    if error.status = 408 ∧ replaySafe = true then some .requestTimeoutStatus
    else if error.status = 429 then some .rateLimited
    else if 502 ≤ error.status ∧ error.status ≤ 504 ∧ replaySafe = true then
      some .transientServerError
    else none
  | .protocol error =>
    if error.hint = .maybe ∧ replaySafe = true then some .earlyBodyFailure else none
  | .truncatedStream => if replaySafe = true then some .earlyTruncation else none
  | .cancelled | .configuration _ | .providerConfig _ | .providerRegistry _
  | .validation _ | .capability _ | .schema _ | .toolValidation _ | .history _
  | .structuredOutput _ | .cost _ | .authentication _
  | .headerPolicy _ | .unsupportedResponseSemantics _ | .unknownFinishReason _ => none

def decideRetry (error : LlmError) (delivery : DeliveryState) (attemptNumber : UInt32)
    (policy : RetryPolicy) (remaining : Option Duration) (replaySafe : Bool) :
    RetryDecision :=
  if delivery = .domainEventDelivered ∨ policy.maxAttempts ≤ attemptNumber ∨
      remaining.any (· < policy.minimumAttemptBudget) = true then .fail
  else
    match retryReason error replaySafe with
    | some reason => .retry reason
    | none => .fail

/-- Another attempt is only made while nothing was delivered and attempts are left. -/
theorem decideRetry_eq_retry {error : LlmError} {delivery : DeliveryState}
    {attemptNumber : UInt32} {policy : RetryPolicy} {remaining : Option Duration}
    {replaySafe : Bool} {reason : RetryReason}
    (retries : (decideRetry error delivery attemptNumber policy remaining
      replaySafe).reason = some reason) :
    delivery = .nothingDelivered ∧ attemptNumber < policy.maxAttempts := by
  unfold decideRetry at retries
  split at retries
  · cases retries
  · next allowed =>
      simp only [not_or, UInt32.not_le] at allowed
      refine ⟨?_, allowed.2.1⟩
      cases delivery with
      | nothingDelivered => rfl
      | domainEventDelivered => exact absurd rfl allowed.1

def requiresReplaySafety (error : LlmError) : Bool :=
  match error with
  | .transport error => error.stage = .body
  | .httpStatus error => error.status = 408 || (502 ≤ error.status && error.status ≤ 504)
  | .truncatedStream => true
  | _ => false

def retryStopReason (error : LlmError) (delivery : DeliveryState) (attemptNumber : UInt32)
    (policy : RetryPolicy) (remaining : Option Duration) (replaySafe : Bool) :
    RetryStopReason :=
  if delivery = .domainEventDelivered then .deliveryBoundaryClosed
  else if policy.maxAttempts ≤ attemptNumber then .attemptsExhausted
  else if remaining.any (· < policy.minimumAttemptBudget) = true then .deadlineInsufficient
  else if replaySafe = false ∧ requiresReplaySafety error = true then .replayUnsafe
  else .nonRetryable

section StopReason

variable (error : LlmError) (attemptNumber : UInt32) (policy : RetryPolicy)
  (remaining : Option Duration)

structure CanRetry : Prop where
  attemptsLeft : attemptNumber < policy.maxAttempts
  timeLeft : ∀ time ∈ remaining, policy.minimumAttemptBudget ≤ time

variable {attemptNumber policy remaining} (canRetry : CanRetry attemptNumber policy remaining)

include canRetry

theorem CanRetry.enough : remaining.any (· < policy.minimumAttemptBudget) = false := by
  cases remaining with
  | none => rfl
  | some time => simpa using canRetry.timeLeft time rfl

theorem CanRetry.decideRetry_iff (replaySafe : Bool) (reason : RetryReason) :
    decideRetry error .nothingDelivered attemptNumber policy remaining replaySafe =
      .retry reason ↔ retryReason error replaySafe = some reason := by
  have attempts := UInt32.not_le.mpr canRetry.attemptsLeft
  unfold decideRetry
  rw [if_neg (by simp [attempts, canRetry.enough])]
  cases retryReason error replaySafe <;> simp

theorem CanRetry.replayUnsafe_iff :
    retryStopReason error .nothingDelivered attemptNumber policy remaining false =
      .replayUnsafe ↔ requiresReplaySafety error = true := by
  have attempts := UInt32.not_le.mpr canRetry.attemptsLeft
  simp [retryStopReason, attempts, canRetry.enough]

/-- The reported stop reason agrees with the decision unless a provider reported in its
stream that the request may be retried: such an error is retried when replay is safe, and
`requires_replay_safety` leaves it out. -/
theorem CanRetry.stopReason_agrees_iff
    (fails : decideRetry error .nothingDelivered attemptNumber policy remaining false = .fail) :
    (retryStopReason error .nothingDelivered attemptNumber policy remaining false =
        .replayUnsafe ↔
      ∃ reason, decideRetry error .nothingDelivered attemptNumber policy remaining true =
        .retry reason) ↔
      ∀ wire, error = .protocol wire → wire.hint ≠ .maybe := by
  have unsafeFails : retryReason error false = none := by
    cases unsafeReason : retryReason error false with
    | none => rfl
    | some reason =>
        have retries := (canRetry.decideRetry_iff error false reason).mpr unsafeReason
        cases fails.symm.trans retries
  simp only [canRetry.replayUnsafe_iff, canRetry.decideRetry_iff]
  cases error with
  | transport failure =>
      have notConnect : failure.stage ≠ .connect := by
        intro isConnect
        simp [retryReason, isConnect] at unsafeFails
      simp [requiresReplaySafety, retryReason, notConnect]
  | httpStatus failure =>
      have notLimited : failure.status ≠ 429 := by
        intro isLimited
        simp [retryReason, isLimited] at unsafeFails
      by_cases requestTimeout : failure.status = 408
      · simp [requiresReplaySafety, retryReason, requestTimeout]
      · by_cases transient : 502 ≤ failure.status ∧ failure.status ≤ 504
        · simp [requiresReplaySafety, retryReason, requestTimeout, notLimited, transient]
        · simp [requiresReplaySafety, retryReason, requestTimeout, notLimited]
  | protocol failure =>
      cases hint : failure.hint <;> simp [requiresReplaySafety, retryReason, hint]
  -- Replay safety changes nothing for the next two.
  | timeout failure =>
      have safeFails : retryReason (.timeout failure) true = none := unsafeFails
      simp [requiresReplaySafety, safeFails]
  | credential failure =>
      have safeFails : retryReason (.credential failure) true = none := unsafeFails
      simp [requiresReplaySafety, safeFails]
  | _ => simp [requiresReplaySafety, retryReason]

end StopReason

def overloaded : LlmError :=
  .protocol ((ProtocolError.new "provider stream error").withProviderContext
    "overloaded_error" none .maybe)

theorem overloaded_stopReason_disagrees :
    decideRetry overloaded .nothingDelivered 1 .standard none false = .fail ∧
      decideRetry overloaded .nothingDelivered 1 .standard none true =
        .retry .earlyBodyFailure ∧
      retryStopReason overloaded .nothingDelivered 1 .standard none false = .nonRetryable := by
  decide

theorem truncatedStream_stopReason_agrees :
    retryStopReason .truncatedStream .nothingDelivered 1 .standard (some 100000000) false =
        .replayUnsafe ∧
      ((retryStopReason .truncatedStream .nothingDelivered 1 .standard (some 100000000) false =
          .replayUnsafe ↔
        ∃ reason, decideRetry .truncatedStream .nothingDelivered 1 .standard (some 100000000)
          true = .retry reason) ↔
        ∀ wire, LlmError.truncatedStream = .protocol wire → wire.hint ≠ .maybe) := by
  have canRetry : CanRetry 1 .standard (some 100000000) :=
    ⟨by decide, by simp [RetryPolicy.standard]⟩
  exact ⟨by decide, canRetry.stopReason_agrees_iff _ (by decide)⟩

/-! ## The wait -/

structure RetryWaitPlan where
  clientDelay : Duration
  serverDelayValid : Bool
  serverDelayCapped : Bool
  effectiveDelay : Duration
  deriving DecidableEq

def durationFromNanos (value : Nat) : Duration :=
  min (value / 1000000000) (2 ^ 64 - 1) * 1000000000 + value % 1000000000

theorem durationFromNanos_of_le {value : Nat} (short : value ≤ maxConfiguredWait) :
    durationFromNanos value = value := by
  have seconds : value / 1000000000 ≤ 2 ^ 64 - 1 :=
    Nat.le_trans (Nat.div_le_div_right short) (by decide)
  rw [durationFromNanos, Nat.min_eq_left seconds]
  exact Nat.div_add_mod' value 1000000000

def exponentialCap (policy : RetryWaitPolicy) (retryIndex : Nat) : Duration :=
  let multiplier := min (2 ^ min retryIndex 63) (2 ^ 32 - 1)
  min (Duration.saturatingMul policy.baseDelay multiplier) policy.maxDelay

def fullJitter (capNanos randomSample : Nat) : Duration :=
  durationFromNanos (if capNanos = 0 then 0 else randomSample % (capNanos + 1))

def calculateRetryWait (policy : RetryWaitPolicy) (retryIndex randomSample : Nat)
    (serverDelay : Option Duration) (totalWaited : Duration)
    (remainingDeadline : Option Duration) (minimumAttemptBudget : Duration) :
    Option RetryWaitPlan :=
  let clientDelay := fullJitter (exponentialCap policy retryIndex) randomSample
  let serverDelayCapped := serverDelay.any (policy.serverDelayCap.val < ·)
  let serverDelay := serverDelay.map (min · policy.serverDelayCap.val)
  let effectiveDelay := min (max clientDelay (serverDelay.getD 0)) policy.serverDelayCap.val
  if policy.maxTotalWait.val < Duration.saturatingAdd totalWaited effectiveDelay then none
  else if remainingDeadline.any
      (· < Duration.saturatingAdd effectiveDelay minimumAttemptBudget) = true then none
  else some ⟨clientDelay, serverDelay.isSome, serverDelayCapped, effectiveDelay⟩

theorem maxTotalWait_representable (policy : RetryWaitPolicy) :
    policy.maxTotalWait.val < maxDuration :=
  Nat.lt_of_le_of_lt policy.maxTotalWait.property.2 (by decide)

section Bounds

variable (policy : RetryWaitPolicy) (retryIndex randomSample : Nat)
  (serverDelay : Option Duration) (totalWaited : Duration)
  (remainingDeadline : Option Duration) (budget : Duration)

/-- The client's part of the wait, longer if the server asks for more, up to the cap. -/
def boundedDelay (clientDelay : Duration) : Duration :=
  min policy.serverDelayCap.val (max clientDelay (serverDelay.getD 0))

/-- What `calculate_retry_wait` checks, with sums that saturate. -/
def WaitAccepted (delay : Duration) : Prop :=
  Duration.saturatingAdd totalWaited delay ≤ policy.maxTotalWait.val ∧
    ∀ time ∈ remainingDeadline, Duration.saturatingAdd delay budget ≤ time

def plannedWait : RetryWaitPlan :=
  let clientDelay := fullJitter (exponentialCap policy retryIndex) randomSample
  ⟨clientDelay, serverDelay.isSome, serverDelay.any (policy.serverDelayCap.val < ·),
    boundedDelay policy serverDelay clientDelay⟩

theorem calculateRetryWait_cases : (WaitAccepted policy totalWaited remainingDeadline budget
        (plannedWait policy retryIndex randomSample serverDelay).effectiveDelay ∧
      calculateRetryWait policy retryIndex randomSample serverDelay totalWaited
        remainingDeadline budget = plannedWait policy retryIndex randomSample serverDelay) ∨
    (¬ WaitAccepted policy totalWaited remainingDeadline budget
        (plannedWait policy retryIndex randomSample serverDelay).effectiveDelay ∧
      calculateRetryWait policy retryIndex randomSample serverDelay totalWaited
        remainingDeadline budget = none) := by
  have capped : ∀ client server cap : Nat,
      min (max client (min server cap)) cap = min cap (max client server) := by omega
  have effective : ∀ client, min (max client ((serverDelay.map
      (min · policy.serverDelayCap.val)).getD 0)) policy.serverDelayCap.val =
        boundedDelay policy serverDelay client := by
    intro client
    cases serverDelay with
    | none => exact Nat.min_comm _ _
    | some server => exact capped client server _
  have checks : ∀ delay, WaitAccepted policy totalWaited remainingDeadline budget delay ↔
      ¬ policy.maxTotalWait.val < Duration.saturatingAdd totalWaited delay ∧
        ¬ remainingDeadline.any (· < Duration.saturatingAdd delay budget) = true := by
    intro delay
    cases remainingDeadline <;> simp [WaitAccepted]
  simp only [calculateRetryWait, effective, Option.isSome_map, checks]
  split
  · next total => exact .inr ⟨fun accepted => accepted.1 total, rfl⟩
  · next total =>
      split
      · next deadline => exact .inr ⟨fun accepted => accepted.2 deadline, rfl⟩
      · next deadline => exact .inl ⟨⟨total, deadline⟩, rfl⟩

variable {policy retryIndex randomSample serverDelay totalWaited remainingDeadline budget}

theorem WaitAccepted.fits {delay : Duration}
    (accepted : WaitAccepted policy totalWaited remainingDeadline budget delay) :
    totalWaited + delay ≤ policy.maxTotalWait.val ∧
      ∀ time ∈ remainingDeadline, time < maxDuration → delay + budget ≤ time :=
  ⟨(Duration.saturatingAdd_le_iff (maxTotalWait_representable policy)).mp accepted.1,
    fun time isLeft below => (Duration.saturatingAdd_le_iff below).mp (accepted.2 time isLeft)⟩

/-- A planned wait fits into what is left of the total, and leaves the minimum budget
before the deadline. -/
theorem calculateRetryWait_fits {plan : RetryWaitPlan}
    (planned : calculateRetryWait policy retryIndex randomSample serverDelay totalWaited
      remainingDeadline budget = some plan) :
    totalWaited + plan.effectiveDelay ≤ policy.maxTotalWait.val ∧
      ∀ time ∈ remainingDeadline, time < maxDuration →
        plan.effectiveDelay + budget ≤ time := by
  rcases calculateRetryWait_cases policy retryIndex randomSample serverDelay totalWaited
    remainingDeadline budget with ⟨accepted, isPlan⟩ | ⟨_, refused⟩
  · cases isPlan.symm.trans planned
    exact accepted.fits
  · cases refused.symm.trans planned

variable (policy retryIndex randomSample serverDelay totalWaited remainingDeadline budget)

/-- The ceiling of the backoff without any machine arithmetic. -/
def exactBackoff : Duration := min policy.maxDelay.val (policy.baseDelay.val * 2 ^ retryIndex)

def exactDelay : Duration :=
  boundedDelay policy serverDelay (randomSample % (exactBackoff policy retryIndex + 1))

def WaitFits (delay : Duration) : Prop :=
  totalWaited + delay ≤ policy.maxTotalWait.val ∧
    ∀ time ∈ remainingDeadline, delay + budget ≤ time

structure BackoffExact : Prop where
  multiplier : 2 ^ retryIndex ≤ 2 ^ 32 - 1
  product : policy.baseDelay.val * 2 ^ retryIndex ≤ maxDuration
  modulus : exponentialCap policy retryIndex + 1 < 2 ^ 128

structure BackoffBounds : Prop where
  exact : BackoffExact policy retryIndex
  bounded : fullJitter (exponentialCap policy retryIndex) randomSample ≤
    exactBackoff policy retryIndex
  attained : ∀ delay ≤ exactBackoff policy retryIndex, ∃ sample < 2 ^ 128,
    fullJitter (exponentialCap policy retryIndex) sample = delay
  planned : ∀ plan, calculateRetryWait policy retryIndex randomSample serverDelay totalWaited
    remainingDeadline budget = some plan →
      plan.clientDelay = fullJitter (exponentialCap policy retryIndex) randomSample ∧
        plan.effectiveDelay = boundedDelay policy serverDelay plan.clientDelay ∧
          WaitFits policy totalWaited remainingDeadline budget plan.effectiveDelay
  refused : calculateRetryWait policy retryIndex randomSample serverDelay totalWaited
    remainingDeadline budget = none ↔ ¬ WaitFits policy totalWaited remainingDeadline budget
      (exactDelay policy retryIndex randomSample serverDelay)

variable {retryIndex} (small : retryIndex ≤ 31)

include small

theorem backoffExact : BackoffExact policy retryIndex := by
  have power : 2 ^ retryIndex ≤ 2 ^ 31 := Nat.pow_le_pow_right (by decide) small
  have base := policy.baseDelay.property.2
  have longest := policy.maxDelay.property.2
  refine ⟨Nat.le_trans power (by decide), ?_, ?_⟩
  · exact Nat.le_trans (Nat.mul_le_mul base power) (by decide)
  · have short : exponentialCap policy retryIndex ≤ maxConfiguredWait :=
      Nat.le_trans (Nat.min_le_right _ _) longest
    exact Nat.lt_of_le_of_lt (Nat.add_le_add_right short 1) (by decide)

theorem exponentialCap_eq : exponentialCap policy retryIndex = exactBackoff policy retryIndex := by
  have exact := backoffExact policy small
  rw [exponentialCap, Nat.min_eq_left (Nat.le_trans small (by decide)),
    Nat.min_eq_left exact.multiplier, Duration.saturatingMul, Nat.min_eq_left exact.product,
    Nat.min_comm]
  rfl

theorem fullJitter_eq : fullJitter (exponentialCap policy retryIndex) randomSample =
    randomSample % (exactBackoff policy retryIndex + 1) := by
  rw [exponentialCap_eq policy small, fullJitter]
  have below := Nat.lt_succ_iff.mp
    (Nat.mod_lt randomSample (Nat.succ_pos (exactBackoff policy retryIndex)))
  have short := Nat.le_trans below
    (Nat.le_trans (Nat.min_le_left _ _) policy.maxDelay.property.2)
  split
  · next zero => rw [zero, Nat.mod_one, durationFromNanos_of_le (Nat.zero_le _)]
  · exact durationFromNanos_of_le short

/-- The bounds hold unless a remaining time at the end of the range hides that the sum of
delay and budget is beyond it. -/
theorem backoffBounds_iff :
    BackoffBounds policy retryIndex randomSample serverDelay totalWaited remainingDeadline
        budget ↔
      (totalWaited + exactDelay policy retryIndex randomSample serverDelay ≤
          policy.maxTotalWait.val →
        ∀ time ∈ remainingDeadline, maxDuration ≤ time →
          exactDelay policy retryIndex randomSample serverDelay + budget ≤ time) := by
  have jitter := fullJitter_eq policy randomSample small
  have delay : (plannedWait policy retryIndex randomSample serverDelay).effectiveDelay =
      exactDelay policy retryIndex randomSample serverDelay :=
    congrArg (boundedDelay policy serverDelay) jitter
  have cases := calculateRetryWait_cases policy retryIndex randomSample serverDelay totalWaited
    remainingDeadline budget
  rw [delay] at cases
  constructor
  · intro bounds total time isLeft longest
    rcases cases with ⟨_, planned⟩ | ⟨notAccepted, _⟩
    · have fits := (bounds.planned _ planned).2.2
      rw [delay] at fits
      exact fits.2 time isLeft
    · refine absurd ⟨?_, fun other isOther => ?_⟩ notAccepted
      · exact (Duration.saturatingAdd_le_iff (maxTotalWait_representable policy)).mpr total
      · cases isLeft.symm.trans isOther
        exact Nat.le_trans (Nat.min_le_right _ _) longest
  · intro representable
    have accepted_iff : WaitAccepted policy totalWaited remainingDeadline budget
        (exactDelay policy retryIndex randomSample serverDelay) ↔
        WaitFits policy totalWaited remainingDeadline budget
          (exactDelay policy retryIndex randomSample serverDelay) := by
      constructor
      · intro accepted
        refine ⟨accepted.fits.1, fun time isLeft => ?_⟩
        rcases Nat.lt_or_ge time maxDuration with below | above
        · exact accepted.fits.2 time isLeft below
        · exact representable accepted.fits.1 time isLeft above
      · intro fits
        exact ⟨Nat.le_trans (Nat.min_le_left _ _) fits.1,
          fun time isLeft => Nat.le_trans (Nat.min_le_left _ _) (fits.2 time isLeft)⟩
    refine ⟨backoffExact policy small, ?_, ?_, ?_, ?_⟩
    · rw [jitter]
      exact Nat.lt_succ_iff.mp (Nat.mod_lt _ (Nat.succ_pos _))
    · intro wanted below
      have exact := (backoffExact policy small).modulus
      rw [exponentialCap_eq policy small] at exact
      refine ⟨wanted, Nat.lt_of_le_of_lt (Nat.le_succ_of_le below) exact, ?_⟩
      rw [fullJitter_eq policy wanted small, Nat.mod_eq_of_lt (Nat.lt_succ_of_le below)]
    · intro plan planned
      rcases cases with ⟨accepted, isPlan⟩ | ⟨_, refused⟩
      · cases isPlan.symm.trans planned
        exact ⟨rfl, rfl, delay ▸ accepted_iff.mp accepted⟩
      · cases refused.symm.trans planned
    · rcases cases with ⟨accepted, isPlan⟩ | ⟨notAccepted, refused⟩
      · exact iff_of_false (by simp [isPlan]) (not_not.mpr (accepted_iff.mp accepted))
      · exact iff_of_true refused (mt accepted_iff.mpr notAccepted)

end Bounds

/-- The edge, which no request reaches: nothing is left of the longest time after one
nanosecond, and an attempt that needs all of it is still planned. -/
theorem longestBudget_planned :
    calculateRetryWait .new 0 1 none 0 (some maxDuration) maxDuration =
        some ⟨1, false, false, 1⟩ ∧ ¬ 1 + maxDuration ≤ maxDuration := by
  decide +kernel

end Philo
