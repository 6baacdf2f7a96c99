import Philo.Domain.Event
import Philo.Execution.Retry
import Philo.Provider.RequestIdentity

/-! What the lifecycle observer of a call is told. -/

namespace Philo

inductive LifecycleErrorCategory where
  | configuration | validation | capability
  | authentication (kind : AuthFailureKind)
  | transport (stage : ErrorStage)
  | httpStatus
  | protocol (stage : ErrorStage)
  | unsupportedResponseSemantics | unknownFinishReason | truncatedStream | timeout
  | cancelled
  deriving DecidableEq

def LifecycleErrorCategory.fromError : LlmError → LifecycleErrorCategory
  | .configuration _ | .providerConfig _ | .providerRegistry _ | .credential _
  | .headerPolicy _ => .configuration
  | .validation _ | .schema _ | .toolValidation _ | .history _ | .structuredOutput _
  | .cost _ => .validation
  | .capability _ => .capability
  | .authentication error => .authentication error.kind
  | .transport error => .transport error.stage
  | .httpStatus _ => .httpStatus
  | .protocol error => .protocol error.stage
  | .unsupportedResponseSemantics _ => .unsupportedResponseSemantics
  | .unknownFinishReason _ => .unknownFinishReason
  | .truncatedStream => .truncatedStream
  | .timeout _ => .timeout
  | .cancelled => .cancelled

/-- `LifecycleEventKind`. An attempt is known by its number. -/
inductive LifecycleEventKind where
  | requestStarted
  | validationCompleted
  | idempotencyPrepared (capability : IdempotencyCapability) (present : Bool)
      (source : Option IdempotencyKeySource)
  | attemptStarted (attempt : UInt32)
  | credentialResolved (attempt : UInt32)
  | endpointResolved
  | headersResolved
  | transportStarted
  | statusReceived (status : UInt16) (providerRequestId : Option ProviderRequestId)
  | rateLimitObserved
  | attemptFailed (attempt : UInt32) (category : LifecycleErrorCategory)
  | attemptTimedOut (attempt : UInt32) (stage : TimeoutStage) (overallLimited : Bool)
  | retryDecided (attempt : UInt32) (reason : Option RetryReason)
      (stopReason : Option RetryStopReason)
  | retryScheduled (previousAttempt nextAttempt : UInt32) (reason : RetryReason)
      (delay : Duration) (serverDelayApplied serverDelayCapped : Bool)
  | retryExhausted (attempt : UInt32) (reason : RetryStopReason)
  | firstSseEvent (providerRequestId : Option ProviderRequestId)
      (generationId : Option GenerationId)
  | firstDomainEventDelivered
  | finishSeen (finishReason : FinishReason)
  | doneSeen
  | requestCompleted (eventCount : Nat) (usageKnown : Bool)
  | requestFailed (category : LifecycleErrorCategory) (partialOutput : Bool)
  | requestCancelled (partialOutput : Bool)
  | requestTimedOut (partialOutput : Bool)
  deriving DecidableEq

namespace LifecycleEventKind

def isTerminal : LifecycleEventKind → Bool
  | .requestCompleted .. | .requestFailed .. | .requestCancelled _ | .requestTimedOut _ => true
  | _ => false

def isExecutorStep : LifecycleEventKind → Bool
  | .endpointResolved | .credentialResolved _ | .headersResolved | .transportStarted
  | .statusReceived .. | .rateLimitObserved => true
  | _ => false

def isInner (kind : LifecycleEventKind) : Bool :=
  decide (kind ≠ .requestStarted) && !kind.isTerminal

def ofTerminalError (error : LlmError) (partialOutput : Bool) : LifecycleEventKind :=
  match error with
  | .cancelled => .requestCancelled partialOutput
  | .timeout _ => .requestTimedOut partialOutput
  | error => .requestFailed (.fromError error) partialOutput

theorem isTerminal_ofTerminalError (error : LlmError) (partialOutput : Bool) :
    (ofTerminalError error partialOutput).isTerminal = true := by
  cases error <;> rfl

end LifecycleEventKind

/-! ## The log of a call -/

/-- What one poll of the stream hands to the consumer. An event is known with the
attempt that it was read from. -/
inductive Yield where
  | event (attempt : UInt32) (event : AssistantEvent)
  | failed (error : LlmError)
  | ended

inductive LogEntry where
  | observed (kind : LifecycleEventKind)
  | yielded (item : Yield)

namespace LogEntry

def isStart : LogEntry → Bool
  | .observed (.attemptStarted _) => true
  | _ => false

def isDelivery : LogEntry → Bool
  | .yielded (.event _ _) => true
  | _ => false

end LogEntry

abbrev CallLog := List (Instant × LogEntry)

namespace CallLog

def observed (log : CallLog) : List LifecycleEventKind :=
  log.filterMap fun
    | (_, .observed kind) => some kind
    | (_, .yielded _) => none

def yielded (log : CallLog) : List Yield :=
  log.filterMap fun
    | (_, .yielded item) => some item
    | (_, .observed _) => none

def attemptsStarted (log : CallLog) : List UInt32 :=
  log.filterMap fun
    | (_, .observed (.attemptStarted attempt)) => some attempt
    | _ => none

def deliveries (log : CallLog) : List UInt32 :=
  log.filterMap fun
    | (_, .yielded (.event attempt _)) => some attempt
    | _ => none

def schedules (log : CallLog) : List (Instant × Duration) :=
  log.filterMap fun
    | (instant, .observed (.retryScheduled _ _ _ delay _ _)) => some (instant, delay)
    | _ => none

end CallLog

end Philo
