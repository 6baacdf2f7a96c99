import Philo.Domain.Ids

/-! The public error sum. -/

namespace Philo

structure ProtocolError where
  stage : ErrorStage
  message : String
  providerCode : Option String
  requestId : Option ProviderRequestId
  hint : RetriableHint
  deriving DecidableEq

namespace ProtocolError

def atStage (stage : ErrorStage) (message : String) : ProtocolError :=
  ⟨stage, message, none, none, .no⟩

def new (message : String) : ProtocolError := atStage .protocol message

def withProviderContext (error : ProtocolError) (providerCode : String)
    (requestId : Option ProviderRequestId) (hint : RetriableHint) : ProtocolError :=
  { error with providerCode := some providerCode, requestId, hint }

end ProtocolError

abbrev Duration := Nat

/-- A point of the monotonic clock, in nanoseconds from its origin. -/
abbrev Instant := Nat

/-- The largest point of the monotonic clock: its seconds are a signed 64-bit number. -/
def maxInstant : Instant := 2 ^ 63 * 1000000000 - 1

structure HttpStatusError where
  status : UInt16
  stage : ErrorStage
  body : String
  requestId : Option ProviderRequestId
  providerCode : Option String
  hint : RetriableHint
  retryAfter : Option Duration
  deriving DecidableEq

structure TimeoutError where
  timeoutStage : TimeoutStage
  overallLimited : Bool
  elapsed : Option Duration
  limit : Option Duration
  attemptNumber : Option UInt32
  domainEventDelivered : Bool
  deriving DecidableEq

inductive LlmError where
  | configuration (message : String)
  | providerConfig (error : ProviderConfigError)
  | providerRegistry (error : ProviderRegistryError)
  | validation (error : ValidationError)
  | capability (error : CapabilityError)
  | schema (error : SchemaError)
  | toolValidation (error : ToolValidationError)
  | history (error : HistoryError)
  | structuredOutput (error : StructuredOutputError)
  | cost (error : CostError)
  | authentication (error : AuthenticationError)
  | credential (kind : CredentialFailure)
  | headerPolicy (kind : HeaderPolicyFailure)
  | transport (error : TransportError)
  | httpStatus (error : HttpStatusError)
  | protocol (error : ProtocolError)
  | unsupportedResponseSemantics (raw : String)
  | unknownFinishReason (raw : String)
  | truncatedStream
  | timeout (error : TimeoutError)
  | cancelled
  deriving DecidableEq

end Philo
