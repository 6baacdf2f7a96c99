import Philo.Foundation.Machine

/-! The error taxonomy of `error.rs`. Debug and display output is left out; the
fields, stages and messages that code inspects or reports are kept. -/

namespace Philo

inductive RetriableHint where
  | no
  | maybe
  deriving DecidableEq, Repr

inductive ErrorStage where
  | configuration | validation | capability | connect | tls | body | http | sse
  | json | protocol | timeout
  deriving DecidableEq, Repr

inductive TimeoutStage where
  | credential | connect | responseHeader | firstEvent | idleStream | overall
  | unknownTransport
  deriving DecidableEq, Repr

inductive AuthFailureKind where
  | authentication | permission | quota | rateLimit
  deriving DecidableEq, Repr

inductive CredentialFailure where
  | unavailable | invalid | refreshFailed | timeout
  deriving DecidableEq, Repr

inductive HeaderPolicyFailure where
  | timeout | callback | invalidOperation | budgetExceeded
  deriving DecidableEq, Repr

inductive ValidationReason where
  | empty | boundaryWhitespace | conflict | missingProvider | providerMismatch
  | missingUserMessage | emptyUserText | textPartCount | nonFinite | outOfRange
  | zero | overflow | expired | invalidHeader | protectedHeader
  | capabilityUnsupported | capabilityUnknown | invalidMetadata | invalidIdentifier
  | duplicateToolName | emptyToolList | unknownTool
  deriving DecidableEq, Repr

structure ValidationError where
  field : String
  reason : ValidationReason
  summary : String
  deriving DecidableEq, Repr

structure CapabilityError where
  field : String
  capability : String
  state : String
  deriving DecidableEq, Repr

/-- The shape that `SchemaError`, `ToolValidationError`, `HistoryError`,
`StructuredOutputError` and `CostError` share: a field path, a failure code,
an optional JSON pointer and a message. -/
structure FieldError (Failure : Type) where
  field : String
  reason : Failure
  path : Option String
  message : String
  deriving DecidableEq, Repr

inductive SchemaFailure where
  | notAnObject | invalidKeywordType | unsupportedKeyword | remoteReference
  | unresolvedLocalReference | tooLarge | tooDeep
  | strictObjectMissingAdditionalPropertiesFalse | strictPropertyNotRequired
  deriving DecidableEq, Repr

inductive HistoryFailure where
  | unknownToolCall | duplicateToolCall | duplicateToolResult | missingToolResult
  | resultBeforeCall | invalidMessageOrder | unsupportedContent | toolCallIdCollision
  | tooManyMessages | textTooLarge | unsupportedPolicy
  deriving DecidableEq, Repr

inductive ToolValidationFailure where
  | invalidJson | schemaViolation | unknownTool | argumentsTooLarge | argumentsTooDeep
  deriving DecidableEq, Repr

inductive StructuredOutputFailure where
  | tooLarge | invalidJson | schemaViolation | truncated
  deriving DecidableEq, Repr

inductive CostFailure where
  | inconsistentUsage | overflow | invalidCurrency | invalidPriceProfile
  deriving DecidableEq, Repr

abbrev SchemaError := FieldError SchemaFailure
abbrev HistoryError := FieldError HistoryFailure
abbrev ToolValidationError := FieldError ToolValidationFailure
abbrev StructuredOutputError := FieldError StructuredOutputFailure
abbrev CostError := FieldError CostFailure

structure AuthenticationError where
  kind : AuthFailureKind
  stage : ErrorStage
  hint : RetriableHint
  deriving DecidableEq, Repr

structure TransportError where
  stage : ErrorStage
  hint : RetriableHint
  deriving DecidableEq, Repr

inductive ProviderConfigFailure where
  | invalidVersion | invalidDocument | missingRequiredField | invalidValue | mergeConflict
  | forbiddenOverride | secretUnavailable
  deriving DecidableEq, Repr

structure ProviderConfigError where
  field : String
  reason : ProviderConfigFailure
  message : String
  sourceId : Option String
  deriving DecidableEq, Repr

inductive ProviderRegistryFailure where
  | invalidProviderId | invalidVersion | duplicateRegistration | registrationNotFound
  | ambiguousProductSelection | factoryProviderMismatch | stateUnavailable
  deriving DecidableEq, Repr

structure ProviderRegistryError where
  reason : ProviderRegistryFailure
  providerId : Option String
  message : String
  deriving DecidableEq, Repr

end Philo
