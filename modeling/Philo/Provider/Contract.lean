import Philo.Domain.Policy
import Philo.Protocol.AnthropicMessages.Decode
import Philo.Protocol.OpenAiChat.Wire

/-! What a provider declares it can do, and the protocol contract that a request runs
under. -/

namespace Philo

open Result

/-! ## Capabilities -/

structure ModelCapabilities where
  functionTools : CapabilityStatus
  toolChoiceRequired : CapabilityStatus
  toolChoiceSpecific : CapabilityStatus
  parallelToolCalls : CapabilityStatus
  strictTools : CapabilityStatus
  visionInput : CapabilityStatus
  imageDetailOriginal : CapabilityStatus
  responseFormatJsonObject : CapabilityStatus
  responseFormatJsonSchema : CapabilityStatus
  reasoningEfforts : ReasoningEffortSupport
  adaptiveThinking : CapabilityStatus
  adaptiveThinkingEffort : CapabilityStatus
  deriving DecidableEq

def ModelCapabilities.unknown : ModelCapabilities where
  functionTools := .unknown
  toolChoiceRequired := .unknown
  toolChoiceSpecific := .unknown
  parallelToolCalls := .unknown
  strictTools := .unknown
  visionInput := .unknown
  imageDetailOriginal := .unknown
  responseFormatJsonObject := .unknown
  responseFormatJsonSchema := .unknown
  reasoningEfforts := .unknown
  adaptiveThinking := .unknown
  adaptiveThinkingEffort := .unknown

structure ModelCapabilityProfile where
  model : ModelId
  capabilities : ModelCapabilities
  deriving DecidableEq

structure ProviderCapabilities where
  developerRole : CapabilityStatus
  temperature : CapabilityStatus
  maxCompletionTokens : CapabilityStatus
  streaming : CapabilityStatus
  streamingUsage : CapabilityStatus
  model : ModelCapabilities
  deriving DecidableEq

namespace ProviderCapabilities

def openAiCompatible : ProviderCapabilities where
  developerRole := .unknown
  temperature := .supported
  maxCompletionTokens := .supported
  streaming := .supported
  streamingUsage := .supported
  model := { ModelCapabilities.unknown with
    adaptiveThinking := .unsupported
    adaptiveThinkingEffort := .unsupported }

def validate (capabilities : ProviderCapabilities) : Except LlmError Unit := do
  reject (capabilities.streaming ≠ .supported)
    (.configuration "profile must declare streaming support")
  reject (capabilities.streamingUsage ≠ .supported)
    (.configuration "profile must declare streaming usage support")

/-- `apply_catalog` and `apply_model`, which replace the same fields. -/
def applyModel (capabilities : ProviderCapabilities) (model : ModelCapabilities) :
    ProviderCapabilities :=
  { capabilities with model }

end ProviderCapabilities

/-! ## Contracts -/

inductive ProtocolDialect where
  | openAiChatCompletions
  | anthropicMessages
  deriving DecidableEq

structure HistoryCompat where
  missingToolResult : MissingToolResultPolicy
  unsupportedContent : UnsupportedContentPolicy
  thinkingReplay : ThinkingReplayPolicy
  toolResultName : ToolResultNamePolicy
  toolCallId : ToolCallIdPolicy
  deriving DecidableEq

structure CompatProfile where
  streamUsage : StreamUsagePolicy
  response : OpenAiChat.ResponseCompat
  history : HistoryCompat
  deriving DecidableEq

def CompatProfile.openAiChatDefault : CompatProfile where
  streamUsage := .includeUsage
  response := .openAiChatDefault
  history := ⟨.reject, .reject, .dropAll, .omit, .openAi⟩

def CompatProfile.validateAgainst (compat : CompatProfile)
    (capabilities : ProviderCapabilities) : Except LlmError Unit := do
  reject (compat.streamUsage = .includeUsage ∧ capabilities.streamingUsage ≠ .supported)
    (.configuration "stream usage compatibility requires explicit streaming usage support")
  reject (compat.response.toolArguments = .stringOrObject ∧
      capabilities.model.functionTools ≠ .supported)
    (.configuration "tool argument compatibility requires explicit function tool support")

structure AnthropicMessagesContract where
  usage : AnthropicMessages.UsageCompat
  history : HistoryPolicy
  deriving DecidableEq

def AnthropicMessagesContract.strictOfficial : AnthropicMessagesContract :=
  ⟨.strictStableFields, ⟨.reject, .reject, .sameSourceOnly⟩⟩

inductive ResolvedProtocolContract where
  | openAiChat (compat : CompatProfile)
  | anthropicMessages (contract : AnthropicMessagesContract)
  deriving DecidableEq

namespace ResolvedProtocolContract

def dialect : ResolvedProtocolContract → ProtocolDialect
  | openAiChat _ => .openAiChatCompletions
  | anthropicMessages _ => .anthropicMessages

def historyPolicy : ResolvedProtocolContract → HistoryPolicy
  | openAiChat compat => ⟨compat.history.missingToolResult, compat.history.unsupportedContent,
      compat.history.thinkingReplay⟩
  | anthropicMessages contract => contract.history

def validateCapabilities (contract : ResolvedProtocolContract)
    (capabilities : ProviderCapabilities) : Except LlmError Unit :=
  match contract with
  | openAiChat compat => compat.validateAgainst capabilities
  | anthropicMessages _ => .ok ()

end ResolvedProtocolContract

structure ValidatedProtocolBinding where
  id : ProtocolId
  contract : ResolvedProtocolContract
  named : id.value = (match contract.dialect with
    | .openAiChatCompletions => "openai-chat-completions"
    | .anthropicMessages => "anthropic-messages")
  deriving DecidableEq

namespace ValidatedProtocolBinding

def dialect (binding : ValidatedProtocolBinding) : ProtocolDialect := binding.contract.dialect

def validateContract (binding : ValidatedProtocolBinding) (contract : ResolvedProtocolContract) :
    Except LlmError Unit :=
  reject (contract.dialect ≠ binding.dialect)
    (.configuration "model protocol contract does not match the provider protocol binding")

end ValidatedProtocolBinding

end Philo
