import Philo.Domain.Json

/-! The decoded chunks of `openai_chat/wire.rs` and the response compatibility
strategies of `protocol_contract/response.rs`. -/

namespace Philo.OpenAiChat

/-- `#[serde(flatten)] extra`: the fields that no struct names, in key order. -/
abbrev Extra := List (String × Json)

structure PromptTokensDetailsWire where
  cachedTokens : Option Int64
  cacheWriteTokens : Option Int64
  extra : Extra

structure CompletionTokensDetailsWire where
  reasoningTokens : Option Int64
  extra : Extra

structure UsageWire where
  promptTokens : Option Int64
  completionTokens : Option Int64
  totalTokens : Option Int64
  promptTokensDetails : Option PromptTokensDetailsWire
  completionTokensDetails : Option CompletionTokensDetailsWire
  extra : Extra

inductive ToolArgumentsWire where
  | string (value : String)
  | object (value : Json)

structure FunctionDeltaWire where
  name : Option String
  arguments : Option ToolArgumentsWire
  extra : Extra

structure ToolCallDeltaWire where
  index : Int64
  id : Option String
  kind : Option String
  function : Option FunctionDeltaWire
  extra : Extra

structure DeltaWire where
  role : Option String
  content : Option String
  refusal : Option String
  toolCalls : Option (List ToolCallDeltaWire)
  functionCall : Option Json
  extra : Extra

structure ChoiceWire where
  index : Int64
  delta : Option DeltaWire
  finishReason : Option String
  extra : Extra

structure ChatCompletionChunkWire where
  id : Option String
  object : Option String
  model : Option String
  choices : List ChoiceWire
  usage : Option UsageWire
  error : Option Json
  extra : Extra

/-- `serde_json` for this protocol: `from_str` at the chunk type and `to_string`
at `Value`, besides the untyped functions. Nothing is assumed about them. -/
structure WireLibrary (Schema : Type) extends JsonLibrary Schema where
  chunk : String → Except JsonError ChatCompletionChunkWire
  toString : Json → Except JsonError String

/-! ## Compatibility strategies -/

inductive FinishReasonCompat where
  | strictOpenAi
  | allowOneIdenticalDuplicate
  deriving DecidableEq

inductive ToolArgumentsCompat where
  | jsonString
  | stringOrObject
  deriving DecidableEq

inductive UsageCompat where
  | openAi
  | openAiDropInconsistentReasoning
  deriving DecidableEq

inductive InlineErrorCompat where
  | reject
  deriving DecidableEq

structure ResponseCompat where
  finishReason : FinishReasonCompat
  toolArguments : ToolArgumentsCompat
  usage : UsageCompat
  inlineError : InlineErrorCompat
  deriving DecidableEq

def ResponseCompat.openAiChatDefault : ResponseCompat :=
  ⟨.strictOpenAi, .jsonString, .openAi, .reject⟩

end Philo.OpenAiChat
