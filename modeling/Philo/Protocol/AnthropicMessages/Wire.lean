import Philo.Domain.Json

/-! The decoded Anthropic event payloads of `anthropic_messages/wire.rs`. -/

namespace Philo.AnthropicMessages

structure UsageWire where
  inputTokens : Option UInt64
  outputTokens : Option UInt64
  cacheCreationInputTokens : Option UInt64
  cacheReadInputTokens : Option UInt64
  thinkingTokens : Option UInt64
  deriving DecidableEq

def UsageWire.unreported : UsageWire := ⟨none, none, none, none, none⟩

structure MessageStartWire where
  id : String
  model : String
  usage : UsageWire

structure MessageStartEventWire where
  kind : String
  message : MessageStartWire

inductive ContentBlockStartWire where
  | text (text : String)
  | toolUse (id name : String) (input : Json)
  | thinking (thinking : String)
  | redactedThinking (data : String)
  | unknown

structure ContentBlockStartEventWire where
  kind : String
  index : UInt32
  contentBlock : ContentBlockStartWire

inductive ContentBlockDeltaWire where
  | textDelta (text : String)
  | inputJsonDelta (partialJson : String)
  | thinkingDelta (thinking : String)
  | signatureDelta (signature : String)
  | unknown

structure ContentBlockDeltaEventWire where
  kind : String
  index : UInt32
  delta : ContentBlockDeltaWire

structure IndexedEventWire where
  kind : String
  index : UInt32

structure MessageDeltaWire where
  stopReason : Option String

structure MessageDeltaEventWire where
  kind : String
  delta : MessageDeltaWire
  usage : UsageWire

structure TypeOnlyEventWire where
  kind : String

structure ErrorWire where
  kind : String

structure ErrorEventWire where
  kind : String
  error : ErrorWire

/-- `serde_json` for this protocol: besides the untyped functions, `from_str` at
each payload type. Nothing is assumed about them. -/
structure WireLibrary (Schema : Type) extends JsonLibrary Schema where
  messageStart : String → Except JsonError MessageStartEventWire
  contentBlockStart : String → Except JsonError ContentBlockStartEventWire
  contentBlockDelta : String → Except JsonError ContentBlockDeltaEventWire
  indexed : String → Except JsonError IndexedEventWire
  messageDelta : String → Except JsonError MessageDeltaEventWire
  typeOnly : String → Except JsonError TypeOnlyEventWire
  errorEvent : String → Except JsonError ErrorEventWire

inductive WireEvent where
  | messageStart (wire : MessageStartEventWire)
  | contentBlockStart (wire : ContentBlockStartEventWire)
  | contentBlockDelta (wire : ContentBlockDeltaEventWire)
  | contentBlockStop (wire : IndexedEventWire)
  | messageDelta (wire : MessageDeltaEventWire)
  | messageStop (wire : TypeOnlyEventWire)
  | ping (wire : TypeOnlyEventWire)
  | error (wire : ErrorEventWire)
  | other

end Philo.AnthropicMessages
