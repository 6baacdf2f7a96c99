import Philo.Domain.Image
import Philo.Domain.Json

/-! Completed content: text, images, thinking with opaque provider state, refusals and
tool calls. -/

namespace Philo

open Result

structure ToolArguments where
  rawJson : String
  value : Json

def ToolArguments.fromRawJson {Schema : Type} (library : JsonLibrary Schema)
    (rawJson : String) : Except JsonError ToolArguments := do
  let value ← library.fromStr rawJson
  .ok ⟨rawJson, value⟩

theorem ToolArguments.rawJson_fromRawJson {Schema : Type} {library : JsonLibrary Schema}
    {rawJson : String} {arguments : ToolArguments}
    (parsed : fromRawJson library rawJson = .ok arguments) : arguments.rawJson = rawJson := by
  simp only [fromRawJson, bind_eq_ok, Except.ok.injEq] at parsed
  rcases parsed with ⟨value, _, rfl⟩
  rfl

structure ToolCall where
  id : ToolCallId
  name : ToolName
  arguments : ToolArguments

structure SourceIdentity where
  provider : ProviderId
  model : ModelId
  protocol : ProtocolId
  generationId : Option GenerationId
  deriving DecidableEq

def SourceIdentity.anthropic (model : ModelId) : SourceIdentity :=
  ⟨⟨"anthropic", by decide, by decide⟩, model, ⟨"anthropic-messages", by decide, by decide⟩, none⟩

def SourceIdentity.matchesSource (source other : SourceIdentity) : Bool :=
  source.provider = other.provider && source.model = other.model &&
    source.protocol = other.protocol

structure OpaqueReasoning where
  bytes : List UInt8
  source : SourceIdentity
  redacted : Bool
  deriving DecidableEq

structure ThinkingContent where
  text : String
  opaqueState : Option OpaqueReasoning
  deriving DecidableEq

inductive ContentPart where
  | text (text : String)
  | image (content : ImageContent)
  | thinking (content : ThinkingContent)
  | refusal (text : String)
  | toolCall (call : ToolCall)

namespace ContentPart

def textValue : ContentPart → Option String
  | text value => some value
  | image _ | thinking _ | refusal _ | toolCall _ => none

def toolCall? : ContentPart → Option ToolCall
  | toolCall call => some call
  | text _ | image _ | thinking _ | refusal _ => none

def isToolCall : ContentPart → Bool
  | toolCall _ => true
  | text _ | image _ | thinking _ | refusal _ => false

end ContentPart

end Philo
