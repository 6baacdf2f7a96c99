import Philo.Domain.Content

/-! Conversation messages and tool results. -/

namespace Philo

open Result

inductive MessageRole where
  | developer | system | user | assistant | tool
  deriving DecidableEq, Repr

def validateOfficialToolResultContent (content : List ContentPart) :
    Except HistoryError Unit :=
  match content with
  | [.text text] =>
    reject (text = "") ⟨"tool_result.content", .unsupportedContent, some "content[0]",
      "official tool results require non-empty text"⟩
  | [_] => .error ⟨"tool_result.content", .unsupportedContent, some "content[0]",
      "official tool results only accept a single text part"⟩
  | _ => .error ⟨"tool_result.content", .unsupportedContent, none,
      "official tool results require exactly one content part"⟩

structure ToolResultMessage where
  toolCallId : ToolCallId
  toolName : ToolName
  content : List ContentPart
  isError : Bool
  sourceGenerationId : Option GenerationId
  official : validateOfficialToolResultContent content = .ok ()

namespace ToolResultMessage

def new (toolCallId : ToolCallId) (toolName : ToolName) (content : List ContentPart)
    (isError : Bool) (sourceGenerationId : Option GenerationId) :
    Except HistoryError ToolResultMessage :=
  match official : validateOfficialToolResultContent content with
  | .ok () => .ok ⟨toolCallId, toolName, content, isError, sourceGenerationId, official⟩
  | .error error => .error error

theorem content_eq (result : ToolResultMessage) :
    ∃ text, result.content = [.text text] ∧ text ≠ "" := by
  have official := result.official
  unfold validateOfficialToolResultContent at official
  split at official
  · next text isText => exact ⟨text, isText, reject_eq_ok.mp official⟩
  · cases official
  · cases official

def text (result : ToolResultMessage) : String :=
  (result.content.head?.bind ContentPart.textValue).getD ""

theorem content_text (result : ToolResultMessage) : result.content = [.text result.text] := by
  rcases result.content_eq with ⟨text, isText, _⟩
  simp [ToolResultMessage.text, isText, ContentPart.textValue]

theorem new_of_official (result : ToolResultMessage) (toolCallId : ToolCallId) :
    new toolCallId result.toolName result.content result.isError result.sourceGenerationId =
      .ok { result with toolCallId } := by
  have official := result.official
  unfold new
  split
  · rfl
  · next failed => cases official.symm.trans failed

end ToolResultMessage

/-- A message with content, or the result of a tool call, whose role is always `Tool`. -/
inductive Message where
  | content (role : MessageRole) (parts : List ContentPart)
  | toolResult (result : ToolResultMessage)

namespace Message

def role : Message → MessageRole
  | content role _ => role
  | toolResult _ => .tool

def parts : Message → List ContentPart
  | content _ parts => parts
  | toolResult _ => []

def toolResult? : Message → Option ToolResultMessage
  | content _ _ => none
  | toolResult result => some result

def isTool (message : Message) : Bool := message.role = .tool

def texts (message : Message) : List String := message.parts.filterMap ContentPart.textValue

def toolCalls (message : Message) : List ToolCall := message.parts.filterMap ContentPart.toolCall?

end Message

end Philo
