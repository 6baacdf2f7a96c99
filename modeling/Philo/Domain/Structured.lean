import Philo.Domain.Json

/-! Structured response formats and the check of the final text. -/

namespace Philo

open Result

inductive FinishReason where
  | stop
  | length
  | contentFilter
  | toolCalls
  | unknown (raw : String)
  deriving DecidableEq

/-- The requested format. Of a `StructuredSchema` only the compiled schema is
read while a response is decoded. -/
inductive ResponseFormat (Schema : Type) where
  | text
  | jsonObject
  | jsonSchema (schema : Schema)

private def structuredError (reason : StructuredOutputFailure) (path : Option String)
    (message : String) : LlmError :=
  .structuredOutput ⟨"structured_output", reason, path, message⟩

def requireTextFinish (finishReason : FinishReason) : Except LlmError Unit :=
  match finishReason with
  | .length =>
    .error (structuredError .truncated none
      "structured output was truncated before completion")
  | .contentFilter | .unknown _ =>
    .error (.protocol (.new
      "structured output is unavailable for a non-success finish reason"))
  | .toolCalls => .error (.protocol (.new "structured output requires a successful text finish"))
  | .stop => .ok ()

def validateShape {Schema : Type} (library : JsonLibrary Schema)
    (format : ResponseFormat Schema) (parsed : Json) (limits : SchemaLimits) :
    Except LlmError (Option Json) := do
  match format with
  | .text => .ok none
  | .jsonObject =>
    reject (parsed.isObject = false) (structuredError .schemaViolation (some "#")
      "json_object response must be a JSON object")
    .ok (some parsed)
  | .jsonSchema schema =>
    mapError (fun error => structuredError .schemaViolation error.path
        "assistant text failed the requested response schema")
      (library.validateInstance schema parsed limits)
    .ok (some parsed)

def validateStructuredResponse {Schema : Type} (library : JsonLibrary Schema)
    (format : ResponseFormat Schema) (finishReason : FinishReason) (text : String)
    (hasToolCall hasRefusal : Bool) (limits : SchemaLimits) :
    Except LlmError (Option Json) :=
  match format with
  | .text => .ok none
  | .jsonObject | .jsonSchema _ =>
    if finishReason = .toolCalls ∨ hasToolCall = true then .ok none
    else if hasRefusal = true then .ok none
    else do
      requireTextFinish finishReason
      let parsed ← mapError (fun _ => structuredError .invalidJson none
        "assistant text is not valid JSON") (library.fromStr text)
      validateShape library format parsed limits

theorem parsed_of_validateStructuredResponse {Schema : Type} {library : JsonLibrary Schema}
    {schema : Schema} {text : String} {limits : SchemaLimits}
    (valid : Succeeds (validateStructuredResponse library (.jsonSchema schema) .stop text
      false false limits)) :
    ∃ parsed, library.fromStr text = .ok parsed ∧
      library.validateInstance schema parsed limits = .ok () := by
  rcases valid with ⟨value, valid⟩
  simp only [validateStructuredResponse, reduceCtorEq, or_false, Bool.false_eq_true,
    ↓reduceIte, requireTextFinish, ok_bind, bind_eq_ok, mapError_eq_ok, validateShape] at valid
  rcases valid with ⟨parsed, isParsed, _, admitted, _⟩
  exact ⟨parsed, isParsed, admitted⟩

end Philo
