import Philo.Domain.Limits
import Philo.Domain.Schema.Instances
import Philo.Protocol.StructuredTerminal

/-! How large a structured answer may be: the terminal counts the bytes of the text, and
the validator counts those of the parsed value once more, under the limit of tool
arguments. -/

namespace Philo

open Result ToolSchema

namespace StructuredTerminal

variable {Schema : Type} {terminal : StructuredTerminal Schema} {buffer : String}

theorem pushAll_of_fits (buffered : terminal.textBuffer = some buffer)
    (bounded : terminal.byteLimit ≤ ResourceLimits.official.maxStructuredOutputBytes)
    (pieces : List String) (fits : Text.len (buffer ++ String.join pieces) ≤ terminal.byteLimit) :
    pieces.foldlM pushAnswerText terminal =
      .ok { terminal with textBuffer := some (buffer ++ String.join pieces) } := by
  induction pieces generalizing terminal buffer with
  | nil => simp [← buffered, pure, Except.pure]
  | cons piece rest induction =>
    have whole : buffer ++ String.join (piece :: rest) =
        buffer ++ piece ++ String.join rest := by
      rw [String.join_cons, String.append_assoc]
    rw [whole] at fits ⊢
    have total : Text.len (buffer ++ piece ++ String.join rest) =
        Text.len buffer + Text.len piece + Text.len (String.join rest) := by
      simp [Text.len]
    have small : ResourceLimits.official.maxStructuredOutputBytes < 2 ^ 64 := by decide
    have counted : checkedAdd (Text.len buffer) (Text.len piece) =
        some (Text.len buffer + Text.len piece) := by
      rw [checkedAdd, if_pos (by omega)]
    have pushed : terminal.pushAnswerText piece =
        .ok { terminal with textBuffer := some (buffer ++ piece) } := by
      simp only [pushAnswerText, buffered, counted, okOr, ok_bind]
      rw [reject, if_neg (by omega)]
      rfl
    rw [List.foldlM_cons, pushed, ok_bind]
    exact induction rfl bounded fits

def runAnswer (library : JsonLibrary Schema) (format : ResponseFormat Schema)
    (limits : SchemaLimits) (byteLimit : Nat) (pieces : List String) :
    Except LlmError (StructuredTerminal Schema) := do
  let terminal ← pieces.foldlM pushAnswerText (.new format limits byteLimit)
  terminal.validateBeforeDone library .stop false false

theorem runAnswer_succeeds_iff {library : JsonLibrary Schema} {schema : Schema}
    {limits : SchemaLimits} {byteLimit : Nat} {pieces : List String} {value : Json}
    (bounded : byteLimit ≤ ResourceLimits.official.maxStructuredOutputBytes)
    (fits : Text.len (String.join pieces) ≤ byteLimit)
    (parsed : library.fromStr (String.join pieces) = .ok value) :
    Succeeds (runAnswer library (.jsonSchema schema) limits byteLimit pieces) ↔
      library.validateInstance schema value limits = .ok () := by
  have pushed := @pushAll_of_fits Schema (.new (.jsonSchema schema) limits byteLimit) "" rfl
    bounded pieces (by rwa [String.empty_append])
  simp only [runAnswer, pushed, ok_bind, String.empty_append]
  constructor
  · rintro ⟨final, validated⟩
    rcases parsed_of_validateStructuredResponse (validateBeforeDone_eq_ok.mp validated).2.1 with
      ⟨value', isParsed, admitted⟩
    cases parsed.symm.trans isParsed
    exact admitted
  · intro admitted
    refine ⟨_, validateBeforeDone_eq_ok.mpr ⟨rfl, ⟨some value, ?_⟩, rfl⟩⟩
    simp [new, validateStructuredResponse, requireTextFinish, parsed, validateShape, admitted,
      mapError]

end StructuredTerminal

/-- An answer that parses and satisfies the schema is accepted if its value is no larger,
when it is written out again, than the arguments of a tool call may be. -/
theorem structuredAnswer_accepted_iff (fromStr : String → Except JsonError Json)
    (render : Json → String) (schema : ToolSchema) (limits : SchemaLimits) (byteLimit : Nat)
    (pieces : List String) (value : Json)
    (bounded : byteLimit ≤ ResourceLimits.official.maxStructuredOutputBytes)
    (fits : Text.len (String.join pieces) ≤ byteLimit)
    (parsed : fromStr (String.join pieces) = .ok value)
    (shallow : jsonDepth value ≤ limits.maxSchemaDepth)
    (arrays : ∀ items, (Json.array items).Within value →
      items.length ≤ limits.maxJsonArrayItems)
    (satisfied : Satisfies schema.value schema.value value)
    (affordable : Affordable limits schema.value value) :
    Succeeds (StructuredTerminal.runAnswer (library fromStr render)
        (.jsonSchema schema) limits byteLimit pieces) ↔
      Text.len (render value) ≤ maxToolArgumentsBytes := by
  rw [StructuredTerminal.runAnswer_succeeds_iff bounded fits parsed]
  change validate render schema value limits = .ok () ↔ _
  rw [validate_iff_satisfies, preflightInstance_eq_ok]
  constructor
  · rintro ⟨⟨small, _⟩, _⟩
    exact small
  · intro small
    exact ⟨⟨small, shallow, arrays⟩, satisfied, affordable⟩

/-! ## A string of one mebibyte -/

namespace LongAnswer

def quote (text : String) : String := "\"" ++ text ++ "\""

def render : Json → String
  | .string text => quote text
  | _ => "null"

def fromStr (text : String) : Except JsonError Json :=
  .ok (.string (String.ofList (text.toList.drop 1).dropLast))

def letters (count : Nat) : String := String.ofList (List.replicate count 'a')

def schema : ToolSchema := ⟨.object [("type", .string "string")], false⟩

theorem schema_compiles : new render schema.value = .ok schema := by
  have compiled : (compileSchema render schema.value .official).toOption =
      some false := by decide +kernel
  cases isStrict : compileSchema render schema.value .official with
  | error =>
    rw [isStrict] at compiled
    cases compiled
  | ok strict =>
    rw [isStrict] at compiled
    cases compiled
    rw [new, withLimits, isStrict]
    rfl

theorem fromStr_quote (text : String) : fromStr (quote text) = .ok (.string text) := by
  simp [fromStr, quote]

theorem len_quote_letters (count : Nat) : Text.len (quote (letters count)) = count + 2 := by
  have letter : ∀ count, (String.ofList (List.replicate count 'a')).utf8ByteSize = count := by
    intro count
    induction count with
    | zero => rfl
    | succ count induction =>
      rw [List.replicate_succ, String.ofList_cons]
      simp only [String.utf8ByteSize_append, induction]
      have one : (String.singleton 'a').utf8ByteSize = 1 := by decide
      omega
  have marks : ("\"" : String).utf8ByteSize = 1 := by decide
  simp only [Text.len, quote, String.utf8ByteSize_append, letters, letter, marks]
  omega

theorem shallow (text : String) :
    jsonDepth (.string text) ≤ SchemaLimits.official.maxSchemaDepth := by
  have one : jsonDepth (.string text) = 1 := rfl
  rw [one]
  decide

theorem bounded (text : String) : Bounded .official (.string text) := by rintro items ⟨⟩

theorem satisfied (text : String) : Satisfies schema.value schema.value (.string text) ∧
      Affordable .official schema.value (.string text) :=
  (validation_eq_ok (bounded text)).mp rfl

/-- A string that is too long for a tool call is too long for an answer. -/
theorem refused_of_long {count : Nat}
    (fits : count + 2 ≤ ResourceLimits.official.maxStructuredOutputBytes)
    (long : maxToolArgumentsBytes < count + 2) :
    ¬ Succeeds (StructuredTerminal.runAnswer (library fromStr render)
      (.jsonSchema schema) .official ResourceLimits.official.maxStructuredOutputBytes
      [quote (letters count)]) := by
  have joined : String.join [quote (letters count)] = quote (letters count) := by
    rw [String.join_cons, String.join_nil, String.append_empty]
  have length := len_quote_letters count
  rw [@StructuredTerminal.runAnswer_succeeds_iff _ _ _ _ _ _ (.string (letters count))
    (Nat.le_refl _) (by rwa [joined, length]) (by rw [joined]; exact fromStr_quote _)]
  intro accepted
  have small := (preflightInstance_eq_ok.mp
    ((validate_iff_satisfies ..).mp accepted).1).1
  change Text.len (quote (letters count)) ≤ _ at small
  rw [length] at small
  exact Nat.not_lt.mpr small long

theorem longAnswer_refused :
    Succeeds (new render schema.value) ∧
      Text.len (quote (letters 1048576)) ≤ ResourceLimits.official.maxStructuredOutputBytes ∧
      fromStr (quote (letters 1048576)) = .ok (.string (letters 1048576)) ∧
      jsonDepth (.string (letters 1048576)) ≤ SchemaLimits.official.maxSchemaDepth ∧
      Bounded .official (.string (letters 1048576)) ∧
      Satisfies schema.value schema.value (.string (letters 1048576)) ∧
      Affordable .official schema.value (.string (letters 1048576)) ∧
      ¬ Succeeds (StructuredTerminal.runAnswer (library fromStr render)
        (.jsonSchema schema) .official ResourceLimits.official.maxStructuredOutputBytes
        [quote (letters 1048576)]) := by
  refine ⟨⟨_, schema_compiles⟩, ?_, fromStr_quote _, shallow _, bounded _, (satisfied _).1,
    (satisfied _).2, refused_of_long (by decide) (by decide)⟩
  rw [len_quote_letters]
  decide

theorem shortAnswer_accepted :
    Succeeds (StructuredTerminal.runAnswer (library fromStr render)
      (.jsonSchema schema) .official 16 ["\"a", "b\""]) := by
  rcases satisfied "ab" with ⟨meets, affordable⟩
  exact (structuredAnswer_accepted_iff fromStr render schema .official 16 ["\"a", "b\""]
    (.string "ab") (by decide) (by decide) rfl (shallow "ab") (bounded "ab") meets
    affordable).mpr (by decide)

end LongAnswer

end Philo
