import Philo.Protocol.AnthropicMessages.Limits
import Philo.Protocol.StructuredText

/-! The resolved response limits in runs of either machine: the depth of tool call
arguments, and the depth and the arrays of an answer that goes to a schema. -/

namespace Philo

open Result OpenAiChat

namespace OpenAiChat

mutual

theorem jsonDepth_eq (value : Json) : jsonDepth value = ToolSchema.jsonDepth value := by
  cases value with
  | array items => rw [jsonDepth, ToolSchema.jsonDepth, maxDepth_eq items]
  | object entries => rw [jsonDepth, ToolSchema.jsonDepth, maxEntryDepth_eq entries]
  | null | bool | number | string => rfl

theorem maxDepth_eq (items : List Json) : maxDepth items = ToolSchema.maxDepth items := by
  cases items with
  | nil => rfl
  | cons item rest => rw [maxDepth, ToolSchema.maxDepth, jsonDepth_eq item, maxDepth_eq rest]

theorem maxEntryDepth_eq (entries : List (String × Json)) :
    maxEntryDepth entries = ToolSchema.maxEntryDepth entries := by
  cases entries with
  | nil => rfl
  | cons entry rest =>
    rcases entry with ⟨key, value⟩
    rw [maxEntryDepth, ToolSchema.maxEntryDepth, jsonDepth_eq value, maxEntryDepth_eq rest]

end

end OpenAiChat

namespace ResponseSetup

variable {Schema : Type}

/-- The limits hold of everything a run gave out: of the tool calls that it ended, and,
when it finishes with a text answer to a schema, of that answer. -/
structure LimitsEnforced (setup : ResponseSetup Schema) (format : ResponseFormat Schema)
    (limits : ResponseLimits) (final : setup.State) (emitted : List AssistantEvent) :
    Prop where
  arguments : ∀ index call, .toolCallEnd index call ∈ emitted →
    ToolSchema.jsonDepth call.arguments.value ≤ limits.maxSchemaDepth
  answer : (∃ schema, format = .jsonSchema schema) →
    setup.producer.finish final = .ok [.done .stop] →
      startsTool emitted = false → startsRefusal emitted = false →
        ∃ parsed, setup.json.fromStr (answerText emitted) = .ok parsed ∧ limits.Allows parsed

/-- The event takes the run beyond its limits. The OpenAI machine checks all of them. -/
def ExceedsLimits : (setup : ResponseSetup Schema) → setup.State → SseEvent → Prop
  | anthropicMessages library _ _ => AnthropicMessages.ExceedsLimits library
  | openAiChat .. => fun _ _ => False

variable {format : ResponseFormat Schema} {limits : ResponseLimits} {inputs : List SseEvent}
  {emitted : List AssistantEvent}

/-- The text answer of a finished run is JSON that the schema admits under the limits of
the machine's terminal. -/
theorem parsed_answer (setup : ResponseSetup Schema) {final : setup.State} {schema : Schema}
    (accepted : setup.producer.run (setup.initial (.jsonSchema schema) limits) inputs =
      .ok (final, emitted))
    (finished : setup.producer.finish final = .ok [.done .stop])
    (noTool : startsTool emitted = false) (noRefusal : startsRefusal emitted = false) :
    ∃ parsed, setup.json.fromStr (answerText emitted) = .ok parsed ∧
      setup.json.validateInstance schema parsed (setup.schemaLimits limits) = .ok () := by
  rcases (answered setup (by simp) accepted finished).accepts with ⟨reason, isDone, valid⟩
  cases isDone
  rw [noTool, noRefusal] at valid
  exact parsed_of_validateStructuredResponse valid

theorem openAiChat_limitsEnforced {library : WireLibrary Schema}
    {context : StreamContext} {compat : ResponseCompat} {final : ChatStateMachine Schema}
    (preflights : library.toJsonLibrary.Preflights)
    (accepted : (ChatStateMachine.producer library).run
      (.new context format limits compat) inputs = .ok (final, emitted)) :
    (openAiChat library context compat).LimitsEnforced format limits final emitted where
  arguments index call ended := by
    rw [← jsonDepth_eq]
    exact (run_spoken accepted).ends index call ended
  answer := by
    rintro ⟨schema, rfl⟩ finished noTool noRefusal
    rcases parsed_answer (openAiChat library context compat) accepted finished noTool
      noRefusal with ⟨parsed, isParsed, admitted⟩
    have passed := ToolSchema.preflightInstance_eq_ok.mp (preflights.preflight admitted)
    exact ⟨parsed, isParsed, passed.2⟩

section Anthropic

variable {library : AnthropicMessages.WireLibrary Schema}
  {context : AnthropicMessages.StreamContext} {compat : AnthropicMessages.UsageCompat}
  {final : AnthropicMessages.MessagesStateMachine Schema}

theorem anthropicMessages_limitsEnforced
    (accepted : (AnthropicMessages.MessagesStateMachine.producer library).run
      (.new context format limits compat) inputs = .ok (final, emitted))
    (within : ∀ later event, (AnthropicMessages.MessagesStateMachine.producer library).Takes
      (.new context format limits compat) inputs later event →
        ¬ AnthropicMessages.ExceedsLimits library later event) :
    (anthropicMessages library context compat).LimitsEnforced format limits final emitted := by
  rcases AnthropicMessages.run_within within rfl rfl accepted with ⟨⟨sameLimits, shallow⟩, allowed⟩
  refine ⟨shallow, ?_⟩
  rintro ⟨schema, rfl⟩ finished noTool noRefusal
  rcases parsed_answer (anthropicMessages library context compat) accepted finished noTool
    noRefusal with ⟨parsed, isParsed, _⟩
  have spoken := AnthropicMessages.run_spoken accepted
  have answered := answered (anthropicMessages library context compat) (by simp) accepted
    finished
  rcases AnthropicMessages.finish_eq_ok.mp finished with ⟨_, validated, reason, isReason, isDone⟩
  cases isDone
  have noTools : final.toolCalls = 0 := by
    have none_called := spoken.toolCalls_eq.trans noTool
    exact Nat.eq_zero_of_not_pos (of_decide_eq_false none_called)
  have buffered : final.terminal.textBuffer.getD "" = answerText emitted := by
    rw [show final.terminal.textBuffer = _ from answered.buffered]
    rfl
  refine ⟨parsed, isParsed, ?_⟩
  replace sameLimits : final.limits = limits := sameLimits
  rw [← sameLimits]
  refine allowed validated ⟨schema, spoken.terminal.responseFormat⟩ isReason noTools parsed ?_
  rw [buffered]
  exact isParsed

theorem anthropicMessages_within
    (enforced : (anthropicMessages library context compat).LimitsEnforced format limits final
      emitted)
    (accepted : (AnthropicMessages.MessagesStateMachine.producer library).run
      (.new context format limits compat) inputs = .ok (final, emitted))
    {later : AnthropicMessages.MessagesStateMachine Schema} {event : SseEvent}
    (takes : (AnthropicMessages.MessagesStateMachine.producer library).Takes
      (.new context format limits compat) inputs later event) :
    ¬ AnthropicMessages.ExceedsLimits library later event := by
  rcases Producer.run_of_takes _ takes accepted with
    ⟨earlier, before, next, events, rest, after, reached, step, tail, rfl⟩
  have spoken := AnthropicMessages.run_spoken reached
  rintro ⟨wire, decoded, ⟨value, closes, deep⟩ | beyond⟩
  · rcases AnthropicMessages.ends_of_closesInput decoded step closes with
      ⟨index, call, ended, rfl⟩
    have given : .toolCallEnd index call ∈ before ++ (events ++ after) :=
      List.mem_append_right _ (List.mem_append_left _ ended)
    rw [spoken.limits] at deep
    exact Nat.not_lt.mpr (enforced.arguments index call given) deep
  · rcases AnthropicMessages.finish_of_endsBeyond decoded step beyond with
      ⟨atEnd, rfl, finished⟩
    rcases AnthropicMessages.run_terminal atEnd tail with ⟨rfl, rfl⟩
    rcases beyond with ⟨_, ⟨schema, hasSchema⟩, _, noTools, value, isValue, exceeds⟩
    rw [List.nil_append, List.append_nil] at enforced
    have isSchema : format = .jsonSchema schema :=
      spoken.terminal.responseFormat.symm.trans hasSchema
    have noTool : startsTool before = false := by
      rw [← spoken.toolCalls_eq, noTools]
      rfl
    have buffered : later.terminal.textBuffer.getD "" = answerText before := by
      rw [spoken.terminal.textBuffer, isSchema]
      simp [AnthropicMessages.MessagesStateMachine.new, StructuredTerminal.new]
    rcases enforced.answer ⟨schema, isSchema⟩ finished noTool spoken.noRefusal with
      ⟨parsed, isParsed, allowed⟩
    rw [buffered] at isValue
    cases isValue.symm.trans isParsed
    rw [spoken.limits] at exceeds
    exact exceeds allowed

end Anthropic

/-- A run stays within its resolved limits if and only if it takes no event that closes a
tool call, or ends an answer, beyond them. -/
theorem limitsEnforced_iff (setup : ResponseSetup Schema) (format : ResponseFormat Schema)
    (limits : ResponseLimits) (inputs : List SseEvent) (final : setup.State)
    (emitted : List AssistantEvent) (preflights : setup.json.Preflights)
    (accepted : setup.producer.run (setup.initial format limits) inputs =
      .ok (final, emitted)) :
    setup.LimitsEnforced format limits final emitted ↔
      ∀ later event, setup.producer.Takes (setup.initial format limits) inputs later event →
        ¬ setup.ExceedsLimits later event := by
  cases setup with
  | anthropicMessages library context compat =>
      exact ⟨fun enforced _ _ takes => anthropicMessages_within enforced accepted takes,
        anthropicMessages_limitsEnforced accepted⟩
  | openAiChat library context compat =>
      exact iff_of_true (openAiChat_limitsEnforced preflights accepted) fun _ _ _ => id

end ResponseSetup

/-! ## Recorded streams -/

namespace AnthropicMessages

def nestedInput : Recorded where
  name := ""
  data := "\x7b\"a\":[]\x7d"
  value := .object [("a", .array [])]
  wire := .other

/-- `serde_json` on the recorded data, with a validator that checks the budget and then
admits everything. -/
def budgetLibrary (records : List Recorded) : WireLibrary Unit :=
  let render := Json.recordedWriter
    [(.object [], "\x7b\x7d"), (nestedInput.value, nestedInput.data)]
  { recordedLibrary (nestedInput :: records) with
    render
    validateInstance := ToolSchema.validateInstance render fun _ _ _ => .ok () }

theorem budgetLibrary_preflights (records : List Recorded) :
    (budgetLibrary records).toJsonLibrary.Preflights :=
  ⟨fun _ _ _ => .ok (), rfl⟩

def budgetSetup (records : List Recorded) : ResponseSetup Unit :=
  .anthropicMessages (budgetLibrary records) recordedContext .strictStableFields

def recordedNestedInput : Recorded where
  name := "content_block_delta"
  data := "\x7b\"type\":\"content_block_delta\",\"index\":0,\"delta\":" ++
    "\x7b\"type\":\"input_json_delta\",\"partial_json\":\"\x7b\\\"a\\\":[]\x7d\"\x7d\x7d"
  value := .object [("delta", .object [("partial_json", .string nestedInput.data),
    ("type", .string "input_json_delta")]), ("index", .number (.posInt 0)),
    ("type", .string "content_block_delta")]
  wire := .contentBlockDelta ⟨"content_block_delta", 0, .inputJsonDelta nestedInput.data⟩

def nestedCallRun : List Recorded :=
  [recordedStart, recordedToolUse, recordedNestedInput, recordedStop,
    recordedReason "tool_use", recordedEnd]

def nestedAnswerRun : List Recorded :=
  [recordedStart, recordedTextStart 0, recordedTextDelta 0 nestedInput.data,
    recordedStopAt 0, recordedReason "end_turn", recordedEnd]

def flatLimits : ResponseLimits := { ResponseLimits.official with maxSchemaDepth := 1 }

end AnthropicMessages

namespace AnthropicMessages

def outline (limits : ResponseLimits)
    (outcome : MessagesStateMachine Unit × List AssistantEvent) :
    Option FinishReason × Bool × Bool × Bool × String :=
  (outcome.1.finishReason,
    decide (outcome.1.phase = .terminal) && outcome.1.terminal.validated,
    startsTool outcome.2 || startsRefusal outcome.2,
    outcome.2.any fun
      | .toolCallEnd _ call =>
        decide (limits.maxSchemaDepth < ToolSchema.jsonDepth call.arguments.value)
      | _ => false,
    answerText outcome.2)

def outlined (records : List Recorded) (limits : ResponseLimits) :
    Option (Option FinishReason × Bool × Bool × Bool × String) :=
  (((budgetSetup records).producer.run
    ((budgetSetup records).initial (.jsonSchema ()) limits)
    (records.map Recorded.sseEvent)).map (outline limits)).toOption

end AnthropicMessages

open AnthropicMessages in
theorem oneBlockRun_within :
    ∃ final emitted,
      (budgetSetup oneBlockRun).producer.run
          ((budgetSetup oneBlockRun).initial (.jsonSchema ()) .official)
          (oneBlockRun.map Recorded.sseEvent) = .ok (final, emitted) ∧
        (budgetSetup oneBlockRun).LimitsEnforced (.jsonSchema ()) .official final emitted ∧
          ∀ later event, (budgetSetup oneBlockRun).producer.Takes
              ((budgetSetup oneBlockRun).initial (.jsonSchema ()) .official)
              (oneBlockRun.map Recorded.sseEvent) later event →
            ¬ (budgetSetup oneBlockRun).ExceedsLimits later event := by
  have given : outlined oneBlockRun .official =
      some (some .stop, true, false, false, "\x7b\x7d") := by decide +kernel
  rcases exists_ok_of_map given with ⟨⟨final, emitted⟩, accepted, summary⟩
  simp only [outline, Prod.mk.injEq, Bool.and_eq_true, decide_eq_true_eq,
    Bool.or_eq_false_iff, List.any_eq_false] at summary
  rcases summary with ⟨_, _, _, shallow, text⟩
  have enforced : (budgetSetup oneBlockRun).LimitsEnforced (.jsonSchema ()) .official final
      emitted := by
    refine ⟨fun index call ended => ?_, fun _ _ _ _ => ⟨.object [], ?_, by decide, ?_⟩⟩
    · exact Nat.not_lt.mp fun deep => shallow _ ended (decide_eq_true deep)
    · rw [text]
      rfl
    · rintro items (_ | _ | ⟨member, _⟩)
      cases member
  exact ⟨final, emitted, accepted, enforced,
    (ResponseSetup.limitsEnforced_iff (budgetSetup oneBlockRun) (.jsonSchema ()) .official
      (oneBlockRun.map Recorded.sseEvent) final emitted (budgetLibrary_preflights oneBlockRun)
      accepted).mp enforced⟩

open AnthropicMessages in
/-- Under limits that allow only flat values, a nested tool input is emitted and a nested
answer is validated. -/
theorem nestedRuns_not_enforced :
    (∃ final emitted,
      (budgetSetup nestedCallRun).producer.run
          ((budgetSetup nestedCallRun).initial (.jsonSchema ()) flatLimits)
          (nestedCallRun.map Recorded.sseEvent) = .ok (final, emitted) ∧
        ¬ (budgetSetup nestedCallRun).LimitsEnforced (.jsonSchema ()) flatLimits final
          emitted) ∧
      ∃ final emitted,
        (budgetSetup nestedAnswerRun).producer.run
            ((budgetSetup nestedAnswerRun).initial (.jsonSchema ()) flatLimits)
            (nestedAnswerRun.map Recorded.sseEvent) = .ok (final, emitted) ∧
          ¬ (budgetSetup nestedAnswerRun).LimitsEnforced (.jsonSchema ()) flatLimits final
            emitted := by
  have call : outlined nestedCallRun flatLimits =
      some (some .toolCalls, true, true, true, "") := by decide +kernel
  have answer : outlined nestedAnswerRun flatLimits =
      some (some .stop, true, false, false, nestedInput.data) := by decide +kernel
  rcases exists_ok_of_map call with ⟨⟨final, emitted⟩, accepted, summary⟩
  rcases exists_ok_of_map answer with ⟨⟨final', emitted'⟩, accepted', summary'⟩
  simp only [outline, Prod.mk.injEq, Bool.and_eq_true, decide_eq_true_eq,
    Bool.or_eq_false_iff, List.any_eq_true] at summary summary'
  refine ⟨⟨final, emitted, accepted, fun enforced => ?_⟩,
    ⟨final', emitted', accepted', fun enforced => ?_⟩⟩
  · rcases summary with ⟨_, _, _, ⟨event, member, tooDeep⟩, _⟩
    cases event with
    | toolCallEnd index call =>
        exact absurd (enforced.arguments index call member)
          (Nat.not_le.mpr (of_decide_eq_true tooDeep))
    | _ => cases tooDeep
  · rcases summary' with ⟨stopped, ⟨atEnd, validated⟩, ⟨noTool, noRefusal⟩, _, text⟩
    have finished := finish_eq_ok.mpr ⟨atEnd, validated, .stop, stopped, rfl⟩
    rcases enforced.answer ⟨(), rfl⟩ finished noTool noRefusal with
      ⟨parsed, isParsed, shallow, _⟩
    rw [text] at isParsed
    cases isParsed
    exact absurd shallow (by decide)

end Philo
