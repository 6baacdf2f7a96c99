import Philo.Domain.History.Pairing

/-! The ids that the tool calls of an assistant turn get. -/

namespace Philo

open Result Std AssistantDraft

namespace HistorySetup

variable {setup : HistorySetup} {index partIndex : Nat} {parts : List ContentPart}
  {draft final : AssistantDraft}

/-! ## Errors -/

def TurnError (parts : List ContentPart) (error : HistoryError) : Prop :=
  error.reason = .toolCallIdCollision ∨ error.reason = .invalidMessageOrder ∨
    (∃ part ∈ parts, part.isToolCall = false) ∧
      (error.reason = .unsupportedContent ∨ error.reason = .textTooLarge)

theorem failsWith_addText {tally : Tally} {text : String} :
    FailsWith (fun error => error.reason = .textTooLarge) (setup.addText tally text) := by
  refine FailsWith.bind ?_ fun _ => failsWith_ok _
  exact (failsWith_okOr (by rfl)).bind fun _ =>
    (failsWith_reject (by rfl)).bind fun _ => failsWith_ok _

theorem failsWith_contentPart {part : ContentPart} {tally : Tally} {allowRefusal : Bool}
    (noCall : part.isToolCall = false) :
    FailsWith (fun error => error.reason = .unsupportedContent ∨ error.reason = .textTooLarge)
      (setup.normalizeContentPart part index partIndex tally allowRefusal) := by
  have text : ∀ {text : String}, FailsWith
      (fun error => error.reason = .unsupportedContent ∨ error.reason = .textTooLarge)
      (setup.addText tally text) := failsWith_addText.imp fun _ => .inr
  cases part with
  | text => exact text.bind fun _ => failsWith_ok _
  | image =>
    simp only [normalizeContentPart]
    split
    · exact failsWith_ok _
    · split
      · exact failsWith_error (.inl rfl)
      · exact failsWith_ok _
  | thinking =>
    simp only [normalizeContentPart]
    split
    · exact failsWith_ok _
    · exact text.bind fun _ => failsWith_ok _
  | refusal => exact (failsWith_reject (.inl rfl)).bind fun _ => text.bind fun _ => failsWith_ok _
  | toolCall => cases noCall

theorem failsWith_toolCall (openAi : setup.dialect.toolCallId = .openAi) {call : ToolCall}
    {occupied : TreeSet String} : FailsWith (fun error => error.reason = .toolCallIdCollision ∨
        error.reason = .invalidMessageOrder)
      (normalizeToolCall call index partIndex setup.dialect.toolCallId occupied) := by
  rw [openAi]
  refine (failsWith_mapError fun failure => ?_).bind fun _ =>
    (failsWith_mapError fun _ => .inr rfl).bind fun _ => failsWith_ok _
  cases failure with
  | collision => exact .inl rfl
  | empty => exact .inr rfl

theorem failsWith_assistantParts (openAi : setup.dialect.toolCallId = .openAi) :
    FailsWith (TurnError parts) (setup.normalizeAssistantParts index parts partIndex draft) := by
  induction parts generalizing partIndex draft with
  | nil => exact failsWith_ok _
  | cons part rest induction =>
    refine FailsWith.bind ?_ fun next => (induction).imp ?_
    · cases part with
      | toolCall call =>
        refine ((failsWith_toolCall openAi).imp fun error kind => ?_).bind fun _ => failsWith_ok _
        exact kind.elim .inl fun order => .inr (.inl order)
      | text | image | thinking | refusal =>
        refine (failsWith_reject (.inr (.inl rfl))).bind fun _ =>
          ((failsWith_contentPart rfl).imp fun error kind => ?_).bind fun _ => failsWith_ok _
        exact .inr (.inr ⟨⟨_, List.mem_cons_self, rfl⟩, kind⟩)
    · rintro error (collision | order | ⟨⟨other, member, noCall⟩, kind⟩)
      · exact .inl collision
      · exact .inr (.inl order)
      · exact .inr (.inr ⟨⟨other, List.mem_cons_of_mem _ member, noCall⟩, kind⟩)

end HistorySetup

/-! ## Turns -/

/-- `normalize_assistant_message`, with the tally after it. No id is occupied before it. -/
def HistorySetup.normalizeAssistantMessage (setup : HistorySetup) (content : List ContentPart)
    (index : Nat) (tally : Tally) :
    Except HistoryError (Option Message × List IdMapping × Tally) := do
  let draft ← setup.normalizeAssistantParts index content 0 (.fresh tally)
  .ok (draft.message?, draft.mappings, draft.tally)

structure SanitizedCalls (calls sanitized : List ToolCall) (mappings : List IdMapping) :
    Prop where
  sameCalls : List.Forall₂ (fun call new => new = { call with id := new.id }) calls sanitized
  distinct : (sanitized.map fun call => call.id).Nodup
  accepted : ∀ call ∈ sanitized, IsSanitized call.id.value
  changed : mappings = ((calls.zip sanitized).filter fun (call, new) => new.id ≠ call.id).map
    fun (call, new) => ⟨call.id, new.id⟩

section Turns

open HistorySetup

theorem mappingsOf_eq_filter (calls renamed : List ToolCall) : mappingsOf calls renamed =
      ((calls.zip renamed).filter fun (call, new) => new.id ≠ call.id).map
        fun (call, new) => ⟨call.id, new.id⟩ := by
  rw [mappingsOf]
  induction calls.zip renamed with
  | nil => rfl
  | cons pair rest induction =>
    rcases pair with ⟨call, new⟩
    by_cases same : new.id = call.id
    · simpa [mappingOf, same] using induction
    · simpa [mappingOf, same] using induction

theorem sanitizedCalls_of_renamed {calls renamed : List ToolCall}
    (isRenamed : RenamedCalls .openAi ∅ calls renamed) :
    SanitizedCalls calls renamed (mappingsOf calls renamed) where
  sameCalls := isRenamed.sameCalls
  distinct := by
    have values : ((renamed.map fun call => call.id).map ToolCallId.value).Nodup := by
      rw [List.map_map]
      exact isRenamed.distinct.1
    exact values.of_map _
  accepted := isRenamed.normal
  changed := mappingsOf_eq_filter calls renamed

theorem callsOf_message (draft : AssistantDraft) :
    draft.message?.toList.flatMap Message.toolCalls = callsOf draft.parts := by
  unfold message?
  split
  · next isEmpty =>
      rw [isEmpty]
      rfl
  · simp [Message.toolCalls, callsOf, Message.parts]

/-- The ids of a turn for OpenAI: what can go wrong, and what the ids are if nothing does. -/
theorem normalizeAssistantMessage_sanitizes (setup : HistorySetup) (content : List ContentPart)
    (index : Nat) (tally : Tally) (openAi : setup.dialect.toolCallId = .openAi)
    (distinct : ((callsOf content).map fun call => call.id).Nodup) :
    FailsWith (TurnError content) (setup.normalizeAssistantMessage content index tally) ∧
      ∀ message mappings after,
        setup.normalizeAssistantMessage content index tally = .ok (message, mappings, after) →
          SanitizedCalls (callsOf content) (message.toList.flatMap Message.toolCalls) mappings ∧
            ((∀ call ∈ callsOf content, IsSanitized call.id.value) →
              message.toList.flatMap Message.toolCalls = callsOf content ∧ mappings = []) := by
  refine ⟨(failsWith_assistantParts openAi).bind fun _ => failsWith_ok _, ?_⟩
  intro message mappings after accepted
  simp only [normalizeAssistantMessage, bind_eq_ok, Except.ok.injEq, Prod.mk.injEq] at accepted
  rcases accepted with ⟨draft, isDraft, rfl, rfl, rfl⟩
  rcases normalizeAssistantParts_eq_ok.mp isDraft with
    ⟨lead, calls, renamed, rfl, ⟨_, allowed, _, renames⟩, rfl⟩
  rw [callsOf_turn allowed] at distinct ⊢
  simp only [callsOf_message, after, fresh, List.nil_append]
  rw [callsOf_turn allowed.filter]
  rw [openAi] at renames
  refine ⟨sanitizedCalls_of_renamed renames, fun sanitized => ?_⟩
  have values := distinct.map (fun first second same => ToolCallId.ext same)
  rw [List.map_map] at values
  rw [renames.unique (.refl sanitized ⟨values, by simp [fresh]⟩)]
  exact ⟨rfl, mappingsOf_self calls⟩

def twoCallTurn : List ContentPart :=
  [.text "both",
    .toolCall spacedCall,
    .toolCall ⟨⟨"call-2", by decide, by decide⟩, spacedCall.name, spacedCall.arguments⟩]

def openAiSetup (maxTotalTextBytes : Nat) : HistorySetup :=
  ⟨⟨.supported, .unknown⟩, ⟨.openAi⟩, ⟨.reject, .reject, .dropAll⟩, 1024, maxTotalTextBytes⟩

theorem twoCallTurn_sanitized : ∃ message mappings after,
    (openAiSetup 4096).normalizeAssistantMessage twoCallTurn 0 .fresh =
        .ok (message, mappings, after) ∧
      (mappings.map fun mapping => (mapping.original.value, mapping.normalized.value)) =
          [("call 1", "call1")] ∧
        SanitizedCalls (callsOf twoCallTurn) (message.toList.flatMap Message.toolCalls)
          mappings := by
  have given : (((openAiSetup 4096).normalizeAssistantMessage twoCallTurn 0 .fresh).map
      fun result => result.2.1.map fun mapping =>
        (mapping.original.value, mapping.normalized.value)).toOption =
          some [("call 1", "call1")] := by decide +kernel
  rcases exists_ok_of_map given with ⟨⟨message, mappings, after⟩, accepted, mapped⟩
  exact ⟨message, mappings, after, accepted, mapped,
    ((normalizeAssistantMessage_sanitizes (openAiSetup 4096) twoCallTurn 0 .fresh rfl
      (by decide +kernel)).2 message mappings after accepted).1⟩

theorem twoCallTurn_tooLarge :
    ((callsOf twoCallTurn).map fun call => call.id).Nodup ∧
      ∃ error, (openAiSetup 3).normalizeAssistantMessage twoCallTurn 0 .fresh = .error error ∧
        error.reason ≠ .toolCallIdCollision ∧ error.reason ≠ .invalidMessageOrder := by
  refine ⟨by decide +kernel, ⟨"messages", .textTooLarge, none,
    "history exceeds the allowed total text byte limit"⟩, rfl, nofun, nofun⟩

end Turns

end Philo
