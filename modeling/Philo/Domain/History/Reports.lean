import Philo.Domain.History.Ledger
import Philo.Domain.History.TurnIds

/-! What normalization reports about the content that it drops. -/

namespace Philo

open Result Std HistorySetup List NormalizeState

namespace ContentPart

def isPlainThinking : ContentPart → Bool
  | thinking content => content.opaqueState.isNone
  | _ => false

end ContentPart

namespace HistorySetup

variable {setup : HistorySetup} {index partIndex : Nat} {parts : List ContentPart}
  {code : DiagnosticCode}

/-! ## Parts -/

def drops (setup : HistorySetup) (code : DiagnosticCode) (parts : List ContentPart) : Nat :=
  parts.countP fun part => !setup.keeps part && part.dropCode? = some code

variable {part : ContentPart} {tally tally' : Tally} {draft : AssistantDraft}
  {state next : NormalizeState} {message : Message}

theorem drops_append (first second : List ContentPart) :
    setup.drops code (first ++ second) = setup.drops code first + setup.drops code second :=
  countP_append

theorem count_tallied (tally : Tally) (part : ContentPart) :
    (setup.tallied tally part).diagnostics.count code =
      tally.diagnostics.count code + UInt32.ofNat (setup.drops code [part]) := by
  unfold tallied drops
  cases keep : setup.keeps part with
  | true => simp [keep]
  | false =>
    cases dropped : part.dropCode? with
    | none => simp [dropped]
    | some found => by_cases same : found = code <;> simp [keep, dropped, Tally.increment, same]

theorem count_parts (tally : Tally) (parts : List ContentPart) :
    (parts.foldl setup.tallied tally).diagnostics.count code =
      tally.diagnostics.count code + UInt32.ofNat (setup.drops code parts) := by
  induction parts generalizing tally with
  | nil => simp [drops]
  | cons part rest induction =>
    rw [foldl_cons, induction, count_tallied, UInt32.add_assoc, ← UInt32.ofNat_add,
      ← drops_append, singleton_append]

theorem count_mapped (notId : code ≠ .sanitizedToolCallId) (tally : Tally)
    (mappings : List IdMapping) :
    (tally.mapped mappings).diagnostics.count code = tally.diagnostics.count code := by
  induction mappings generalizing tally with
  | nil => rfl
  | cons mapping rest induction =>
    refine (induction _).trans ?_
    simp [Tally.increment, notId.symm]

theorem filter_keeps_calls (calls : List ToolCall) :
    (calls.map ContentPart.toolCall).filter setup.keeps = calls.map .toolCall := by
  rw [filter_eq_self]
  intro part member
  rcases mem_map.mp member with ⟨_, _, rfl⟩
  rfl

theorem drops_calls (calls : List ToolCall) : setup.drops code (calls.map .toolCall) = 0 := by
  simp [drops, keeps]

/-! ## Messages -/

def leaves (setup : HistorySetup) (message : Message) : Bool :=
  message.isTool || message.parts.any setup.keeps

def noted (setup : HistorySetup) (code : DiagnosticCode) (message : Message) : Nat :=
  setup.drops code message.parts +
    if message.role = .assistant ∧ setup.leaves message = false ∧
      code = .removedEmptyAssistant then 1 else 0

theorem leaves_content {role : MessageRole} (notTool : role ≠ .tool) :
    setup.leaves (.content role parts) = parts.any setup.keeps := by
  simp [leaves, Message.isTool, Message.role, Message.parts, notTool]

theorem any_keeps_of_calls (hasCalls : callsOf parts ≠ []) : parts.any setup.keeps = true := by
  rcases exists_mem_of_ne_nil _ hasCalls with ⟨call, member⟩
  rcases mem_filterMap.mp member with ⟨part, isPart, isCall⟩
  refine any_eq_true.mpr ⟨part, isPart, ?_⟩
  cases part with
  | toolCall => rfl
  | text | image | thinking | refusal => cases isCall

theorem count_step (notId : code ≠ .sanitizedToolCallId) (takes : Takes setup state message next) :
    next.tally.diagnostics.count code =
      state.tally.diagnostics.count code + UInt32.ofNat (setup.noted code message) := by
  cases takes with
  | @plain closed role parts closes allowed =>
    rw [← closeTurn_tally closes, noted, leaves_content allowed.notTool]
    have nothing : parts.any setup.keeps = false ↔ parts.filter setup.keeps = [] := by simp
    simp only [push, plainTally, nothing, Message.role, Message.parts]
    by_cases removed : role = .assistant ∧ parts.filter setup.keeps = []
    · by_cases same : code = .removedEmptyAssistant <;>
        simp [removed, same, Tally.increment, count_parts, UInt32.ofNat_add, UInt32.add_assoc,
          eq_comm]
    · have none : ¬ (role = .assistant ∧ parts.filter setup.keeps = [] ∧
          code = .removedEmptyAssistant) := fun all => removed ⟨all.1, all.2.1⟩
      rw [if_neg removed, if_neg none, count_parts, Nat.add_zero]
  | @opens closed lead calls renamed _ closes opens =>
    have left : (lead ++ calls.map ContentPart.toolCall).any setup.keeps = true :=
      any_keeps_of_calls (by rw [callsOf_turn opens.allowed]; exact opens.notEmpty)
    rw [← closeTurn_tally closes, noted, leaves_content (by decide), left]
    simp only [opened, Message.parts, count_mapped notId, count_parts, drops_append, drops_calls]
    simp
  | answers => simp [noted, drops, Message.parts, Message.role, answered]

theorem count_messages {messages : List Message} {final : NormalizeState}
    (notId : code ≠ .sanitizedToolCallId)
    (accepted : setup.normalizer.acceptAll .fresh messages = .ok final) :
    final.tally.diagnostics.count code =
      UInt32.ofNat (messages.map (setup.noted code)).sum := by
  have counted := @Consumer.acceptAll_history _ _ _ _ setup.normalizer (fun read state =>
    setup.Allows state.tally.totalTextBytes ∧ state.tally.diagnostics.count code =
      UInt32.ofNat (read.map (setup.noted code)).sum) ?_ [] messages _ _
    ⟨accounts_fresh.fits, rfl⟩ accepted
  · exact counted.2
  · rintro read state message next ⟨allows, counted⟩ isNext
    have takes := (normalizeMessage_eq_ok allows).mp isNext
    refine ⟨takes.allows, ?_⟩
    rw [count_step notId takes, counted, ← UInt32.ofNat_add]
    simp

end HistorySetup

/-! ## What is left of a history -/

inductive SamePart : ContentPart → ContentPart → Prop
  | same (part : ContentPart) : SamePart part part
  | call (call : ToolCall) (id : ToolCallId) :
      SamePart (.toolCall call) (.toolCall { call with id })

structure SameMessage (setup : HistorySetup) (before after : Message) : Prop where
  role : after.role = before.role
  parts : Forall₂ SamePart (before.parts.filter setup.keeps) after.parts
  result : Option.Rel (fun before after : ToolResultMessage =>
    after = { before with toolCallId := after.toolCallId }) before.toolResult? after.toolResult?

section Left

variable {setup : HistorySetup}

theorem forall₂_samePart (parts : List ContentPart) : Forall₂ SamePart parts parts :=
  forall₂_same.mpr fun part _ => .same part

theorem sameMessage_plain (role : MessageRole) (parts : List ContentPart) :
    SameMessage setup (.content role parts) (.content role (parts.filter setup.keeps)) :=
  ⟨rfl, forall₂_samePart _, .none⟩

theorem sameMessage_assistant {before after : ToolTurn}
    (rewrites : RewritesTurn setup before after) :
    SameMessage setup before.assistant after.assistant := by
  refine ⟨rfl, ?_, .none⟩
  simp only [ToolTurn.assistant, Message.parts, filter_append, filter_keeps_calls, rewrites.lead]
  refine rel_append (forall₂_samePart _) ?_
  rw [forall₂_map_left_iff, forall₂_map_right_iff]
  refine rewrites.calls.sameCalls.imp fun call new same => ?_
  rw [same]
  exact .call call new.id

theorem sameMessage_result {calls renamed : List ToolCall} {before after : ToolResultMessage}
    (rewrites : RewritesResult calls renamed before after) :
    SameMessage setup (.toolResult before) (.toolResult after) :=
  ⟨rfl, .nil, .some rewrites.sameResult⟩

theorem leaves_assistant {turn : ToolTurn} (notEmpty : turn.calls ≠ []) :
    setup.leaves turn.assistant = true := by
  rw [ToolTurn.assistant, leaves_content (by decide), any_append,
    Bool.or_eq_true]
  right
  refine any_keeps_of_calls ?_
  rwa [callsOf_toolCalls]

theorem Rewrites.sameMessages {item : HistoryItem} {left : Option HistoryItem}
    (rewrites : Rewrites setup item left) :
    Forall₂ (SameMessage setup) (item.messages.filter setup.leaves)
      (left.toList.flatMap HistoryItem.messages) := by
  cases rewrites with
  | @kept role parts allowed left =>
    have isLeft : setup.leaves (.content role parts) = true := by
      rw [leaves_content allowed.notTool, any_eq_true]
      rcases exists_mem_of_ne_nil _ left with ⟨part, member⟩
      exact ⟨part, mem_filter.mp member⟩
    simp only [HistoryItem.messages, filter_cons, isLeft, if_true, filter_nil]
    exact .cons (sameMessage_plain role parts) .nil
  | @dropped role parts allowed nothing =>
    have notLeft : setup.leaves (.content role parts) = false := by
      rw [leaves_content allowed.notTool, any_eq_false]
      exact filter_eq_nil_iff.mp nothing
    simp [HistoryItem.messages, notLeft]
  | @turn before after rewrites _ =>
    have results : (before.results.map Message.toolResult).filter setup.leaves =
        before.results.map .toolResult := by
      rw [filter_eq_self]
      intro message member
      rcases mem_map.mp member with ⟨_, _, rfl⟩
      rfl
    simp only [HistoryItem.messages, ToolTurn.messages, filter_cons,
      leaves_assistant rewrites.notEmpty, if_true, results, Option.toList_some,
      flatMap_cons, flatMap_nil, append_nil]
    refine .cons (sameMessage_assistant rewrites) ?_
    rw [forall₂_map_left_iff, forall₂_map_right_iff]
    exact rewrites.results.imp fun _ _ => sameMessage_result

theorem sameMessages_ledger {ledger : Ledger}
    (rewrites : ∀ entry ∈ ledger, Rewrites setup entry.1 entry.2) :
    Forall₂ (SameMessage setup) (ledger.input.filter setup.leaves) ledger.output := by
  induction ledger with
  | nil => exact .nil
  | cons entry rest induction =>
    rw [forall_mem_cons] at rewrites
    rw [Ledger.input_cons, Ledger.output_cons, filter_append]
    exact rel_append rewrites.1.sameMessages (induction rewrites.2)

/-! ## Counts -/

def droppedParts (setup : HistorySetup) (messages : List Message) : List ContentPart :=
  (messages.flatMap Message.parts).filter fun part => !setup.keeps part

def removedAssistants (setup : HistorySetup) (messages : List Message) : List Message :=
  messages.filter fun message => message.role = .assistant && !setup.leaves message

theorem length_removedAssistants (message : Message) (rest : List Message) :
    (removedAssistants setup (message :: rest)).length =
      (if message.role = .assistant ∧ setup.leaves message = false then 1 else 0) +
        (removedAssistants setup rest).length := by
  rw [removedAssistants, removedAssistants, filter_cons]
  by_cases removed : message.role = .assistant ∧ setup.leaves message = false
  · simp [removed, Nat.add_comm]
  · simp [removed]

theorem sum_noted (messages : List Message) (code : DiagnosticCode) :
    (messages.map (setup.noted code)).sum =
      (droppedParts setup messages).countP (fun part => part.dropCode? = some code) +
        if code = .removedEmptyAssistant then (removedAssistants setup messages).length
        else 0 := by
  induction messages with
  | nil => simp [droppedParts, removedAssistants]
  | cons message rest induction =>
    have dropped : droppedParts setup (message :: rest) =
        (message.parts.filter fun part => !setup.keeps part) ++ droppedParts setup rest := by
      simp [droppedParts]
    have own : setup.drops code message.parts =
        (message.parts.filter fun part => !setup.keeps part).countP
          fun part => part.dropCode? = some code := by
      simp only [drops, countP_filter, Bool.and_comm]
    rw [map_cons, sum_cons, induction, dropped, countP_append, noted, own, length_removedAssistants]
    by_cases isRemoved : code = .removedEmptyAssistant
    · simp only [isRemoved, and_true, if_true]
      omega
    · simp only [isRemoved, and_false, if_false]
      omega

theorem dropCode_image (part : ContentPart) :
    part.dropCode? = some .droppedUnsupportedImage ↔ part.isImage = true := by
  unfold ContentPart.dropCode?
  cases part.isImage <;> cases part.isOpaqueThinking <;> simp

theorem dropCode_opaqueThinking (part : ContentPart) :
    part.dropCode? = some .droppedThinkingOpaque ↔ part.isOpaqueThinking = true := by
  cases part with
  | thinking content =>
    cases isOpaque : content.opaqueState <;>
      simp [ContentPart.dropCode?, ContentPart.isImage, ContentPart.isOpaqueThinking, isOpaque]
  | text | image | refusal | toolCall =>
    simp [ContentPart.dropCode?, ContentPart.isImage, ContentPart.isOpaqueThinking]

theorem dropCode_removed (part : ContentPart) : part.dropCode? ≠ some .removedEmptyAssistant := by
  unfold ContentPart.dropCode?
  split
  · simp
  · split <;> simp

theorem length_dropped {parts : List ContentPart}
    (dropped : ∀ part ∈ parts, setup.keeps part = false) :
    parts.length = parts.countP ContentPart.isImage +
      parts.countP ContentPart.isOpaqueThinking + parts.countP ContentPart.isPlainThinking := by
  induction parts with
  | nil => rfl
  | cons part rest induction =>
    rw [forall_mem_cons] at dropped
    have own : (if part.isImage then 1 else 0) + (if part.isOpaqueThinking then 1 else 0) +
        (if part.isPlainThinking then 1 else 0) = 1 := by
      cases part with
      | image => rfl
      | thinking content =>
        cases isOpaque : content.opaqueState <;>
          simp [ContentPart.isImage, ContentPart.isOpaqueThinking,
            ContentPart.isPlainThinking, isOpaque]
      | text | refusal | toolCall => cases dropped.1
    rw [length_cons, induction dropped.2, countP_cons, countP_cons, countP_cons]
    omega

theorem not_keeps_of_dropped {messages : List Message} :
    ∀ part ∈ droppedParts setup messages, setup.keeps part = false := by
  intro part member
  simpa using (mem_filter.mp member).2

/-- What the diagnostics say about a history and what was left of it. The counts have 32
bits. -/
structure Reports (setup : HistorySetup) (messages : List Message)
    (context : NormalizedContext) : Prop where
  left : Forall₂ (SameMessage setup) (messages.filter setup.leaves) context.messages
  images : context.count .droppedUnsupportedImage =
    UInt32.ofNat ((droppedParts setup messages).countP ContentPart.isImage)
  opaqueThinking : context.count .droppedThinkingOpaque =
    UInt32.ofNat ((droppedParts setup messages).countP ContentPart.isOpaqueThinking)
  plainThinking : (droppedParts setup messages).length =
    (droppedParts setup messages).countP ContentPart.isImage +
      (droppedParts setup messages).countP ContentPart.isOpaqueThinking +
        (droppedParts setup messages).countP ContentPart.isPlainThinking
  assistants : context.count .removedEmptyAssistant =
    UInt32.ofNat (removedAssistants setup messages).length

end Left

section Normalized

variable {messages : List Message} {capabilities : HistoryCapabilities}
  {dialect : DialectPolicy} {policy : HistoryPolicy} {maxMessages maxTotalTextBytes : Nat}
  {context : NormalizedContext}

theorem count_normalized
    (normalized : normalizeHistoryWithLimits messages capabilities dialect policy maxMessages
      maxTotalTextBytes = .ok context) {code : DiagnosticCode}
    (notId : code ≠ .sanitizedToolCallId) : context.count code = UInt32.ofNat (messages.map (noted
      ⟨capabilities, dialect, policy, maxMessages, maxTotalTextBytes⟩ code)).sum := by
  simp only [normalizeHistoryWithLimits, Consumer.collect, bind_eq_ok] at normalized
  rcases normalized with ⟨_, _, final, accepted, finished⟩
  simp only [normalizer, finish, bind_eq_ok, Except.ok.injEq] at finished
  rcases finished with ⟨closed, isClosed, _, _, rfl⟩
  rw [DiagnosticCounter.count_intoVec, closeTurn_tally isClosed, count_messages notId accepted]

end Normalized

/-- Every part that is dropped is counted, except thinking without opaque state, and every
assistant message of which nothing is left. -/
theorem normalize_reports (messages : List Message) (capabilities : HistoryCapabilities)
    (dialect : DialectPolicy) (policy : HistoryPolicy) (maxMessages maxTotalTextBytes : Nat)
    (context : NormalizedContext)
    (normalized : normalizeHistoryWithLimits messages capabilities dialect policy maxMessages
      maxTotalTextBytes = .ok context) :
    Reports ⟨capabilities, dialect, policy, maxMessages, maxTotalTextBytes⟩ messages context := by
  rcases normalize_ledger normalized with ⟨ledger, rewrites, isInput, isOutput, _, _⟩
  have left := sameMessages_ledger rewrites
  rw [← isInput, ← isOutput] at left
  refine ⟨left, ?_, ?_, length_dropped not_keeps_of_dropped, ?_⟩
  · rw [count_normalized normalized (by decide), sum_noted, if_neg (by decide)]
    simp only [dropCode_image, Bool.decide_eq_true, Nat.add_zero]
  · rw [count_normalized normalized (by decide), sum_noted, if_neg (by decide)]
    simp only [dropCode_opaqueThinking, Bool.decide_eq_true, Nat.add_zero]
  · rw [count_normalized normalized (by decide), sum_noted, if_pos rfl]
    simp [dropCode_removed]

def lossyHistory : List Message :=
  [.content .user [.text "look",
      .image ⟨.inline .jpeg [0xFF, 0xD8, 0xFF], .auto, _, Base64.laws_standard, rfl⟩],
    .content .assistant [.thinking ⟨"hm", some ⟨[1],
      .anthropic ⟨"claude", by decide, by decide⟩, false⟩⟩]]

def droppingPolicy : HistoryPolicy := ⟨.reject, .dropWithDiagnostic, .dropAll⟩

theorem lossyHistory_reported : ∃ context,
    normalizeHistoryWithLimits lossyHistory ⟨.supported, .unknown⟩ ⟨.openAi⟩ droppingPolicy
        1024 4096 = .ok context ∧
      Reports ⟨⟨.supported, .unknown⟩, ⟨.openAi⟩, droppingPolicy, 1024, 4096⟩ lossyHistory
          context ∧
        context.diagnostics = [⟨.droppedThinkingOpaque, 1⟩, ⟨.removedEmptyAssistant, 1⟩,
          ⟨.droppedUnsupportedImage, 1⟩] := by
  have given : ((normalizeHistoryWithLimits lossyHistory ⟨.supported, .unknown⟩ ⟨.openAi⟩
      droppingPolicy 1024 4096).map fun context => context.diagnostics).toOption =
        some [⟨.droppedThinkingOpaque, 1⟩, ⟨.removedEmptyAssistant, 1⟩,
          ⟨.droppedUnsupportedImage, 1⟩] := by decide +kernel
  rcases exists_ok_of_map given with ⟨context, normalized, diagnostics⟩
  exact ⟨context, normalized, normalize_reports _ _ _ _ _ _ context normalized, diagnostics⟩

theorem plainThinking_unreported : ∃ context,
    normalizeHistoryWithLimits [.content .assistant [.thinking ⟨"hm", none⟩, .text "hi"]]
        ⟨.supported, .unknown⟩ ⟨.openAi⟩ droppingPolicy 1024 4096 = .ok context ∧
      context.diagnostics = [] ∧ context.messages.map Message.parts = [[.text "hi"]] :=
  ⟨⟨[.content .assistant [.text "hi"]], [], []⟩, rfl, rfl, rfl⟩

end Philo
