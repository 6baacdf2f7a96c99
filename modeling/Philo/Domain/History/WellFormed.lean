import Philo.Domain.History.Idempotent

/-! What a normalized history looks like: every tool call has its result, every result its
call, and nothing else has changed its place. -/

namespace Philo

open Result Std HistorySetup List Ledger

/-! ## Requests and their results -/

namespace Message

def IsRequest (message : Message) : Prop := message.role = .assistant ∧ message.toolCalls ≠ []

instance (message : Message) : Decidable message.IsRequest :=
  inferInstanceAs (Decidable (message.role = .assistant ∧ message.toolCalls ≠ []))

end Message

def Answers (assistant : Message) (run : List Message) : Prop :=
  ∃ results : List ToolResultMessage, run = results.map .toolResult ∧
    (results.map fun result => result.toolCallId).Perm
        (assistant.toolCalls.map fun call => call.id) ∧
      (results.map fun result => result.toolCallId).Nodup

structure IsMaximalRun (before run after : List Message) : Prop where
  notEmpty : run ≠ []
  tools : ∀ message ∈ run, message.isTool = true
  starts : ∀ message ∈ before.getLast?, message.isTool = false
  ends : ∀ message ∈ after.head?, message.isTool = false

structure WellPaired (messages : List Message) : Prop where
  /-- A run of tool messages directly follows the calls that it answers. -/
  follows : ∀ before run after, messages = before ++ run ++ after →
    IsMaximalRun before run after →
      ∃ earlier assistant, before = earlier ++ [assistant] ∧ assistant.IsRequest ∧
        Answers assistant run
  /-- Calls are directly followed by their results. -/
  answered : ∀ before assistant after, messages = before ++ assistant :: after →
    assistant.IsRequest → ∃ run rest, after = run ++ rest ∧
      IsMaximalRun (before ++ [assistant]) run rest ∧ Answers assistant run

/-! ## Items -/

inductive ShapedItem (setup : HistorySetup) : HistoryItem → Prop
  | plain {role : MessageRole} {parts : List ContentPart}
      (allowed : PlainAllowed setup role parts) : ShapedItem setup (.plain role parts)
  | turn {turn : ToolTurn} (allowed : setup.AllowedParts turn.lead true)
      (notEmpty : turn.calls ≠ []) : ShapedItem setup (.turn turn)

section Items

variable {setup : HistorySetup}

theorem NormalItem.shaped {item : HistoryItem} (normal : NormalItem setup item) :
    ShapedItem setup item := by
  cases normal with
  | plain allowed => exact .plain allowed
  | turn normal => exact .turn normal.allowed normal.notEmpty

theorem Rewrites.shaped {item : HistoryItem} {left : Option HistoryItem}
    (rewrites : Rewrites setup item left) : ShapedItem setup item := by
  cases rewrites with
  | kept allowed => exact .plain allowed
  | dropped allowed => exact .plain allowed
  | turn rewrites => exact .turn rewrites.allowed rewrites.notEmpty

theorem toolCalls_turn {turn : ToolTurn} (allowed : setup.AllowedParts turn.lead true) :
    turn.assistant.toolCalls = turn.calls := callsOf_turn allowed

theorem not_isRequest_plain {role : MessageRole} {parts : List ContentPart}
    (allowed : PlainAllowed setup role parts) : ¬ (Message.content role parts).IsRequest := by
  rintro ⟨_, someCall⟩
  exact someCall (callsOf_of_allowed allowed.parts)

theorem NormalTurn.answers {turn : ToolTurn} (normal : NormalTurn setup turn) :
    Answers turn.assistant (turn.results.map .toolResult) := by
  have injective : Function.Injective ToolCallId.value := fun _ _ same => ToolCallId.ext same
  have once : (turn.results.map fun result => result.toolCallId).Nodup := by
    apply Nodup.of_map ToolCallId.value
    rw [map_map]
    exact normal.once
  have distinct : (turn.calls.map fun call => call.id).Nodup := by
    apply Nodup.of_map ToolCallId.value
    rw [map_map]
    exact normal.distinct
  refine ⟨turn.results, rfl, ?_, once⟩
  rw [toolCalls_turn normal.allowed, perm_ext_iff_of_nodup once distinct]
  intro id
  have byValue : ∀ {α : Type} (items : List α) (idOf : α → ToolCallId),
      id ∈ items.map idOf ↔ id.value ∈ items.map fun item => (idOf item).value := by
    intro α items idOf
    rw [← mem_map_of_injective injective, map_map]
    rfl
  rw [byValue, byValue]
  exact ⟨normal.known id.value, normal.complete id.value⟩

theorem NormalTurn.isRequest {turn : ToolTurn} (normal : NormalTurn setup turn) :
    turn.assistant.IsRequest := by
  refine ⟨rfl, ?_⟩
  rw [toolCalls_turn normal.allowed]
  exact normal.notEmpty

variable {items : List HistoryItem} {before after : List Message} {message : Message}

theorem head_not_tool (shaped : ∀ item ∈ items, ShapedItem setup item) :
    ∀ message ∈ (items.flatMap HistoryItem.messages).head?, message.isTool = false := by
  intro message isHead
  cases items with
  | nil => cases isHead
  | cons item rest =>
    cases shaped item mem_cons_self with
    | plain allowed =>
      cases isHead
      exact decide_eq_false allowed.notTool
    | turn =>
      cases isHead
      rfl

theorem item_split {item : HistoryItem} {rest : List Message}
    (split : item.messages ++ rest = before ++ message :: after) :
    (∃ later, item.messages = before ++ message :: later ∧ after = later ++ rest) ∨
      ∃ between, before = item.messages ++ between ∧ rest = between ++ message :: after := by
  rcases append_eq_append_iff.mp split with ⟨between, isBefore, isRest⟩ |
    ⟨later, isItem, isAfter⟩
  · exact .inr ⟨between, isBefore, isRest⟩
  · cases later with
    | nil => exact .inr ⟨[], by simpa using isItem.symm, by simpa using isAfter.symm⟩
    | cons first later =>
      cases isAfter
      exact .inl ⟨later, isItem, rfl⟩

theorem request_split (normal : ∀ item ∈ items, NormalItem setup item)
    (split : items.flatMap HistoryItem.messages = before ++ message :: after)
    (request : message.IsRequest) :
    ∃ turn rest, NormalTurn setup turn ∧ message = turn.assistant ∧
      after = turn.results.map .toolResult ++ rest ∧
        ∀ message ∈ rest.head?, message.isTool = false := by
  induction items generalizing before with
  | nil => simp at split
  | cons item rest induction =>
    rw [forall_mem_cons] at normal
    rcases item_split split with ⟨later, isItem, isAfter⟩ | ⟨between, _, isRest⟩
    · cases normal.1 with
      | plain allowed =>
        have isMessage : message = .content _ _ :=
          mem_singleton.mp (isItem ▸ mem_append_right _ mem_cons_self)
        exact absurd (isMessage ▸ request) (not_isRequest_plain allowed)
      | @turn turn isNormal =>
        cases before with
        | nil =>
          rcases cons.inj isItem with ⟨rfl, rfl⟩
          exact ⟨turn, _, isNormal, rfl, isAfter,
            head_not_tool fun item member => (normal.2 item member).shaped⟩
        | cons first before =>
          have isResult : message ∈ turn.results.map .toolResult :=
            (cons.inj isItem).2 ▸ mem_append_right _ mem_cons_self
          rcases mem_map.mp isResult with ⟨result, _, rfl⟩
          cases request.1
    · exact induction normal.2 isRest

theorem tool_split (normal : ∀ item ∈ items, NormalItem setup item)
    (split : items.flatMap HistoryItem.messages = before ++ message :: after)
    (isTool : message.isTool = true) :
    ∃ earlier assistant between, before = earlier ++ assistant :: between ∧
      assistant.IsRequest ∧ ∀ message ∈ between, message.isTool = true := by
  induction items generalizing before with
  | nil => simp at split
  | cons item rest induction =>
    rw [forall_mem_cons] at normal
    rcases item_split split with ⟨later, isItem, _⟩ | ⟨between, rfl, isRest⟩
    · cases normal.1 with
      | plain allowed =>
        have isMessage : message = .content _ _ :=
          mem_singleton.mp (isItem ▸ mem_append_right _ mem_cons_self)
        rw [isMessage] at isTool
        exact absurd (of_decide_eq_true isTool) allowed.notTool
      | @turn turn isNormal =>
        cases before with
        | nil =>
          rcases cons.inj isItem with ⟨rfl, rfl⟩
          cases isTool
        | cons first before =>
          rcases cons.inj isItem with ⟨rfl, isResults⟩
          refine ⟨[], turn.assistant, before, rfl, isNormal.isRequest, ?_⟩
          intro earlier member
          have isResult : earlier ∈ turn.results.map .toolResult :=
            isResults ▸ mem_append_left _ member
          rcases mem_map.mp isResult with ⟨result, _, rfl⟩
          rfl
    · rcases induction normal.2 isRest with ⟨earlier, assistant, tools, rfl, found⟩
      exact ⟨item.messages ++ earlier, assistant, tools, by simp, found⟩

theorem takeWhile_run {run rest : List Message} (tools : ∀ message ∈ run, message.isTool = true)
    (ends : ∀ message ∈ rest.head?, message.isTool = false) :
    (run ++ rest).takeWhile Message.isTool = run := by
  rw [takeWhile_append_of_pos tools]
  cases rest with
  | nil => simp
  | cons message rest => simp [ends message rfl]

theorem run_unique {first second firstRest secondRest : List Message}
    (same : first ++ firstRest = second ++ secondRest)
    (firstTools : ∀ message ∈ first, message.isTool = true)
    (secondTools : ∀ message ∈ second, message.isTool = true)
    (firstEnds : ∀ message ∈ firstRest.head?, message.isTool = false)
    (secondEnds : ∀ message ∈ secondRest.head?, message.isTool = false) : first = second := by
  rw [← takeWhile_run firstTools firstEnds, same, takeWhile_run secondTools secondEnds]

theorem wellPaired_items (normal : ∀ item ∈ items, NormalItem setup item) :
    WellPaired (items.flatMap HistoryItem.messages) := by
  have answered : ∀ before assistant after,
      items.flatMap HistoryItem.messages = before ++ assistant :: after →
        assistant.IsRequest → ∃ run rest, after = run ++ rest ∧
          IsMaximalRun (before ++ [assistant]) run rest ∧ Answers assistant run := by
    intro before assistant after split request
    rcases request_split normal split request with ⟨turn, rest, isNormal, rfl, rfl, ends⟩
    have answers := isNormal.answers
    refine ⟨_, rest, rfl, ⟨?_, ?_, ?_, ends⟩, answers⟩
    · rcases answers with ⟨results, isRun, ids, _⟩
      rw [isRun]
      intro noResults
      rw [map_eq_nil_iff.mp noResults, map_nil, nil_perm] at ids
      exact request.2 (map_eq_nil_iff.mp ids)
    · intro message member
      rcases mem_map.mp member with ⟨result, _, rfl⟩
      rfl
    · intro message isLast
      rw [getLast?_append, getLast?_singleton, Option.some_or] at isLast
      cases isLast
      rfl
  refine ⟨?_, answered⟩
  intro before run after split maximal
  cases run with
  | nil => exact absurd rfl maximal.notEmpty
  | cons tool run =>
    rw [append_assoc] at split
    rcases tool_split normal split (maximal.tools tool mem_cons_self) with
      ⟨earlier, assistant, between, rfl, request, tools⟩
    -- what stands between them would be a part of the run
    have nothing : between = [] := by
      rcases eq_nil_or_concat between with none | ⟨first, last, rfl⟩
      · exact none
      · have isTool := tools last (by simp)
        have notTool := maximal.starts last (by simp [getLast?_cons])
        cases notTool.symm.trans isTool
    subst nothing
    refine ⟨earlier, assistant, rfl, request, ?_⟩
    rw [append_assoc, singleton_append] at split
    rcases answered _ _ _ split request with ⟨other, rest, sameRun, isMaximal, answers⟩
    have same := run_unique sameRun maximal.tools isMaximal.tools maximal.ends isMaximal.ends
    rw [same]
    exact answers

end Items

/-! ## What becomes of the calls and results -/

structure Exchange where
  calls : List ToolCall
  results : List ToolResultMessage

def exchangesOf : List Message → List Exchange
  | [] => []
  | message :: rest =>
    if message.IsRequest then
      ⟨message.toolCalls, (rest.takeWhile Message.isTool).filterMap Message.toolResult?⟩ ::
        exchangesOf rest
    else exchangesOf rest

structure SameExchange (before after : Exchange) : Prop where
  calls : Forall₂ (fun call new => new = { call with id := new.id })
    before.calls after.calls
  results : Forall₂ (RewritesResult before.calls after.calls)
    before.results after.results

def HistoryItem.exchange? : HistoryItem → Option Exchange
  | plain _ _ => none
  | turn calls => some ⟨calls.calls, calls.results⟩

section Exchanges

variable {setup : HistorySetup}

theorem exchangesOf_results (results : List ToolResultMessage) (rest : List Message) :
    exchangesOf (results.map .toolResult ++ rest) = exchangesOf rest := by
  induction results with
  | nil => rfl
  | cons result results induction =>
    have notRequest : ¬ (Message.toolResult result).IsRequest := fun request => by cases request.1
    simpa [exchangesOf, notRequest] using induction

theorem exchangesOf_item {item : HistoryItem} {rest : List Message}
    (shaped : ShapedItem setup item) (ends : ∀ message ∈ rest.head?, message.isTool = false) :
    exchangesOf (item.messages ++ rest) = item.exchange?.toList ++ exchangesOf rest := by
  cases shaped with
  | plain allowed =>
    simp [HistoryItem.messages, HistoryItem.exchange?, exchangesOf, not_isRequest_plain allowed]
  | @turn turn allowed notEmpty =>
    have calls := toolCalls_turn allowed
    have request : turn.assistant.IsRequest := ⟨rfl, calls ▸ notEmpty⟩
    have run : (turn.results.map Message.toolResult ++ rest).takeWhile Message.isTool =
        turn.results.map .toolResult := takeWhile_run (by simp [Message.isTool, Message.role]) ends
    have results : (turn.results.map Message.toolResult).filterMap Message.toolResult? =
        turn.results := by
      rw [filterMap_map]
      exact filterMap_some
    simp [HistoryItem.messages, HistoryItem.exchange?, exchangesOf, ToolTurn.messages, request,
      calls, run, results, exchangesOf_results]

theorem sameExchange_ledger {ledger : Ledger}
    (rewrites : ∀ entry ∈ ledger, Rewrites setup entry.1 entry.2) :
    Forall₂ SameExchange (exchangesOf ledger.input) (exchangesOf ledger.output) := by
  induction ledger with
  | nil => exact .nil
  | cons entry ledger induction =>
    rw [forall_mem_cons] at rewrites
    have inputEnds : ∀ message ∈ (input ledger).head?,
        message.isTool = false := by
      have shaped : ∀ item ∈ ledger.map Prod.fst, ShapedItem setup item := by
        intro item member
        rcases mem_map.mp member with ⟨entry, isEntry, rfl⟩
        exact (rewrites.2 entry isEntry).shaped
      simpa [input, flatMap_map] using head_not_tool shaped
    have outputEnds : ∀ message ∈ (output ledger).head?, message.isTool = false :=
      head_not_tool fun item member => (normal_left rewrites.2 item member).shaped
    rw [input_cons, output_cons, exchangesOf_item rewrites.1.shaped inputEnds]
    have others := induction rewrites.2
    rcases entry with ⟨item, left⟩
    cases rewrites.1 with
    | kept allowed leftParts =>
      rw [Option.toList_some, flatMap_singleton,
        exchangesOf_item (Rewrites.kept allowed leftParts).normal.shaped outputEnds]
      exact others
    | dropped => exact others
    | turn rewritten complete =>
      rw [Option.toList_some, flatMap_singleton,
        exchangesOf_item (Rewrites.turn rewritten complete).normal.shaped outputEnds]
      exact .cons ⟨rewritten.calls.sameCalls, rewritten.results⟩ others

end Exchanges

/-! ## What becomes of the other messages -/

structure KeepsMessage (before after : Message) : Prop where
  role : after.role = before.role
  texts : after.texts = before.texts

def spokenOf (messages : List Message) : List Message :=
  messages.filter fun message => !message.isTool

section Spoken

variable {setup : HistorySetup} {ledger : Ledger}

theorem texts_keeps (parts : List ContentPart) :
    (parts.filter setup.keeps).filterMap ContentPart.textValue =
      parts.filterMap ContentPart.textValue := by
  rw [filterMap_filter]
  congr 1
  funext part
  cases part <;> simp [keeps, ContentPart.textValue]

theorem texts_turn (turn : ToolTurn) :
    turn.assistant.texts = turn.lead.filterMap ContentPart.textValue := by
  simp [Message.texts, ToolTurn.assistant, Message.parts, filterMap_append,
    filterMap_map, ContentPart.textValue]

theorem RewritesTurn.keepsMessage {before after : ToolTurn}
    (rewrites : RewritesTurn setup before after) :
    KeepsMessage before.assistant after.assistant := by
  refine ⟨rfl, ?_⟩
  rw [texts_turn, texts_turn, rewrites.lead, texts_keeps]

theorem spokenOf_append (first second : List Message) :
    spokenOf (first ++ second) = spokenOf first ++ spokenOf second := filter_append ..

theorem spokenOf_plain {role : MessageRole} {parts : List ContentPart} (notTool : role ≠ .tool) :
    spokenOf (HistoryItem.plain role parts).messages = [.content role parts] := by
  simp [spokenOf, HistoryItem.messages, Message.isTool, Message.role, notTool]

theorem spokenOf_turn (turn : ToolTurn) :
    spokenOf (HistoryItem.turn turn).messages = [turn.assistant] := by
  simp [spokenOf, HistoryItem.messages, ToolTurn.messages, Message.isTool, Message.role,
    ToolTurn.assistant]

/-- An item is left with the role and the text of its first message, or has no text. -/
theorem Rewrites.keeps {item : HistoryItem} {left : Option HistoryItem}
    (rewrites : Rewrites setup item left) : ∃ kept, kept.Sublist (spokenOf item.messages) ∧
      Forall₂ KeepsMessage kept (spokenOf (left.toList.flatMap HistoryItem.messages)) ∧
        (spokenOf item.messages).flatMap Message.texts = kept.flatMap Message.texts := by
  cases rewrites with
  | @kept role parts allowed =>
    refine ⟨[.content role parts], ?_, ?_, ?_⟩
    · rw [spokenOf_plain allowed.notTool]
    · rw [Option.toList_some, flatMap_singleton, spokenOf_plain allowed.notTool]
      exact .cons ⟨rfl, texts_keeps _⟩ .nil
    · rw [spokenOf_plain allowed.notTool]
  | @dropped role parts allowed nothing =>
    refine ⟨[], nil_sublist _, .nil, ?_⟩
    rw [spokenOf_plain allowed.notTool, flatMap_singleton, Message.texts, Message.parts,
      ← texts_keeps, nothing]
    rfl
  | @turn before after rewritten =>
    refine ⟨[before.assistant], ?_, ?_, ?_⟩
    · rw [spokenOf_turn]
    · rw [Option.toList_some, flatMap_singleton, spokenOf_turn]
      exact .cons rewritten.keepsMessage .nil
    · rw [spokenOf_turn]

/-- The messages that are left are messages of the history, in its order, and no text is
lost. -/
theorem keeps_ledger (rewrites : ∀ entry ∈ ledger, Rewrites setup entry.1 entry.2) :
    ∃ kept, kept.Sublist (spokenOf ledger.input) ∧
      Forall₂ KeepsMessage kept (spokenOf ledger.output) ∧
        (spokenOf ledger.input).flatMap Message.texts = kept.flatMap Message.texts := by
  induction ledger with
  | nil => exact ⟨[], .slnil, .nil, rfl⟩
  | cons entry ledger induction =>
    rw [forall_mem_cons] at rewrites
    rcases rewrites.1.keeps with ⟨first, firstSublist, firstKeeps, firstTexts⟩
    rcases induction rewrites.2 with ⟨kept, isSublist, keeps, texts⟩
    refine ⟨first ++ kept, ?_, ?_, ?_⟩
    · rw [input_cons, spokenOf_append]
      exact firstSublist.append isSublist
    · rw [output_cons, spokenOf_append]
      exact rel_append firstKeeps keeps
    · rw [input_cons, spokenOf_append, flatMap_append, flatMap_append,
        firstTexts, texts]

end Spoken

/-! ## Normalization -/

/-- Normalization pairs every call with its result, moves the results along when calls get
new ids, and leaves the other messages and their texts in their order. -/
theorem normalize_wellFormed (messages : List Message) (capabilities : HistoryCapabilities)
    (dialect : DialectPolicy) (policy : HistoryPolicy) (maxMessages maxTotalTextBytes : Nat)
    (context : NormalizedContext)
    (normalized : normalizeHistoryWithLimits messages capabilities dialect policy maxMessages
      maxTotalTextBytes = .ok context) :
    WellPaired context.messages ∧
      Forall₂ SameExchange (exchangesOf messages) (exchangesOf context.messages) ∧
        ∃ kept, kept.Sublist (spokenOf messages) ∧
          Forall₂ KeepsMessage kept (spokenOf context.messages) ∧
            (spokenOf messages).flatMap Message.texts = kept.flatMap Message.texts := by
  rcases normalize_ledger normalized with ⟨ledger, rewrites, isInput, isOutput, _, _⟩
  rw [isInput, isOutput]
  exact ⟨wellPaired_items (normal_left rewrites), sameExchange_ledger rewrites,
    keeps_ledger rewrites⟩

/-- The result of the recorded history moves from the id `call 1` to the id `call1`. -/
theorem spacedIdHistory_wellFormed : ∃ context,
    normalizeHistoryWithLimits spacedIdHistory ⟨.supported, .unknown⟩ ⟨.openAi⟩
        ⟨.reject, .reject, .dropAll⟩ 1024 4096 = .ok context ∧
      ((exchangesOf context.messages).map fun exchange =>
        exchange.results.map fun result => result.toolCallId.value) = [["call1"]] ∧
        WellPaired context.messages ∧
          Forall₂ SameExchange (exchangesOf spacedIdHistory)
            (exchangesOf context.messages) ∧
            ∃ kept, kept.Sublist (spokenOf spacedIdHistory) ∧
              Forall₂ KeepsMessage kept (spokenOf context.messages) ∧
                (spokenOf spacedIdHistory).flatMap Message.texts =
                  kept.flatMap Message.texts := by
  have given : ((normalizeHistoryWithLimits spacedIdHistory ⟨.supported, .unknown⟩ ⟨.openAi⟩
      ⟨.reject, .reject, .dropAll⟩ 1024 4096).map fun context =>
        (exchangesOf context.messages).map fun exchange =>
          exchange.results.map fun result => result.toolCallId.value).toOption =
            some [["call1"]] := by decide +kernel
  rcases exists_ok_of_map given with ⟨context, normalized, moved⟩
  exact ⟨context, normalized, moved, normalize_wellFormed _ _ _ _ _ _ context normalized⟩

end Philo
