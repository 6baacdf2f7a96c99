import Philo.Domain.History.Pairing

/-! What one message does to a normalization: the accepted messages of the loop as a
relation, with a constructor for each way to accept one. -/

namespace Philo

open Result Std HistorySetup AssistantDraft

/-! ## Plain messages -/

structure PlainAllowed (setup : HistorySetup) (role : MessageRole)
    (parts : List ContentPart) : Prop where
  notTool : role ≠ .tool
  developer : role = .developer → setup.capabilities.developerRole = .supported
  parts : setup.AllowedParts parts (role = .assistant)

def leftMessage (setup : HistorySetup) (role : MessageRole) (parts : List ContentPart) :
    Option Message :=
  if parts.filter setup.keeps = [] then none
  else some (.content role (parts.filter setup.keeps))

def plainTally (setup : HistorySetup) (role : MessageRole) (parts : List ContentPart)
    (tally : Tally) : Tally :=
  if role = .assistant ∧ parts.filter setup.keeps = [] then
    (parts.foldl setup.tallied tally).increment .removedEmptyAssistant
  else parts.foldl setup.tallied tally

/-! ## Tool turns -/

def NormalizeState.opened (closed : NormalizeState) (setup : HistorySetup)
    (lead : List ContentPart) (calls renamed : List ToolCall)
    (expected : TreeMap String ToolName) : NormalizeState where
  index := closed.index + 1
  output := closed.output ++
    [.content .assistant (lead.filter setup.keeps ++ renamed.map .toolCall)]
  tally := (lead.foldl setup.tallied closed.tally).mapped (mappingsOf calls renamed)
  idMappings := closed.idMappings ++ mappingsOf calls renamed
  turn := some ⟨closed.index, callNames calls, mappingsOf calls renamed, expected, expected, []⟩

def NormalizeState.answered (state : NormalizeState) (turn : OpenTurn)
    (result : ToolResultMessage) : NormalizeState :=
  { state with
    index := state.index + 1
    tally := { state.tally with
      totalTextBytes := state.tally.totalTextBytes + Text.len result.text }
    turn := some { turn with
      pending := turn.pending.erase result.toolCallId.value
      results := turn.results ++ [result] } }

structure OpensTurn (setup : HistorySetup) (tally : Tally) (lead : List ContentPart)
    (calls renamed : List ToolCall) : Prop where
  allowed : setup.AllowedParts lead true
  fits : setup.Allows (lead.foldl setup.tallied tally).totalTextBytes
  renames : RenamedCalls setup.dialect.toolCallId ∅ calls renamed
  distinct : DistinctIds calls
  notEmpty : calls ≠ []

/-- A message that the loop accepts. A message other than a tool result first ends the open
turn. -/
inductive Takes (setup : HistorySetup) (state : NormalizeState) :
    Message → NormalizeState → Prop
  | plain {closed : NormalizeState} {role : MessageRole} {parts : List ContentPart}
      (closes : state.closeTurn = .ok closed) (allowed : PlainAllowed setup role parts)
      (fits : setup.Allows (parts.foldl setup.tallied closed.tally).totalTextBytes) :
      Takes setup state (.content role parts)
        (closed.push (leftMessage setup role parts) (plainTally setup role parts closed.tally))
  | opens {closed : NormalizeState} {lead : List ContentPart} {calls renamed : List ToolCall}
      {expected : TreeMap String ToolName} (closes : state.closeTurn = .ok closed)
      (opens : OpensTurn setup closed.tally lead calls renamed)
      (isExpected : expectedResults closed.index (mappingsOf calls renamed) (callNames calls) ∅ =
        .ok expected) :
      Takes setup state (.content .assistant (lead ++ calls.map .toolCall))
        (closed.opened setup lead calls renamed expected)
  | answers {turn : OpenTurn} {result : ToolResultMessage} {mappedId : ToolCallId}
      (isTurn : state.turn = some turn)
      (resolved : resolveMappedId result.toolCallId.value turn.mappings turn.toolCalls =
        .ok mappedId) (waited : mappedId.value ∈ turn.pending)
      (fits : setup.Allows (state.tally.totalTextBytes + Text.len result.text)) :
      Takes setup state (.toolResult result)
        (state.answered turn { result with toolCallId := mappedId })

section Steps

variable {setup : HistorySetup} {state closed next : NormalizeState} {message : Message}

theorem closeTurn_tally (isClosed : state.closeTurn = .ok closed) :
    closed.tally = state.tally := by
  unfold NormalizeState.closeTurn at isClosed
  split at isClosed
  · cases isClosed
    rfl
  · simp only [bind_eq_ok, Except.ok.injEq] at isClosed
    rcases isClosed with ⟨_, _, rfl⟩
    rfl

theorem acceptToolResult_eq_ok {turn : OpenTurn} (isTurn : state.turn = some turn) :
    setup.acceptToolResult state turn message = .ok next ↔
      message.isTool = true ∧ Takes setup state message next := by
  simp only [HistorySetup.acceptToolResult, bind_eq_ok, okOr_eq_ok, reject_eq_ok,
    exists_const, Prod.exists, Except.ok.injEq, not_not, remapToolResult_eq_ok]
  constructor
  · rintro ⟨result, isResult, mappedId, resolved, _, waited, _, _, ⟨rfl, rfl, fits⟩, rfl⟩
    cases message with
    | content => cases isResult
    | toolResult =>
      cases isResult
      exact ⟨rfl, .answers isTurn resolved waited fits⟩
  · rintro ⟨isTool, takes⟩
    cases takes with
    | plain _ allowed => exact absurd (of_decide_eq_true isTool) allowed.notTool
    | opens => cases isTool
    | answers isTurn' resolved waited fits =>
      cases isTurn.symm.trans isTurn'
      exact ⟨_, rfl, _, resolved, fun refused => refused.1 waited, waited, _, _,
        ⟨rfl, rfl, fits⟩, rfl⟩

theorem acceptPlain_eq_ok {role : MessageRole} {parts : List ContentPart}
    (closes : state.closeTurn = .ok closed)
    (allows : setup.Allows closed.tally.totalTextBytes) (notTool : role ≠ .tool)
    (notAssistant : role ≠ .assistant)
    (developer : role = .developer → setup.capabilities.developerRole = .supported) :
    setup.acceptPlain closed (.content role parts) = .ok next ↔
      Takes setup state (.content role parts) next := by
  have noIncrement : plainTally setup role parts closed.tally =
      parts.foldl setup.tallied closed.tally := if_neg fun both => notAssistant both.1
  simp only [acceptPlain, normalizePlainMessage, Message.toolResult?, Message.parts,
    Message.role, bind_eq_ok, Prod.exists, normalizeParts_eq_ok, Except.ok.injEq, Prod.mk.injEq]
  constructor
  · rintro ⟨_, _, ⟨_, _, _, _, ⟨⟨allowed, fits⟩, rfl, rfl⟩, rfl, rfl⟩, rfl⟩
    rw [← noIncrement]
    exact .plain closes ⟨notTool, developer, by rwa [decide_eq_false notAssistant]⟩
      ((fitsParts_iff allowed allows).mp fits)
  · intro takes
    cases takes with
    | plain closes' allowed fits =>
      cases closes.symm.trans closes'
      have noRefusals := allowed.parts
      rw [decide_eq_false notAssistant] at noRefusals
      exact ⟨_, _, ⟨(), rfl, _, _, ⟨⟨noRefusals, (fitsParts_iff noRefusals allows).mpr fits⟩,
        rfl, rfl⟩, rfl, rfl⟩, by rw [noIncrement, leftMessage]⟩
    | opens => exact absurd rfl notAssistant

theorem push_draft (closed : NormalizeState) (parts : List ContentPart) :
    NormalizeState.push { closed with
        idMappings := closed.idMappings ++
          ((fresh closed.tally).after setup parts [] []).mappings }
      ((fresh closed.tally).after setup parts [] []).message?
      (if ((fresh closed.tally).after setup parts [] []).message?.isSome then
        ((fresh closed.tally).after setup parts [] []).tally
      else ((fresh closed.tally).after setup parts [] []).tally.increment
        .removedEmptyAssistant) =
      closed.push (leftMessage setup .assistant parts)
        (plainTally setup .assistant parts closed.tally) := by
  by_cases nothing : parts.filter setup.keeps = [] <;>
    simp [after, fresh, message?, nothing,
      leftMessage, plainTally, NormalizeState.push, mappingsOf, Tally.mapped]

theorem message_opened {tally : Tally} {lead : List ContentPart} {calls renamed : List ToolCall}
    (notEmpty : calls ≠ []) {policy : ToolCallIdPolicy} {occupied : TreeSet String}
    (renames : RenamedCalls policy occupied calls renamed) :
    ((fresh tally).after setup lead calls renamed).message? =
      some (.content .assistant (lead.filter setup.keeps ++ renamed.map .toolCall)) := by
  cases renames with
  | nil => exact absurd rfl notEmpty
  | cons => simp [message?, after, fresh]

theorem acceptAssistant_eq_ok {parts : List ContentPart} (closes : state.closeTurn = .ok closed)
    (allows : setup.Allows closed.tally.totalTextBytes) :
    setup.acceptAssistant closed parts = .ok next ↔
      Takes setup state (.content .assistant parts) next := by
  simp only [acceptAssistant, bind_eq_ok, collectAssistantToolCalls_eq_ok]
  constructor
  · rintro ⟨_, ⟨rfl, distinct⟩, accepted⟩
    split at accepted
    · next isEmpty =>
        cases accepted
        subst isEmpty
        exact .plain closes ⟨by simp, by simp, by simp [AllowedParts]⟩ allows
    · simp only [bind_eq_ok, normalizeAssistantParts_eq_ok] at accepted
      rcases accepted with
        ⟨_, ⟨lead, calls, renamed, rfl, ⟨_, allowed, fits, renames⟩, rfl⟩, accepted⟩
      rw [callsOf_turn allowed] at accepted distinct
      have room := (fitsParts_iff allowed allows).mp fits
      split at accepted
      · next noCalls =>
          cases List.map_eq_nil_iff.mp noCalls
          cases renames
          cases accepted
          rw [push_draft, List.map_nil, List.append_nil]
          exact .plain closes ⟨by simp, by simp, by simpa using allowed⟩ room
      · next someCall =>
          simp only [bind_eq_ok, okOr_eq_ok, Except.ok.injEq] at accepted
          rcases accepted with ⟨message, isMessage, expected, isExpected, rfl⟩
          have opens : OpensTurn setup closed.tally lead calls renamed :=
            ⟨allowed, room, renames, distinct.1, by simpa [callNames] using someCall⟩
          rw [message_opened opens.notEmpty renames] at isMessage
          cases isMessage
          exact .opens closes opens isExpected
  · intro takes
    cases takes with
    | plain closes' allowed fits =>
      cases closes.symm.trans closes'
      have noCalls : callsOf parts = [] := callsOf_of_allowed allowed.parts
      refine ⟨[], ⟨by rw [noCalls]; rfl, by rw [noCalls]; exact fresh_nil⟩, ?_⟩
      split
      · next isEmpty =>
          subst isEmpty
          rfl
      · rw [bind_eq_ok]
        refine ⟨_, normalizeAssistantParts_eq_ok.mpr ⟨parts, [], [], by simp, ⟨by rintro ⟨⟩,
          by simpa using allowed.parts, (fitsParts_iff allowed.parts allows).mpr fits, .nil⟩,
          rfl⟩, ?_⟩
        rw [if_pos rfl, push_draft]
    | @opens _ lead calls renamed expected closes' opens isExpected =>
      cases closes.symm.trans closes'
      have isCalls := @callsOf_turn setup lead calls true opens.allowed
      refine ⟨callNames calls, ⟨by rw [isCalls], by rw [isCalls]; exact ⟨opens.distinct, by simp⟩⟩,
        ?_⟩
      rw [if_neg (by simp [opens.notEmpty]), bind_eq_ok]
      refine ⟨_, normalizeAssistantParts_eq_ok.mpr ⟨lead, calls, renamed, rfl, ⟨by rintro ⟨⟩,
        opens.allowed, (fitsParts_iff opens.allowed allows).mpr opens.fits, opens.renames⟩,
        rfl⟩, ?_⟩
      rw [if_neg (by simp [callNames, opens.notEmpty]), message_opened opens.notEmpty opens.renames]
      simp only [okOr, ok_bind, bind_eq_ok]
      exact ⟨expected, isExpected, rfl⟩

theorem closeTurn_bind_eq_ok {role : MessageRole} {parts : List ContentPart}
    {accept : NormalizeState → Except HistoryError NormalizeState}
    (accepts : ∀ closed, state.closeTurn = .ok closed →
      (accept closed = .ok next ↔ Takes setup state (.content role parts) next)) :
    state.closeTurn >>= accept = .ok next ↔ Takes setup state (.content role parts) next := by
  rw [bind_eq_ok]
  constructor
  · rintro ⟨closed, closes, accepted⟩
    exact (accepts closed closes).mp accepted
  · intro takes
    have ends : ∃ closed, state.closeTurn = .ok closed := by
      cases takes with
      | plain closes => exact ⟨_, closes⟩
      | opens closes => exact ⟨_, closes⟩
    rcases ends with ⟨closed, closes⟩
    exact ⟨closed, closes, (accepts closed closes).mpr takes⟩

/-- The loop accepts a message in one of the three ways, or not at all. -/
theorem normalizeMessage_eq_ok (allows : setup.Allows state.tally.totalTextBytes) :
    setup.normalizeMessage state message = .ok next ↔ Takes setup state message next := by
  have closedAllows : ∀ closed, state.closeTurn = .ok closed →
      setup.Allows closed.tally.totalTextBytes := by
    intro closed closes
    rwa [closeTurn_tally closes]
  by_cases isTool : message.role = .tool
  · cases isTurn : state.turn with
    | none =>
      simp only [normalizeMessage, isTool, isTurn]
      refine iff_of_false (by simp) fun takes => ?_
      cases takes with
      | plain _ allowed => exact allowed.notTool isTool
      | opens => cases isTool
      | answers isTurn' => cases isTurn.symm.trans isTurn'
    | some turn =>
      simp only [normalizeMessage, isTool, isTurn]
      rw [acceptToolResult_eq_ok isTurn]
      exact and_iff_right (decide_eq_true isTool)
  · cases message with
    | toolResult => exact absurd rfl isTool
    | content role parts =>
      cases role with
      | tool => exact absurd rfl isTool
      | developer =>
        refine closeTurn_bind_eq_ok fun closed closes => ?_
        by_cases supported : setup.capabilities.developerRole = .supported
        · simp only [acceptDeveloper, reject, supported, ne_eq, not_true_eq_false, if_false,
            ok_bind]
          exact acceptPlain_eq_ok closes (closedAllows closed closes) isTool (by simp)
            fun _ => supported
        · refine iff_of_false (by simp [acceptDeveloper, reject, supported]) fun takes => ?_
          cases takes with
          | plain _ allowed => exact supported (allowed.developer rfl)
      | system | user =>
        exact closeTurn_bind_eq_ok fun closed closes =>
          acceptPlain_eq_ok closes (closedAllows closed closes) isTool (by simp) (by simp)
      | assistant =>
        exact closeTurn_bind_eq_ok fun closed closes =>
          acceptAssistant_eq_ok closes (closedAllows closed closes)

end Steps

end Philo
