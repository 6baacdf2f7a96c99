import Philo.Domain.History.Ledger

/-! A normalized history is left as it is by a second normalization. -/

namespace Philo

open Result Std HistorySetup NormalizeState ToolTurn List

/-! ## Items that are left as they are -/

structure NormalTurn (setup : HistorySetup) (turn : ToolTurn) : Prop where
  kept : ∀ part ∈ turn.lead, setup.keeps part = true
  allowed : setup.AllowedParts turn.lead true
  normal : ∀ call ∈ turn.calls, IsNormalId setup.dialect.toolCallId call.id
  distinct : DistinctIds turn.calls
  notEmpty : turn.calls ≠ []
  known : ∀ id ∈ turn.resultIds, id ∈ turn.callIds
  once : turn.resultIds.Nodup
  complete : turn.Complete

inductive NormalItem (setup : HistorySetup) : HistoryItem → Prop
  | plain {role : MessageRole} {parts : List ContentPart}
      (allowed : PlainAllowed setup role parts) (notEmpty : parts ≠ [])
      (kept : ∀ part ∈ parts, setup.keeps part = true) : NormalItem setup (.plain role parts)
  | turn {turn : ToolTurn} (normal : NormalTurn setup turn) : NormalItem setup (.turn turn)

variable {setup : HistorySetup}

theorem Rewrites.normal {item left : HistoryItem} (rewrites : Rewrites setup item (some left)) :
    NormalItem setup left := by
  cases rewrites with
  | kept allowed notEmpty =>
    exact .plain ⟨allowed.notTool, allowed.developer, allowed.parts.filter⟩ notEmpty
      fun part member => of_mem_filter member
  | @turn before after rewrites complete =>
    have sameLength := rewrites.calls.sameCalls.length_eq
    refine .turn ⟨?_, ?_, rewrites.calls.normal, rewrites.calls.distinct.1, ?_,
      rewrites.known, rewrites.once, complete⟩
    · rw [rewrites.lead]
      exact fun part member => of_mem_filter member
    · rw [rewrites.lead]
      exact rewrites.allowed.filter
    · intro noCalls
      rw [noCalls, length_nil] at sameLength
      exact rewrites.notEmpty (length_eq_zero_iff.mp sameLength)

theorem normal_left {ledger : Ledger}
    (rewrites : ∀ entry ∈ ledger, Rewrites setup entry.1 entry.2) :
    ∀ item ∈ ledger.left, NormalItem setup item := by
  intro item member
  rcases mem_filterMap.mp member with ⟨entry, isEntry, isItem⟩
  have rewritten := rewrites entry isEntry
  rw [isItem] at rewritten
  exact rewritten.normal

/-! ## The second pass -/

structure Settled (state : NormalizeState) (output : List Message) (total : Nat) : Prop where
  closes : ∃ closed, state.closeTurn = .ok closed ∧ closed.turn = none ∧
    closed.output = output ∧ closed.tally = ⟨.fresh, total⟩ ∧ closed.idMappings = []

theorem settled_fresh : Settled .fresh [] 0 := ⟨_, rfl, rfl, rfl, rfl, rfl⟩

theorem settled_of_closed {state : NormalizeState} {output : List Message} {total : Nat}
    (noTurn : state.turn = none) (sameOutput : state.output = output)
    (sameTally : state.tally = ⟨.fresh, total⟩) (noMappings : state.idMappings = []) :
    Settled state output total :=
  ⟨state, by simp [closeTurn, noTurn], noTurn, sameOutput, sameTally, noMappings⟩

section Items

variable {state : NormalizeState} {output : List Message} {total : Nat}

theorem accept_of_takes {message : Message} {next : NormalizeState}
    (takes : Takes setup state message next) (allows : setup.Allows state.tally.totalTextBytes) :
    setup.normalizer.accept state message = .ok next :=
  (normalizeMessage_eq_ok allows).mpr takes

theorem Settled.spent (settled : Settled state output total) :
    state.tally.totalTextBytes = total := by
  rcases settled with ⟨closed, isClosed, _, _, sameTally, _⟩
  rw [← closeTurn_tally isClosed, sameTally]

theorem settled_plain {role : MessageRole} {parts : List ContentPart}
    (settled : Settled state output total) (allowed : PlainAllowed setup role parts)
    (notEmpty : parts ≠ []) (kept : ∀ part ∈ parts, setup.keeps part = true)
    (fits : setup.Allows (total + countedBytes parts)) :
    ∃ next, Takes setup state (.content role parts) next ∧
      Settled next (output ++ [.content role parts]) (total + countedBytes parts) := by
  rcases settled with ⟨closed, isClosed, noTurn, sameOutput, sameTally, noMappings⟩
  have same := filter_eq_self.mpr kept
  have tally : parts.foldl setup.tallied closed.tally = ⟨.fresh, total + countedBytes parts⟩ := by
    rw [foldl_tallied_of_keeps _ kept, sameTally]
  refine ⟨_, .plain isClosed allowed (by rwa [tally]), settled_of_closed noTurn ?_ ?_ noMappings⟩
  · simp [push, leftMessage, same, notEmpty, sameOutput]
  · simp [push, plainTally, same, notEmpty, tally]

/-! ## Turns -/

section Turn

variable {turn : OpenTurn} {whole : ToolTurn} {result : ToolResultMessage}

theorem Tracks.own (tracks : Tracks setup turn whole whole)
    (called : result.toolCallId.value ∈ whole.callIds)
    (unanswered : result.toolCallId.value ∉ whole.resultIds) :
    resolveMappedId result.toolCallId.value turn.mappings turn.toolCalls =
      .ok result.toolCallId ∧ result.toolCallId.value ∈ turn.pending := by
  refine ⟨?_, (tracks.pending _).mpr ⟨called, unanswered⟩⟩
  rcases mem_map.mp called with ⟨call, member, sameId⟩
  have same : call.id = result.toolCallId := ToolCallId.ext sameId
  have paired : (call, call) ∈ whole.calls.zip whole.calls := by
    simpa [zip, zipWith_self] using member
  have original := resolveMappedId_original tracks.rewrites.distinct paired
  rwa [← tracks.mappings, ← tracks.toolCalls, same] at original

theorem Tracks.acceptAll {rest : List ToolResultMessage} (isTurn : state.turn = some turn)
    (tracks : Tracks setup turn whole whole)
    (called : ∀ id ∈ rest.map (fun result => result.toolCallId.value), id ∈ whole.callIds)
    (once : ((whole.results ++ rest).map fun result => result.toolCallId.value).Nodup)
    (fits : setup.Allows (state.tally.totalTextBytes +
      (rest.map fun result => Text.len result.text).sum)) :
    ∃ next turn', setup.normalizer.acceptAll state (rest.map .toolResult) = .ok next ∧
      next.turn = some turn' ∧
        Tracks setup turn' { whole with results := whole.results ++ rest }
          { whole with results := whole.results ++ rest } ∧
          next.output = state.output ∧ next.idMappings = state.idMappings ∧
            next.tally = { state.tally with totalTextBytes := state.tally.totalTextBytes +
              (rest.map fun result => Text.len result.text).sum } := by
  induction rest generalizing state turn whole with
  | nil => exact ⟨state, turn, rfl, isTurn, by simpa using tracks, rfl, rfl, rfl⟩
  | cons result rest induction =>
    rw [map_cons, sum_cons, ← Nat.add_assoc] at fits
    rw [map_cons, forall_mem_cons] at called
    have unanswered : result.toolCallId.value ∉ whole.resultIds := by
      rw [map_append, nodup_append] at once
      intro answered
      exact once.2.2 _ answered _ (by simp) rfl
    have room := fits.of_le (Nat.le_add_right _ _)
    rcases tracks.own called.1 unanswered with ⟨resolved, waited⟩
    rcases @induction (state.answered turn result) _ _ rfl
        (tracks.acceptResult resolved waited) called.2 (by simpa using once) fits with
      ⟨next, final, later, isFinal, tracksFinal, sameOutput, sameMappings, sameTally⟩
    refine ⟨next, final, ?_, isFinal, by simpa using tracksFinal, sameOutput, sameMappings, ?_⟩
    · rw [map_cons, Consumer.acceptAll_cons, accept_of_takes (.answers isTurn resolved
        waited room) (room.of_le (Nat.le_add_right _ _)), ok_bind]
      exact later
    · simp [sameTally, answered, Nat.add_assoc]

theorem settled_turn (settled : Settled state output total) (normal : NormalTurn setup whole)
    (fits : setup.Allows (total + whole.bytes)) :
    ∃ next, setup.normalizer.acceptAll state whole.messages = .ok next ∧
      Settled next (output ++ whole.messages) (total + whole.bytes) := by
  have allows : setup.Allows state.tally.totalTextBytes := by
    rw [settled.spent]
    exact fits.of_le (Nat.le_add_right _ _)
  rcases settled with ⟨closed, isClosed, noTurn, sameOutput, sameTally, noMappings⟩
  rw [bytes, ← Nat.add_assoc] at fits
  have same := filter_eq_self.mpr normal.kept
  have tally : whole.lead.foldl setup.tallied closed.tally =
      ⟨.fresh, total + countedBytes whole.lead⟩ := by
    rw [foldl_tallied_of_keeps _ normal.kept, sameTally]
  have distinct : Fresh (· ∈ (∅ : TreeSet String)) (whole.calls.map fun call => call.id.value) :=
    ⟨normal.distinct, by simp⟩
  have opens : OpensTurn setup closed.tally whole.lead whole.calls whole.calls :=
    ⟨normal.allowed, by rw [tally]; exact fits.of_le (Nat.le_add_right _ _),
      .refl normal.normal distinct, normal.distinct, normal.notEmpty⟩
  have unexpected : Fresh (· ∈ (∅ : TreeMap String ToolName)) ((callNames whole.calls).map
      fun call => (normalizedId (mappingsOf whole.calls whole.calls) call.1).value) := by
    rw [expectedIds normal.distinct rfl]
    exact ⟨normal.distinct, by simp⟩
  rcases expectedResults_succeeds closed.index unexpected with ⟨expected, isExpected⟩
  have tracks := tracks_opened opens isExpected
  rw [same] at tracks
  have isOpened := accept_of_takes (.opens isClosed opens isExpected) allows
  have openTally : (closed.opened setup whole.lead whole.calls whole.calls expected).tally =
      ⟨.fresh, total + countedBytes whole.lead⟩ := by
    simp [opened, tally, mappingsOf_self, Tally.mapped]
  rcases tracks.acceptAll rfl normal.known normal.once (by rwa [openTally]) with
    ⟨next, finalTurn, accepted, isFinal, tracksFinal, nextOutput, nextMappings, nextTally⟩
  have noneOpen : finalTurn.pending.isEmpty = true := by
    rw [TreeMap.isEmpty_iff_forall_not_mem]
    intro id pending
    rcases (tracksFinal.pending id).mp pending with ⟨called, unanswered⟩
    exact unanswered (by simpa [resultIds] using normal.complete id called)
  refine ⟨next, ?_, { next with
    output := next.output ++ finalTurn.results.map .toolResult, turn := none }, ?_, rfl, ?_, ?_, ?_⟩
  · rw [messages, Consumer.acceptAll_cons, assistant, isOpened, ok_bind, accepted]
  · simp [closeTurn, isFinal, noneOpen, reject]
  · simp [nextOutput, opened, sameOutput, tracksFinal.results, messages,
      assistant, same]
  · simp [nextTally, openTally, bytes, Nat.add_assoc]
  · simp [nextMappings, opened, noMappings, mappingsOf_self]

end Turn

theorem settled_items {items : List HistoryItem}
    (settled : Settled state output total) (normal : ∀ item ∈ items, NormalItem setup item)
    (fits : setup.Allows (total + (items.map HistoryItem.bytes).sum)) :
    ∃ next, setup.normalizer.acceptAll state (items.flatMap HistoryItem.messages) = .ok next ∧
      Settled next (output ++ items.flatMap HistoryItem.messages)
        (total + (items.map HistoryItem.bytes).sum) := by
  induction items generalizing state output total with
  | nil => exact ⟨state, rfl, by simpa using settled⟩
  | cons item rest induction =>
    rw [forall_mem_cons] at normal
    rw [map_cons, sum_cons, ← Nat.add_assoc] at fits
    have room := fits.of_le (Nat.le_add_right (total + item.bytes) _)
    have first : ∃ next, setup.normalizer.acceptAll state item.messages = .ok next ∧
        Settled next (output ++ item.messages) (total + item.bytes) := by
      cases normal.1 with
      | plain allowed notEmpty kept =>
        rcases settled_plain settled allowed notEmpty kept room with ⟨next, takes, after⟩
        have allows := settled.spent ▸ room.of_le (Nat.le_add_right _ _)
        refine ⟨next, ?_, after⟩
        simp only [HistoryItem.messages, Consumer.acceptAll_cons, Consumer.acceptAll_nil,
          accept_of_takes takes allows, ok_bind]
      | turn isTurn => exact settled_turn settled isTurn room
    rcases first with ⟨between, isBetween, settledBetween⟩
    rcases induction settledBetween normal.2 fits with ⟨next, later, settledNext⟩
    refine ⟨next, ?_, ?_⟩
    · rw [flatMap_cons, Consumer.acceptAll_append, isBetween, ok_bind, later]
    · simpa [Nat.add_assoc] using settledNext

end Items

/-! ## Idempotence -/

/-- Normalizing a normalized history again changes nothing, renames nothing and reports
nothing. -/
theorem normalize_idempotent (messages : List Message) (capabilities : HistoryCapabilities)
    (dialect : DialectPolicy) (policy : HistoryPolicy) (maxMessages maxTotalTextBytes : Nat)
    (context : NormalizedContext)
    (normalized : normalizeHistoryWithLimits messages capabilities dialect policy maxMessages
      maxTotalTextBytes = .ok context) :
    normalizeHistoryWithLimits context.messages capabilities dialect policy maxMessages
      maxTotalTextBytes = .ok ⟨context.messages, [], []⟩ := by
  rcases normalize_ledger normalized with ⟨ledger, rewrites, _, isOutput, fits, short⟩
  rcases settled_items settled_fresh (normal_left rewrites) (by simpa [Ledger.bytes] using fits) with
    ⟨final, accepted, closed, isClosed, _, sameOutput, sameTally, noMappings⟩
  have output : closed.output = ledger.output := by simpa [Ledger.output] using sameOutput
  rw [isOutput]
  simp only [normalizeHistoryWithLimits, Consumer.collect, reject, Nat.not_lt.mpr short,
    if_false, ok_bind]
  rw [show ledger.output = ledger.left.flatMap HistoryItem.messages from rfl, accepted, ok_bind]
  simp only [normalizer, finish, isClosed, ok_bind, output, reject, Nat.not_lt.mpr short,
    if_false, sameTally, noMappings, DiagnosticCounter.intoVec_fresh]
  rfl

def spacedIdHistory : List Message :=
  [.content .user [.text "weather?"],
    .content .assistant [.thinking ⟨"hm", none⟩, .toolCall spacedCall],
    .toolResult ⟨spacedCall.id, spacedCall.name, [.text "sunny"], false, none, rfl⟩]

theorem spacedIdHistory_idempotent : ∃ context,
    normalizeHistoryWithLimits spacedIdHistory ⟨.supported, .unknown⟩ ⟨.openAi⟩
        ⟨.reject, .reject, .dropAll⟩ 1024 4096 = .ok context ∧
      (context.idMappings.map fun mapping => mapping.normalized.value) = ["call1"] ∧
        normalizeHistoryWithLimits context.messages ⟨.supported, .unknown⟩ ⟨.openAi⟩
          ⟨.reject, .reject, .dropAll⟩ 1024 4096 = .ok ⟨context.messages, [], []⟩ := by
  have given : ((normalizeHistoryWithLimits spacedIdHistory ⟨.supported, .unknown⟩ ⟨.openAi⟩
      ⟨.reject, .reject, .dropAll⟩ 1024 4096).map fun context =>
        context.idMappings.map fun mapping => mapping.normalized.value).toOption =
          some ["call1"] := by decide +kernel
  rcases exists_ok_of_map given with ⟨context, normalized, mapped⟩
  exact ⟨context, normalized, mapped, normalize_idempotent _ _ _ _ _ _ context normalized⟩

end Philo
