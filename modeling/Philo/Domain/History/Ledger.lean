import Philo.Domain.History.Steps

/-! Every accepted history is a sequence of items, each of which normalization rewrites
into an item or drops. -/

namespace Philo

open Result Std HistorySetup NormalizeState List

/-! ## Items -/

structure ToolTurn where
  lead : List ContentPart
  calls : List ToolCall
  results : List ToolResultMessage

namespace ToolTurn

def assistant (turn : ToolTurn) : Message :=
  .content .assistant (turn.lead ++ turn.calls.map .toolCall)

def messages (turn : ToolTurn) : List Message := turn.assistant :: turn.results.map .toolResult

def callIds (turn : ToolTurn) : List String := turn.calls.map fun call => call.id.value

def resultIds (turn : ToolTurn) : List String :=
  turn.results.map fun result => result.toolCallId.value

def bytes (turn : ToolTurn) : Nat :=
  countedBytes turn.lead + (turn.results.map fun result => Text.len result.text).sum

end ToolTurn

open ToolTurn

inductive HistoryItem where
  | plain (role : MessageRole) (parts : List ContentPart)
  | turn (turn : ToolTurn)

namespace HistoryItem

def messages : HistoryItem → List Message
  | plain role parts => [.content role parts]
  | turn calls => calls.messages

def bytes : HistoryItem → Nat
  | plain _ parts => countedBytes parts
  | turn calls => calls.bytes

end HistoryItem

/-! ## Rewriting -/

/-- A result is kept under another id. If it named a call by the id that the call had, it
names it by the id that the call has now. -/
structure RewritesResult (calls renamed : List ToolCall) (before after : ToolResultMessage) :
    Prop where
  sameResult : after = { before with toolCallId := after.toolCallId }
  sameCall : ∀ call new, (call, new) ∈ calls.zip renamed →
    before.toolCallId = call.id → after.toolCallId = new.id

structure RewritesTurn (setup : HistorySetup) (before after : ToolTurn) : Prop where
  lead : after.lead = before.lead.filter setup.keeps
  allowed : setup.AllowedParts before.lead true
  calls : RenamedCalls setup.dialect.toolCallId ∅ before.calls after.calls
  distinct : DistinctIds before.calls
  notEmpty : before.calls ≠ []
  results : Forall₂ (RewritesResult before.calls after.calls) before.results after.results
  known : ∀ id ∈ after.resultIds, id ∈ after.callIds
  once : after.resultIds.Nodup

def ToolTurn.Complete (turn : ToolTurn) : Prop := ∀ id ∈ turn.callIds, id ∈ turn.resultIds

inductive Rewrites (setup : HistorySetup) : HistoryItem → Option HistoryItem → Prop
  | kept {role : MessageRole} {parts : List ContentPart}
      (allowed : PlainAllowed setup role parts) (left : parts.filter setup.keeps ≠ []) :
      Rewrites setup (.plain role parts) (some (.plain role (parts.filter setup.keeps)))
  | dropped {role : MessageRole} {parts : List ContentPart}
      (allowed : PlainAllowed setup role parts) (nothing : parts.filter setup.keeps = []) :
      Rewrites setup (.plain role parts) none
  | turn {before after : ToolTurn} (rewrites : RewritesTurn setup before after)
      (complete : after.Complete) : Rewrites setup (.turn before) (some (.turn after))

/-- The items read so far, each with what became of it. -/
abbrev Ledger := List (HistoryItem × Option HistoryItem)

namespace Ledger

variable (ledger : Ledger)

def left : List HistoryItem := ledger.filterMap Prod.snd

def input : List Message := ledger.flatMap fun entry => entry.1.messages

def output : List Message := ledger.left.flatMap HistoryItem.messages

def bytes : Nat := (ledger.left.map HistoryItem.bytes).sum

theorem input_cons (entry : HistoryItem × Option HistoryItem) (ledger : Ledger) :
    input (entry :: ledger) = entry.1.messages ++ ledger.input := rfl

theorem output_cons (entry : HistoryItem × Option HistoryItem) (ledger : Ledger) :
    output (entry :: ledger) =
      entry.2.toList.flatMap HistoryItem.messages ++ ledger.output := by
  rcases entry with ⟨item, left⟩
  cases left <;> simp [output, left]

end Ledger

/-! ## What the loop knows -/

structure Tracks (setup : HistorySetup) (turn : OpenTurn) (before after : ToolTurn) : Prop where
  rewrites : RewritesTurn setup before after
  toolCalls : turn.toolCalls = callNames before.calls
  mappings : turn.mappings = mappingsOf before.calls after.calls
  results : turn.results = after.results
  pending : ∀ id, id ∈ turn.pending ↔ id ∈ after.callIds ∧ id ∉ after.resultIds

structure Accounts (setup : HistorySetup) (ledger : Ledger)
    (current : Option (ToolTurn × ToolTurn)) (state : NormalizeState) : Prop where
  rewrites : ∀ entry ∈ ledger, Rewrites setup entry.1 entry.2
  output : state.output = ledger.output ++ (current.map fun turns => turns.2.assistant).toList
  total : state.tally.totalTextBytes =
    ledger.bytes + (current.map fun turns => turns.2.bytes).getD 0
  fits : setup.Allows state.tally.totalTextBytes
  tracked : match state.turn, current with
    | none, none => True
    | some turn, some (before, after) => Tracks setup turn before after
    | _, _ => False

section Loop

variable {setup : HistorySetup} {ledger : Ledger} {current : Option (ToolTurn × ToolTurn)}
  {state next closed : NormalizeState}

namespace Ledger

theorem input_snoc (entry : HistoryItem × Option HistoryItem) :
    Ledger.input (ledger ++ [entry]) = ledger.input ++ entry.1.messages := by
  simp [Ledger.input]

theorem left_snoc (entry : HistoryItem × Option HistoryItem) :
    Ledger.left (ledger ++ [entry]) = ledger.left ++ entry.2.toList := by
  rcases entry with ⟨item, _ | rewritten⟩ <;> simp [Ledger.left]

theorem output_snoc (entry : HistoryItem × Option HistoryItem) :
    Ledger.output (ledger ++ [entry]) =
      ledger.output ++ entry.2.toList.flatMap HistoryItem.messages := by
  rw [Ledger.output, left_snoc, flatMap_append]
  rfl

theorem bytes_snoc (entry : HistoryItem × Option HistoryItem) : Ledger.bytes (ledger ++ [entry]) =
      ledger.bytes + (entry.2.toList.map HistoryItem.bytes).sum := by
  rw [Ledger.bytes, left_snoc, map_append, sum_append]
  rfl

theorem rewrites_snoc {item : HistoryItem} {rewritten : Option HistoryItem}
    (rewrites : ∀ entry ∈ ledger, Rewrites setup entry.1 entry.2)
    (last : Rewrites setup item rewritten) :
    ∀ entry ∈ ledger ++ [(item, rewritten)], Rewrites setup entry.1 entry.2 := by
  intro entry member
  rcases mem_append.mp member with earlier | now
  · exact rewrites entry earlier
  · rw [mem_singleton.mp now]
    exact last

end Ledger

def closedEntry (current : Option (ToolTurn × ToolTurn)) : Ledger :=
  (current.map fun turns => (.turn turns.1, some (.turn turns.2))).toList

theorem Accounts.closeTurn (accounts : Accounts setup ledger current state)
    (accepted : state.closeTurn = .ok closed) :
    Accounts setup (ledger ++ closedEntry current) none closed ∧ closed.turn = none := by
  rcases accounts with ⟨rewrites, output, total, fits, tracked⟩
  unfold NormalizeState.closeTurn at accepted
  split at accepted
  · next isNone =>
      cases accepted
      rw [isNone] at tracked
      cases current with
      | some => exact tracked.elim
      | none => exact ⟨⟨by simpa [closedEntry] using rewrites, by simpa [closedEntry] using output,
          by simpa [closedEntry] using total, fits, by rw [isNone]; trivial⟩, isNone⟩
  · next turn isTurn =>
      rw [isTurn] at tracked
      cases current with
      | none => exact tracked.elim
      | some turns =>
        rcases turns with ⟨before, after⟩
        simp only [bind_eq_ok, reject_eq_ok, exists_const, Bool.not_eq_false,
          Except.ok.injEq] at accepted
        rcases accepted with ⟨nonePending, rfl⟩
        have complete : after.Complete := by
          intro id called
          by_contra missing
          have pending := (tracked.pending id).mpr ⟨called, missing⟩
          exact TreeMap.isEmpty_iff_forall_not_mem.mp nonePending id pending
        have entered : closedEntry (some (before, after)) =
          [(.turn before, some (.turn after))] := rfl
        refine ⟨⟨?_, ?_, ?_, fits, trivial⟩, rfl⟩
        · exact Ledger.rewrites_snoc rewrites (.turn tracked.rewrites complete)
        · rw [entered, Ledger.output_snoc, output, tracked.results]
          simp [HistoryItem.messages, messages]
        · rw [entered, Ledger.bytes_snoc, total]
          simp [HistoryItem.bytes]

/-! ## One message -/

theorem plainTally_total (role : MessageRole) (parts : List ContentPart) (tally : Tally) :
    (plainTally setup role parts tally).totalTextBytes =
      (parts.foldl setup.tallied tally).totalTextBytes := by
  unfold plainTally
  split <;> rfl

theorem Takes.allows {message : Message} (takes : Takes setup state message next) :
    setup.Allows next.tally.totalTextBytes := by
  cases takes with
  | plain _ _ fits =>
    rw [← plainTally_total] at fits
    exact fits
  | opens _ opens =>
    rw [opened, mapped_total]
    exact opens.fits
  | answers _ _ _ fits => exact fits

theorem Accounts.plain {role : MessageRole} {parts : List ContentPart}
    (accounts : Accounts setup ledger none closed) (noTurn : closed.turn = none)
    (allowed : PlainAllowed setup role parts)
    (fits : setup.Allows (parts.foldl setup.tallied closed.tally).totalTextBytes) :
    ∃ rewritten, Accounts setup (ledger ++ [(.plain role parts, rewritten)]) none
      (closed.push (leftMessage setup role parts)
        (plainTally setup role parts closed.tally)) := by
  have total := @plainTally_total setup role parts closed.tally
  have room := total ▸ fits
  rw [foldl_tallied_total] at total
  by_cases nothing : parts.filter setup.keeps = []
  · refine ⟨none, Ledger.rewrites_snoc accounts.rewrites (.dropped allowed nothing), ?_, ?_,
      room, by simp [push, noTurn]⟩
    · simp [push, leftMessage, nothing, Ledger.output_snoc, accounts.output]
    · simp [push, total, nothing, Ledger.bytes_snoc, accounts.total]
  · refine ⟨_, Ledger.rewrites_snoc accounts.rewrites (.kept allowed nothing), ?_, ?_, room,
      by simp [push, noTurn]⟩
    · simp [push, leftMessage, nothing, Ledger.output_snoc, accounts.output,
        HistoryItem.messages]
    · simp [push, total, Ledger.bytes_snoc, accounts.total, HistoryItem.bytes]

/-- The ids that the turn waits for are those that its calls were given. -/
theorem expectedIds {calls renamed : List ToolCall} (distinct : DistinctIds calls)
    (sameLength : calls.length = renamed.length) : (callNames calls).map (fun call =>
        (normalizedId (mappingsOf calls renamed) call.1).value) =
      renamed.map fun call => call.id.value := by
  have ids := congrArg (map ToolCallId.value) (map_normalizedId distinct sameLength)
  rw [map_map, map_map] at ids
  rw [callNames, map_map]
  exact ids

section Opens

variable {lead : List ContentPart} {calls renamed : List ToolCall}
  {expected : TreeMap String ToolName}
  (opens : OpensTurn setup closed.tally lead calls renamed)
  (isExpected : expectedResults closed.index (mappingsOf calls renamed) (callNames calls) ∅ =
    .ok expected)

include opens isExpected

theorem tracks_opened :
    Tracks setup ⟨closed.index, callNames calls, mappingsOf calls renamed, expected, expected, []⟩
      ⟨lead, calls, []⟩ ⟨lead.filter setup.keeps, renamed, []⟩ := by
  rcases opens with ⟨allowed, _, renames, distinct, notEmpty⟩
  refine ⟨⟨rfl, allowed, renames, distinct, notEmpty, .nil, by simp [resultIds],
    by simp [resultIds]⟩, rfl, rfl, rfl, ?_⟩
  intro id
  rw [expectedResults_eq_ok isExpected id, expectedIds distinct renames.sameCalls.length_eq]
  simp [callIds, resultIds]

theorem Accounts.openTurn (accounts : Accounts setup ledger none closed) : Accounts setup ledger
      (some (⟨lead, calls, []⟩, ⟨lead.filter setup.keeps, renamed, []⟩))
      (closed.opened setup lead calls renamed expected) := by
  have total : (closed.opened setup lead calls renamed expected).tally.totalTextBytes =
      (lead.foldl setup.tallied closed.tally).totalTextBytes := mapped_total ..
  refine ⟨accounts.rewrites, ?_, ?_, total ▸ opens.fits, tracks_opened opens isExpected⟩
  · simp [opened, accounts.output, assistant]
  · rw [total, foldl_tallied_total, accounts.total]
    simp [bytes]

end Opens

theorem Tracks.acceptResult {turn : OpenTurn} {before after : ToolTurn}
    {result : ToolResultMessage} {mappedId : ToolCallId} (tracks : Tracks setup turn before after)
    (resolved : resolveMappedId result.toolCallId.value turn.mappings turn.toolCalls =
      .ok mappedId) (waited : mappedId.value ∈ turn.pending) :
    Tracks setup
      { turn with
        pending := turn.pending.erase mappedId.value
        results := turn.results ++ [{ result with toolCallId := mappedId }] }
      { before with results := before.results ++ [result] }
      { after with results := after.results ++ [{ result with toolCallId := mappedId }] } := by
  rcases tracks with ⟨⟨lead, allowed, calls, distinct, notEmpty, results, known, once⟩,
    toolCalls, mappings, sameResults, pending⟩
  rcases (pending mappedId.value).mp waited with ⟨called, unanswered⟩
  have ids : resultIds { after with
      results := after.results ++ [{ result with toolCallId := mappedId }] } =
        after.resultIds ++ [mappedId.value] := by
    simp [resultIds]
  refine ⟨⟨lead, allowed, calls, distinct, notEmpty, ?_, ?_, ?_⟩, toolCalls, mappings, ?_, ?_⟩
  · refine rel_append results (.cons ⟨rfl, ?_⟩ .nil)
    intro call new paired named
    have original := resolveMappedId_original distinct paired
    rw [← named, ← mappings, ← toolCalls, resolved] at original
    exact Except.ok.inj original
  · intro id answered
    rw [ids, mem_append, mem_singleton] at answered
    rcases answered with earlier | rfl
    · exact known id earlier
    · exact called
  · rw [ids, nodup_append]
    refine ⟨once, nodup_singleton _, ?_⟩
    intro id earlier other now same
    rw [mem_singleton] at now
    exact unanswered (now ▸ same ▸ earlier)
  · rw [sameResults]
  · intro id
    rw [mem_erase_iff, pending, ids, mem_append, mem_singleton, not_or]
    exact and_rotate

theorem Accounts.answers {turn : OpenTurn} {before after : ToolTurn}
    {result : ToolResultMessage} {mappedId : ToolCallId}
    (accounts : Accounts setup ledger (some (before, after)) state)
    (isTurn : state.turn = some turn)
    (resolved : resolveMappedId result.toolCallId.value turn.mappings turn.toolCalls =
      .ok mappedId) (waited : mappedId.value ∈ turn.pending)
    (fits : setup.Allows (state.tally.totalTextBytes + Text.len result.text)) :
    Accounts setup ledger
      (some ({ before with results := before.results ++ [result] },
        { after with results := after.results ++ [{ result with toolCallId := mappedId }] }))
      (state.answered turn { result with toolCallId := mappedId }) := by
  rcases accounts with ⟨rewrites, output, total, _, tracked⟩
  rw [isTurn] at tracked
  refine ⟨rewrites, ?_, ?_, fits, tracked.acceptResult resolved waited⟩
  · simpa [answered, assistant] using output
  · simp [answered, total, bytes, ToolResultMessage.text, Nat.add_assoc]

/-! ## The whole loop -/

def readBy (ledger : Ledger) (current : Option (ToolTurn × ToolTurn)) : List Message :=
  ledger.input ++ (current.map fun turns => turns.1.messages).getD []

theorem readBy_closed : readBy (ledger ++ closedEntry current) none = readBy ledger current := by
  cases current with
  | none => simp [readBy, closedEntry]
  | some turns =>
    have entered : closedEntry (some turns) = [(.turn turns.1, some (.turn turns.2))] := rfl
    rw [readBy, entered, Ledger.input_snoc]
    exact append_nil _

theorem readBy_plain {role : MessageRole} {parts : List ContentPart}
    {rewritten : Option HistoryItem} : readBy (ledger ++ [(.plain role parts, rewritten)]) none =
      readBy ledger none ++ [.content role parts] := by
  simp [readBy, Ledger.input_snoc, HistoryItem.messages]

theorem Accounts.step {message : Message} (accounts : Accounts setup ledger current state)
    (takes : Takes setup state message next) :
    ∃ ledger' current', Accounts setup ledger' current' next ∧
      readBy ledger' current' = readBy ledger current ++ [message] := by
  cases takes with
  | plain closes allowed fits =>
    rcases accounts.closeTurn closes with ⟨accounts, noTurn⟩
    rcases accounts.plain noTurn allowed fits with ⟨rewritten, accounts⟩
    exact ⟨_, none, accounts, by rw [readBy_plain, readBy_closed]⟩
  | opens closes opens isExpected =>
    rcases accounts.closeTurn closes with ⟨accounts, _⟩
    refine ⟨_, _, accounts.openTurn opens isExpected, ?_⟩
    rw [← @readBy_closed ledger current]
    simp [readBy, messages, assistant]
  | answers isTurn resolved waited fits =>
    have tracked := accounts.tracked
    rw [isTurn] at tracked
    cases current with
    | none => exact tracked.elim
    | some turns =>
      refine ⟨ledger, _, accounts.answers isTurn resolved waited fits, ?_⟩
      simp [readBy, messages, assistant]

theorem accounts_fresh : Accounts setup [] none .fresh where
  rewrites := by simp
  output := rfl
  total := rfl
  fits := ⟨by decide, Nat.zero_le _⟩
  tracked := trivial

theorem accounts_of_acceptAll {messages : List Message}
    (accepted : setup.normalizer.acceptAll .fresh messages = .ok next) :
    ∃ ledger current, Accounts setup ledger current next ∧
      readBy ledger current = messages := by
  refine setup.normalizer.acceptAll_history (fun read state => ∃ ledger current,
    Accounts setup ledger current state ∧ readBy ledger current = read) ?_
    ⟨[], none, accounts_fresh, rfl⟩ accepted
  rintro read state message next ⟨ledger, current, accounts, rfl⟩ isNext
  exact accounts.step ((normalizeMessage_eq_ok accounts.fits).mp isNext)

end Loop

/-- A normalized history is what the ledger of its items leaves. -/
theorem normalize_ledger {messages : List Message} {capabilities : HistoryCapabilities}
    {dialect : DialectPolicy} {policy : HistoryPolicy} {maxMessages maxTotalTextBytes : Nat}
    {context : NormalizedContext}
    (normalized : normalizeHistoryWithLimits messages capabilities dialect policy maxMessages
      maxTotalTextBytes = .ok context) :
    ∃ ledger : Ledger,
      (∀ entry ∈ ledger, Rewrites ⟨capabilities, dialect, policy, maxMessages,
        maxTotalTextBytes⟩ entry.1 entry.2) ∧
        messages = ledger.input ∧ context.messages = ledger.output ∧
          HistorySetup.Allows ⟨capabilities, dialect, policy, maxMessages,
            maxTotalTextBytes⟩ ledger.bytes ∧ ledger.output.length ≤ maxMessages := by
  simp only [normalizeHistoryWithLimits, Consumer.collect, bind_eq_ok, reject_eq_ok,
    exists_const, normalizer, HistorySetup.finish, Except.ok.injEq, Nat.not_lt] at normalized
  rcases normalized with ⟨_, final, accepted, closed, isClosed, short, rfl⟩
  rcases accounts_of_acceptAll accepted with ⟨ledger, current, accounts, read⟩
  rcases accounts.closeTurn isClosed with ⟨accounts, _⟩
  have output : closed.output = Ledger.output (ledger ++ closedEntry current) := by
    simpa using accounts.output
  have total : closed.tally.totalTextBytes = Ledger.bytes (ledger ++ closedEntry current) := by
    simpa using accounts.total
  refine ⟨ledger ++ closedEntry current, accounts.rewrites, ?_, output, total ▸ accounts.fits,
    output ▸ short⟩
  have whole : readBy (ledger ++ closedEntry current) none = messages := by rw [readBy_closed, read]
  simpa [readBy] using whole.symm

end Philo
