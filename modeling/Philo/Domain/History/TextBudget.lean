import Philo.Domain.History.Idempotent

/-! The text budget of a normalization: what it spends is the text of its output, and any
limit that is enough for that leads to the same output. -/

namespace Philo

open Result Std NormalizeState HistorySetup

def HistorySetup.limited (setup : HistorySetup) (maxTotalTextBytes : Nat) : HistorySetup :=
  { setup with maxTotalTextBytes }

abbrev NormalizeState.spent (state : NormalizeState) : Nat := state.tally.totalTextBytes

/-! ## Messages -/

section Messages

variable {setup : HistorySetup} {state next : NormalizeState} {message : Message}

theorem Takes.spent_le (takes : Takes setup state message next) : state.spent ≤ next.spent := by
  cases takes with
  | plain closes =>
    rw [spent, ← closeTurn_tally closes, push, spent, plainTally_total, foldl_tallied_total]
    exact Nat.le_add_right ..
  | opens closes =>
    rw [spent, ← closeTurn_tally closes, opened, spent, mapped_total, foldl_tallied_total]
    exact Nat.le_add_right ..
  | answers => exact Nat.le_add_right ..

/-- A message is taken in the same way under every limit that is enough. -/
theorem Takes.limited {limit other : Nat} (takes : Takes (setup.limited limit) state message next)
    (enough : next.spent ≤ other) : Takes (setup.limited other) state message next := by
  cases takes with
  | plain closes allowed fits =>
    refine .plain closes ⟨allowed.notTool, allowed.developer, allowed.parts⟩ ⟨fits.1, ?_⟩
    exact Nat.le_trans (Nat.le_of_eq (plainTally_total ..).symm) enough
  | opens closes opens isExpected =>
    refine .opens closes ⟨opens.allowed, ⟨opens.fits.1, ?_⟩, opens.renames, opens.distinct,
      opens.notEmpty⟩ isExpected
    exact Nat.le_trans (Nat.le_of_eq (mapped_total ..).symm) enough
  | answers isTurn resolved waited fits => exact .answers isTurn resolved waited ⟨fits.1, enough⟩

theorem acceptAll_limited {limit other : Nat} {messages : List Message} {final : NormalizeState}
    (accepted : (setup.limited limit).normalizer.acceptAll state messages = .ok final)
    (allows : (setup.limited limit).Allows state.spent) (enough : final.spent ≤ other) :
    state.spent ≤ final.spent ∧
      (setup.limited other).normalizer.acceptAll state messages = .ok final := by
  induction messages generalizing state with
  | nil =>
    cases accepted
    exact ⟨Nat.le_refl _, rfl⟩
  | cons message rest induction =>
    rw [Consumer.acceptAll_cons, bind_eq_ok] at accepted
    rcases accepted with ⟨next, first, later⟩
    have takes := (normalizeMessage_eq_ok allows).mp first
    rcases induction later takes.allows with ⟨spent, again⟩
    have whole := Nat.le_trans takes.spent_le spent
    have first' := accept_of_takes (takes.limited (Nat.le_trans spent enough))
      ⟨allows.1, Nat.le_trans whole enough⟩
    exact ⟨whole, by rw [Consumer.acceptAll_cons, first', ok_bind, again]⟩

end Messages

/-! ## Histories -/

def Message.countedBytes : Message → Nat
  | .content _ parts => Philo.countedBytes parts
  | .toolResult result => Philo.countedBytes result.content

def NormalizedContext.textBytes (context : NormalizedContext) : Nat :=
  (context.messages.map Message.countedBytes).sum

section Budget

variable {messages : List Message} {capabilities : HistoryCapabilities}
  {dialect : DialectPolicy} {policy : HistoryPolicy} {maxMessages limit : Nat}
  {context : NormalizedContext}

theorem countedBytes_toolResult (result : ToolResultMessage) :
    (Message.toolResult result).countedBytes = Text.len result.text := by
  rcases result.content_eq with ⟨text, isText, _⟩
  simp [Message.countedBytes, ToolResultMessage.text, isText, ContentPart.textValue,
    ContentPart.countedText]

theorem HistoryItem.countedBytes_messages (item : HistoryItem) :
    (item.messages.map Message.countedBytes).sum = item.bytes := by
  cases item with
  | plain => simp [HistoryItem.messages, HistoryItem.bytes, Message.countedBytes]
  | turn turn =>
    have lead : turn.assistant.countedBytes = Philo.countedBytes turn.lead := by
      simp [ToolTurn.assistant, Message.countedBytes, countedBytes_toolCalls]
    simp only [HistoryItem.messages, HistoryItem.bytes, ToolTurn.messages, ToolTurn.bytes,
      List.map_cons, List.sum_cons, List.map_map, Function.comp_def, countedBytes_toolResult, lead]

theorem Ledger.countedBytes_output (ledger : Ledger) :
    (ledger.output.map Message.countedBytes).sum = ledger.bytes := by
  unfold Ledger.output Ledger.bytes
  induction ledger.left with
  | nil => rfl
  | cons item rest induction =>
    rw [List.flatMap_cons, List.map_append, List.sum_append, induction,
      item.countedBytes_messages, List.map_cons, List.sum_cons]

/-- What follows the loop looks at no text, and what the loop has spent is the text of the
output. -/
theorem finish_spent {setup : HistorySetup} {final : NormalizeState}
    (accepted : setup.normalizer.acceptAll .fresh messages = .ok final)
    (finished : setup.finish final = .ok context) :
    final.spent = context.textBytes ∧ setup.Allows context.textBytes := by
  simp only [finish, bind_eq_ok, reject_eq_ok, exists_const, Except.ok.injEq] at finished
  rcases finished with ⟨closed, isClosed, _, rfl⟩
  rcases accounts_of_acceptAll accepted with ⟨ledger, current, accounts, _⟩
  rcases accounts.closeTurn isClosed with ⟨accounts, _⟩
  have spent : closed.spent = NormalizedContext.textBytes ⟨closed.output, closed.idMappings,
      closed.tally.diagnostics.intoVec⟩ := by
    have total : closed.spent = Ledger.bytes (ledger ++ closedEntry current) := by
      simpa using accounts.total
    rw [total, ← Ledger.countedBytes_output, NormalizedContext.textBytes]
    simp [accounts.output]
  rw [← spent]
  exact ⟨congrArg Tally.totalTextBytes (closeTurn_tally isClosed).symm, accounts.fits⟩

theorem normalize_eq_ok :
    normalizeHistoryWithLimits messages capabilities dialect policy maxMessages limit =
        .ok context ↔
      messages.length ≤ maxMessages ∧ ∃ final,
        (normalizer ⟨capabilities, dialect, policy, maxMessages, limit⟩).acceptAll
            .fresh messages = .ok final ∧
          finish ⟨capabilities, dialect, policy, maxMessages, limit⟩ final =
            .ok context := by
  simp only [normalizeHistoryWithLimits, Consumer.collect, bind_eq_ok, reject_eq_ok,
    exists_const, Nat.not_lt]
  rfl

/-- The budget is exact. A history that is accepted under some text limit is accepted, with
the same result, under every limit that its normalized text does not exceed, and under no
other. -/
theorem normalize_textBudget
    (normalized : normalizeHistoryWithLimits messages capabilities dialect policy maxMessages
      limit = .ok context) :
    context.textBytes ≤ limit ∧
      (∀ other, context.textBytes ≤ other →
        normalizeHistoryWithLimits messages capabilities dialect policy maxMessages other =
          .ok context) ∧
      ∀ other < context.textBytes, ∃ error,
        normalizeHistoryWithLimits messages capabilities dialect policy maxMessages other =
          .error error := by
  have within : ∀ limit context,
      normalizeHistoryWithLimits messages capabilities dialect policy maxMessages limit =
        .ok context → context.textBytes ≤ limit := by
    intro limit context normalized
    rcases normalize_eq_ok.mp normalized with ⟨_, final, accepted, finished⟩
    exact (finish_spent accepted finished).2.2
  have same : ∀ {limit other context},
      normalizeHistoryWithLimits messages capabilities dialect policy maxMessages limit =
        .ok context → context.textBytes ≤ other →
          normalizeHistoryWithLimits messages capabilities dialect policy maxMessages other =
            .ok context := by
    intro limit other context normalized enough
    rcases normalize_eq_ok.mp normalized with ⟨short, final, accepted, finished⟩
    rw [← (finish_spent accepted finished).1] at enough
    have again := @acceptAll_limited ⟨capabilities, dialect, policy, maxMessages, limit⟩ .fresh
      limit other messages final accepted accounts_fresh.fits enough
    exact normalize_eq_ok.mpr ⟨short, final, again.2, finished⟩
  refine ⟨within limit context normalized, fun other => same normalized, fun other below => ?_⟩
  cases isOther : normalizeHistoryWithLimits messages capabilities dialect policy maxMessages
    other with
  | error error => exact ⟨error, rfl⟩
  | ok found =>
      -- the larger limit is enough for what was found, so it would have been found there
      have spent := within other found isOther
      have whole := within limit context normalized
      cases normalized.symm.trans (same isOther (by omega))
      omega

end Budget

/-- The question, the thinking and the result are fifteen bytes. -/
theorem spacedIdHistory_textBudget : ∃ context,
    normalizeHistoryWithLimits spacedIdHistory ⟨.supported, .unknown⟩ ⟨.openAi⟩
        ⟨.reject, .reject, .sameSourceOnly⟩ 1024 4096 = .ok context ∧
      context.textBytes = 15 ∧
      normalizeHistoryWithLimits spacedIdHistory ⟨.supported, .unknown⟩ ⟨.openAi⟩
        ⟨.reject, .reject, .sameSourceOnly⟩ 1024 15 = .ok context ∧
      ∃ error, normalizeHistoryWithLimits spacedIdHistory ⟨.supported, .unknown⟩ ⟨.openAi⟩
        ⟨.reject, .reject, .sameSourceOnly⟩ 1024 14 = .error error := by
  have given : ((normalizeHistoryWithLimits spacedIdHistory ⟨.supported, .unknown⟩ ⟨.openAi⟩
      ⟨.reject, .reject, .sameSourceOnly⟩ 1024 4096).map
        NormalizedContext.textBytes).toOption = some 15 := by decide +kernel
  rcases exists_ok_of_map given with ⟨context, normalized, bytes⟩
  rcases normalize_textBudget normalized with ⟨_, enough, below⟩
  exact ⟨context, normalized, bytes, enough 15 (Nat.le_of_eq bytes), below 14 (by omega)⟩

end Philo
