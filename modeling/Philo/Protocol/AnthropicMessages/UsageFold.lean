import Mathlib.Data.List.Chain
import Philo.Protocol.AnthropicMessages.Agreement
import Philo.Protocol.AnthropicMessages.Spoken

/-! How the Anthropic machine folds the usage snapshots of one message into the usage that
it reports. -/

namespace Philo.AnthropicMessages

open Result Std MessagesStateMachine List

variable {Schema : Type}

/-! ## Folding one counter -/

structure Cumulative (reported : List UInt64) (folded : Option UInt64) : Prop where
  grows : reported.Pairwise (· ≤ ·)
  last : folded = reported.getLast?

/-- A counter that is stable: the common value of all reports or, where stable fields may
grow, the greatest of reports that never go down. -/
def Stable (compat : UsageCompat) (reported : List UInt64) (folded : Option UInt64) : Prop :=
  match compat with
  | .strictStableFields =>
    (∀ value ∈ reported, folded = some value) ∧ (reported = [] → folded = none)
  | .allowMonotonicStableFields => reported.Pairwise (· ≤ ·) ∧
      ∀ greatest, folded = some greatest ↔ IsGreatest {value | value ∈ reported} greatest

variable {reported : List UInt64} {previous merged : Option UInt64} {compat : UsageCompat}
  {usages : List UsageWire} {library : WireLibrary Schema} {machine : MessagesStateMachine Schema}

theorem Cumulative.nil : Cumulative [] none := ⟨.nil, rfl⟩

theorem Stable.nil (compat : UsageCompat) : Stable compat [] none := by
  cases compat with
  | strictStableFields => exact ⟨by simp, fun _ => rfl⟩
  | allowMonotonicStableFields => exact ⟨.nil, fun greatest => by simp [IsGreatest]⟩

theorem le_getLast (grows : reported.Pairwise (· ≤ ·))
    {last value : UInt64} (isLast : reported.getLast? = some last) (member : value ∈ reported) :
    value ≤ last := by
  rcases getLast?_eq_some_iff.mp isLast with ⟨earlier, rfl⟩
  rcases mem_append.mp member with isEarlier | isLast
  · exact (pairwise_append.mp grows).2.2 value isEarlier last (mem_singleton_self _)
  · rw [mem_singleton.mp isLast]
    exact UInt64.le_refl last

theorem grows_concat {value : UInt64} : (reported ++ [value]).Pairwise (· ≤ ·) ↔
    reported.Pairwise (· ≤ ·) ∧ ∀ last ∈ reported.getLast?, last ≤ value := by
  simp only [← isChain_iff_pairwise, isChain_append]
  simp

theorem mergeCumulativeCount_some {value : UInt64}
    (isMerged : mergeCumulativeCount previous (some value) = .ok merged) :
    merged = some value ∧ ∀ last ∈ previous, last ≤ value := by
  cases previous with
  | none =>
    cases isMerged
    exact ⟨rfl, by simp⟩
  | some last =>
    simp only [mergeCumulativeCount] at isMerged
    split at isMerged
    · cases isMerged
    · next notBelow =>
        cases isMerged
        exact ⟨rfl, by simpa using notBelow⟩

theorem Cumulative.merge {next : Option UInt64} (cumulative : Cumulative reported previous)
    (isMerged : mergeCumulativeCount previous next = .ok merged) :
    Cumulative (reported ++ next.toList) merged := by
  rcases cumulative with ⟨grows, rfl⟩
  cases next with
  | none =>
    have kept : merged = reported.getLast? := by
      cases isLast : reported.getLast? <;> rw [isLast] at isMerged <;> cases isMerged <;> rfl
    rw [Option.toList_none, append_nil]
    exact ⟨grows, kept⟩
  | some value =>
    rcases mergeCumulativeCount_some isMerged with ⟨rfl, above⟩
    exact ⟨grows_concat.mpr ⟨grows, above⟩, by simp⟩

theorem mergeStableCount_none (previous : Option UInt64) (compat : UsageCompat) :
    mergeStableCount previous none compat = .ok previous := by
  cases previous <;> rfl

theorem Stable.merge_strict {value : UInt64} (stable : Stable .strictStableFields reported previous)
    (isMerged : mergeStableCount previous (some value) .strictStableFields = .ok merged) :
    Stable .strictStableFields (reported ++ [value]) merged := by
  have same : merged = some value ∧ ∀ kept, previous = some kept → kept = value := by
    cases previous with
    | none =>
      cases isMerged
      exact ⟨rfl, by simp⟩
    | some kept =>
      by_cases equal : kept = value
      · subst equal
        simp only [mergeStableCount, reduceCtorEq, and_false, ↓reduceIte, ne_eq,
          not_true_eq_false, Except.ok.injEq] at isMerged
        exact ⟨isMerged.symm, fun other isOther => (Option.some.inj isOther).symm⟩
      · simp [mergeStableCount, equal] at isMerged
  rcases same with ⟨rfl, agrees⟩
  refine ⟨fun other member => ?_, by simp⟩
  rcases mem_append.mp member with earlier | isValue
  · rw [agrees other (stable.1 other earlier)]
  · rw [mem_singleton.mp isValue]

theorem Stable.merge_monotonic {value : UInt64}
    (stable : Stable .allowMonotonicStableFields reported previous)
    (isMerged : mergeStableCount previous (some value) .allowMonotonicStableFields =
      .ok merged) :
    Stable .allowMonotonicStableFields (reported ++ [value]) merged := by
  rcases stable with ⟨grows, greatest⟩
  have above : merged = some value ∧ ∀ other ∈ reported, other ≤ value := by
    cases previous with
    | none =>
      cases isMerged
      refine ⟨rfl, fun other member => ?_⟩
      -- A list that is not empty and never goes down ends in its greatest value.
      cases isLast : reported.getLast? with
      | none =>
        rw [getLast?_eq_none_iff.mp isLast] at member
        cases member
      | some last =>
        cases (greatest last).mpr ⟨mem_of_getLast? isLast, fun _ isReported =>
          le_getLast grows isLast isReported⟩
    | some kept =>
      have below := ((greatest kept).mp rfl).2
      simp only [mergeStableCount, and_true] at isMerged
      split at isMerged
      · next isLess =>
          cases isMerged
          exact ⟨rfl, fun other member => UInt64.le_trans (below member)
            (UInt64.le_of_lt isLess)⟩
      · split at isMerged
        · cases isMerged
        · next same =>
            cases isMerged
            cases not_not.mp same
            exact ⟨rfl, fun other member => below member⟩
  rcases above with ⟨rfl, above⟩
  refine ⟨grows_concat.mpr ⟨grows, fun last isLast => above last (mem_of_getLast? isLast)⟩, ?_⟩
  · have isGreatest : IsGreatest {other | other ∈ reported ++ [value]} value := by
      refine ⟨mem_append_right _ (mem_singleton_self _), fun other member => ?_⟩
      rcases mem_append.mp member with earlier | isValue
      · exact above other earlier
      · rw [mem_singleton.mp isValue]
        exact UInt64.le_refl value
    intro other
    rw [Option.some.injEq]
    constructor
    · rintro rfl
      exact isGreatest
    · rintro ⟨member, isAbove⟩
      exact UInt64.le_antisymm (isAbove isGreatest.1) (isGreatest.2 member)

theorem Stable.merge {next : Option UInt64} (stable : Stable compat reported previous)
    (isMerged : mergeStableCount previous next compat = .ok merged) :
    Stable compat (reported ++ next.toList) merged := by
  cases next with
  | none =>
    rw [mergeStableCount_none, Except.ok.injEq] at isMerged
    rwa [Option.toList_none, append_nil, ← isMerged]
  | some value =>
    cases compat with
    | strictStableFields => exact stable.merge_strict isMerged
    | allowMonotonicStableFields => exact stable.merge_monotonic isMerged

/-! ## Folding snapshots -/

structure Snapshot (compat : UsageCompat) (usages : List UsageWire)
    (folded : UsageWire) : Prop where
  input : Stable compat (usages.filterMap UsageWire.inputTokens) folded.inputTokens
  output : Cumulative (usages.filterMap UsageWire.outputTokens) folded.outputTokens
  cacheWrite : Stable compat (usages.filterMap UsageWire.cacheCreationInputTokens)
    folded.cacheCreationInputTokens
  cacheRead : Stable compat (usages.filterMap UsageWire.cacheReadInputTokens)
    folded.cacheReadInputTokens
  thinking : Cumulative (usages.filterMap UsageWire.thinkingTokens) folded.thinkingTokens

theorem filterMap_concat {α β : Type} (field : α → Option β) (items : List α) (item : α) :
    (items ++ [item]).filterMap field = items.filterMap field ++ (field item).toList := by
  rw [filterMap_append]
  cases isField : field item <;> simp [isField]

theorem Snapshot.unreported (compat : UsageCompat) : Snapshot compat [] .unreported :=
  ⟨.nil compat, .nil, .nil compat, .nil compat, .nil⟩

theorem Snapshot.merge {previous next merged : UsageWire}
    (snapshot : Snapshot compat usages previous)
    (isMerged : mergeUsageSnapshot previous next compat = .ok merged) :
    Snapshot compat (usages ++ [next]) merged := by
  simp only [mergeUsageSnapshot, bind_eq_ok, Except.ok.injEq] at isMerged
  rcases isMerged with ⟨_, input, _, output, _, write, _, read, _, thinking, rfl⟩
  constructor
  all_goals rw [filterMap_concat]
  · exact snapshot.input.merge input
  · exact snapshot.output.merge output
  · exact snapshot.cacheWrite.merge write
  · exact snapshot.cacheRead.merge read
  · exact snapshot.thinking.merge thinking

theorem Snapshot.first (compat : UsageCompat) (usage : UsageWire) :
    Snapshot compat [usage] usage := by
  refine (Snapshot.unreported compat).merge ?_
  rcases usage with ⟨input, output, write, read, thinking⟩
  cases input <;> cases output <;> cases write <;> cases read <;> cases thinking <;> rfl

/-- What is reported of a folded snapshot: its counters, and as the input the exact sum of
the three parts if all of them are there. -/
structure ReportOf (folded : UsageWire) (details : UsageDetails) : Prop where
  output : details.outputTokens = .ofOption folded.outputTokens
  thinking : details.reasoningTokens = .ofOption folded.thinkingTokens
  cacheRead : details.cachedInputTokens = .ofOption folded.cacheReadInputTokens
  cacheWrite : details.cacheWriteTokens = .ofOption folded.cacheCreationInputTokens
  input : ∀ input write read, folded.inputTokens = some input →
    folded.cacheCreationInputTokens = some write → folded.cacheReadInputTokens = some read →
      ∃ total, details.inputTokens = .known total ∧
        total.toNat = input.toNat + write.toNat + read.toNat
  noInput : folded.inputTokens = none ∨ folded.cacheCreationInputTokens = none ∨
    folded.cacheReadInputTokens = none → details.inputTokens = .unknown
  consistent : details.validateRelationships = .ok ()

theorem reportOf_usageDetails {folded : UsageWire} {details : UsageDetails}
    (isDetails : usageDetails folded = .ok details) : ReportOf folded details := by
  unfold usageDetails at isDetails
  split at isDetails
  · next input write read isInput isWrite isRead =>
      simp only [bind_eq_ok, okOr_eq_ok, mapError_eq_ok, Except.ok.injEq,
        Option.map_eq_some_iff, Option.bind_eq_some_iff] at isDetails
      rcases isDetails with ⟨_, ⟨total, ⟨both, isBoth, isTotal⟩, rfl⟩, _, consistent, rfl⟩
      refine ⟨rfl, rfl, rfl, rfl, ?_, ?_, consistent⟩
      · intro _ _ _ isInput' isWrite' isRead'
        cases isInput.symm.trans isInput'
        cases isWrite.symm.trans isWrite'
        cases isRead.symm.trans isRead'
        refine ⟨total, rfl, ?_⟩
        rw [checkedAddU64_eq_some isTotal, checkedAddU64_eq_some isBoth]
      · rw [isInput, isWrite, isRead]
        simp
  · next missing =>
      simp only [ok_bind, bind_eq_ok, mapError_eq_ok, Except.ok.injEq] at isDetails
      rcases isDetails with ⟨_, consistent, rfl⟩
      refine ⟨rfl, rfl, rfl, rfl, ?_, fun _ => rfl, consistent⟩
      intro _ _ _ isInput isWrite isRead
      exact (missing _ _ _ isInput isWrite isRead).elim

/-! ## Steps -/

def NoUsage (events : List AssistantEvent) : Prop :=
  ∀ details, AssistantEvent.detailedUsage details ∉ events

def WireEvent.usage? : WireEvent → Option UsageWire
  | .messageStart wire => some wire.message.usage
  | .messageDelta wire => some wire.usage
  | _ => none

structure KeepsUsage (machine next : MessagesStateMachine Schema)
    (events : List AssistantEvent) : Prop where
  phase : next.phase = machine.phase
  snapshot : next.usageSnapshot = machine.usageSnapshot
  compat : next.usageCompat = machine.usageCompat
  silent : NoUsage events

section Steps

variable {library : WireLibrary Schema} {machine next : MessagesStateMachine Schema}
  {wire : WireEvent} {events : List AssistantEvent} {state : BlockState}

theorem Opening.keeps {wireIndex advanced : UInt32} {eventsSeen : Nat}
    {start : ContentBlockStartWire}
    (opens : Opening library machine wireIndex advanced eventsSeen start next state events) :
    KeepsUsage machine next events := by
  cases opens with
  | text | thinking | redacted => exact ⟨rfl, rfl, rfl, by simp [NoUsage]⟩
  | toolUse =>
    refine ⟨rfl, rfl, rfl, ?_⟩
    unfold inputDeltas
    split <;> simp [NoUsage]

theorem Closing.noUsage (closes : Closing library machine state events) : NoUsage events := by
  cases closes <;> simp [NoUsage]

inductive UsageStep (machine : MessagesStateMachine Schema) (wire : WireEvent)
    (next : MessagesStateMachine Schema) (events : List AssistantEvent) : Prop
  | kept (noReport : wire.usage? = none) (keeps : KeepsUsage machine next events)
  | started (usage : UsageWire) (reports : wire.usage? = some usage)
      (waiting : machine.phase = .awaitMessageStart)
      (phase : next.phase = .streamingMessage) (snapshot : next.usageSnapshot = some usage)
      (compat : next.usageCompat = machine.usageCompat) (silent : NoUsage events)
  | merged (usage folded : UsageWire) (reports : wire.usage? = some usage)
      (streaming : machine.phase = .streamingMessage)
      (isMerged : mergeUsageSnapshot (machine.usageSnapshot.getD .unreported) usage
        machine.usageCompat = .ok folded)
      (phase : next.phase = .streamingMessage) (snapshot : next.usageSnapshot = some folded)
      (compat : next.usageCompat = machine.usageCompat) (silent : NoUsage events)
  | stopped (delta : MessageDeltaEventWire) (folded : UsageWire) (details : UsageDetails)
      (isDelta : wire = .messageDelta delta) (carries : delta.delta.stopReason ≠ none)
      (streaming : machine.phase = .streamingMessage)
      (isMerged : mergeUsageSnapshot (machine.usageSnapshot.getD .unreported) delta.usage
        machine.usageCompat = .ok folded)
      (isDetails : usageDetails folded = .ok details)
      (phase : next.phase = .awaitMessageStop)
      (reported : events = if details.hasAnyKnown then [.detailedUsage details] else [])
  | ended (noReport : wire.usage? = none) (waiting : machine.phase = .awaitMessageStop)
      (phase : next.phase = .terminal) (silent : NoUsage events)

theorem Step.usage (step : Step library machine wire next events) :
    UsageStep machine wire next events := by
  cases step with
  | started waiting => exact .started _ rfl waiting rfl rfl rfl (by simp [NoUsage])
  | opened _ _ _ opens =>
    rcases opens.keeps with ⟨phase, snapshot, compat, silent⟩
    exact .kept rfl ⟨phase, snapshot, compat, silent⟩
  | text | thinking | unknown | signature | input | ignored | ping | other =>
    exact .kept rfl ⟨rfl, rfl, rfl, by simp [NoUsage]⟩
  | closed _ _ closes => exact .kept rfl ⟨rfl, rfl, rfl, closes.noUsage⟩
  | merged streaming isMerged =>
    exact .merged _ _ rfl streaming isMerged streaming rfl rfl (by simp [NoUsage])
  | stopped streaming _ isMerged carries _ _ isDetails =>
    exact .stopped _ _ _ rfl (by simp [carries]) streaming isMerged isDetails rfl rfl
  | ended waiting => exact .ended rfl waiting rfl (by simp [NoUsage])

theorem accept_usage {event : SseEvent}
    (accepted : accept library machine event = .ok (next, events)) :
    ∃ wire, decodeEvent library event = .ok wire ∧ UsageStep machine wire next events := by
  rcases step_of_accept accepted with ⟨_, wire, decoded, step⟩
  exact ⟨wire, decoded, step.usage⟩

end Steps

/-! ## Runs -/

def usagesOf (wires : List WireEvent) : List UsageWire := wires.filterMap WireEvent.usage?

theorem usagesOf_cons (wire : WireEvent) (rest : List WireEvent) :
    usagesOf (wire :: rest) = wire.usage?.toList ++ usagesOf rest := by
  unfold usagesOf
  cases isUsage : wire.usage? <;> simp [isUsage]

theorem NoUsage.append {first second : List AssistantEvent} (noFirst : NoUsage first)
    (noSecond : NoUsage second) : NoUsage (first ++ second) := by
  intro details member
  exact (mem_append.mp member).elim (noFirst details) (noSecond details)

/-- After the stop reason there are neither reports nor usage events. -/
theorem run_after_stop {events : List SseEvent} {emitted : List AssistantEvent}
    (stopped : machine.phase = .awaitMessageStop ∨ machine.phase = .terminal)
    (accepted : (producer library).runToEnd machine events = .ok emitted) :
    NoUsage emitted ∧ usagesOf (wireEvents library events) = [] := by
  induction events generalizing machine emitted with
  | nil =>
    rcases finish_eq_ok.mp ((Producer.runToEnd_nil_eq_ok _).mp accepted) with ⟨_, _, _, _, rfl⟩
    exact ⟨by simp [NoUsage], rfl⟩
  | cons event rest induction =>
    rcases (producer library).runToEnd_cons_eq_ok.mp accepted with
      ⟨next, first, later, step, tail, rfl⟩
    rcases accept_usage step with ⟨wire, decoded, usage⟩
    rw [wireEvents_cons decoded, usagesOf_cons]
    have notStarted : machine.phase ≠ .awaitMessageStart ∧
        machine.phase ≠ .streamingMessage := by
      rcases stopped with isStopped | isStopped <;> simp [isStopped]
    cases usage with
    | kept noReport keeps =>
      rcases induction (keeps.phase ▸ stopped) tail with ⟨silent, noReports⟩
      exact ⟨keeps.silent.append silent, by rw [noReport, noReports]; rfl⟩
    | ended noReport _ phase silent =>
      rcases induction (.inr phase) tail with ⟨silentLater, noReports⟩
      exact ⟨silent.append silentLater, by rw [noReport, noReports]; rfl⟩
    | started _ _ waiting => exact (notStarted.1 waiting).elim
    | merged _ _ _ streaming => exact (notStarted.2 streaming).elim
    | stopped _ _ _ _ _ streaming => exact (notStarted.2 streaming).elim

/-- The run reports usage at most once, when it reads the stop reason, and what it reports
is folded from `usages` and from the reports among the events. -/
def ReportsOnce (library : WireLibrary Schema) (machine : MessagesStateMachine Schema)
    (compat : UsageCompat) (usages : List UsageWire) (events : List SseEvent)
    (emitted : List AssistantEvent) : Prop :=
  ∃ before stop after delta earlier later reading next details folded,
    events = before ++ stop :: after ∧
    decodeEvent library stop = .ok (.messageDelta delta) ∧ delta.delta.stopReason ≠ none ∧
    (producer library).run machine before = .ok (reading, earlier) ∧
    accept library reading stop =
      .ok (next, if details.hasAnyKnown then [.detailedUsage details] else []) ∧
    emitted = earlier ++
      ((if details.hasAnyKnown then [.detailedUsage details] else []) ++ later) ∧
    NoUsage earlier ∧ NoUsage later ∧
    Snapshot compat (usages ++ usagesOf (wireEvents library events)) folded ∧
    ReportOf folded details

theorem ReportsOnce.cons {next : MessagesStateMachine Schema} {event : SseEvent}
    {wire : WireEvent} {rest : List SseEvent} {first later : List AssistantEvent}
    (accepted : accept library machine event = .ok (next, first))
    (decoded : decodeEvent library event = .ok wire) (silent : NoUsage first)
    (reports : ReportsOnce library next compat (usages ++ wire.usage?.toList) rest later) :
    ReportsOnce library machine compat usages (event :: rest) (first ++ later) := by
  rcases reports with ⟨before, stop, after, delta, earlier, later, reading, next', details, folded,
    rfl, isStop, carries, reached, atStop, rfl, quietBefore, quietAfter, snapshot, report⟩
  refine ⟨event :: before, stop, after, delta, first ++ earlier, later, reading, next', details,
    folded, rfl, isStop, carries, ?_, atStop, ?_, silent.append quietBefore, quietAfter, ?_, report⟩
  · exact (producer library).run_cons_eq_ok.mpr
      ⟨next, first, earlier, accepted, reached, rfl⟩
  · rw [append_assoc]
  · rw [wireEvents_cons decoded, usagesOf_cons, ← append_assoc]
    exact snapshot

theorem run_reportsOnce {events : List SseEvent} {emitted : List AssistantEvent}
    (folds : (machine.phase = .awaitMessageStart ∧ usages = []) ∨
      (machine.phase = .streamingMessage ∧ ∃ folded, machine.usageSnapshot = some folded ∧
        Snapshot machine.usageCompat usages folded))
    (accepted : (producer library).runToEnd machine events = .ok emitted) :
    ReportsOnce library machine machine.usageCompat usages events emitted := by
  induction events generalizing machine usages emitted with
  | nil =>
    rcases finish_eq_ok.mp ((Producer.runToEnd_nil_eq_ok _).mp accepted) with ⟨ended, _⟩
    rcases folds with ⟨waiting, _⟩ | ⟨streaming, _⟩
    · cases waiting.symm.trans ended
    · cases streaming.symm.trans ended
  | cons event rest induction =>
    rcases (producer library).runToEnd_cons_eq_ok.mp accepted with
      ⟨next, first, later, step, tail, rfl⟩
    rcases accept_usage step with ⟨wire, decoded, usage⟩
    cases usage with
    | kept noReport keeps =>
      refine .cons step decoded keeps.silent ?_
      rw [noReport, Option.toList_none, append_nil, ← keeps.compat]
      refine induction ?_ tail
      rwa [keeps.phase, keeps.snapshot, keeps.compat]
    | started usage reports waiting phase snapshot compat silent =>
      refine .cons step decoded silent ?_
      rcases folds with ⟨_, rfl⟩ | ⟨streaming, _⟩
      · rw [reports, ← compat]
        exact induction (.inr ⟨phase, usage, snapshot, .first _ usage⟩) tail
      · cases waiting.symm.trans streaming
    | merged usage folded reports streaming isMerged phase snapshot compat silent =>
      refine .cons step decoded silent ?_
      rcases folds with ⟨waiting, _⟩ | ⟨_, previous, isPrevious, folds⟩
      · cases waiting.symm.trans streaming
      · rw [isPrevious] at isMerged
        rw [reports, ← compat]
        refine induction (.inr ⟨phase, folded, snapshot, ?_⟩) tail
        rw [compat]
        exact folds.merge isMerged
    | stopped delta folded details isDelta carries streaming isMerged isDetails phase
        reported =>
        subst isDelta reported
        rcases folds with ⟨waiting, _⟩ | ⟨_, previous, isPrevious, folds⟩
        · cases waiting.symm.trans streaming
        · rw [isPrevious] at isMerged
          rcases run_after_stop (.inl phase) tail with ⟨silentLater, noReports⟩
          refine ⟨[], event, rest, delta, [], later, machine, next, details, folded, rfl,
            decoded, carries, rfl, step, rfl, by simp [NoUsage], silentLater, ?_,
            reportOf_usageDetails isDetails⟩
          rw [wireEvents_cons decoded, usagesOf_cons, noReports, append_nil]
          exact folds.merge isMerged
    | ended _ waiting =>
      rcases folds with ⟨isPhase, _⟩ | ⟨isPhase, _⟩
      · cases waiting.symm.trans isPhase
      · cases waiting.symm.trans isPhase

/-- Anthropic usage folding: a successful run reports usage at most once, at the
`message_delta` with the stop reason, and what it reports is folded from the usage of
`message_start` and of every `message_delta`. Output and thinking counts are the last ones
reported, of sequences that never go down; cache counts are the common value, or the
greatest of a sequence that never goes down where that is allowed; the input is the exact
sum of its three parts if all are known. -/
theorem runToEnd_reports_usage_once (library : WireLibrary Schema) (context : StreamContext)
    (format : ResponseFormat Schema) (limits : ResponseLimits) (compat : UsageCompat)
    (events : List SseEvent) (emitted : List AssistantEvent)
    (accepted : (producer library).runToEnd
      (.new context format limits compat) events = .ok emitted) :
    ReportsOnce library (.new context format limits compat) compat [] events emitted :=
  run_reportsOnce (.inl ⟨rfl, rfl⟩) accepted

/-! ## A recorded stream -/

def meteredStart : Recorded where
  name := "message_start"
  data := "\x7b\"type\":\"message_start\",\"message\":\x7b\"id\":\"msg_1\"," ++
    "\"model\":\"claude-test\",\"usage\":\x7b\"input_tokens\":5,\"output_tokens\":1," ++
    "\"cache_creation_input_tokens\":2,\"cache_read_input_tokens\":3\x7d\x7d\x7d"
  value := .object [("message", .object [("id", .string "msg_1"),
    ("model", .string "claude-test"), ("usage", .object [
      ("cache_creation_input_tokens", .number (.posInt 2)),
      ("cache_read_input_tokens", .number (.posInt 3)),
      ("input_tokens", .number (.posInt 5)), ("output_tokens", .number (.posInt 1))])]),
    ("type", .string "message_start")]
  wire := .messageStart ⟨"message_start",
    ⟨"msg_1", "claude-test", ⟨some 5, some 1, some 2, some 3, none⟩⟩⟩

def meteredReason : Recorded where
  name := "message_delta"
  data := "\x7b\"type\":\"message_delta\",\"delta\":\x7b\"stop_reason\":\"end_turn\"\x7d," ++
    "\"usage\":\x7b\"output_tokens\":7\x7d\x7d"
  value := .object [("delta", .object [("stop_reason", .string "end_turn")]),
    ("type", .string "message_delta"),
    ("usage", .object [("output_tokens", .number (.posInt 7))])]
  wire := .messageDelta ⟨"message_delta", ⟨some "end_turn"⟩, ⟨none, some 7, none, none, none⟩⟩

def meteredMessage : List Recorded := [meteredStart, meteredReason, recordedEnd]

def usageEvents (events : List AssistantEvent) : List UsageDetails :=
  events.filterMap fun
    | .detailedUsage details => some details
    | _ => none

theorem meteredMessage_reported :
    ∃ emitted, (producer (recordedLibrary meteredMessage)).runToEnd
        (.new recordedContext .text .official .strictStableFields)
        (meteredMessage.map Recorded.sseEvent) = .ok emitted ∧
      usageEvents emitted =
        [⟨.known 10, .known 7, .unknown, .known 3, .known 2, .unknown⟩] ∧
      ReportsOnce (recordedLibrary meteredMessage)
        (.new recordedContext .text .official .strictStableFields) .strictStableFields []
        (meteredMessage.map Recorded.sseEvent) emitted := by
  have produced : (((producer (recordedLibrary meteredMessage)).runToEnd
      (.new recordedContext .text .official .strictStableFields)
      (meteredMessage.map Recorded.sseEvent)).map usageEvents).toOption =
        some [⟨.known 10, .known 7, .unknown, .known 3, .known 2, .unknown⟩] := by
    decide +kernel
  rcases exists_ok_of_map produced with ⟨emitted, accepted, reported⟩
  exact ⟨emitted, accepted, reported, runToEnd_reports_usage_once _ _ _ _ _ _ _ accepted⟩

end Philo.AnthropicMessages
