import Philo.Domain.JsonView
import Philo.Protocol.AnthropicMessages.Closing

/-! The machine and the collector together, over whole runs. -/

namespace Philo.AnthropicMessages

open Result Std MessagesStateMachine Collector Progress

variable {Schema : Type}

def EventAgrees (library : WireLibrary Schema) (machine next : MessagesStateMachine Schema)
    (collector : Collector) (event : WireEvent) (rest : List WireEvent)
    (emitted : List AssistantEvent) : Prop :=
  (∃ collected, consumer.acceptAll collector emitted = .ok collected ∧
    Follows next collected ∧
      ((progress machine collector).Remaining library (event :: rest) ↔
        (progress next collected).Remaining library rest)) ∨
  (¬ Succeeds (consumer.acceptAll collector emitted) ∧
    ¬ (progress machine collector).Remaining library (event :: rest))

section Steps

variable {library : WireLibrary Schema} {machine next : MessagesStateMachine Schema}
  {collector : Collector} {event : WireEvent} {rest : List WireEvent}
  {emitted : List AssistantEvent}

theorem Carried.agrees {reached : Progress} (carried : Carried collector next emitted reached)
    (passedOn : (progress machine collector).Remaining library (event :: rest) ↔
      reached.Remaining library rest) :
    EventAgrees library machine next collector event rest emitted := by
  rcases carried with ⟨collected, accepted, follows, rfl⟩
  exact .inl ⟨collected, accepted, follows, passedOn⟩

theorem opened_agrees {kind : String} {wireIndex advanced : UInt32}
    {start : ContentBlockStartWire} {state : BlockState} {blocksStarted eventsSeen : Nat}
    (follows : Follows machine collector) (streaming : machine.phase = .streamingMessage)
    (vacant : lookup machine.blocks wireIndex = none)
    (added : checkedAddU32 machine.nextContentIndex 1 = some advanced)
    (opens : Opening library machine wireIndex advanced eventsSeen start next state emitted) :
    EventAgrees library machine
      { next with blocks := next.blocks.insert wireIndex state, blocksStarted } collector
      (.contentBlockStart ⟨kind, wireIndex, start⟩) rest emitted := by
  by_cases plain : state.arguments? = none
  · refine (carried_plainStart follows streaming vacant added opens plain).agrees
      (remaining_plainStart ?_ ?_)
    all_goals
      cases opens with
      | toolUse => cases plain
      | _ => rfl
  · cases opens with
    | text | thinking | redacted => exact absurd rfl plain
    | @toolUse id toolId _ _ _ _ validId =>
      have notPending : (progress machine collector).pending wireIndex = none := by
        simp [progress, vacant]
      have usedIdIff : (progress machine collector).usedId id ↔
          toolId ∈ collector.toolCallIds := by
        rw [← ToolCallId.new_eq_ok validId]
        constructor
        · rintro ⟨other, member, sameValue⟩
          rwa [ToolCallId.ext sameValue] at member
        · exact fun member => ⟨toolId, member, rfl⟩
      by_cases used : wireIndex ∈ collector.toolWireIndexes ∨ toolId ∈ collector.toolCallIds
      · refine .inr ⟨refused_toolStart follows used, ?_⟩
        rw [remaining_toolStart notPending, usedIdIff]
        exact fun fits => used.elim fits.1.1 fits.1.2
      · rw [not_or] at used
        refine (carried_toolStart follows streaming vacant added used.1 used.2).agrees ?_
        rw [remaining_toolStart notPending, usedIdIff, ToolCallId.new_eq_ok validId]
        exact and_iff_right used

theorem remaining_delta {reached : Progress} {wire : ContentBlockDeltaEventWire}
    (noInput : inputText wire.delta = "") :
    reached.Remaining library (.contentBlockDelta wire :: rest) ↔
      reached.Remaining library rest :=
  remaining_neutral rfl rfl fun _ _ => by simp [laterInput, noInput]

theorem Step.agrees (follows : Follows machine collector)
    (step : Step library machine event next emitted) (rest : List WireEvent) :
    EventAgrees library machine next collector event rest emitted := by
  have unchanged {eventsSeen : Nat} : Carried collector { machine with eventsSeen } []
      (progress machine collector) := ⟨collector, rfl, ⟨follows.sound, follows.notDone,
    follows.next, follows.linked, follows.tools, follows.phase⟩, rfl⟩
  cases step with
  | started waiting =>
    exact (carried_started follows waiting).agrees
      (remaining_neutral rfl rfl fun _ _ => rfl)
  | opened streaming vacant added opens => exact opened_agrees follows streaming vacant added opens
  | unknown streaming vacant =>
    exact (carried_unknownStart follows streaming vacant).agrees
      (remaining_neutral rfl rfl fun _ _ => rfl)
  | text streaming found =>
    exact (carried_text follows streaming found).agrees (remaining_delta rfl)
  | thinking streaming found =>
    exact (carried_thinking follows streaming found).agrees (remaining_delta rfl)
  | signature streaming found =>
    exact (carried_signature follows streaming found).agrees (remaining_delta rfl)
  | input streaming found =>
    refine (carried_input follows streaming found).agrees (remaining_input ?_)
    simp [progress, found, BlockState.arguments?]
  | @ignored wireIndex _ _ _ _ found =>
    -- Any delta is taken, even one with tool input, and nothing is pending here.
    refine unchanged.agrees (remaining_neutral rfl rfl fun index isPending => ?_)
    have different : wireIndex ≠ index := by
      rintro rfl
      exact isPending (by simp [progress, found, BlockState.arguments?])
    simp [laterInput, different]
  | closed streaming found closes =>
    rcases carried_stop follows streaming found closes with
      ⟨carried, notEmpty⟩ | ⟨refused, empty⟩
    · refine carried.agrees ?_
      rw [remaining_stop]
      exact and_iff_right notEmpty
    · refine .inr ⟨refused, ?_⟩
      rw [remaining_stop]
      exact fun fits => fits.1 empty
  | merged streaming _ noReason =>
    exact (carried_merged follows streaming).agrees
      (remaining_neutral rfl noReason fun _ _ => rfl)
  | stopped streaming empty _ carries isReason hasTool =>
    exact (carried_stopped follows streaming empty hasTool).agrees
      (remaining_reason (follows.streaming streaming).2 carries isReason)
  | ended waiting =>
    exact (carried_ended follows waiting).agrees
      (remaining_neutral rfl rfl fun _ _ => rfl)
  | ping | other => exact unchanged.agrees (remaining_neutral rfl rfl fun _ _ => rfl)

end Steps

def wireEvents (library : WireLibrary Schema) (events : List SseEvent) : List WireEvent :=
  events.filterMap fun event => (decodeEvent library event).toOption

theorem wireEvents_cons {library : WireLibrary Schema} {event : SseEvent} {wire : WireEvent}
    (decoded : decodeEvent library event = .ok wire) (rest : List SseEvent) :
    wireEvents library (event :: rest) = wire :: wireEvents library rest := by
  simp [wireEvents, decoded, Except.toOption]

def Fits (library : WireLibrary Schema) (machine : MessagesStateMachine Schema)
    (collector : Collector) (events : List SseEvent) : Prop :=
  (progress machine collector).Remaining library (wireEvents library events)

theorem accept_agrees (library : WireLibrary Schema) :
    StepAgrees (producer library) consumer Follows
      (Fits library) := by
  intro machine collector event rest next emitted follows accepted
  change accept library machine event = _ at accepted
  rcases step_of_accept accepted with ⟨_, wire, decoded, step⟩
  simp only [Fits, wireEvents_cons decoded]
  exact step.agrees follows (wireEvents library rest)

theorem finish_agrees (library : WireLibrary Schema) :
    EndAgrees (producer library) consumer Follows
      (Fits library) := by
  intro machine collector emitted follows finished
  rcases finish_eq_ok.mp finished with ⟨ended, _, reason, stopped, rfl⟩
  have atEnd := follows.phase
  simp only [InPhase, ended] at atEnd
  have closed : ∀ index, lookup collector.openBlocks index = none := by
    intro index
    apply Option.eq_none_iff_forall_ne_some.mpr
    intro block found
    rcases follows.linked.covered index block found with ⟨wireIndex, state, held, _⟩
    cases (atEnd.1 wireIndex).symm.trans held
  rw [follows.sound.succeeds_collect_done_iff follows.notDone closed reason, follows.next,
    ← follows.tools]
  constructor
  · rintro ⟨notEmpty, same⟩
    refine ⟨fresh_nil, fresh_nil, ?_, by simp [wireEvents, toolUses], .inl notEmpty, ?_⟩
    · intro index arguments pending
      simp [progress, atEnd.1] at pending
    · rintro (tools | tools)
      · exact .inl (stopped.trans (congrArg some (same.mpr tools)))
      · exact (tools rfl).elim
  · rintro ⟨_, _, _, _, content, stop⟩
    refine ⟨by simpa [wireEvents, progress] using content, ?_, ?_⟩
    · rintro rfl
      exact atEnd.2 stopped
    · intro tools
      rcases stop (.inl tools) with reported | ⟨unfinished, _⟩
      · exact Option.some.inj (stopped.symm.trans reported)
      · cases stopped.symm.trans unfinished

/-- Anthropic decode/collect agreement, exactly: a fresh collector accepts what a
successful run emits, and finishes, if and only if the decoded events are
`Collectable`. -/
theorem collect_succeeds_iff_collectable (library : WireLibrary Schema)
    (context : StreamContext) (format : ResponseFormat Schema) (limits : ResponseLimits)
    (compat : UsageCompat) (events : List SseEvent) (emitted : List AssistantEvent)
    (produced : (producer library).runToEnd
      (.new context format limits compat) events = .ok emitted) :
    Succeeds (consumer.collect .fresh emitted) ↔
      Collectable library (wireEvents library events) := by
  rw [succeeds_collect_iff_fits (accept_agrees library) (finish_agrees library)
    (Follows.new context format limits compat) produced, Fits, Follows.progress_new]
  exact remaining_initial_iff

/-! ## Recorded streams -/

/-- One recorded event: its name, its data, and what `serde_json` makes of the
data, untyped and as the payload that the name calls for. -/
structure Recorded where
  name : String
  data : String
  value : Json
  wire : WireEvent

/-- `serde_json` on the recorded data and on the empty object. -/
def recordedLibrary (records : List Recorded) : WireLibrary Unit :=
  let wire? data := (records.find? fun record => record.data = data).map Recorded.wire
  let unexpected : JsonError := ⟨.data, 1, 1⟩
  { fromStr := fun data =>
      if data = "\x7b\x7d" then .ok (.object [])
      else okOr ((records.find? fun record => record.data = data).map Recorded.value)
        unexpected
    render := Json.recordedWriter [(.object [], "\x7b\x7d")]
    validateInstance := fun _ _ _ => .ok ()
    messageStart := fun data =>
      match wire? data with
      | some (.messageStart wire) => .ok wire
      | _ => .error unexpected
    contentBlockStart := fun data =>
      match wire? data with
      | some (.contentBlockStart wire) => .ok wire
      | _ => .error unexpected
    contentBlockDelta := fun data =>
      match wire? data with
      | some (.contentBlockDelta wire) => .ok wire
      | _ => .error unexpected
    indexed := fun data =>
      match wire? data with
      | some (.contentBlockStop wire) => .ok wire
      | _ => .error unexpected
    messageDelta := fun data =>
      match wire? data with
      | some (.messageDelta wire) => .ok wire
      | _ => .error unexpected
    typeOnly := fun data =>
      match wire? data with
      | some (.messageStop wire) => .ok wire
      | some (.ping wire) => .ok wire
      | _ => .error unexpected
    errorEvent := fun data =>
      match wire? data with
      | some (.error wire) => .ok wire
      | _ => .error unexpected }

def Recorded.sseEvent (record : Recorded) : SseEvent := ⟨record.data, some record.name⟩

def recordedStart : Recorded where
  name := "message_start"
  data := "\x7b\"type\":\"message_start\",\"message\":\x7b\"id\":\"msg_1\"," ++
    "\"model\":\"claude-test\",\"usage\":\x7b\x7d\x7d\x7d"
  value := .object [("message", .object [("id", .string "msg_1"),
    ("model", .string "claude-test"), ("usage", .object [])]),
    ("type", .string "message_start")]
  wire := .messageStart ⟨"message_start", ⟨"msg_1", "claude-test", .unreported⟩⟩

def recordedToolUse : Recorded where
  name := "content_block_start"
  data := "\x7b\"type\":\"content_block_start\",\"index\":0,\"content_block\":" ++
    "\x7b\"type\":\"tool_use\",\"id\":\"toolu_1\",\"name\":\"now\",\"input\":\x7b\x7d\x7d\x7d"
  value := .object [("content_block", .object [("id", .string "toolu_1"),
    ("input", .object []), ("name", .string "now"), ("type", .string "tool_use")]),
    ("index", .number (.posInt 0)), ("type", .string "content_block_start")]
  wire := .contentBlockStart ⟨"content_block_start", 0,
    .toolUse "toolu_1" "now" (.object [])⟩

def recordedInput : Recorded where
  name := "content_block_delta"
  data := "\x7b\"type\":\"content_block_delta\",\"index\":0,\"delta\":" ++
    "\x7b\"type\":\"input_json_delta\",\"partial_json\":\"\x7b\x7d\"\x7d\x7d"
  value := .object [("delta", .object [("partial_json", .string "\x7b\x7d"),
    ("type", .string "input_json_delta")]), ("index", .number (.posInt 0)),
    ("type", .string "content_block_delta")]
  wire := .contentBlockDelta ⟨"content_block_delta", 0, .inputJsonDelta "\x7b\x7d"⟩

def recordedStop : Recorded where
  name := "content_block_stop"
  data := "\x7b\"type\":\"content_block_stop\",\"index\":0\x7d"
  value := .object [("index", .number (.posInt 0)), ("type", .string "content_block_stop")]
  wire := .contentBlockStop ⟨"content_block_stop", 0⟩

def recordedReason (reason : String) : Recorded where
  name := "message_delta"
  data := "\x7b\"type\":\"message_delta\",\"delta\":\x7b\"stop_reason\":\"" ++ reason ++
    "\"\x7d\x7d"
  value := .object [("delta", .object [("stop_reason", .string reason)]),
    ("type", .string "message_delta")]
  wire := .messageDelta ⟨"message_delta", ⟨some reason⟩, .unreported⟩

def recordedEnd : Recorded where
  name := "message_stop"
  data := "\x7b\"type\":\"message_stop\"\x7d"
  value := .object [("type", .string "message_stop")]
  wire := .messageStop ⟨"message_stop"⟩

def recordedContext : StreamContext where
  localRequestId := sampleRequestId
  providerRequestId := none
  source := .anthropic ⟨"claude-test", by decide, by decide⟩

def noArgumentCall : List Recorded :=
  [recordedStart, recordedToolUse, recordedStop, recordedReason "tool_use", recordedEnd]

def noArgumentCallEmitted : List AssistantEvent :=
  [.start sampleRequestId none (some ⟨"msg_1", by decide, by decide⟩),
    .toolCallStart 0 0 (some ⟨"toolu_1", by decide, by decide⟩),
    .toolCallDelta 0 0 (some "now") none,
    .toolCallEnd 0 ⟨⟨"toolu_1", by decide, by decide⟩,
      ⟨"now", by decide, by decide, by decide⟩, ⟨"\x7b\x7d", .object []⟩⟩,
    .done .toolCalls]

theorem noArgumentCall_not_collected :
    (producer (recordedLibrary noArgumentCall)).runToEnd
        (.new recordedContext .text .official .strictStableFields)
        (noArgumentCall.map Recorded.sseEvent) = .ok noArgumentCallEmitted ∧
      consumer.collect .fresh noArgumentCallEmitted =
        .error (Collector.protocol "ToolCallEnd changed tool arguments") := by
  constructor
  · rfl
  · rfl

def emptyObjectCall : List Recorded :=
  [recordedStart, recordedToolUse, recordedInput, recordedStop, recordedReason "tool_use",
    recordedEnd]

def emptyObjectCallEmitted : List AssistantEvent :=
  [.start sampleRequestId none (some ⟨"msg_1", by decide, by decide⟩),
    .toolCallStart 0 0 (some ⟨"toolu_1", by decide, by decide⟩),
    .toolCallDelta 0 0 (some "now") none,
    .toolCallDelta 0 0 none (some "\x7b\x7d"),
    .toolCallEnd 0 ⟨⟨"toolu_1", by decide, by decide⟩,
      ⟨"now", by decide, by decide, by decide⟩, ⟨"\x7b\x7d", .object []⟩⟩,
    .done .toolCalls]

theorem emptyObjectCall_collected :
    (producer (recordedLibrary emptyObjectCall)).runToEnd
        (.new recordedContext .text .official .strictStableFields)
        (emptyObjectCall.map Recorded.sseEvent) = .ok emptyObjectCallEmitted ∧
      Succeeds (consumer.collect .fresh emptyObjectCallEmitted) := by
  have produced : (producer (recordedLibrary emptyObjectCall)).runToEnd
      (.new recordedContext .text .official .strictStableFields)
      (emptyObjectCall.map Recorded.sseEvent) = .ok emptyObjectCallEmitted := rfl
  refine ⟨produced, (collect_succeeds_iff_collectable _ _ _ _ _ _ _ produced).mpr ?_⟩
  exact ⟨by decide, by decide, by decide, by decide, by decide⟩

end Philo.AnthropicMessages
