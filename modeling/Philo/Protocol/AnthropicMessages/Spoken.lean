import Philo.Domain.EventText
import Philo.Protocol.AnthropicMessages.Steps

/-! What the emitted events say of the machine's state: the text that they carry is the
text that was buffered for validation, and they tell whether there was a tool call. -/

namespace Philo.AnthropicMessages

open Result Std KeyedText Function

variable {Schema : Type}

structure Spoken (machine next : MessagesStateMachine Schema)
    (events : List AssistantEvent) : Prop where
  limits : next.limits = machine.limits
  terminal : machine.terminal.Extends next.terminal (answerText events)
  tools : decide (0 < next.toolCalls) =
    (decide (0 < machine.toolCalls) || startsTool events)
  noRefusal : startsRefusal events = false

namespace Spoken

variable {machine next final : MessagesStateMachine Schema}
  {first second events : List AssistantEvent}

theorem refl (machine : MessagesStateMachine Schema) : Spoken machine machine [] :=
  ⟨rfl, .refl _, by simp [startsTool], rfl⟩

theorem trans (before : Spoken machine next first) (after : Spoken next final second) :
    Spoken machine final (first ++ second) where
  limits := after.limits.trans before.limits
  terminal := by
    rw [answerText_append]
    exact before.terminal.trans after.terminal
  tools := by rw [after.tools, before.tools, startsTool_append, Bool.or_assoc]
  noRefusal := by rw [startsRefusal_append, before.noRefusal, after.noRefusal, Bool.or_false]

theorem of_quiet (limits : next.limits = machine.limits)
    (terminal : machine.terminal.Extends next.terminal "")
    (toolCalls : next.toolCalls = machine.toolCalls)
    (quiet : ∀ event ∈ events, event.isQuiet = true) : Spoken machine next events := by
  rcases quiet_events quiet with ⟨silent, noTool, noRefusal, _⟩
  refine ⟨limits, ?_, ?_, noRefusal⟩
  · rwa [answerText, silent]
  · rw [toolCalls, noTool, Bool.or_false]

end Spoken

/-! ## Where text goes -/

def openTextAt (machine : MessagesStateMachine Schema) (wireIndex : UInt32) :
    Option ContentIndex :=
  match lookup machine.blocks wireIndex with
  | some (.text index) => some index
  | _ => none

def WireEvent.startsText : WireEvent → Bool
  | .contentBlockStart ⟨_, _, .text _⟩ => true
  | _ => false

inductive TextEffect (machine : MessagesStateMachine Schema) (wire : WireEvent)
    (next : MessagesStateMachine Schema) (pieces : List (Nat × String)) : Prop
  | kept
      (blocks : ∀ wireIndex index, openTextAt next wireIndex = some index →
        openTextAt machine wireIndex = some index)
      (advanced : machine.nextContentIndex.toNat ≤ next.nextContentIndex.toNat)
      (silent : pieces = [])
  | opened (starts : wire.startsText = true)
      (blocks : ∀ wireIndex index, openTextAt next wireIndex = some index →
        index = machine.nextContentIndex ∨ openTextAt machine wireIndex = some index)
      (advanced : next.nextContentIndex.toNat = machine.nextContentIndex.toNat + 1)
      (within : ∀ piece ∈ pieces, piece.1 = machine.nextContentIndex.toNat)
  | grown (wireIndex : UInt32) (index : ContentIndex)
      (found : openTextAt machine wireIndex = some index)
      (blocks : next.blocks = machine.blocks)
      (sameNext : next.nextContentIndex = machine.nextContentIndex)
      (within : ∀ piece ∈ pieces, piece.1 = index.toNat)

def ClosesInput (library : WireLibrary Schema) (machine : MessagesStateMachine Schema)
    (wire : WireEvent) (value : Json) : Prop :=
  ∃ stop index id name arguments, wire = .contentBlockStop stop ∧
    lookup machine.blocks stop.index = some (.toolUse index id name arguments) ∧
      library.fromStr (if arguments = "" then "\x7b\x7d" else arguments) = .ok value

structure Utters (library : WireLibrary Schema) (machine : MessagesStateMachine Schema)
    (wire : WireEvent) (next : MessagesStateMachine Schema)
    (events : List AssistantEvent) : Prop extends Spoken machine next events where
  validated : next.terminal.validated = machine.terminal.validated
  effect : TextEffect machine wire next (textPieces events)
  ends : ∀ index call, .toolCallEnd index call ∈ events →
    ClosesInput library machine wire call.arguments.value

theorem openTextAt_eq_some {machine : MessagesStateMachine Schema} {wireIndex : UInt32}
    {index : ContentIndex} : openTextAt machine wireIndex = some index ↔
      lookup machine.blocks wireIndex = some (.text index) := by
  unfold openTextAt
  split
  · next found => rw [found, Option.some.injEq, Option.some.injEq, BlockState.text.injEq]
  · next other => exact iff_of_false (by simp) (other index)

section Effects

variable {library : WireLibrary Schema} {machine next : MessagesStateMachine Schema}
  {wire : WireEvent} {events : List AssistantEvent} {wireIndex : UInt32}

theorem Utters.of_quiet (limits : next.limits = machine.limits)
    (terminal : next.terminal = machine.terminal) (toolCalls : next.toolCalls = machine.toolCalls)
    (blocks : ∀ wireIndex index, openTextAt next wireIndex = some index →
      openTextAt machine wireIndex = some index)
    (advanced : machine.nextContentIndex.toNat ≤ next.nextContentIndex.toNat)
    (quiet : ∀ event ∈ events, event.isQuiet = true) :
    Utters library machine wire next events where
  toSpoken := .of_quiet limits (terminal ▸ .refl _) toolCalls quiet
  validated := by rw [terminal]
  effect := .kept blocks advanced (quiet_events quiet).1
  ends index call ended := absurd ended ((quiet_events quiet).2.2.2 index call)

theorem openTextAt_of_insert {state : BlockState} (notText : ∀ index, state ≠ .text index)
    (blocks : next.blocks = machine.blocks.insert wireIndex state) :
    ∀ other index, openTextAt next other = some index →
      openTextAt machine other = some index := by
  intro other index isOpen
  rw [openTextAt_eq_some, blocks, lookup_insert] at isOpen
  rw [openTextAt_eq_some]
  by_cases same : other = wireIndex
  · subst other
    rw [update_self, Option.some.injEq] at isOpen
    exact absurd isOpen (notText index)
  · rwa [update_of_ne same] at isOpen

theorem openTextAt_of_erase (blocks : next.blocks = machine.blocks.erase wireIndex) :
    ∀ other index, openTextAt next other = some index →
      openTextAt machine other = some index := by
  intro other index isOpen
  rw [openTextAt_eq_some, blocks, lookup_erase] at isOpen
  rw [openTextAt_eq_some]
  by_cases same : other = wireIndex
  · subst other
    rw [update_self] at isOpen
    cases isOpen
  · rwa [update_of_ne same] at isOpen

end Effects

/-! ## The steps -/

section Steps

variable {library : WireLibrary Schema} {machine next : MessagesStateMachine Schema}
  {wire : WireEvent} {events : List AssistantEvent}

theorem textPieces_textDeltas (index : ContentIndex) (text : String) :
    answerText (textDeltas index text) = text ∧
      ∀ piece ∈ textPieces (textDeltas index text), piece.1 = index.toNat := by
  unfold textDeltas
  by_cases empty : text = ""
  · subst text
    exact ⟨rfl, by simp [textPieces]⟩
  · simp [empty, answerText, textPieces]

theorem textDeltas_silent (index : ContentIndex) (text : String) :
    startsTool (textDeltas index text) = false ∧
      startsRefusal (textDeltas index text) = false := by
  simp [startsTool, startsRefusal]

theorem AddsText.spoken {text : String} {terminal : StructuredTerminal Schema}
    (adds : AddsText machine text terminal) (index : ContentIndex) :
    machine.terminal.Extends terminal (answerText (textDeltas index text)) ∧
      startsTool (textDeltas index text) = false ∧
        startsRefusal (textDeltas index text) = false := by
  refine ⟨?_, textDeltas_silent index text⟩
  rw [(textPieces_textDeltas index text).1]
  exact adds.extended

theorem utters_opened {kind : String} {wireIndex advanced : UInt32}
    {blocksStarted eventsSeen : Nat} {start : ContentBlockStartWire} {state : BlockState}
    (added : checkedAddU32 machine.nextContentIndex 1 = some advanced)
    (opens : Opening library machine wireIndex advanced eventsSeen start next state events) :
    Utters library machine (.contentBlockStart ⟨kind, wireIndex, start⟩)
      { next with blocks := next.blocks.insert wireIndex state, blocksStarted } events := by
  have sum : advanced.toNat = machine.nextContentIndex.toNat + 1 := checkedAddU32_eq_some added
  have grows : machine.nextContentIndex.toNat ≤ advanced.toNat := sum ▸ Nat.le_succ _
  cases opens with
  | @text text terminal adds =>
    rcases adds.spoken machine.nextContentIndex with ⟨extended, noTool, noRefusal⟩
    refine ⟨⟨rfl, extended, ?_, noRefusal⟩, adds.validated,
      .opened rfl ?_ sum (textPieces_textDeltas machine.nextContentIndex text).2,
      by simp⟩
    · exact (congrArg _ noTool).trans (Bool.or_false _) |>.symm
    · intro other index isOpen
      rw [openTextAt_eq_some, lookup_insert] at isOpen
      rw [openTextAt_eq_some]
      by_cases same : other = wireIndex
      · subst other
        rw [update_self, Option.some.injEq, BlockState.text.injEq] at isOpen
        exact .inl isOpen.symm
      · rw [update_of_ne same] at isOpen
        exact .inr isOpen
  | thinking =>
    refine .of_quiet rfl rfl rfl (openTextAt_of_insert (by simp) rfl) grows ?_
    simp [AssistantEvent.isQuiet]
  | redacted =>
    exact .of_quiet rfl rfl rfl (openTextAt_of_insert (by simp) rfl) grows
      (by simp [AssistantEvent.isQuiet])
  | @toolUse _ _ _ _ input =>
    unfold inputDeltas
    by_cases empty : input.isEmptyObject = true
    all_goals
      simp only [empty, Bool.false_eq_true, ↓reduceIte, List.append_nil]
      exact ⟨⟨rfl, .refl _, by simp [startsTool], rfl⟩, rfl,
        .kept (openTextAt_of_insert (by simp) rfl) grows rfl, by simp⟩

theorem utters_closed {kind : String} {wireIndex : UInt32} {state : BlockState}
    {eventsSeen : Nat} (found : lookup machine.blocks wireIndex = some state)
    (closes : Closing library machine state events) :
    Utters library machine (.contentBlockStop ⟨kind, wireIndex⟩)
      { machine with blocks := machine.blocks.erase wireIndex, eventsSeen } events := by
  cases closes with
  | text | thinking | signed | redacted | unsupported =>
    exact .of_quiet rfl rfl rfl (openTextAt_of_erase rfl) le_rfl
      (by simp [AssistantEvent.isQuiet])
  | toolUse parsed =>
    refine ⟨⟨rfl, .refl _, by simp [startsTool], rfl⟩, rfl,
      .kept (openTextAt_of_erase rfl) le_rfl rfl, ?_⟩
    intro other call ended
    cases List.mem_singleton.mp ended
    exact ⟨_, _, _, _, _, rfl, found, parsed⟩

structure Validates (library : WireLibrary Schema) (machine : MessagesStateMachine Schema)
    (wire : WireEvent) (next : MessagesStateMachine Schema)
    (events : List AssistantEvent) : Prop where
  stops : ∃ stop, wire = .messageStop stop
  accepts : ∃ reason, machine.finishReason = some reason ∧
    Succeeds (validateStructuredResponse library.toJsonLibrary machine.terminal.responseFormat
      reason (machine.terminal.textBuffer.getD "") (decide (0 < machine.toolCalls)) false
      machine.terminal.schemaLimits)
  next_eq : ∃ eventsSeen, next = { machine with
    terminal := { machine.terminal with validated := true }, phase := .terminal, eventsSeen }
  silent : events = []

theorem Validates.spoken (validates : Validates library machine wire next events) :
    Spoken machine next events := by
  rcases validates with ⟨_, _, ⟨_, rfl⟩, rfl⟩
  exact .of_quiet rfl ⟨rfl, rfl, by simp⟩ rfl (by simp)

theorem Step.account (step : Step library machine wire next events) :
    Utters library machine wire next events ∨ Validates library machine wire next events := by
  cases step with
  | started | merged | ping | other | ignored =>
    exact .inl (.of_quiet rfl rfl rfl (fun _ _ isOpen => isOpen) le_rfl
      (by simp [AssistantEvent.isQuiet]))
  | opened _ _ added opens => exact .inl (utters_opened added opens)
  | unknown =>
    exact .inl (.of_quiet rfl rfl rfl (openTextAt_of_insert (by simp) rfl) le_rfl (by simp))
  | @text _ index text _ _ _ _ found adds =>
    rcases adds.spoken index with ⟨extended, noTool, noRefusal⟩
    exact .inl ⟨⟨rfl, extended, by simp [noTool], noRefusal⟩, adds.validated,
      .grown _ index (openTextAt_eq_some.mpr found) rfl rfl (textPieces_textDeltas index text).2,
      by simp⟩
  | thinking =>
    exact .inl (.of_quiet rfl rfl rfl (fun _ _ isOpen => isOpen) le_rfl
      (by simp [AssistantEvent.isQuiet]))
  | signature | input =>
    exact .inl (.of_quiet rfl rfl rfl (openTextAt_of_insert (by simp) rfl) le_rfl
      (by simp [AssistantEvent.isQuiet]))
  | closed _ found closes => exact .inl (utters_closed found closes)
  | stopped =>
    refine .inl (.of_quiet rfl rfl rfl (fun _ _ isOpen => isOpen) le_rfl ?_)
    split <;> simp [AssistantEvent.isQuiet]
  | ended _ isReason valid => exact .inr ⟨⟨_, rfl⟩, ⟨_, isReason, valid⟩, ⟨_, rfl⟩, rfl⟩

theorem Step.spoken (step : Step library machine wire next events) : Spoken machine next events :=
  step.account.elim Utters.toSpoken Validates.spoken

theorem accept_spoken {event : SseEvent}
    (accepted : MessagesStateMachine.accept library machine event = .ok (next, events)) :
    Spoken machine next events := by
  rcases step_of_accept accepted with ⟨_, _, _, step⟩
  exact step.spoken

end Steps

end Philo.AnthropicMessages
