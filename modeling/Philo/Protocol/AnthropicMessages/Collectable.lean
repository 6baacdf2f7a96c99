import Philo.Foundation.Table
import Philo.Protocol.AnthropicMessages.Machine

/-! Which sequences of decoded events lead to a message the collector accepts,
and how that condition passes from a sequence to its tail. -/

namespace Philo.AnthropicMessages

open Result Function MessagesStateMachine

variable {Schema : Type}

structure ToolUse where
  wireIndex : UInt32
  id : String
  input : String

def inputText : ContentBlockDeltaWire → String
  | .inputJsonDelta partialJson => partialJson
  | _ => ""

/-- The tool input that arrives for the open block `index`, up to its stop. -/
def laterInput (index : UInt32) : List WireEvent → String
  | [] => ""
  | .contentBlockDelta wire :: rest =>
    (if wire.index = index then inputText wire.delta else "") ++ laterInput index rest
  | .contentBlockStop wire :: rest => if wire.index = index then "" else laterInput index rest
  | _ :: rest => laterInput index rest

def toolUse? (library : WireLibrary Schema) (event : WireEvent) (rest : List WireEvent) :
    Option ToolUse :=
  match event with
  | .contentBlockStart ⟨_, index, .toolUse id _ input⟩ =>
    some ⟨index, id, initialInput library input ++ laterInput index rest⟩
  | _ => none

def toolUses (library : WireLibrary Schema) : List WireEvent → List ToolUse
  | [] => []
  | event :: rest => (toolUse? library event rest).toList ++ toolUses library rest

def startsKnownBlock : WireEvent → Bool
  | .contentBlockStart ⟨_, _, .unknown⟩ => false
  | .contentBlockStart _ => true
  | _ => false

def ownStopReason? : WireEvent → Option String
  | .messageDelta wire => wire.delta.stopReason
  | _ => none

def reportedStopReason (events : List WireEvent) : Option String := events.findSome? ownStopReason?

/-- The events open at least one block of a known kind; no two `tool_use` blocks
share a wire index or an id, none of them ends with an empty input text, and if
there is one, the message stops for `tool_use`. -/
structure Collectable (library : WireLibrary Schema) (events : List WireEvent) : Prop where
  wireIndexes : ((toolUses library events).map ToolUse.wireIndex).Nodup
  ids : ((toolUses library events).map ToolUse.id).Nodup
  inputs : ∀ use ∈ toolUses library events, use.input ≠ ""
  content : ∃ event ∈ events, startsKnownBlock event = true
  stop : toolUses library events ≠ [] → reportedStopReason events = some "tool_use"

/-! ## The condition on what remains -/

structure Progress where
  usedWireIndex : UInt32 → Prop
  usedId : String → Prop
  /-- The input text so far of the `tool_use` block open at a wire index. -/
  pending : UInt32 → Option String
  hasContent : Prop
  hasTools : Prop
  stopped : Option FinishReason

namespace Progress

def initial : Progress := ⟨fun _ => False, fun _ => False, fun _ => none, False, False, none⟩

structure Remaining (library : WireLibrary Schema) (progress : Progress)
    (events : List WireEvent) : Prop where
  wireIndexes :
    Fresh progress.usedWireIndex ((toolUses library events).map ToolUse.wireIndex)
  ids : Fresh progress.usedId ((toolUses library events).map ToolUse.id)
  pending : ∀ index arguments, progress.pending index = some arguments →
    arguments ++ laterInput index events ≠ ""
  inputs : ∀ use ∈ toolUses library events, use.input ≠ ""
  content : progress.hasContent ∨ ∃ event ∈ events, startsKnownBlock event = true
  stop : progress.hasTools ∨ toolUses library events ≠ [] →
    progress.stopped = some .toolCalls ∨
      progress.stopped = none ∧ reportedStopReason events = some "tool_use"

variable {library : WireLibrary Schema} {progress : Progress} {rest : List WireEvent}

theorem remaining_initial_iff {events : List WireEvent} :
    Remaining library initial events ↔ Collectable library events := by
  constructor
  · intro remaining
    refine ⟨remaining.wireIndexes.1, remaining.ids.1, remaining.inputs, ?_, ?_⟩
    · simpa [initial] using remaining.content
    · simpa [initial] using remaining.stop
  · intro collectable
    refine ⟨⟨collectable.wireIndexes, fun _ _ => id⟩, ⟨collectable.ids, fun _ _ => id⟩,
      (fun _ _ found => by cases found), collectable.inputs, .inr collectable.content, ?_⟩
    rintro (tools | tools)
    · exact tools.elim
    · exact .inr ⟨rfl, collectable.stop tools⟩

/-! ### Opening a block -/

theorem remaining_plainStart {wire : ContentBlockStartEventWire}
    (plain : toolUse? library (.contentBlockStart wire) rest = none)
    (known : startsKnownBlock (.contentBlockStart wire) = true) :
    Remaining library progress (.contentBlockStart wire :: rest) ↔
      Remaining library { progress with hasContent := True } rest := by
  have sameUses : toolUses library (.contentBlockStart wire :: rest) =
      toolUses library rest := by simp [toolUses, plain]
  constructor
  · rintro ⟨wireIndexes, ids, pending, inputs, _, stop⟩
    rw [sameUses] at wireIndexes ids inputs stop
    exact ⟨wireIndexes, ids, pending, inputs, .inl trivial, stop⟩
  · rintro ⟨wireIndexes, ids, pending, inputs, _, stop⟩
    refine ⟨?_, ?_, pending, ?_, .inr ⟨_, List.mem_cons_self, known⟩, ?_⟩
    all_goals rw [sameUses]
    · exact wireIndexes
    · exact ids
    · exact inputs
    · exact stop

def openTool (progress : Progress) (index : UInt32) (id input : String) : Progress :=
  { progress with
    usedWireIndex := fun other => progress.usedWireIndex other ∨ other = index
    usedId := fun other => progress.usedId other ∨ other = id
    pending := update progress.pending index (some input)
    hasContent := True
    hasTools := True }

theorem remaining_toolStart {kind : String} {index : UInt32} {id name : String} {input : Json}
    (vacant : progress.pending index = none) : Remaining library progress
        (.contentBlockStart ⟨kind, index, .toolUse id name input⟩ :: rest) ↔
      (¬ progress.usedWireIndex index ∧ ¬ progress.usedId id) ∧
        Remaining library
          (progress.openTool index id (initialInput library input))
          rest := by
  have uses : toolUses library
      (.contentBlockStart ⟨kind, index, .toolUse id name input⟩ :: rest) =
        ⟨index, id, initialInput library input ++
          laterInput index rest⟩ :: toolUses library rest := rfl
  constructor
  · rintro ⟨wireIndexes, ids, pending, inputs, _, stop⟩
    rw [uses, List.map_cons, fresh_cons] at wireIndexes ids
    rw [uses] at inputs stop
    refine ⟨⟨wireIndexes.1, ids.1⟩, wireIndexes.2, ids.2, ?_,
      fun use member => inputs use (List.mem_cons_of_mem _ member), .inl trivial, ?_⟩
    · intro other arguments found
      by_cases same : other = index
      · subst other
        simp only [openTool, update_self, Option.some.injEq] at found
        subst arguments
        exact inputs _ List.mem_cons_self
      · simp only [openTool, update_of_ne same] at found
        exact pending other arguments found
    · exact fun _ => stop (.inr (List.cons_ne_nil _ _))
  · rintro ⟨⟨newIndex, newId⟩, wireIndexes, ids, pending, inputs, _, stop⟩
    refine ⟨?_, ?_, ?_, ?_, .inr ⟨_, List.mem_cons_self, rfl⟩, fun _ => stop (.inl trivial)⟩
    · rw [uses, List.map_cons, fresh_cons]
      exact ⟨newIndex, wireIndexes⟩
    · rw [uses, List.map_cons, fresh_cons]
      exact ⟨newId, ids⟩
    · intro other arguments found
      have different : other ≠ index := by
        rintro rfl
        cases vacant.symm.trans found
      exact pending other arguments (by simpa [openTool, different] using found)
    · rw [uses]
      intro use member
      rcases List.mem_cons.mp member with rfl | member
      · exact pending index _ (by simp [openTool])
      · exact inputs use member

/-! ### Events that open no block -/

/-- An event that opens no known block, reports no stop reason, and leaves the
input still to come of every pending block as it was. -/
theorem remaining_neutral {event : WireEvent}
    (opensNothing : startsKnownBlock event = false) (noReason : ownStopReason? event = none)
    (sameInput : ∀ index, progress.pending index ≠ none →
      laterInput index (event :: rest) = laterInput index rest) :
    Remaining library progress (event :: rest) ↔ Remaining library progress rest := by
  have noUse : toolUse? library event rest = none := by
    unfold toolUse?
    split
    · simp [startsKnownBlock] at opensNothing
    · rfl
  have sameUses : toolUses library (event :: rest) = toolUses library rest := by
    simp [toolUses, noUse]
  have sameReason : reportedStopReason (event :: rest) = reportedStopReason rest := by
    simp [reportedStopReason, noReason]
  have sameContent : (∃ opening ∈ event :: rest, startsKnownBlock opening = true) ↔
      ∃ opening ∈ rest, startsKnownBlock opening = true := by
    simp [opensNothing]
  have samePending : (∀ index arguments, progress.pending index = some arguments →
        arguments ++ laterInput index (event :: rest) ≠ "") ↔
      ∀ index arguments, progress.pending index = some arguments →
        arguments ++ laterInput index rest ≠ "" := by
    refine forall_congr' fun index => forall_congr' fun arguments => imp_congr_right fun found => ?_
    rw [sameInput index (by simp [found])]
  constructor
  · rintro ⟨wireIndexes, ids, pending, inputs, content, stop⟩
    rw [sameUses] at wireIndexes ids inputs stop
    rw [sameReason] at stop
    exact ⟨wireIndexes, ids, samePending.mp pending, inputs, content.imp_right sameContent.mp, stop⟩
  · rintro ⟨wireIndexes, ids, pending, inputs, content, stop⟩
    refine ⟨?_, ?_, samePending.mpr pending, ?_, content.imp_right sameContent.mpr, ?_⟩
    all_goals rw [sameUses]
    · exact wireIndexes
    · exact ids
    · exact inputs
    · rw [sameReason]
      exact stop

def setPending (progress : Progress) (index : UInt32) (text : Option String) : Progress :=
  { progress with pending := update progress.pending index text }

theorem remaining_input {wire : ContentBlockDeltaEventWire} {arguments : String}
    (found : progress.pending wire.index = some arguments) :
    Remaining library progress (.contentBlockDelta wire :: rest) ↔
      Remaining library
        (progress.setPending wire.index (some (arguments ++ inputText wire.delta)))
        rest := by
  have samePending : (∀ index text, progress.pending index = some text →
        text ++ laterInput index (.contentBlockDelta wire :: rest) ≠ "") ↔
      ∀ index text, update progress.pending wire.index
          (some (arguments ++ inputText wire.delta)) index = some text →
        text ++ laterInput index rest ≠ "" := by
    refine forall_congr' fun index => ?_
    by_cases same : index = wire.index
    · subst index
      simp [found, laterInput]
    · simp [laterInput, same, Ne.symm same]
  constructor
  · rintro ⟨wireIndexes, ids, pending, inputs, content, stop⟩
    exact ⟨wireIndexes, ids, samePending.mp pending, inputs,
      content.imp_right (by simp [startsKnownBlock]), stop⟩
  · rintro ⟨wireIndexes, ids, pending, inputs, content, stop⟩
    exact ⟨wireIndexes, ids, samePending.mpr pending, inputs,
      content.imp_right (by simp [startsKnownBlock]), stop⟩

theorem remaining_stop {wire : IndexedEventWire} :
    Remaining library progress (.contentBlockStop wire :: rest) ↔
      progress.pending wire.index ≠ some "" ∧
        Remaining library (progress.setPending wire.index none) rest := by
  have samePending : (∀ index text, progress.pending index = some text →
        text ++ laterInput index (.contentBlockStop wire :: rest) ≠ "") ↔
      progress.pending wire.index ≠ some "" ∧
        ∀ index text, update progress.pending wire.index none index = some text →
          text ++ laterInput index rest ≠ "" := by
    constructor
    · intro pending
      refine ⟨fun empty => pending wire.index "" empty (by simp [laterInput]), ?_⟩
      intro index text found
      by_cases same : index = wire.index
      · simp [same] at found
      · rw [update_of_ne same] at found
        simpa [laterInput, Ne.symm same] using pending index text found
    · rintro ⟨notEmpty, pending⟩ index text found
      by_cases same : index = wire.index
      · subst index
        simp only [laterInput, if_true, String.append_empty]
        rintro rfl
        exact notEmpty found
      · simpa [laterInput, Ne.symm same] using
          pending index text (by rwa [update_of_ne same])
  constructor
  · rintro ⟨wireIndexes, ids, pending, inputs, content, stop⟩
    rcases samePending.mp pending with ⟨notEmpty, pending⟩
    exact ⟨notEmpty, wireIndexes, ids, pending, inputs,
      content.imp_right (by simp [startsKnownBlock]), stop⟩
  · rintro ⟨notEmpty, wireIndexes, ids, pending, inputs, content, stop⟩
    exact ⟨wireIndexes, ids, samePending.mpr ⟨notEmpty, pending⟩, inputs,
      content.imp_right (by simp [startsKnownBlock]), stop⟩

theorem stopReason_eq_toolCalls {raw : String} :
    stopReason raw = .ok .toolCalls ↔ raw = "tool_use" := by
  constructor
  · intro reported
    unfold stopReason at reported
    split at reported
    all_goals first | rfl | simp at reported
  · rintro rfl
    rfl

/-- The stop reason, once reported, settles how the message ends. -/
theorem remaining_reason {wire : MessageDeltaEventWire} {raw : String} {reason : FinishReason}
    (notStopped : progress.stopped = none)
    (carries : wire.delta.stopReason = some raw) (recognised : stopReason raw = .ok reason) :
    Remaining library progress (.messageDelta wire :: rest) ↔
      Remaining library { progress with stopped := some reason } rest := by
  have sameStop : (progress.stopped = some .toolCalls ∨
        progress.stopped = none ∧
          reportedStopReason (.messageDelta wire :: rest) = some "tool_use") ↔
      (some reason = some FinishReason.toolCalls ∨
        some reason = none ∧ reportedStopReason rest = some "tool_use") := by
    simp only [notStopped, reportedStopReason, List.findSome?_cons, ownStopReason?, carries,
      Option.some.injEq, reduceCtorEq, false_or, true_and, false_and, or_false]
    rw [← stopReason_eq_toolCalls, recognised, Except.ok.injEq]
  constructor
  · rintro ⟨wireIndexes, ids, pending, inputs, content, stop⟩
    exact ⟨wireIndexes, ids, pending, inputs,
      content.imp_right (by simp [startsKnownBlock]), fun tools => sameStop.mp (stop tools)⟩
  · rintro ⟨wireIndexes, ids, pending, inputs, content, stop⟩
    exact ⟨wireIndexes, ids, pending, inputs,
      content.imp_right (by simp [startsKnownBlock]), fun tools => sameStop.mpr (stop tools)⟩

end Progress

end Philo.AnthropicMessages
