import Philo.Protocol.AnthropicMessages.Spoken

/-! Whole runs of the machine: the text that it validates is the text that it emitted,
and the events stay in block order as long as no two text blocks overlap. -/

namespace Philo.AnthropicMessages

open Result KeyedText MessagesStateMachine

variable {Schema : Type} {library : WireLibrary Schema}
  {machine next final : MessagesStateMachine Schema} {inputs : List SseEvent}
  {events emitted : List AssistantEvent}

theorem run_spoken (accepted : (producer library).run machine inputs =
      .ok (final, emitted)) : Spoken machine final emitted :=
  Producer.run_history _ (fun _ _ => True) (Spoken machine)
    (fun _ spoken step => spoken.trans (accept_spoken step)) (fun _ _ _ => trivial)
    (.refl machine) accepted

/-! ## Validation -/

def Verified (library : WireLibrary Schema) (machine : MessagesStateMachine Schema) : Prop :=
  machine.terminal.validated = true →
    machine.phase = .terminal ∧ ∃ reason, machine.finishReason = some reason ∧
      Succeeds (validateStructuredResponse library.toJsonLibrary
        machine.terminal.responseFormat reason (machine.terminal.textBuffer.getD "")
        (decide (0 < machine.toolCalls)) false machine.terminal.schemaLimits)

theorem accept_verified {event : SseEvent} (verified : Verified library machine)
    (accepted : accept library machine event = .ok (next, events)) : Verified library next := by
  rcases step_of_accept accepted with ⟨notTerminal, _, _, step⟩
  rcases step.account with utters | ⟨_, ⟨reason, isReason, valid⟩, ⟨_, rfl⟩, _⟩
  · intro validated
    exact absurd (verified (utters.validated.symm.trans validated)).1 notTerminal
  · exact fun _ => ⟨rfl, reason, isReason, valid⟩

theorem run_verified (verified : Verified library machine)
    (accepted : (producer library).run machine inputs =
      .ok (final, emitted)) : Verified library final :=
  Producer.run_invariant _ (Verified library)
    (fun _ _ _ _ holds step => accept_verified holds step) verified accepted

theorem Spoken.toolCalls_eq {context : StreamContext} {format : ResponseFormat Schema}
    {limits : ResponseLimits} {compat : UsageCompat}
    (spoken : Spoken (.new context format limits compat) final emitted) :
    decide (0 < final.toolCalls) = startsTool emitted := by
  rw [spoken.tools]
  exact Bool.false_or _

theorem finish_validated {context : StreamContext} {format : ResponseFormat Schema}
    {limits : ResponseLimits} {compat : UsageCompat} {last : List AssistantEvent}
    (accepted : (producer library).run
      (.new context format limits compat) inputs = .ok (final, emitted))
    (finished : final.finish = .ok last) :
    final.terminal.validated = true ∧ ∃ reason, last = [.done reason] ∧
      Succeeds (validateStructuredResponse library.toJsonLibrary format reason
        (final.terminal.textBuffer.getD "") (startsTool emitted) (startsRefusal emitted)
        .official) := by
  have spoken := run_spoken accepted
  have verified := run_verified (fun isTrue => absurd isTrue Bool.false_ne_true) accepted
  rcases finish_eq_ok.mp finished with ⟨_, validated, reason, isReason, rfl⟩
  rcases verified validated with ⟨_, reason', isReason', valid⟩
  cases isReason.symm.trans isReason'
  rw [spoken.terminal.responseFormat, spoken.terminal.schemaLimits, spoken.toolCalls_eq] at valid
  rw [spoken.noRefusal]
  exact ⟨validated, reason, rfl, valid⟩

/-! ## Order -/

/-- The text emitted so far is in block order, and more of it can only go to the one
text block that is open. -/
structure Ordered (machine : MessagesStateMachine Schema) (pieces : List (Nat × String)) :
    Prop where
  inOrder : InOrder pieces
  started : ∀ piece ∈ pieces, piece.1 < machine.nextContentIndex.toNat
  latest : ∀ wireIndex index, openTextAt machine wireIndex = some index →
    index.toNat < machine.nextContentIndex.toNat ∧ ∀ piece ∈ pieces, piece.1 ≤ index.toNat
  alone : ∀ wireIndex index other otherIndex, openTextAt machine wireIndex = some index →
    openTextAt machine other = some otherIndex → index = otherIndex

theorem Ordered.new (context : StreamContext) (format : ResponseFormat Schema)
    (limits : ResponseLimits) (compat : UsageCompat) :
    Ordered (MessagesStateMachine.new context format limits compat) [] := by
  have noText : ∀ wireIndex,
      openTextAt (MessagesStateMachine.new context format limits compat) wireIndex = none := by
    intro wireIndex
    simp [openTextAt, MessagesStateMachine.new, lookup_empty]
  exact ⟨.nil, by simp, by simp [noText], by simp [noText]⟩

theorem TextEffect.ordered {wire : WireEvent} {seen pieces : List (Nat × String)}
    (effect : TextEffect machine wire next pieces) (ordered : Ordered machine seen)
    (apart : wire.startsText = true → ∀ wireIndex, openTextAt machine wireIndex = none) :
    Ordered next (seen ++ pieces) := by
  cases effect with
  | kept blocks advanced silent =>
    rw [silent, List.append_nil]
    refine ⟨ordered.inOrder, fun piece member =>
      lt_of_lt_of_le (ordered.started piece member) advanced, ?_, ?_⟩
    · intro wireIndex index isOpen
      rcases ordered.latest wireIndex index (blocks _ _ isOpen) with ⟨placed, latest⟩
      exact ⟨lt_of_lt_of_le placed advanced, latest⟩
    · intro wireIndex index other otherIndex isOpen otherOpen
      exact ordered.alone _ _ _ _ (blocks _ _ isOpen) (blocks _ _ otherOpen)
  | opened starts blocks advanced within =>
    have here : ∀ wireIndex index, openTextAt next wireIndex = some index →
        index = machine.nextContentIndex := by
      intro wireIndex index isOpen
      rcases blocks wireIndex index isOpen with same | wasOpen
      · exact same
      · rw [apart starts] at wasOpen
        cases wasOpen
    have bounded : ∀ piece ∈ seen ++ pieces,
        piece.1 ≤ machine.nextContentIndex.toNat := by
      intro piece member
      rcases List.mem_append.mp member with earlier | new
      · exact le_of_lt (ordered.started piece earlier)
      · exact le_of_eq (within piece new)
    refine ⟨ordered.inOrder.append_at
      (fun piece member => le_of_lt (ordered.started piece member)) within, ?_, ?_, ?_⟩
    · intro piece member
      exact advanced ▸ Nat.lt_succ_of_le (bounded piece member)
    · intro wireIndex index isOpen
      rw [here wireIndex index isOpen]
      exact ⟨advanced ▸ Nat.lt_succ_self _, bounded⟩
    · intro wireIndex index other otherIndex isOpen otherOpen
      rw [here wireIndex index isOpen, here other otherIndex otherOpen]
  | grown wireIndex index found blocks sameNext within =>
    rcases ordered.latest wireIndex index found with ⟨placed, latest⟩
    have sameOpen : ∀ other, openTextAt next other = openTextAt machine other := by
      intro other
      rw [openTextAt, blocks]
      rfl
    refine ⟨ordered.inOrder.append_at latest within, ?_, ?_, ?_⟩
    · intro piece member
      rw [sameNext]
      rcases List.mem_append.mp member with earlier | new
      · exact ordered.started piece earlier
      · exact within piece new ▸ placed
    · intro other otherIndex isOpen
      rw [sameOpen] at isOpen
      rw [sameNext, ordered.alone _ _ _ _ isOpen found]
      refine ⟨placed, fun piece member => ?_⟩
      rcases List.mem_append.mp member with earlier | new
      · exact latest piece earlier
      · exact le_of_eq (within piece new)
    · intro other otherIndex another anotherIndex isOpen anotherOpen
      rw [sameOpen] at isOpen anotherOpen
      exact ordered.alone _ _ _ _ isOpen anotherOpen

def OverlapsText (library : WireLibrary Schema) (machine : MessagesStateMachine Schema)
    (event : SseEvent) : Prop :=
  ∃ wire wireIndex index, decodeEvent library event = .ok wire ∧ wire.startsText = true ∧
    openTextAt machine wireIndex = some index

theorem accept_ordered {event : SseEvent} {seen : List AssistantEvent}
    (apart : ¬ OverlapsText library machine event) (ordered : Ordered machine (textPieces seen))
    (accepted : accept library machine event = .ok (next, events)) :
    Ordered next (textPieces (seen ++ events)) := by
  rcases step_of_accept accepted with ⟨_, wire, decoded, step⟩
  have noneOpen : wire.startsText = true → ∀ wireIndex, openTextAt machine wireIndex = none := by
    intro starts wireIndex
    refine Option.eq_none_iff_forall_ne_some.mpr fun index isOpen => ?_
    exact apart ⟨wire, wireIndex, index, decoded, starts, isOpen⟩
  rw [textPieces_append]
  rcases step.account with utters | ⟨_, _, ⟨_, rfl⟩, rfl⟩
  · exact utters.effect.ordered ordered noneOpen
  · rw [show textPieces [] = [] from rfl, List.append_nil]
    exact ⟨ordered.inOrder, ordered.started, ordered.latest, ordered.alone⟩

theorem run_ordered (apart : ∀ later event, (producer library).Takes machine inputs later
      event → ¬ OverlapsText library later event)
    (ordered : Ordered machine []) (accepted : (producer library).run machine inputs =
      .ok (final, emitted)) : Ordered final (textPieces emitted) := by
  have none_yet : Ordered machine (textPieces []) := ordered
  exact Producer.run_history _ (fun later event => ¬ OverlapsText library later event)
    (fun state seen => Ordered state (textPieces seen)) accept_ordered apart none_yet accepted

end Philo.AnthropicMessages
