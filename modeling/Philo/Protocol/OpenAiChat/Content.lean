import Philo.Protocol.OpenAiChat.Follows

/-! Text and refusal: opening, extending and closing a content block. -/

namespace Philo.OpenAiChat

open Result Std Collector

variable {Schema : Type} {announced : Announced} {machine next : ChatStateMachine Schema}
  {collector : Collector} {slot : Slot} {index : ContentIndex} {block block' : OpenBlock}
  {event : AssistantEvent}

/-! ## One block, whichever slot it has -/

theorem carried_opened (slot : Slot) (follows : Follows announced machine collector)
    (vacant : openItems machine slot = none)
    (added : checkedAddU32 machine.nextContentIndex 1 = some next.nextContentIndex)
    (items : openItems next = Function.update (openItems machine) slot
      (some (.content machine.nextContentIndex)))
    (sameTools : next.tools = machine.tools)
    (sameFinish : next.finishReason = machine.finishReason)
    (represents : Represents announced slot (.content machine.nextContentIndex) block)
    (starts : collector.apply event =
      collector.startBlock machine.nextContentIndex block)
    (aside : machineAside next = machineAside machine) :
    Carried collector machine next [event] := by
  have nonZero := advanced_ne_zero added
  have opened : collector.apply event = .ok { collector with
      nextContentIndex := next.nextContentIndex
      openBlocks := collector.openBlocks.insert machine.nextContentIndex block } := by
    rw [starts]
    rw [← follows.next] at added ⊢
    exact follows.sound.startBlock added block
  have accepted := follows.acceptAll_one opened
  refine ⟨announced, _, accepted, ?_, aside, rfl⟩
  exact {
    sound := acceptAll_sound follows.sound accepted
    notDone := follows.notDone
    next := rfl
    linked := by
      rw [items, lookup_insert]
      exact follows.linked.insert vacant follows.next_vacant rfl represents
    tools := by
      rw [sameTools]
      exact follows.tools.congr rfl rfl
    content := fun _ => nonZero
    finished := by
      intro reason finished
      rw [sameFinish] at finished
      rw [sameTools]
      exact ⟨nonZero, (follows.finished reason finished).2⟩ }

theorem carried_extended (isDelta : event.extended? = some index)
    (follows : Follows announced machine collector)
    (held : openItems machine slot = some (.content index))
    (openAt : lookup collector.openBlocks index = some block)
    (extended : block.extend event = some block')
    (represents : Represents announced slot (.content index) block') :
    Carried collector machine machine [event] := by
  have accepted := follows.acceptAll_one
    ((apply_extended isDelta).mpr ⟨block, block', openAt, extended, rfl⟩)
  refine ⟨announced, _, accepted, ?_, rfl, rfl⟩
  exact {
    sound := acceptAll_sound follows.sound accepted
    notDone := follows.notDone
    next := follows.next
    linked := by
      have modified := follows.linked.modify held rfl rfl represents
      rw [Function.update_eq_self_iff.mpr held.symm] at modified
      simpa only [setOpen, lookup_insert] using modified
    tools := follows.tools.congr rfl rfl
    content := follows.content
    finished := follows.finished }

variable (follows : Follows announced machine collector)

include follows

theorem carried_closed {part : ContentPart}
    (held : openItems machine slot = some (.content index))
    (items : openItems next = Function.update (openItems machine) slot none)
    (sameTools : next.tools = machine.tools)
    (sameFinish : next.finishReason = machine.finishReason)
    (sameNext : next.nextContentIndex = machine.nextContentIndex)
    (nonZero : machine.nextContentIndex ≠ 0)
    (closes : collector.apply event = .ok (collector.close index part))
    (aside : machineAside next = machineAside machine) :
    Carried collector machine next [event] := by
  have accepted := follows.acceptAll_one closes
  refine ⟨announced, _, accepted, ?_, aside, rfl⟩
  exact {
    sound := acceptAll_sound follows.sound accepted
    notDone := follows.notDone
    next := follows.next.trans sameNext.symm
    linked := by
      rw [items]
      simp only [close, lookup_erase]
      exact follows.linked.erase held rfl
    tools := by
      rw [sameTools]
      exact follows.tools.congr rfl rfl
    content := fun _ => sameNext ▸ nonZero
    finished := by
      rw [sameFinish, sameTools, sameNext]
      exact follows.finished }

/-! ## Text and refusal -/

theorem carried_openText {advanced : UInt32} (notStarted : machine.text = .notStarted)
    (added : checkedAddU32 machine.nextContentIndex 1 = some advanced) :
    Carried collector machine { machine with
      nextContentIndex := advanced
      text := .opened machine.nextContentIndex } [.textStart machine.nextContentIndex] :=
  carried_opened .text follows
    (by simp [openItems, itemsOf, notStarted, ContentBlockState.item?]) added
    (itemsOf_text _ _ _ _) rfl rfl ⟨"", rfl⟩ (apply_textStart _) rfl

theorem carried_text {content : String} {terminal : StructuredTerminal Schema}
    (isOpen : machine.text = .opened index) :
    Carried collector machine { machine with terminal } [.textDelta index content] := by
  have held : openItems machine .text = some (.content index) := by
    simp [openItems, itemsOf, isOpen, ContentBlockState.item?]
  rcases follows.linked.represented _ _ index held rfl with ⟨_, openAt, text, rfl⟩
  rcases @carried_extended _ _ _ _ _ _ _ _ (.textDelta index content) rfl follows held openAt rfl
    ⟨_, rfl⟩ with ⟨announced', final, accepted, stillFollows, aside, finalAside⟩
  exact ⟨announced', final, accepted, stillFollows.congr rfl rfl rfl rfl rfl, aside, finalAside⟩

theorem carried_closeText (isOpen : machine.text = .opened index) :
    Carried collector machine { machine with text := .closed } [.textEnd index] := by
  have held : openItems machine .text = some (.content index) := by
    simp [openItems, itemsOf, isOpen, ContentBlockState.item?]
  rcases follows.linked.represented _ _ index held rfl with ⟨_, openAt, text, rfl⟩
  exact carried_closed follows held (itemsOf_text _ _ _ .closed) rfl rfl rfl
    (follows.content (.inl (by simp [isOpen])))
    (apply_end follows.sound rfl openAt rfl) rfl

theorem carried_openRefusal {advanced : UInt32} (notStarted : machine.refusal = .notStarted)
    (added : checkedAddU32 machine.nextContentIndex 1 = some advanced) :
    Carried collector machine { machine with
      nextContentIndex := advanced
      refusal := .opened machine.nextContentIndex } [.refusalStart machine.nextContentIndex] :=
  carried_opened .refusal follows
    (by simp [openItems, itemsOf, notStarted, ContentBlockState.item?]) added
    (itemsOf_refusal _ _ _ _) rfl rfl ⟨"", rfl⟩ (apply_refusalStart _) rfl

theorem carried_refusal (isOpen : machine.refusal = .opened index) (content : String) :
    Carried collector machine machine [.refusalDelta index content] := by
  have held : openItems machine .refusal = some (.content index) := by
    simp [openItems, itemsOf, isOpen, ContentBlockState.item?]
  rcases follows.linked.represented _ _ index held rfl with ⟨_, openAt, text, rfl⟩
  exact carried_extended rfl follows held openAt rfl ⟨_, rfl⟩

theorem carried_closeRefusal (isOpen : machine.refusal = .opened index) :
    Carried collector machine { machine with refusal := .closed } [.refusalEnd index] := by
  have held : openItems machine .refusal = some (.content index) := by
    simp [openItems, itemsOf, isOpen, ContentBlockState.item?]
  rcases follows.linked.represented _ _ index held rfl with ⟨_, openAt, text, rfl⟩
  exact carried_closed follows held (itemsOf_refusal _ _ _ .closed) rfl rfl rfl
    (follows.content (.inr (.inl (by simp [isOpen]))))
    (apply_end follows.sound rfl openAt rfl) rfl

end Philo.OpenAiChat
