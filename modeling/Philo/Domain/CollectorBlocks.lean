import Philo.Domain.Collector
import Philo.Domain.EventGrammarFits

/-! The blocks that a collector holds, read off the events that it accepted, and how one
more event changes both. -/

namespace Philo

open Result Std KeyedText Function

namespace AssistantEvent

def concerns? : AssistantEvent → Option ContentIndex
  | textDelta index _ | thinkingDelta index _ | thinkingOpaque index _ | refusalDelta index _
  | toolCallDelta index _ _ _ | toolCallEnd index _ => some index
  | _ => none

theorem concerns_of_fragment {event : AssistantEvent} {kind : Fragment} {index : ContentIndex}
    {delta : String} (carried : event.fragment? kind = some (index, delta)) :
    event.concerns? = some index := by
  cases event <;> cases kind <;> cases carried <;> rfl

end AssistantEvent

def blockOf (events : List AssistantEvent) (index : ContentIndex) : BlockStart → OpenBlock
  | .text => .text (textOf events .text index)
  | .thinking => .thinking (textOf events .thinking index) (opaqueOf? events index)
  | .refusal => .refusal (textOf events .refusal index)
  | .toolCall wireIndex id =>
    .toolCall wireIndex id (textOf events .toolName index)
      (textOf events .toolArguments index)

section Snoc

variable {seen : List AssistantEvent} {event : AssistantEvent} {index : ContentIndex}

section Unconcerned

variable (unconcerned : event.concerns? ≠ some index)

include unconcerned

theorem textOf_snoc_unconcerned (kind : Fragment) :
    textOf (seen ++ [event]) kind index = textOf seen kind index :=
  textOf_snoc_other kind fun _ carried => unconcerned (AssistantEvent.concerns_of_fragment carried)

theorem opaqueOf_snoc_unconcerned : opaqueOf? (seen ++ [event]) index = opaqueOf? seen index := by
  rw [opaqueOf?, List.findSome?_append]
  cases event with
  | thinkingOpaque at' opaqueState =>
    have different : at' ≠ index := fun same => unconcerned (congrArg some same)
    simp [different, opaqueOf?]
  | _ => exact Option.or_none

theorem callOf_snoc_unconcerned : callOf? (seen ++ [event]) index = callOf? seen index := by
  rw [callOf?, List.findSome?_append]
  cases event with
  | toolCallEnd at' call =>
    have different : at' ≠ index := fun same => unconcerned (congrArg some same)
    simp [different, callOf?]
  | _ => exact Option.or_none

theorem blockOf_snoc_unconcerned (start : BlockStart) :
    blockOf (seen ++ [event]) index start = blockOf seen index start := by
  cases start <;>
    simp only [blockOf, textOf_snoc_unconcerned unconcerned, opaqueOf_snoc_unconcerned unconcerned]

theorem partOf_snoc_unconcerned (start : BlockStart) :
    partOf? (seen ++ [event]) index start = partOf? seen index start := by
  cases start <;>
    simp only [partOf?, textOf_snoc_unconcerned unconcerned,
      opaqueOf_snoc_unconcerned unconcerned, callOf_snoc_unconcerned unconcerned]

end Unconcerned

theorem blockOf_unconcerned (unconcerned : ∀ event ∈ seen, event.concerns? ≠ some index)
    (start : BlockStart) : blockOf seen index start = blockOf [] index start := by
  induction seen using List.reverseRecOn with
  | nil => rfl
  | append_singleton earlier event induction =>
    rw [blockOf_snoc_unconcerned (unconcerned event (by simp))]
    exact induction fun other member => unconcerned other (List.mem_append_left _ member)

theorem callOf_eq_none (notEnded : index ∉ endsOf seen) : callOf? seen index = none := by
  refine List.findSome?_eq_none_iff.mpr fun event member => ?_
  cases event with
  | toolCallEnd at' call =>
    have different : at' ≠ index := by
      rintro rfl
      exact notEnded (List.mem_filterMap.mpr ⟨_, member, rfl⟩)
    simp [different]
  | _ => rfl

theorem started_of_addressing (everywhere : Everywhere Fits seen) (member : event ∈ seen)
    (addressing : ∃ accepts, event.addresses? = some (index, accepts)) :
    ∃ start, (index, start) ∈ startsOf seen := by
  rcases addressing with ⟨accepts, addressed⟩
  rcases started_of_addresses everywhere member addressed with ⟨start, started, _⟩
  exact ⟨start, started⟩

theorem started_of_ended (everywhere : Everywhere Fits seen) (ended : index ∈ endsOf seen) :
    ∃ start, (index, start) ∈ startsOf seen := by
  rcases List.mem_filterMap.mp ended with ⟨event, member, ends⟩
  refine started_of_addressing everywhere member ?_
  cases event <;> cases ends <;> exact ⟨_, rfl⟩

end Snoc

/-! ## Blocks -/

structure DescribesBlocks (seen : List AssistantEvent) (collector : Collector) : Prop where
  next : collector.nextContentIndex.toNat = (startsOf seen).length
  opened : ∀ index block, lookup collector.openBlocks index = some block ↔
    ∃ start, IsOpen seen index start ∧ blockOf seen index start = block
  closed : ∀ index part, lookup collector.content index = some part ↔
    ∃ start, (index, start) ∈ startsOf seen ∧ index ∈ endsOf seen ∧
      partOf? seen index start = some part

namespace DescribesBlocks

variable {seen : List AssistantEvent} {event : AssistantEvent} {collector next : Collector}
  {index : ContentIndex} {start : BlockStart}

theorem aside (describes : DescribesBlocks seen collector)
    (noStart : event.starts? = none) (noEnd : event.ends? = none)
    (unconcerned : event.concerns? = none)
    (sameNext : next.nextContentIndex = collector.nextContentIndex)
    (sameOpen : next.openBlocks = collector.openBlocks)
    (sameContent : next.content = collector.content) :
    DescribesBlocks (seen ++ [event]) next := by
  have nowhere : ∀ index, event.concerns? ≠ some index := by simp [unconcerned]
  refine ⟨by rw [sameNext, startsOf_snoc_none noStart, describes.next], ?_, ?_⟩
  · intro index block
    simp only [sameOpen, describes.opened, IsOpen, startsOf_snoc_none noStart,
      endsOf_snoc_none noEnd, blockOf_snoc_unconcerned (nowhere index)]
  · intro index part
    simp only [sameContent, describes.closed, startsOf_snoc_none noStart,
      endsOf_snoc_none noEnd, partOf_snoc_unconcerned (nowhere index)]

theorem start_block (describes : DescribesBlocks seen collector)
    (everywhere : Everywhere Fits seen)
    (started : event.starts? = some (index, start)) (noEnd : event.ends? = none)
    (unconcerned : event.concerns? = none) (fresh : index.toNat = (startsOf seen).length)
    (advanced : next.nextContentIndex.toNat = collector.nextContentIndex.toNat + 1)
    (opens : next.openBlocks = collector.openBlocks.insert index (blockOf [] index start))
    (sameContent : next.content = collector.content) :
    DescribesBlocks (seen ++ [event]) next := by
  have starts : startsOf (seen ++ [event]) = startsOf seen ++ [(index, start)] := by
    rw [startsOf_snoc, started]
    rfl
  have nowhere : ∀ other, event.concerns? ≠ some other := by simp [unconcerned]
  have notStarted : ∀ other, (index, other) ∉ startsOf seen := by
    intro other already
    exact absurd (index_lt_of_numbered (numbered_of_fits everywhere) already) (by omega)
  have notEnded : index ∉ endsOf seen := by
    intro already
    rcases started_of_ended everywhere already with ⟨other, isStarted⟩
    exact notStarted other isStarted
  have blank : blockOf seen index start = blockOf [] index start := by
    refine blockOf_unconcerned (fun earlier member concerns => ?_) start
    have addressing : ∃ accepts, earlier.addresses? = some (index, accepts) := by
      cases earlier <;> cases concerns <;> exact ⟨_, rfl⟩
    rcases started_of_addressing everywhere member addressing with ⟨other, isStarted⟩
    exact notStarted other isStarted
  refine ⟨?_, ?_, ?_⟩
  · rw [advanced, describes.next, starts, List.length_append, List.length_singleton]
  · intro other block
    rw [opens, lookup_insert]
    simp only [IsOpen, starts, endsOf_snoc_none noEnd, List.mem_append, List.mem_singleton,
      Prod.mk.injEq, blockOf_snoc_unconcerned (nowhere other)]
    by_cases same : other = index
    · subst other
      simp [notStarted, notEnded, blank]
    · simp [describes.opened, IsOpen, same]
  · intro other part
    simp only [sameContent, describes.closed, starts, endsOf_snoc_none noEnd, List.mem_append,
      List.mem_singleton, Prod.mk.injEq, partOf_snoc_unconcerned (nowhere other)]
    refine exists_congr fun otherStart => and_congr_left fun isEnded => ?_
    refine (or_iff_left ?_).symm
    rintro ⟨rfl, rfl⟩
    exact notEnded isEnded.1

theorem extend_block (describes : DescribesBlocks seen collector)
    (everywhere : Everywhere Fits seen)
    (noStart : event.starts? = none) (noEnd : event.ends? = none)
    (concerns : event.concerns? = some index) (isOpen : IsOpen seen index start)
    (sameNext : next.nextContentIndex = collector.nextContentIndex) (extended : next.openBlocks =
      collector.openBlocks.insert index (blockOf (seen ++ [event]) index start))
    (sameContent : next.content = collector.content) :
    DescribesBlocks (seen ++ [event]) next := by
  have elsewhere : ∀ other, other ≠ index → event.concerns? ≠ some other := by
    intro other different same
    exact different (Option.some.inj (same.symm.trans concerns))
  refine ⟨by rw [sameNext, startsOf_snoc_none noStart, describes.next], ?_, ?_⟩
  · intro other block
    rw [extended, lookup_insert]
    simp only [IsOpen, startsOf_snoc_none noStart, endsOf_snoc_none noEnd]
    by_cases same : other = index
    · subst other
      rw [update_self, Option.some.injEq]
      constructor
      · intro isBlock
        exact ⟨start, isOpen, isBlock⟩
      · rintro ⟨other, ⟨isStarted, _⟩, isBlock⟩
        rwa [start_unique_of_numbered (numbered_of_fits everywhere) isStarted isOpen.1] at isBlock
    · simp only [update_of_ne same, describes.opened, IsOpen,
        blockOf_snoc_unconcerned (elsewhere other same)]
  · intro other part
    simp only [sameContent, describes.closed, startsOf_snoc_none noStart, endsOf_snoc_none noEnd]
    refine exists_congr fun otherStart => and_congr_right fun _ => and_congr_right fun isEnded => ?_
    have different : other ≠ index := by
      rintro rfl
      exact isOpen.2 isEnded
    rw [partOf_snoc_unconcerned (elsewhere other different)]

theorem end_block {part : ContentPart} (describes : DescribesBlocks seen collector)
    (everywhere : Everywhere Fits seen)
    (noStart : event.starts? = none) (ends : event.ends? = some index)
    (elsewhere : ∀ other, other ≠ index → event.concerns? ≠ some other)
    (isOpen : IsOpen seen index start)
    (isPart : partOf? (seen ++ [event]) index start = some part)
    (sameNext : next.nextContentIndex = collector.nextContentIndex)
    (closes : next.openBlocks = collector.openBlocks.erase index)
    (keeps : next.content = collector.content.insert index part) :
    DescribesBlocks (seen ++ [event]) next := by
  have mem_ends : ∀ other, other ∈ endsOf (seen ++ [event]) ↔
      other ∈ endsOf seen ∨ other = index := by
    intro other
    rw [endsOf_snoc, ends, Option.toList_some, List.mem_append, List.mem_singleton]
  refine ⟨by rw [sameNext, startsOf_snoc_none noStart, describes.next], ?_, ?_⟩
  · intro other block
    rw [closes, lookup_erase]
    by_cases same : other = index
    · simp [same, IsOpen, mem_ends]
    · simp only [update_of_ne same, describes.opened, IsOpen,
        startsOf_snoc_none noStart, mem_ends, same, or_false,
        blockOf_snoc_unconcerned (elsewhere other same)]
  · intro other found
    rw [keeps, lookup_insert, startsOf_snoc_none noStart]
    by_cases same : other = index
    · subst other
      simp only [update_self, Option.some.injEq, mem_ends, or_true, true_and]
      constructor
      · rintro rfl
        exact ⟨start, isOpen.1, isPart⟩
      · rintro ⟨otherStart, isStarted, otherPart⟩
        rw [start_unique_of_numbered (numbered_of_fits everywhere) isStarted isOpen.1] at otherPart
        exact Option.some.inj (isPart.symm.trans otherPart)
    · simp only [update_of_ne same, describes.closed, mem_ends, same, or_false,
        partOf_snoc_unconcerned (elsewhere other same)]

end DescribesBlocks

end Philo
