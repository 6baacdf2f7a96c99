import Philo.Protocol.AnthropicMessages.Spoken

/-! The input of each tool call: what the machine holds of it while the call is open, and
what it has emitted for it. -/

namespace Philo.AnthropicMessages

open Result Std KeyedText Function

variable {Schema : Type}

def argumentPieces (events : List AssistantEvent) : List (Nat × String) :=
  events.filterMap fun
    | .toolCallDelta index _ _ (some delta) => some (index.toNat, delta)
    | _ => none

theorem argumentPieces_append (first second : List AssistantEvent) :
    argumentPieces (first ++ second) = argumentPieces first ++ argumentPieces second :=
  List.filterMap_append

def argumentsAt (index : ContentIndex) (events : List AssistantEvent) : String :=
  joinedAt index.toNat (argumentPieces events)

def BlockState.input? : BlockState → Option (ContentIndex × String)
  | .toolUse index _ _ arguments => some (index, arguments)
  | .text _ | .thinking _ _ | .redacted _ _ | .unsupported => none

def callAt (machine : MessagesStateMachine Schema) (wireIndex : UInt32) :
    Option (ContentIndex × String) :=
  (lookup machine.blocks wireIndex).bind BlockState.input?

theorem callAt_insert {machine next : MessagesStateMachine Schema} {wireIndex : UInt32}
    {state : BlockState} {call : Option (ContentIndex × String)}
    (blocks : next.blocks = machine.blocks.insert wireIndex state)
    (isCall : state.input? = call) : callAt next = update (callAt machine) wireIndex call := by
  show (·.bind BlockState.input?) ∘ lookup next.blocks = _
  rw [blocks, lookup_insert, comp_update, ← isCall]
  rfl

theorem callAt_of_update {machine next : MessagesStateMachine Schema} {wireIndex : UInt32}
    (calls : callAt next = update (callAt machine) wireIndex none)
    {other : UInt32} {call : ContentIndex × String} (isOpen : callAt next other = some call) :
    callAt machine other = some call := by
  rw [calls] at isOpen
  by_cases same : other = wireIndex
  · subst other
    rw [update_self] at isOpen
    cases isOpen
  · rwa [update_of_ne same] at isOpen

theorem callAt_erase {machine next : MessagesStateMachine Schema} {wireIndex : UInt32}
    (blocks : next.blocks = machine.blocks.erase wireIndex) :
    callAt next = update (callAt machine) wireIndex none := by
  show (·.bind BlockState.input?) ∘ lookup next.blocks = _
  rw [blocks, lookup_erase, comp_update]
  rfl

/-- What a step does to the open calls, and what it emits for them: at most one of them
takes input, a new one or one that was open. -/
inductive InputEffect (machine next : MessagesStateMachine Schema)
    (pieces : List (Nat × String)) : Prop
  | kept
      (calls : ∀ wireIndex call, callAt next wireIndex = some call →
        callAt machine wireIndex = some call)
      (advanced : machine.nextContentIndex.toNat ≤ next.nextContentIndex.toNat)
      (silent : pieces = [])
  | taken (wireIndex : UInt32) (index : ContentIndex) (arguments added : String)
      (source : (arguments = "" ∧ index = machine.nextContentIndex ∧
          next.nextContentIndex.toNat = machine.nextContentIndex.toNat + 1) ∨
        (callAt machine wireIndex = some (index, arguments) ∧
          next.nextContentIndex = machine.nextContentIndex))
      (calls : callAt next =
        update (callAt machine) wireIndex (some (index, arguments ++ added)))
      (within : ∀ piece ∈ pieces, piece.1 = index.toNat)
      (total : joined pieces = added)
      (fits : Text.len (arguments ++ added) ≤ machine.limits.maxToolArgumentsBytes)

/-- The calls so far: the input of an open call is what was emitted for it, no two open
calls share an index, and no call has more than its limit. -/
structure CallsWithin (machine : MessagesStateMachine Schema)
    (seen : List AssistantEvent) : Prop where
  current : ∀ wireIndex index arguments, callAt machine wireIndex = some (index, arguments) →
    argumentsAt index seen = arguments ∧
      index.toNat < machine.nextContentIndex.toNat
  apart : ∀ wireIndex other index arguments arguments',
    callAt machine wireIndex = some (index, arguments) →
      callAt machine other = some (index, arguments') → wireIndex = other
  below : ∀ piece ∈ argumentPieces seen, piece.1 < machine.nextContentIndex.toNat
  within : ∀ index, Text.len (argumentsAt index seen) ≤ machine.limits.maxToolArgumentsBytes

theorem argumentsAt_append (index : ContentIndex) (first second : List AssistantEvent) :
    argumentsAt index (first ++ second) = argumentsAt index first ++ argumentsAt index second := by
  rw [argumentsAt, argumentPieces_append, joinedAt_append]
  rfl

theorem joinedAt_of_within {key : Nat} {pieces : List (Nat × String)}
    (within : ∀ piece ∈ pieces, piece.1 = key) : joinedAt key pieces = joined pieces := by
  rw [joinedAt, List.filter_eq_self.mpr fun piece member => by simpa using within piece member]

theorem CallsWithin.step {machine next : MessagesStateMachine Schema}
    {seen events : List AssistantEvent} (calls : CallsWithin machine seen)
    (limits : next.limits = machine.limits)
    (effect : InputEffect machine next (argumentPieces events)) :
    CallsWithin next (seen ++ events) := by
  cases effect with
  | kept remain advanced silent =>
    have same : ∀ index, argumentsAt index (seen ++ events) = argumentsAt index seen := by
      intro index
      rw [argumentsAt, argumentPieces_append, silent, List.append_nil]
      rfl
    refine ⟨?_, ?_, ?_, ?_⟩
    · intro wireIndex index arguments isOpen
      rw [same]
      exact (calls.current _ _ _ (remain _ _ isOpen)).imp_right (·.trans_le advanced)
    · intro wireIndex other index arguments arguments' first second
      exact calls.apart _ _ _ _ _ (remain _ _ first) (remain _ _ second)
    · intro piece member
      rw [argumentPieces_append, silent, List.append_nil] at member
      exact (calls.below piece member).trans_le advanced
    · intro index
      rw [same, limits]
      exact calls.within index
  | taken wireIndex index arguments added source stored within total fits =>
    have elsewhere : ∀ other, other ≠ index →
        argumentsAt other (seen ++ events) = argumentsAt other seen := by
      intro other different
      have silent : argumentsAt other events = "" := joinedAt_eq_empty fun piece member same =>
        different (UInt32.toNat_inj.mp (same.symm.trans (within piece member)))
      rw [argumentsAt_append, silent, String.append_empty]
    -- Before the step the index had emitted what the call held, if it was used at all.
    have before : argumentsAt index seen = arguments := by
      rcases source with ⟨rfl, rfl, _⟩ | ⟨found, _⟩
      · exact joinedAt_eq_empty fun piece member => (calls.below piece member).ne
      · exact (calls.current _ _ _ found).1
    have here : argumentsAt index (seen ++ events) = arguments ++ added := by
      rw [argumentsAt_append, before, ← total]
      exact congrArg _ (joinedAt_of_within within)
    have advanced : machine.nextContentIndex.toNat ≤ next.nextContentIndex.toNat := by
      rcases source with ⟨_, _, advanced⟩ | ⟨_, same⟩
      · exact advanced ▸ Nat.le_succ _
      · exact same ▸ le_rfl
    have inside : index.toNat < next.nextContentIndex.toNat := by
      rcases source with ⟨_, rfl, advanced⟩ | ⟨found, _⟩
      · exact advanced ▸ Nat.lt_succ_self _
      · exact (calls.current _ _ _ found).2.trans_le advanced
    -- A call that is open afterwards is this one, or it was open and has another index.
    have opened : ∀ other index' arguments', callAt next other = some (index', arguments') →
        (other = wireIndex ∧ index' = index ∧ arguments' = arguments ++ added) ∨
          index' ≠ index ∧ callAt machine other = some (index', arguments') := by
      intro other index' arguments' isOpen
      rw [stored] at isOpen
      by_cases same : other = wireIndex
      · rw [same, update_self] at isOpen
        cases isOpen
        exact .inl ⟨same, rfl, rfl⟩
      · rw [update_of_ne same] at isOpen
        refine .inr ⟨?_, isOpen⟩
        rintro rfl
        rcases source with ⟨_, rfl, _⟩ | ⟨found, _⟩
        · exact lt_irrefl _ (calls.current _ _ _ isOpen).2
        · exact same (calls.apart _ _ _ _ _ isOpen found)
    refine ⟨?_, ?_, ?_, ?_⟩
    · intro other index' arguments' isOpen
      rcases opened _ _ _ isOpen with ⟨_, rfl, rfl⟩ | ⟨different, wasOpen⟩
      · exact ⟨here, inside⟩
      · rw [elsewhere index' different]
        exact (calls.current _ _ _ wasOpen).imp_right (·.trans_le advanced)
    · intro first second index' arguments₁ arguments₂ isFirst isSecond
      rcases opened _ _ _ isFirst with ⟨rfl, rfl, _⟩ | ⟨notFirst, wasFirst⟩ <;>
        rcases opened _ _ _ isSecond with ⟨rfl, sameIndex, _⟩ | ⟨notSecond, wasSecond⟩
      · rfl
      · exact absurd rfl notSecond
      · exact absurd sameIndex notFirst
      · exact calls.apart _ _ _ _ _ wasFirst wasSecond
    · intro piece member
      rw [argumentPieces_append, List.mem_append] at member
      rcases member with earlier | later
      · exact (calls.below piece earlier).trans_le advanced
      · exact within piece later ▸ inside
    · intro other
      rw [limits]
      by_cases same : other = index
      · rw [same, here]
        exact fits
      · rw [elsewhere other same]
        exact calls.within other

end Philo.AnthropicMessages
