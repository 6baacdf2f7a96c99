import Mathlib.Algebra.BigOperators.Group.List.Basic
import Philo.Protocol.AnthropicMessages.CallInput

/-! What each step of the Anthropic machine adds to its counters: the bytes of the deltas
that it emits, the opaque bytes that it receives, and the calls that it starts. -/

namespace Philo.AnthropicMessages

open Result Std KeyedText MessagesStateMachine

variable {Schema : Type}

/-! ## Counters -/

@[ext] structure Counters where
  text : Nat
  thinking : Nat
  arguments : Nat
  calls : Nat
  opaqueBytes : Nat
  deriving DecidableEq

namespace Counters

instance : Zero Counters := ⟨⟨0, 0, 0, 0, 0⟩⟩

instance : Add Counters where
  add first second := ⟨first.text + second.text, first.thinking + second.thinking, first.arguments
    + second.arguments, first.calls + second.calls, first.opaqueBytes + second.opaqueBytes⟩

instance : AddCommMonoid Counters where
  add_assoc _ _ _ := Counters.ext (Nat.add_assoc ..) (Nat.add_assoc ..) (Nat.add_assoc ..)
    (Nat.add_assoc ..) (Nat.add_assoc ..)
  zero_add _ := Counters.ext (Nat.zero_add _) (Nat.zero_add _) (Nat.zero_add _)
    (Nat.zero_add _) (Nat.zero_add _)
  add_zero _ := Counters.ext (Nat.add_zero _) (Nat.add_zero _) (Nat.add_zero _)
    (Nat.add_zero _) (Nat.add_zero _)
  add_comm _ _ := Counters.ext (Nat.add_comm ..) (Nat.add_comm ..) (Nat.add_comm ..)
    (Nat.add_comm ..) (Nat.add_comm ..)
  nsmul := nsmulRec

def ofOpaque (bytes : Nat) : Counters := ⟨0, 0, 0, 0, bytes⟩

theorem add_def (first second : Counters) :
    first + second = ⟨first.text + second.text, first.thinking + second.thinking, first.arguments +
      second.arguments, first.calls + second.calls, first.opaqueBytes + second.opaqueBytes⟩ := rfl

theorem zero_def : (0 : Counters) = ⟨0, 0, 0, 0, 0⟩ := rfl

theorem ofOpaque_add (first second : Nat) :
    ofOpaque (first + second) = ofOpaque first + ofOpaque second := rfl

structure Within (limits : ResponseLimits) (counters : Counters) : Prop where
  text : counters.text ≤ limits.maxStructuredOutputBytes
  thinking : counters.thinking ≤ limits.maxStructuredOutputBytes
  arguments : counters.arguments ≤ limits.maxAllToolArgumentsBytes
  calls : counters.calls ≤ limits.maxToolCalls
  opaqueBytes : counters.opaqueBytes ≤ maxOpaqueThinkingBytes

theorem within_zero (limits : ResponseLimits) : Within limits 0 :=
  ⟨Nat.zero_le _, Nat.zero_le _, Nat.zero_le _, Nat.zero_le _, Nat.zero_le _⟩

end Counters

def MessagesStateMachine.counters (machine : MessagesStateMachine Schema) : Counters where
  text := machine.answerTextBytes
  thinking := machine.thinkingTextBytes
  arguments := machine.allToolArgumentBytes
  calls := machine.toolCalls
  opaqueBytes := machine.opaqueThinkingBytes

def costOf : AssistantEvent → Counters
  | .textDelta _ delta => ⟨Text.len delta, 0, 0, 0, 0⟩
  | .thinkingDelta _ delta => ⟨0, Text.len delta, 0, 0, 0⟩
  | .toolCallDelta _ _ _ (some delta) => ⟨0, 0, Text.len delta, 0, 0⟩
  | .toolCallStart .. => ⟨0, 0, 0, 1, 0⟩
  | _ => 0

def costs (events : List AssistantEvent) : Counters := (events.map costOf).sum

theorem costs_append (first second : List AssistantEvent) :
    costs (first ++ second) = costs first + costs second := by
  rw [costs, List.map_append, List.sum_append]
  rfl

theorem costs_cons (event : AssistantEvent) (rest : List AssistantEvent) :
    costs (event :: rest) = costOf event + costs rest := by
  rw [costs, List.map_cons, List.sum_cons]
  rfl

@[simp] theorem costs_nil : costs [] = 0 := rfl

def ThinksAt (machine : MessagesStateMachine Schema) (wireIndex : UInt32) : Prop :=
  ∃ index signature, lookup machine.blocks wireIndex = some (.thinking index signature)

def Tracks (thinking : List UInt32) (machine : MessagesStateMachine Schema) : Prop :=
  ∀ wireIndex, wireIndex ∈ thinking ↔ ThinksAt machine wireIndex

/-- The opaque bytes that an event brings: redacted data, or a piece of the signature of one
of the open thinking blocks. -/
def opaqueOf (thinking : List UInt32) : WireEvent → Nat
  | .contentBlockStart ⟨_, _, .redactedThinking data⟩ => Text.len data
  | .contentBlockDelta ⟨_, index, .signatureDelta signature⟩ =>
    if index ∈ thinking then Text.len signature else 0
  | _ => 0

def thinkingAfter (thinking : List UInt32) : WireEvent → List UInt32
  | .contentBlockStart ⟨_, index, .thinking _⟩ => index :: thinking
  | .contentBlockStop ⟨_, index⟩ => thinking.filter (· ≠ index)
  | _ => thinking

def opaqueBytesOf (thinking : List UInt32) : List WireEvent → Nat
  | [] => 0
  | event :: rest => opaqueOf thinking event + opaqueBytesOf (thinkingAfter thinking event) rest

/-! ## Steps -/

structure Pays (thinking : List UInt32) (machine : MessagesStateMachine Schema)
    (wire : WireEvent) (next : MessagesStateMachine Schema)
    (events : List AssistantEvent) : Prop where
  limits : next.limits = machine.limits
  counters : next.counters =
    machine.counters + costs events + .ofOpaque (opaqueOf thinking wire)
  within : machine.counters.Within machine.limits → next.counters.Within machine.limits
  tracks : Tracks (thinkingAfter thinking wire) next
  input : InputEffect machine next (argumentPieces events)

section Handlers

variable {library : WireLibrary Schema} {machine next : MessagesStateMachine Schema}
  {wire : WireEvent} {events : List AssistantEvent} {state : BlockState}
  {thinking : List UInt32} {wireIndex : UInt32}

theorem thinksAt_insert (blocks : next.blocks = machine.blocks.insert wireIndex state)
    (other : UInt32) : ThinksAt next other ↔
      if other = wireIndex then ∃ index signature, state = .thinking index signature
      else ThinksAt machine other := by
  unfold ThinksAt
  rw [blocks, lookup_insert]
  by_cases same : other = wireIndex
  · rw [if_pos same, same, Function.update_self]
    simp only [Option.some.injEq]
  · rw [if_neg same, Function.update_of_ne same]

theorem Tracks.of_blocks (tracks : Tracks thinking machine)
    (blocks : next.blocks = machine.blocks) : Tracks thinking next := by
  intro other
  rw [tracks other, ThinksAt, ThinksAt, blocks]

theorem Tracks.insert (tracks : Tracks thinking machine)
    (blocks : next.blocks = machine.blocks.insert wireIndex state)
    (same : ThinksAt machine wireIndex ↔ ∃ index signature, state = .thinking index signature) :
    Tracks thinking next := by
  intro other
  rw [tracks other, thinksAt_insert blocks]
  split
  · next isIndex => rw [isIndex, same]
  · rfl

theorem Tracks.insert_thinking {index : ContentIndex} {signature : String}
    (tracks : Tracks thinking machine)
    (blocks : next.blocks = machine.blocks.insert wireIndex (.thinking index signature)) :
    Tracks (wireIndex :: thinking) next := by
  intro other
  rw [thinksAt_insert blocks, List.mem_cons, tracks other]
  by_cases same : other = wireIndex <;> simp [same]

theorem Tracks.erase (tracks : Tracks thinking machine)
    (blocks : next.blocks = machine.blocks.erase wireIndex) :
    Tracks (thinking.filter (· ≠ wireIndex)) next := by
  intro other
  rw [List.mem_filter, tracks other, ThinksAt, ThinksAt, blocks, lookup_erase]
  by_cases same : other = wireIndex
  · subst other
    simp
  · rw [Function.update_of_ne same]
    simp [same]

theorem not_thinksAt_of_vacant (vacant : lookup machine.blocks wireIndex = none) :
    ¬ ThinksAt machine wireIndex := by
  rintro ⟨index, signature, found⟩
  cases vacant.symm.trans found

theorem Pays.of_blocks (tracks : Tracks thinking machine)
    (unmoved : thinkingAfter thinking wire = thinking) (limits : next.limits = machine.limits)
    (blocks : next.blocks = machine.blocks)
    (sameNext : next.nextContentIndex = machine.nextContentIndex)
    (silent : argumentPieces events = []) (counters : next.counters =
      machine.counters + costs events + .ofOpaque (opaqueOf thinking wire))
    (within : machine.counters.Within machine.limits → next.counters.Within machine.limits) :
    Pays thinking machine wire next events where
  limits := limits
  counters := counters
  within := within
  tracks := by
    rw [unmoved]
    exact tracks.of_blocks blocks
  input := .kept (fun wireIndex call isOpen => by rwa [callAt, blocks] at isOpen)
    (sameNext ▸ le_rfl) silent

theorem Pays.of_quiet (tracks : Tracks thinking machine)
    (unmoved : thinkingAfter thinking wire = thinking) (noOpaque : opaqueOf thinking wire = 0)
    (limits : next.limits = machine.limits) (blocks : next.blocks = machine.blocks)
    (sameNext : next.nextContentIndex = machine.nextContentIndex)
    (counters : next.counters = machine.counters) (quiet : costs events = 0)
    (silent : argumentPieces events = []) : Pays thinking machine wire next events := by
  refine .of_blocks tracks unmoved limits blocks sameNext silent ?_ fun within => counters ▸ within
  rw [counters, quiet, noOpaque]
  rfl

/-! ### Text and thinking -/

theorem textDeltas_pay (index : ContentIndex) (text : String) :
    costs (textDeltas index text) = ⟨Text.len text, 0, 0, 0, 0⟩ ∧
      argumentPieces (textDeltas index text) = [] := by
  unfold textDeltas
  by_cases empty : text = ""
  · subst text
    exact ⟨rfl, rfl⟩
  · simp [empty, costs, costOf, argumentPieces]

theorem thinkingDeltas_pay (index : ContentIndex) (text : String) :
    costs (thinkingDeltas index text) = ⟨0, Text.len text, 0, 0, 0⟩ ∧
      argumentPieces (thinkingDeltas index text) = [] := by
  unfold thinkingDeltas
  by_cases empty : text = ""
  · subst text
    exact ⟨rfl, rfl⟩
  · simp [empty, costs, costOf, argumentPieces]

theorem AddsText.within {text : String} {terminal : StructuredTerminal Schema}
    (adds : AddsText machine text terminal) (within : machine.counters.Within machine.limits) :
    machine.answerTextBytes + Text.len text ≤ machine.limits.maxStructuredOutputBytes := by
  rcases adds.fits with rfl | fits
  · exact within.text
  · exact fits

theorem ThinkingFits.within {text : String} (fits : ThinkingFits machine text)
    (within : machine.counters.Within machine.limits) :
    machine.thinkingTextBytes + Text.len text ≤ machine.limits.maxStructuredOutputBytes := by
  rcases fits with rfl | fits
  · exact within.thinking
  · exact fits

/-! ### Opening a block -/

theorem inputDeltas_pay (library : WireLibrary Schema) (index : ContentIndex)
    (wireIndex : UInt32) (input : Json) : costs (inputDeltas library index wireIndex input) =
        ⟨0, 0, Text.len (initialInput library input), 0, 0⟩ ∧
      (∀ piece ∈ argumentPieces (inputDeltas library index wireIndex input),
        piece.1 = index.toNat) ∧
      joined (argumentPieces (inputDeltas library index wireIndex input)) =
        initialInput library input := by
  unfold inputDeltas initialInput
  by_cases empty : input.isEmptyObject = true
  · rw [if_pos empty, if_pos empty]
    exact ⟨rfl, nofun, rfl⟩
  · simp [empty, costs, costOf, argumentPieces, joined]

theorem opened_pays {kind : String} {advanced : UInt32} {blocksStarted eventsSeen : Nat}
    {start : ContentBlockStartWire} (tracks : Tracks thinking machine)
    (vacant : lookup machine.blocks wireIndex = none)
    (added : checkedAddU32 machine.nextContentIndex 1 = some advanced)
    (opens : Opening library machine wireIndex advanced eventsSeen start next state events) :
    Pays thinking machine (.contentBlockStart ⟨kind, wireIndex, start⟩)
      { next with blocks := next.blocks.insert wireIndex state, blocksStarted } events := by
  have notThinking := not_thinksAt_of_vacant vacant
  have sum : advanced.toNat = machine.nextContentIndex.toNat + 1 := checkedAddU32_eq_some added
  have grows : machine.nextContentIndex.toNat ≤ advanced.toNat := sum ▸ Nat.le_succ _
  cases opens with
  | @text text _ adds =>
    rcases textDeltas_pay machine.nextContentIndex text with ⟨paid, silent⟩
    refine ⟨rfl, ?_, fun within => { within with text := adds.within within },
      tracks.insert rfl (iff_of_false notThinking (by simp)),
      .kept (fun _ _ => callAt_of_update (callAt_insert rfl rfl)) grows silent⟩
    rw [costs_cons, paid, show costOf (.textStart machine.nextContentIndex) = 0 from rfl, zero_add]
    rfl
  | @thinking text fits =>
    rcases thinkingDeltas_pay machine.nextContentIndex text with ⟨paid, silent⟩
    refine ⟨rfl, ?_, fun within => { within with thinking := fits.within within },
      tracks.insert_thinking rfl,
      .kept (fun _ _ => callAt_of_update (callAt_insert rfl rfl)) grows silent⟩
    rw [costs_cons, paid, show costOf (.thinkingStart machine.nextContentIndex) = 0 from rfl,
      zero_add]
    rfl
  | redacted fits =>
    exact ⟨rfl, rfl, fun within => { within with opaqueBytes := fits },
      tracks.insert rfl (iff_of_false notThinking (by simp)),
      .kept (fun _ _ => callAt_of_update (callAt_insert rfl rfl)) grows rfl⟩
  | @toolUse _ toolId _ toolName input room _ _ fits fitsAll =>
    rcases inputDeltas_pay library machine.nextContentIndex wireIndex input with
      ⟨paid, placed, total⟩
    refine ⟨rfl, ?_, fun within => { within with arguments := fitsAll, calls := room },
      tracks.insert rfl (iff_of_false notThinking (by simp)),
      .taken wireIndex machine.nextContentIndex "" _ (.inl ⟨rfl, rfl, sum⟩) ?_ placed total ?_⟩
    · rw [costs_append, paid]
      simp [costs, costOf, counters, Counters.add_def, Counters.zero_def,
        Counters.ofOpaque, opaqueOf]
    · rw [String.empty_append]
      exact callAt_insert rfl rfl
    · rwa [String.empty_append]

/-! ### All steps -/

theorem Closing.pays (closes : Closing library machine state events) :
    costs events = 0 ∧ argumentPieces events = [] := by
  cases closes <;> exact ⟨rfl, rfl⟩

theorem Step.pays (tracks : Tracks thinking machine)
    (step : Step library machine wire next events) : Pays thinking machine wire next events := by
  cases step with
  | started | merged | ended | ping | other =>
    exact .of_quiet tracks rfl rfl rfl rfl rfl rfl rfl rfl
  | opened _ vacant added opens => exact opened_pays tracks vacant added opens
  | unknown _ vacant =>
    exact ⟨rfl, rfl, id,
      tracks.insert rfl (iff_of_false (not_thinksAt_of_vacant vacant) (by simp)),
      .kept (fun _ _ => callAt_of_update (callAt_insert rfl rfl)) le_rfl rfl⟩
  | @text _ index text _ _ _ _ _ adds =>
    rcases textDeltas_pay index text with ⟨paid, silent⟩
    refine .of_blocks tracks rfl rfl rfl rfl silent ?_ fun within =>
      { within with text := adds.within within }
    rw [paid]
    rfl
  | @thinking _ index _ text _ _ _ _ fits =>
    rcases thinkingDeltas_pay index text with ⟨paid, silent⟩
    refine .of_blocks tracks rfl rfl rfl rfl silent ?_ fun within =>
      { within with thinking := fits.within within }
    rw [paid]
    rfl
  | signature _ found fits =>
    have isThinking : ThinksAt machine _ := ⟨_, _, found⟩
    refine ⟨rfl, ?_, fun within => { within with opaqueBytes := fits },
      tracks.insert rfl (iff_of_true isThinking ⟨_, _, rfl⟩),
      .kept (fun _ _ => callAt_of_update (callAt_insert rfl rfl)) le_rfl rfl⟩
    rw [opaqueOf, if_pos ((tracks _).mpr isThinking)]
    rfl
  | input _ found fits fitsAll =>
    refine ⟨rfl, ?_, fun within => { within with arguments := fitsAll }, ?_, ?_⟩
    · simp [costs, costOf, counters, Counters.add_def,
        Counters.ofOpaque, opaqueOf]
    · refine tracks.insert rfl (iff_of_false ?_ (by simp))
      rintro ⟨other, signature, isThinking⟩
      cases found.symm.trans isThinking
    · refine .taken _ _ _ _ (.inr ⟨?_, rfl⟩) (callAt_insert rfl rfl) ?_ ?_ fits
      · rw [callAt, found]
        rfl
      · simp [argumentPieces]
      · simp [argumentPieces]
  | @ignored wireIndex _ delta _ _ found =>
    refine .of_quiet tracks rfl ?_ rfl rfl rfl rfl rfl rfl
    have notThinking : wireIndex ∉ thinking := by
      rw [tracks]
      rintro ⟨index, signature, isThinking⟩
      cases found.symm.trans isThinking
    cases delta with
    | signatureDelta => exact if_neg notThinking
    | _ => rfl
  | closed _ _ closes =>
    rcases closes.pays with ⟨free, silent⟩
    refine ⟨rfl, ?_, id, tracks.erase rfl,
      .kept (fun _ _ => callAt_of_update (callAt_erase rfl)) le_rfl silent⟩
    rw [free]
    rfl
  | stopped =>
    refine .of_quiet tracks rfl rfl rfl rfl rfl rfl ?_ ?_
    all_goals split <;> rfl

end Handlers

end Philo.AnthropicMessages
