import Philo.Domain.History.Normalize

/-! What normalization keeps of the content of one message. -/

namespace Philo

open Result Std AssistantDraft

/-! ## Text sizes -/

theorem addTextBytes_eq_ok {total added maxTotalTextBytes next : Nat} :
    addTextBytes total added maxTotalTextBytes = .ok next ↔
      next = total + added ∧ next < 2 ^ 64 ∧ next ≤ maxTotalTextBytes := by
  simp only [addTextBytes, bind_eq_ok, okOr_eq_ok, reject_eq_ok, exists_const,
    Except.ok.injEq, Nat.not_lt]
  constructor
  · rintro ⟨sum, added', short, rfl⟩
    unfold checkedAdd at added'
    split at added' <;> cases added'
    exact ⟨rfl, by assumption, short⟩
  · rintro ⟨rfl, fits, short⟩
    exact ⟨_, if_pos fits, short, rfl⟩

namespace ContentPart

def countedText : ContentPart → String
  | text value => value
  | thinking content => content.text
  | refusal value => value
  | image _ | toolCall _ => ""

def isImage : ContentPart → Bool
  | image _ => true
  | _ => false

def isOpaqueThinking : ContentPart → Bool
  | thinking content => content.opaqueState.isSome
  | _ => false

def dropCode? (part : ContentPart) : Option DiagnosticCode :=
  if part.isImage then some .droppedUnsupportedImage
  else if part.isOpaqueThinking then some .droppedThinkingOpaque
  else none

end ContentPart

def countedBytes (parts : List ContentPart) : Nat :=
  (parts.map fun part => Text.len part.countedText).sum

@[simp] theorem countedBytes_nil : countedBytes [] = 0 := rfl

@[simp] theorem countedBytes_cons (part : ContentPart) (rest : List ContentPart) :
    countedBytes (part :: rest) = Text.len part.countedText + countedBytes rest := by
  simp [countedBytes]

@[simp] theorem countedBytes_append (first second : List ContentPart) :
    countedBytes (first ++ second) = countedBytes first + countedBytes second := by
  simp [countedBytes]

theorem countedBytes_toolCalls (calls : List ToolCall) :
    countedBytes (calls.map .toolCall) = 0 := by
  induction calls with
  | nil => rfl
  | cons call rest induction =>
    rw [List.map_cons, countedBytes_cons, induction]
    rfl

def Tally.mapped (tally : Tally) (mappings : List IdMapping) : Tally :=
  mappings.foldl (fun tally _ => tally.increment .sanitizedToolCallId) tally

namespace HistorySetup

variable {setup : HistorySetup}

def Allows (setup : HistorySetup) (total : Nat) : Prop :=
  total < 2 ^ 64 ∧ total ≤ setup.maxTotalTextBytes

theorem Allows.of_le {total less : Nat} (allows : setup.Allows total) (le : less ≤ total) :
    setup.Allows less :=
  ⟨Nat.lt_of_le_of_lt le allows.1, Nat.le_trans le allows.2⟩

def keeps (setup : HistorySetup) : ContentPart → Bool
  | .image _ => setup.capabilities.visionInput = .supported
  | .thinking _ => setup.policy.thinkingReplay = .sameSourceOnly
  | .text _ | .refusal _ | .toolCall _ => true

/-! ## One part -/

section Part

variable {part : ContentPart} {messageIndex partIndex : Nat} {tally tally' : Tally}
  {allowRefusal : Bool} {kept : Option ContentPart}

theorem addText_eq_ok {text : String} : setup.addText tally text = .ok tally' ↔
      setup.Allows (tally.totalTextBytes + Text.len text) ∧
        tally' = { tally with totalTextBytes := tally.totalTextBytes + Text.len text } := by
  simp only [addText, bind_eq_ok, addTextBytes_eq_ok, Except.ok.injEq, Allows]
  constructor
  · rintro ⟨total, ⟨rfl, fits, short⟩, rfl⟩
    exact ⟨⟨fits, short⟩, rfl⟩
  · rintro ⟨⟨fits, short⟩, rfl⟩
    exact ⟨_, ⟨rfl, fits, short⟩, rfl⟩

def AllowsPart (setup : HistorySetup) (allowRefusal : Bool) : ContentPart → Prop
  | .text _ | .thinking _ => True
  | .image content =>
    setup.keeps (.image content) = true ∨ setup.policy.unsupportedContent ≠ .reject
  | .refusal _ => allowRefusal = true
  | .toolCall _ => False

theorem AllowsPart.not_toolCall (allowed : setup.AllowsPart allowRefusal part) :
    part.isToolCall = false := by
  cases part with
  | text | image | thinking | refusal => rfl
  | toolCall => exact allowed.elim

def tallied (setup : HistorySetup) (tally : Tally) (part : ContentPart) : Tally :=
  if setup.keeps part then
    { tally with totalTextBytes := tally.totalTextBytes + Text.len part.countedText }
  else part.dropCode?.elim tally tally.increment

theorem tallied_total (tally : Tally) (part : ContentPart) :
    (setup.tallied tally part).totalTextBytes =
      tally.totalTextBytes + if setup.keeps part then Text.len part.countedText else 0 := by
  unfold tallied
  split
  · rfl
  · cases part.dropCode? <;> rfl

def FitsPart (setup : HistorySetup) (tally : Tally) : ContentPart → Prop
  | .text text | .refusal text => setup.Allows (tally.totalTextBytes + Text.len text)
  | .thinking content => setup.keeps (.thinking content) = true →
      setup.Allows (tally.totalTextBytes + Text.len content.text)
  | .image _ | .toolCall _ => True

theorem normalizeContentPart_eq_ok :
    setup.normalizeContentPart part messageIndex partIndex tally allowRefusal =
        .ok (kept, tally') ↔
      (setup.AllowsPart allowRefusal part ∧ setup.FitsPart tally part) ∧
        (if setup.keeps part then some part else none) = kept ∧
          setup.tallied tally part = tally' := by
  cases part with
  | text text =>
    simp [normalizeContentPart, bind_eq_ok, addText_eq_ok, AllowsPart, FitsPart, keeps, tallied,
      ContentPart.countedText, and_assoc]
  | image content =>
    simp only [normalizeContentPart]
    by_cases supported : setup.capabilities.visionInput = .supported
    · simp [AllowsPart, FitsPart, keeps, tallied, supported, ContentPart.countedText, Text.len]
    · by_cases rejects : setup.policy.unsupportedContent = .reject
      · simp [AllowsPart, FitsPart, keeps, supported, rejects]
      · simp [AllowsPart, FitsPart, keeps, tallied, supported, rejects, ContentPart.dropCode?,
          ContentPart.isImage]
  | thinking content =>
    simp only [normalizeContentPart]
    cases replay : setup.policy.thinkingReplay with
    | dropAll =>
      cases isOpaque : content.opaqueState <;>
        simp [AllowsPart, FitsPart, keeps, tallied, replay, isOpaque, ContentPart.dropCode?,
          ContentPart.isImage, ContentPart.isOpaqueThinking]
    | sameSourceOnly =>
      simp [AllowsPart, FitsPart, keeps, tallied, replay, bind_eq_ok, addText_eq_ok, and_assoc,
        ContentPart.countedText]
  | refusal text =>
    simp [normalizeContentPart, bind_eq_ok, reject_eq_ok, addText_eq_ok, AllowsPart, FitsPart, keeps,
      tallied, ContentPart.countedText, and_assoc]
  | toolCall call => simp [normalizeContentPart, AllowsPart]

theorem foldl_tallied_total (tally : Tally) (parts : List ContentPart) :
    (parts.foldl setup.tallied tally).totalTextBytes =
      tally.totalTextBytes + countedBytes (parts.filter setup.keeps) := by
  induction parts generalizing tally with
  | nil => rfl
  | cons part rest induction =>
    rw [List.foldl_cons, induction, tallied_total, List.filter_cons]
    split <;> simp [Nat.add_assoc]

theorem foldl_tallied_of_keeps (tally : Tally) {parts : List ContentPart}
    (keep : ∀ part ∈ parts, setup.keeps part = true) : parts.foldl setup.tallied tally =
      { tally with totalTextBytes := tally.totalTextBytes + countedBytes parts } := by
  induction parts generalizing tally with
  | nil => rfl
  | cons part rest induction =>
    rw [List.forall_mem_cons] at keep
    rw [List.foldl_cons, induction _ keep.2, tallied, if_pos keep.1, countedBytes_cons,
      ← Nat.add_assoc]

end Part

/-! ## All parts of a message -/

def AllowedParts (setup : HistorySetup) (parts : List ContentPart) (allowRefusal : Bool) :
    Prop :=
  ∀ part ∈ parts, setup.AllowsPart allowRefusal part

theorem AllowedParts.filter {parts : List ContentPart} {allowRefusal : Bool}
    {keep : ContentPart → Bool} (allowed : setup.AllowedParts parts allowRefusal) :
    setup.AllowedParts (parts.filter keep) allowRefusal :=
  fun part member => allowed part (List.mem_of_mem_filter member)

theorem filter_keeps_cons (part : ContentPart) (rest : List ContentPart) :
    (part :: rest).filter setup.keeps =
      (if setup.keeps part then some part else none).toList ++ rest.filter setup.keeps := by
  rw [List.filter_cons]
  split <;> rfl

def FitsParts (setup : HistorySetup) : Tally → List ContentPart → Prop
  | _, [] => True
  | tally, part :: rest =>
    setup.FitsPart tally part ∧ FitsParts setup (setup.tallied tally part) rest

theorem fitsPart_iff {tally : Tally} {part : ContentPart} (noCall : part.isToolCall = false)
    (allows : setup.Allows tally.totalTextBytes) :
    setup.FitsPart tally part ↔ setup.Allows (setup.tallied tally part).totalTextBytes := by
  rw [tallied_total]
  cases part with
  | text | refusal => rfl
  | image => exact iff_of_true trivial (by split <;> exact allows)
  | thinking content => by_cases keep : setup.keeps (.thinking content) = true <;>
      simp [FitsPart, keep, allows, ContentPart.countedText]
  | toolCall => cases noCall

/-- Within the bounds, text fits after each part if it fits after all of them. -/
theorem fitsParts_iff {parts : List ContentPart} {tally : Tally} {allowRefusal : Bool}
    (allowed : setup.AllowedParts parts allowRefusal)
    (allows : setup.Allows tally.totalTextBytes) : setup.FitsParts tally parts ↔
      setup.Allows (parts.foldl setup.tallied tally).totalTextBytes := by
  induction parts generalizing tally with
  | nil => exact iff_of_true trivial allows
  | cons part rest induction =>
    rcases List.forall_mem_cons.mp allowed with ⟨first, others⟩
    rw [FitsParts, fitsPart_iff first.not_toolCall allows, List.foldl_cons]
    constructor
    · rintro ⟨fits, later⟩
      exact (induction others fits).mp later
    · intro fits
      have between := fits
      rw [foldl_tallied_total] at between
      replace between := between.of_le (Nat.le_add_right ..)
      exact ⟨between, (induction others between).mpr fits⟩

theorem normalizeParts_eq_ok {messageIndex partIndex : Nat} {parts kept : List ContentPart}
    {tally tally' : Tally} :
    setup.normalizeParts messageIndex parts partIndex tally = .ok (kept, tally') ↔
      (setup.AllowedParts parts false ∧ setup.FitsParts tally parts) ∧
        parts.filter setup.keeps = kept ∧ parts.foldl setup.tallied tally = tally' := by
  induction parts generalizing partIndex tally kept tally' with
  | nil => simp [normalizeParts, AllowedParts, FitsParts]
  | cons part rest induction =>
    simp only [normalizeParts, bind_eq_ok, Prod.exists, normalizeContentPart_eq_ok, induction,
      Except.ok.injEq, Prod.mk.injEq, AllowedParts, FitsParts, List.forall_mem_cons,
      List.foldl_cons, filter_keeps_cons]
    constructor
    · rintro ⟨_, _, ⟨⟨first, fits⟩, rfl, rfl⟩, _, _, ⟨⟨allowed, later⟩, rfl, rfl⟩, rfl, rfl⟩
      exact ⟨⟨⟨first, allowed⟩, fits, later⟩, rfl, rfl⟩
    · rintro ⟨⟨⟨first, allowed⟩, fits, later⟩, rfl, rfl⟩
      exact ⟨_, _, ⟨⟨first, fits⟩, rfl, rfl⟩, _, _, ⟨⟨allowed, later⟩, rfl, rfl⟩, rfl, rfl⟩

/-! ## Assistant messages -/

inductive RenamedCalls (policy : ToolCallIdPolicy) :
    TreeSet String → List ToolCall → List ToolCall → Prop
  | nil {occupied : TreeSet String} : RenamedCalls policy occupied [] []
  | cons {occupied : TreeSet String} {call : ToolCall} {id : ToolCallId}
      {calls renamed : List ToolCall} (given : givenId policy occupied call.id = some id.value)
      (later : RenamedCalls policy (occupied.insert id.value) calls renamed) :
      RenamedCalls policy occupied (call :: calls) ({ call with id } :: renamed)

namespace RenamedCalls

variable {policy : ToolCallIdPolicy} {occupied : TreeSet String} {calls renamed : List ToolCall}

theorem sameCalls (renames : RenamedCalls policy occupied calls renamed) :
    List.Forall₂ (fun call new => new = { call with id := new.id }) calls renamed := by
  induction renames with
  | nil => exact .nil
  | cons _ _ induction => exact .cons rfl induction

theorem normal (renames : RenamedCalls policy occupied calls renamed) :
    ∀ call ∈ renamed, IsNormalId policy call.id := by
  induction renames with
  | nil => simp
  | cons given _ induction => exact List.forall_mem_cons.mpr ⟨(givenId_eq_some given).1, induction⟩

theorem distinct (renames : RenamedCalls policy occupied calls renamed) :
    Fresh (· ∈ occupied) (renamed.map fun call => call.id.value) := by
  induction renames with
  | nil => exact fresh_nil
  | cons given _ induction =>
    simp only [mem_set_insert_iff] at induction
    exact fresh_cons.mpr ⟨(givenId_eq_some given).2, induction⟩

theorem refl (normal : ∀ call ∈ calls, IsNormalId policy call.id)
    (distinct : Fresh (· ∈ occupied) (calls.map fun call => call.id.value)) :
    RenamedCalls policy occupied calls calls := by
  induction calls generalizing occupied with
  | nil => exact .nil
  | cons call rest induction =>
    rw [List.forall_mem_cons] at normal
    rw [List.map_cons, fresh_cons] at distinct
    exact .cons (givenId_fixed normal.1 distinct.1)
      (induction normal.2 (by simpa only [mem_set_insert_iff] using distinct.2))

theorem unique {other : List ToolCall} (renames : RenamedCalls policy occupied calls renamed)
    (again : RenamedCalls policy occupied calls other) : renamed = other := by
  induction renames generalizing other with
  | nil =>
    cases again
    rfl
  | cons given _ induction =>
    cases again with
    | cons givenAgain later =>
      cases ToolCallId.ext (Option.some.inj (given.symm.trans givenAgain))
      rw [induction later]

end RenamedCalls

def mappingsOf (calls renamed : List ToolCall) : List IdMapping :=
  (calls.zip renamed).filterMap fun (call, new) => mappingOf call.id new.id

theorem mappingsOf_cons (call new : ToolCall) (calls renamed : List ToolCall) :
    mappingsOf (call :: calls) (new :: renamed) =
      (mappingOf call.id new.id).toList ++ mappingsOf calls renamed := by
  simp only [mappingsOf, List.zip_cons_cons, List.filterMap_cons]
  cases mappingOf call.id new.id <;> rfl

theorem mappingsOf_self (calls : List ToolCall) : mappingsOf calls calls = [] := by
  induction calls with
  | nil => rfl
  | cons call rest induction => simp [mappingsOf_cons, induction, mappingOf]

end HistorySetup

def AssistantDraft.after (draft : AssistantDraft) (setup : HistorySetup)
    (lead : List ContentPart) (calls renamed : List ToolCall) : AssistantDraft where
  parts := draft.parts ++ (lead.filter setup.keeps ++ renamed.map .toolCall)
  mappings := draft.mappings ++ HistorySetup.mappingsOf calls renamed
  seenToolCall := draft.seenToolCall || !calls.isEmpty
  occupiedIds := renamed.foldl (fun occupied call => occupied.insert call.id.value)
    draft.occupiedIds
  tally := (lead.foldl setup.tallied draft.tally).mapped (HistorySetup.mappingsOf calls renamed)

namespace HistorySetup

variable {setup : HistorySetup}

/-- Content followed by tool calls. Once a tool call was seen, only tool calls follow. -/
structure Drafts (setup : HistorySetup) (draft : AssistantDraft) (lead : List ContentPart)
    (calls renamed : List ToolCall) : Prop where
  leads : draft.seenToolCall = true → lead = []
  allowed : setup.AllowedParts lead true
  fits : setup.FitsParts draft.tally lead
  renames : RenamedCalls setup.dialect.toolCallId draft.occupiedIds calls renamed

section Draft

variable {index partIndex : Nat} {parts : List ContentPart} {draft next final : AssistantDraft}

theorem normalizeAssistantPart_call {call : ToolCall} :
    setup.normalizeAssistantPart index partIndex draft (.toolCall call) = .ok next ↔
      ∃ id : ToolCallId, givenId setup.dialect.toolCallId draft.occupiedIds call.id =
        some id.value ∧ draft.after setup [] [call] [{ call with id }] = next := by
  simp only [normalizeAssistantPart, bind_eq_ok, Prod.exists, normalizeToolCall_eq_ok,
    Except.ok.injEq]
  constructor
  · rintro ⟨_, _, _, ⟨id, given, rfl, rfl, rfl⟩, rfl⟩
    refine ⟨id, given, ?_⟩
    cases isMapping : mappingOf call.id id <;>
      simp [after, mappingsOf, isMapping, Tally.mapped]
  · rintro ⟨id, given, rfl⟩
    refine ⟨_, _, _, ⟨id, given, rfl, rfl, rfl⟩, ?_⟩
    cases isMapping : mappingOf call.id id <;>
      simp [after, mappingsOf, isMapping, Tally.mapped]

theorem normalizeAssistantPart_content {part : ContentPart} (noCall : part.isToolCall = false) :
    setup.normalizeAssistantPart index partIndex draft part = .ok next ↔
      draft.seenToolCall = false ∧ (setup.AllowsPart true part ∧
        setup.FitsPart draft.tally part) ∧ draft.after setup [part] [] [] = next := by
  cases part with
  | toolCall => cases noCall
  | text | image | thinking | refusal =>
    simp only [normalizeAssistantPart, bind_eq_ok, reject_eq_ok, exists_const, Prod.exists,
      normalizeContentPart_eq_ok, Except.ok.injEq, Bool.not_eq_true]
    simp [after, filter_keeps_cons, mappingsOf, Tally.mapped]

theorem mapped_total (tally : Tally) (mappings : List IdMapping) :
    (tally.mapped mappings).totalTextBytes = tally.totalTextBytes := by
  induction mappings generalizing tally with
  | nil => rfl
  | cons mapping rest induction => exact induction _

theorem drafts_content {part : ContentPart} {lead : List ContentPart}
    {calls renamed : List ToolCall} (unseen : draft.seenToolCall = false) :
    Drafts setup draft (part :: lead) calls renamed ↔
      (setup.AllowsPart true part ∧ setup.FitsPart draft.tally part) ∧
        Drafts setup (draft.after setup [part] [] []) lead calls renamed := by
  constructor
  · rintro ⟨_, allowed, fits, renames⟩
    rw [AllowedParts, List.forall_mem_cons] at allowed
    exact ⟨⟨allowed.1, fits.1⟩, by simp [after, unseen], allowed.2, fits.2,
      renames⟩
  · rintro ⟨⟨partAllowed, partFits⟩, _, allowed, fits, renames⟩
    exact ⟨by simp [unseen], List.forall_mem_cons.mpr ⟨partAllowed, allowed⟩, ⟨partFits, fits⟩,
      renames⟩

theorem drafts_call {call : ToolCall} {calls renamed : List ToolCall} :
    Drafts setup draft [] (call :: calls) renamed ↔
      ∃ id : ToolCallId, givenId setup.dialect.toolCallId draft.occupiedIds call.id =
        some id.value ∧ ∃ later, renamed = { call with id } :: later ∧
          Drafts setup (draft.after setup [] [call] [{ call with id }]) [] calls later := by
  constructor
  · rintro ⟨_, allowed, _, renames⟩
    cases renames with
    | @cons _ _ id _ later given renames =>
      exact ⟨id, given, later, rfl, fun _ => rfl, allowed, trivial, renames⟩
  · rintro ⟨id, given, later, rfl, _, allowed, _, renames⟩
    exact ⟨fun _ => rfl, allowed, trivial, .cons given renames⟩

theorem after_content (part : ContentPart) (lead : List ContentPart)
    (calls renamed : List ToolCall) :
    (draft.after setup [part] [] []).after setup lead calls renamed =
      draft.after setup (part :: lead) calls renamed := by
  simp [after, filter_keeps_cons, mappingsOf, Tally.mapped]

theorem after_call (call new : ToolCall) (calls renamed : List ToolCall) :
    (draft.after setup [] [call] [new]).after setup [] calls renamed =
      draft.after setup [] (call :: calls) (new :: renamed) := by
  cases isMapping : mappingOf call.id new.id <;>
    simp [after, isMapping, Tally.mapped, mappingsOf]

theorem normalizeAssistantParts_eq_ok :
    setup.normalizeAssistantParts index parts partIndex draft = .ok final ↔
      ∃ lead calls renamed, parts = lead ++ calls.map .toolCall ∧
        Drafts setup draft lead calls renamed ∧
          draft.after setup lead calls renamed = final := by
  induction parts generalizing partIndex draft with
  | nil =>
    simp only [normalizeAssistantParts, Except.ok.injEq]
    constructor
    · rintro rfl
      exact ⟨[], [], [], rfl, ⟨fun _ => rfl, by simp [AllowedParts], trivial, .nil⟩, by
        simp [after, mappingsOf, Tally.mapped]⟩
    · rintro ⟨lead, calls, renamed, isEmpty, drafts, rfl⟩
      rcases List.append_eq_nil_iff.mp isEmpty.symm with ⟨rfl, noCalls⟩
      cases List.map_eq_nil_iff.mp noCalls
      cases drafts.renames
      simp [after, mappingsOf, Tally.mapped]
  | cons part rest induction =>
    simp only [normalizeAssistantParts, bind_eq_ok, induction]
    constructor
    · rintro ⟨_, isNext, lead, calls, renamed, rfl, drafts, rfl⟩
      cases noCall : part.isToolCall with
      | true =>
        cases part with
        | toolCall call =>
          rcases normalizeAssistantPart_call.mp isNext with ⟨id, given, rfl⟩
          cases drafts.leads (by simp [after])
          exact ⟨[], call :: calls, _, rfl, drafts_call.mpr ⟨id, given, _, rfl, drafts⟩,
            (after_call ..).symm⟩
        | text | image | thinking | refusal => cases noCall
      | false =>
        rcases (normalizeAssistantPart_content noCall).mp isNext with ⟨unseen, first, rfl⟩
        exact ⟨part :: lead, calls, renamed, rfl,
          (drafts_content unseen).mpr ⟨first, drafts⟩, (after_content ..).symm⟩
    · rintro ⟨lead, calls, renamed, isParts, drafts, rfl⟩
      cases lead with
      | nil =>
        cases calls with
        | nil => cases isParts
        | cons call calls =>
          cases isParts
          rcases drafts_call.mp drafts with ⟨id, given, later, rfl, goesOn⟩
          exact ⟨_, normalizeAssistantPart_call.mpr ⟨id, given, rfl⟩, [], calls, later, rfl,
            goesOn, after_call ..⟩
      | cons first lead =>
        cases isParts
        have unseen : draft.seenToolCall = false := by
          by_contra seen
          cases drafts.leads (Bool.eq_true_of_not_eq_false seen)
        rcases (drafts_content unseen).mp drafts with ⟨first, drafts⟩
        exact ⟨_, (normalizeAssistantPart_content first.1.not_toolCall).mpr
          ⟨unseen, first, rfl⟩, lead, calls, renamed, rfl, drafts, after_content ..⟩

end Draft

end HistorySetup

end Philo
