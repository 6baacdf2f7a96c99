import Philo.Domain.History.Parts

/-! Tool calls of a turn, the ids they are known by, and how a result finds its call. -/

namespace Philo

open Result Std HistorySetup List

/-! ## Calls of a message -/

def callsOf (parts : List ContentPart) : List ToolCall := parts.filterMap ContentPart.toolCall?

theorem callsOf_of_allowed {setup : HistorySetup} {parts : List ContentPart}
    {allowRefusal : Bool} (allowed : setup.AllowedParts parts allowRefusal) :
    callsOf parts = [] := by
  rw [callsOf, filterMap_eq_nil_iff]
  intro part member
  have noCall := (allowed part member).not_toolCall
  cases part <;> first | rfl | cases noCall

theorem callsOf_toolCalls (calls : List ToolCall) : callsOf (calls.map .toolCall) = calls := by
  rw [callsOf, filterMap_map]
  exact filterMap_some

theorem callsOf_turn {setup : HistorySetup} {lead : List ContentPart} {calls : List ToolCall}
    {allowRefusal : Bool} (allowed : setup.AllowedParts lead allowRefusal) :
    callsOf (lead ++ calls.map .toolCall) = calls := by
  have split : callsOf (lead ++ calls.map .toolCall) =
      callsOf lead ++ callsOf (calls.map .toolCall) := filterMap_append
  rw [split, callsOf_of_allowed allowed, callsOf_toolCalls, nil_append]

def callNames (calls : List ToolCall) : List (ToolCallId × ToolName) :=
  calls.map fun call => (call.id, call.name)

theorem collectAssistantToolCalls_eq_ok {index partIndex : Nat} {parts : List ContentPart}
    {seenIds : TreeSet String} {toolCalls : List (ToolCallId × ToolName)} :
    collectAssistantToolCalls index parts partIndex seenIds = .ok toolCalls ↔
      toolCalls = callNames (callsOf parts) ∧
        Fresh (· ∈ seenIds) ((callsOf parts).map fun call => call.id.value) := by
  induction parts generalizing partIndex seenIds toolCalls with
  | nil =>
    simp only [collectAssistantToolCalls, Except.ok.injEq, callsOf, filterMap_nil,
      callNames, map_nil, fresh_nil, and_true]
    exact eq_comm
  | cons part rest induction =>
    cases part with
    | toolCall call =>
      have split : callsOf (.toolCall call :: rest) = call :: callsOf rest := rfl
      rw [split, map_cons, fresh_cons]
      simp only [collectAssistantToolCalls, bind_eq_ok, reject_eq_ok, exists_const,
        Except.ok.injEq, induction, mem_set_insert_iff]
      constructor
      · rintro ⟨free, _, ⟨rfl, distinct⟩, rfl⟩
        exact ⟨rfl, free, distinct⟩
      · rintro ⟨rfl, free, distinct⟩
        exact ⟨free, _, ⟨rfl, distinct⟩, rfl⟩
    | text | image | thinking | refusal => exact induction

/-! ## Ids -/

def DistinctIds (calls : List ToolCall) : Prop := (calls.map fun call => call.id.value).Nodup

theorem mem_mappingsOf {calls renamed : List ToolCall} {mapping : IdMapping}
    (member : mapping ∈ mappingsOf calls renamed) :
    ∃ call new, (call, new) ∈ calls.zip renamed ∧ mapping = ⟨call.id, new.id⟩ := by
  rcases mem_filterMap.mp member with ⟨⟨call, new⟩, paired, isMapping⟩
  refine ⟨call, new, paired, ?_⟩
  simp only [mappingOf] at isMapping
  split at isMapping
  · cases isMapping
  · exact (Option.some.inj isMapping).symm

theorem find_mappingsOf {calls renamed : List ToolCall} {call new : ToolCall}
    (distinct : DistinctIds calls) (paired : (call, new) ∈ calls.zip renamed) :
    ((mappingsOf calls renamed).find? fun mapping =>
      mapping.original.value == call.id.value) = mappingOf call.id new.id := by
  induction calls generalizing renamed with
  | nil => simp at paired
  | cons first rest induction =>
    cases renamed with
    | nil => simp at paired
    | cons firstNew restNew =>
      rw [mappingsOf_cons, find?_append]
      rw [DistinctIds, map_cons, nodup_cons] at distinct
      rw [zip_cons_cons, mem_cons] at paired
      rcases paired with same | later
      · cases same
        have absent : ((mappingsOf rest restNew).find? fun mapping =>
            mapping.original.value == call.id.value) = none := by
          rw [find?_eq_none]
          intro mapping member same
          rcases mem_mappingsOf member with ⟨other, otherNew, otherPaired, rfl⟩
          exact distinct.1 (mem_map.mpr
            ⟨other, (of_mem_zip otherPaired).1, beq_iff_eq.mp same⟩)
        rw [absent]
        unfold mappingOf
        split <;> simp
      · have different : first.id.value ≠ call.id.value := by
          intro same
          exact distinct.1 (mem_map.mpr ⟨call, (of_mem_zip later).1, same.symm⟩)
        have skipped : ((mappingOf first.id firstNew.id).toList.find? fun mapping =>
            mapping.original.value == call.id.value) = none := by
          unfold mappingOf
          split <;> simp [different]
        rw [skipped, Option.none_or]
        exact induction distinct.2 later

section Turn

variable {calls renamed : List ToolCall} {call new : ToolCall}

theorem normalizedId_mappingsOf (distinct : DistinctIds calls)
    (paired : (call, new) ∈ calls.zip renamed) :
    normalizedId (mappingsOf calls renamed) call.id = new.id := by
  rw [normalizedId, find_mappingsOf distinct paired, mappingOf]
  split
  · next same => exact same.symm
  · rfl

theorem map_normalizedId (distinct : DistinctIds calls)
    (sameLength : calls.length = renamed.length) :
    calls.map (fun call => normalizedId (mappingsOf calls renamed) call.id) =
      renamed.map fun call => call.id := by
  have paired : ∀ pair ∈ calls.zip renamed,
      normalizedId (mappingsOf calls renamed) pair.1.id = pair.2.id :=
    fun pair member => normalizedId_mappingsOf distinct member
  have firsts : (calls.zip renamed).map Prod.fst = calls := map_fst_zip (Nat.le_of_eq sameLength)
  have seconds : (calls.zip renamed).map Prod.snd = renamed :=
    map_snd_zip (Nat.le_of_eq sameLength.symm)
  calc calls.map (fun call => normalizedId (mappingsOf calls renamed) call.id)
      = ((calls.zip renamed).map Prod.fst).map
          fun call => normalizedId (mappingsOf calls renamed) call.id := by rw [firsts]
    _ = (calls.zip renamed).map fun pair =>
          normalizedId (mappingsOf calls renamed) pair.1.id := map_map
    _ = (calls.zip renamed).map fun pair => pair.2.id := map_congr_left paired
    _ = ((calls.zip renamed).map Prod.snd).map fun call => call.id := map_map.symm
    _ = renamed.map fun call => call.id := by rw [seconds]

theorem resolveMappedId_original (distinct : DistinctIds calls)
    (paired : (call, new) ∈ calls.zip renamed) :
    resolveMappedId call.id.value (mappingsOf calls renamed) (callNames calls) =
      .ok new.id := by
  rw [resolveMappedId, find_mappingsOf distinct paired, mappingOf]
  have named : (callNames calls).any (fun named => named.1.value == call.id.value) = true := by
    rw [any_eq_true]
    exact ⟨(call.id, call.name), mem_map.mpr ⟨call, (of_mem_zip paired).1, rfl⟩, beq_self_eq_true _⟩
  by_cases same : new.id = call.id
  · simp [same, named, ToolCallId.new_value, mapError]
  · simp [same]

end Turn

/-! ## Expected results -/

theorem expectedResults_eq_ok {assistantIndex : Nat} {mappings : List IdMapping}
    {toolCalls : List (ToolCallId × ToolName)} {expected final : TreeMap String ToolName}
    (accepted : expectedResults assistantIndex mappings toolCalls expected = .ok final) :
    ∀ key, key ∈ final ↔ key ∈ expected ∨
      key ∈ toolCalls.map fun call => (normalizedId mappings call.1).value := by
  induction toolCalls generalizing expected with
  | nil =>
    cases accepted
    simp
  | cons named rest induction =>
    simp only [expectedResults, bind_eq_ok, reject_eq_ok, exists_const] at accepted
    intro key
    rw [induction accepted.2 key, mem_insert_iff, map_cons, mem_cons]
    exact ⟨fun found => found.elim (fun old => old.elim (.inr ∘ .inl) .inl) (.inr ∘ .inr),
      fun found => found.elim (.inl ∘ .inr) fun new => new.elim (.inl ∘ .inl) .inr⟩

theorem expectedResults_succeeds (assistantIndex : Nat) {mappings : List IdMapping}
    {toolCalls : List (ToolCallId × ToolName)} {expected : TreeMap String ToolName}
    (distinct : Fresh (· ∈ expected)
      (toolCalls.map fun call => (normalizedId mappings call.1).value)) :
    Succeeds (expectedResults assistantIndex mappings toolCalls expected) := by
  induction toolCalls generalizing expected with
  | nil => exact ⟨expected, rfl⟩
  | cons named rest induction =>
    rw [map_cons, fresh_cons] at distinct
    rcases @induction (expected.insert (normalizedId mappings named.1).value named.2)
      (by simpa only [mem_insert_iff, or_comm] using distinct.2) with ⟨final, later⟩
    exact ⟨final, by simpa [expectedResults, reject, distinct.1] using later⟩

/-! ## Remapping -/

theorem remapToolResult_eq_ok {result remapped : ToolResultMessage} {mappedId : ToolCallId}
    {total maxTotalTextBytes next : Nat} :
    remapToolResult result mappedId total maxTotalTextBytes = .ok (remapped, next) ↔
      remapped = { result with toolCallId := mappedId } ∧
        next = total + Text.len result.text ∧ next < 2 ^ 64 ∧ next ≤ maxTotalTextBytes := by
  have size : addResultBytes maxTotalTextBytes result.content total =
      addTextBytes total (Text.len result.text) maxTotalTextBytes := by
    rw [result.content_text]
    simp only [addResultBytes]
    cases addTextBytes total (Text.len result.text) maxTotalTextBytes <;> rfl
  simp only [remapToolResult, size, bind_eq_ok, addTextBytes_eq_ok,
    ToolResultMessage.new_of_official, Except.ok.injEq, Prod.mk.injEq, exists_eq_left']
  constructor
  · rintro ⟨_, sizes, rfl, rfl⟩
    exact ⟨rfl, sizes⟩
  · rintro ⟨rfl, sizes⟩
    exact ⟨next, sizes, rfl, rfl⟩

end Philo
