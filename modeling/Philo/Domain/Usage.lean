import Philo.Domain.LlmError

/-! Token accounting: the three-state counts of `usage.rs`, their consistency
rules, and the merge of successive snapshots. -/

namespace Philo

open Result

/-- A count that keeps "not reported" apart from a reported zero. -/
inductive TokenCount where
  | unknown
  | known (value : UInt64)
  deriving DecidableEq

namespace TokenCount

def isKnown : TokenCount → Bool
  | unknown => false
  | known _ => true

def ofOption : Option UInt64 → TokenCount
  | none => unknown
  | some value => known value

end TokenCount

structure UsageDetails where
  inputTokens : TokenCount
  outputTokens : TokenCount
  totalTokens : TokenCount
  cachedInputTokens : TokenCount
  cacheWriteTokens : TokenCount
  reasoningTokens : TokenCount
  deriving DecidableEq

namespace UsageDetails

def hasAnyKnown (details : UsageDetails) : Bool :=
  details.inputTokens.isKnown || details.outputTokens.isKnown ||
    details.totalTokens.isKnown || details.cachedInputTokens.isKnown ||
    details.cacheWriteTokens.isKnown || details.reasoningTokens.isKnown

def hasCompleteCore (details : UsageDetails) : Bool :=
  details.inputTokens.isKnown && details.outputTokens.isKnown &&
    details.totalTokens.isKnown

private def inconsistent (field message : String) : CostError :=
  ⟨field, .inconsistentUsage, none, message⟩

def validateTotal (details : UsageDetails) : Except CostError Unit :=
  match details.inputTokens, details.outputTokens, details.totalTokens with
  | .known input, .known output, .known total =>
    reject (checkedAddU64 input output ≠ some total)
      (inconsistent "usage.total_tokens" "usage total does not equal input + output")
  | _, _, _ => .ok ()

/-- The cached and written subsets of the input. When all three counters are
known only their sum is tested; otherwise each known subset on its own. -/
def validateInputSubsets (details : UsageDetails) : Except CostError Unit :=
  match details.inputTokens, details.cachedInputTokens, details.cacheWriteTokens with
  | .known input, .known cached, .known write =>
    reject ((checkedAddU64 cached write).all (fun sum => decide (input < sum)) = true)
      (inconsistent "usage.cached_input_tokens" "cached input subsets exceed input tokens")
  | .known input, .known cached, .unknown =>
    reject (input < cached)
      (inconsistent "usage.cached_input_tokens" "cached input exceeds input tokens")
  | .known input, .unknown, .known write =>
    reject (input < write)
      (inconsistent "usage.cache_write_tokens" "cache write exceeds input tokens")
  | _, _, _ => .ok ()

theorem subsets_fit {input cached write : UInt64}
    (fits : ¬ (checkedAddU64 cached write).all (fun sum => decide (input < sum)) = true) :
    cached.toNat + write.toNat ≤ input.toNat := by
  cases isSum : checkedAddU64 cached write with
  | none =>
    rw [isSum] at fits
    exact absurd rfl fits
  | some sum =>
    have total := checkedAddU64_eq_some isSum
    simp only [isSum, Option.all_some, decide_eq_true_eq, UInt64.lt_iff_toNat_lt] at fits
    omega

def validateReasoning (details : UsageDetails) : Except CostError Unit :=
  match details.outputTokens, details.reasoningTokens with
  | .known output, .known reasoning =>
    reject (output < reasoning)
      (inconsistent "usage.reasoning_tokens" "reasoning tokens exceed output tokens")
  | _, _ => .ok ()

def validateRelationships (details : UsageDetails) : Except CostError Unit := do
  details.validateTotal
  details.validateInputSubsets
  details.validateReasoning

end UsageDetails

/-- Complete core usage. The total is the sum, as `Usage::new` checks. -/
structure Usage where
  inputTokens : UInt64
  outputTokens : UInt64
  totalTokens : UInt64
  consistent : checkedAddU64 inputTokens outputTokens = some totalTokens
  deriving DecidableEq

def Usage.new (inputTokens outputTokens totalTokens : UInt64) :
    Except ProtocolError Usage :=
  if consistent : checkedAddU64 inputTokens outputTokens = some totalTokens then
    .ok ⟨inputTokens, outputTokens, totalTokens, consistent⟩
  else .error (.new "usage total does not equal input + output")

/-! ## Merging snapshots -/

inductive UsageMergeOutcome where
  | unchanged
  | emitP1 (details : UsageDetails)
  | emitDetailed (details : UsageDetails)
  deriving DecidableEq

def mergeTokenCount (previous next : TokenCount) (field : String) :
    Except CostError TokenCount :=
  match previous, next with
  | .unknown, next => .ok next
  | .known value, .unknown => .ok (.known value)
  | .known left, .known right =>
    if left = right then .ok (.known left)
    else .error ⟨field, .inconsistentUsage, none, "usage field changed after becoming known"⟩

def UsageDetails.merge (previous next : UsageDetails) : Except CostError UsageDetails := do
  let inputTokens ←
    mergeTokenCount previous.inputTokens next.inputTokens "usage.input_tokens"
  let outputTokens ←
    mergeTokenCount previous.outputTokens next.outputTokens "usage.output_tokens"
  let totalTokens ←
    mergeTokenCount previous.totalTokens next.totalTokens "usage.total_tokens"
  let cachedInputTokens ←
    mergeTokenCount previous.cachedInputTokens next.cachedInputTokens
      "usage.cached_input_tokens"
  let cacheWriteTokens ←
    mergeTokenCount previous.cacheWriteTokens next.cacheWriteTokens
      "usage.cache_write_tokens"
  let reasoningTokens ←
    mergeTokenCount previous.reasoningTokens next.reasoningTokens "usage.reasoning_tokens"
  .ok { inputTokens, outputTokens, totalTokens, cachedInputTokens, cacheWriteTokens,
        reasoningTokens }

structure UsageDetails.KnownWithin (details reference : UsageDetails) : Prop where
  input : details.inputTokens.isKnown = true → reference.inputTokens.isKnown = true
  output : details.outputTokens.isKnown = true → reference.outputTokens.isKnown = true
  total : details.totalTokens.isKnown = true → reference.totalTokens.isKnown = true
  cachedInput :
    details.cachedInputTokens.isKnown = true → reference.cachedInputTokens.isKnown = true
  cacheWrite :
    details.cacheWriteTokens.isKnown = true → reference.cacheWriteTokens.isKnown = true
  reasoning :
    details.reasoningTokens.isKnown = true → reference.reasoningTokens.isKnown = true

/-- A merged count is the previous one unless the next one is news. -/
theorem mergeTokenCount_unchanged_iff {previous next merged : TokenCount} {field : String}
    (accepted : mergeTokenCount previous next field = .ok merged) :
    merged = previous ↔ (next.isKnown = true → previous.isKnown = true) := by
  cases previous with
  | unknown =>
    cases accepted
    cases next <;> simp [TokenCount.isKnown]
  | known left =>
    cases next with
    | unknown =>
      cases accepted
      simp [TokenCount.isKnown]
    | known right =>
      simp only [mergeTokenCount] at accepted
      split at accepted <;> cases accepted
      simp [TokenCount.isKnown]

theorem UsageDetails.merge_unchanged_iff {previous next merged : UsageDetails}
    (accepted : previous.merge next = .ok merged) :
    merged = previous ↔ next.KnownWithin previous := by
  simp only [merge, bind_eq_ok, Except.ok.injEq] at accepted
  rcases accepted with ⟨input, inputMerged, output, outputMerged, total, totalMerged,
    cachedInput, cachedMerged, cacheWrite, writeMerged, reasoning, reasoningMerged, rfl⟩
  have fields : ∀ other : UsageDetails,
      (⟨input, output, total, cachedInput, cacheWrite, reasoning⟩ : UsageDetails) = other ↔
        input = other.inputTokens ∧ output = other.outputTokens ∧
          total = other.totalTokens ∧ cachedInput = other.cachedInputTokens ∧
            cacheWrite = other.cacheWriteTokens ∧ reasoning = other.reasoningTokens := by
    rintro ⟨⟩
    simp
  rw [fields, mergeTokenCount_unchanged_iff inputMerged, mergeTokenCount_unchanged_iff outputMerged,
    mergeTokenCount_unchanged_iff totalMerged, mergeTokenCount_unchanged_iff cachedMerged,
    mergeTokenCount_unchanged_iff writeMerged, mergeTokenCount_unchanged_iff reasoningMerged]
  constructor
  · rintro ⟨inputKnown, outputKnown, totalKnown, cachedKnown, writeKnown, reasoningKnown⟩
    exact ⟨inputKnown, outputKnown, totalKnown, cachedKnown, writeKnown, reasoningKnown⟩
  · intro within
    exact ⟨within.input, within.output, within.total, within.cachedInput,
      within.cacheWrite, within.reasoning⟩

def mergeUsageDetails (previous : Option UsageDetails) (next : UsageDetails) :
    Except CostError (UsageDetails × UsageMergeOutcome) := do
  next.validateRelationships
  match previous with
  | none =>
    let outcome :=
      if next.hasCompleteCore then .emitP1 next
      else if next.hasAnyKnown then .emitDetailed next
      else .unchanged
    .ok (next, outcome)
  | some previous =>
    let merged ← previous.merge next
    merged.validateRelationships
    if merged = previous then .ok (merged, .unchanged)
    else if !previous.hasCompleteCore && merged.hasCompleteCore then
      .ok (merged, .emitP1 merged)
    else .ok (merged, .emitDetailed merged)

def UsageMergeOutcome.details? : UsageMergeOutcome → Option UsageDetails
  | unchanged => none
  | emitP1 details | emitDetailed details => some details

theorem mergeUsageDetails_first {next merged : UsageDetails} {outcome : UsageMergeOutcome}
    (someKnown : next.hasAnyKnown = true)
    (accepted : mergeUsageDetails none next = .ok (merged, outcome)) :
    merged = next ∧ outcome.details? = some next := by
  simp only [mergeUsageDetails, bind_eq_ok, Except.ok.injEq, Prod.mk.injEq] at accepted
  rcases accepted with ⟨_, _, rfl, rfl⟩
  refine ⟨rfl, ?_⟩
  split
  · rfl
  · rfl

theorem mergeUsageDetails_later {previous next merged : UsageDetails}
    {outcome : UsageMergeOutcome}
    (accepted : mergeUsageDetails (some previous) next = .ok (merged, outcome)) :
    (next.KnownWithin previous ∧ merged = previous ∧ outcome = .unchanged) ∨
      (¬ next.KnownWithin previous ∧ merged ≠ previous ∧ outcome.details? = some merged) := by
  simp only [mergeUsageDetails, bind_eq_ok] at accepted
  rcases accepted with ⟨_, _, merged', joined, _, _, accepted⟩
  rw [← UsageDetails.merge_unchanged_iff joined]
  split at accepted
  · next same =>
      cases accepted
      exact .inl ⟨same, same, rfl⟩
  · next different =>
      split at accepted <;>
      · cases accepted
        exact .inr ⟨different, different, rfl⟩

end Philo
