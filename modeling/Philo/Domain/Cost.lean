import Mathlib.Tactic.Linarith
import Mathlib.Tactic.Ring
import Philo.Domain.Usage

/-! Local cost estimates from usage and an explicit price profile. -/

namespace Philo

open Result

/-! ## Prices -/

structure CurrencyCode where
  value : String
  upper : Text.len value = 3 ∧ value.toList.all Char.isUpper = true
  deriving DecidableEq

def CurrencyCode.new (value : String) : Except CostError CurrencyCode :=
  if upper : Text.len value = 3 ∧ value.toList.all Char.isUpper = true then .ok ⟨value, upper⟩
  else .error ⟨"price.currency", .invalidCurrency, none,
    "currency must be an uppercase ISO-4217 code"⟩

structure PriceProfile where
  version : String
  source : String
  currency : CurrencyCode
  inputPerMillionMicros : UInt64
  outputPerMillionMicros : UInt64
  cachedInputPerMillionMicros : UInt64
  cacheWritePerMillionMicros : UInt64
  labelled : version ≠ "" ∧ source ≠ ""

def PriceProfile.new (version source : String) (currency : CurrencyCode)
    (inputPerMillionMicros outputPerMillionMicros cachedInputPerMillionMicros
      cacheWritePerMillionMicros : UInt64) : Except CostError PriceProfile :=
  if labelled : version ≠ "" ∧ source ≠ "" then
    .ok { version, source, currency, inputPerMillionMicros, outputPerMillionMicros,
          cachedInputPerMillionMicros, cacheWritePerMillionMicros, labelled }
  else .error ⟨"price", .invalidPriceProfile, none, "price version and source must be non-empty"⟩

inductive MoneyAmount where
  | unknown
  | micros (value : Int)
  deriving DecidableEq

structure CostEstimate where
  currency : Option CurrencyCode
  input : MoneyAmount
  output : MoneyAmount
  cachedInput : MoneyAmount
  cacheWrite : MoneyAmount
  total : MoneyAmount
  priceVersion : Option String
  priceSource : Option String

/-! ## Estimates -/

def FitsI128 (value : Int) : Prop := -2 ^ 127 ≤ value ∧ value < 2 ^ 127

instance (value : Int) : Decidable (FitsI128 value) := inferInstanceAs (Decidable (_ ∧ _))

/-- The result of a checked `i128` operation whose exact value is known. -/
def checkedI128 (value : Int) : Option Int := if FitsI128 value then some value else none

def checkedDivI128 (value divisor : Int) : Option Int :=
  if divisor = 0 then none else checkedI128 (value.tdiv divisor)

/-- `round_micros`: half-up to the nearest micro-currency unit. -/
def roundMicros (tokens ratePerMillionMicros : UInt64) : Except CostError Int := do
  let product ← okOr (checkedI128 (tokens.toNat * ratePerMillionMicros.toNat))
    ⟨"cost", .overflow, none, "token price product overflowed checked i128 arithmetic"⟩
  okOr ((checkedI128 (product + 500000)).bind fun value => checkedDivI128 value 1000000)
    ⟨"cost", .overflow, none, "token price rounding overflowed checked i128 arithmetic"⟩

def pricedTokens (tokens : TokenCount) (ratePerMillionMicros : UInt64) :
    Except CostError MoneyAmount :=
  match tokens with
  | .unknown => .ok .unknown
  | .known value => do
    let rounded ← roundMicros value ratePerMillionMicros
    .ok (.micros rounded)

def checkedSubU64 (left right : UInt64) : Option UInt64 :=
  if right ≤ left then some (left - right) else none

def pricedInput (usage : UsageDetails) (ratePerMillionMicros : UInt64) :
    Except CostError MoneyAmount :=
  match usage.inputTokens, usage.cachedInputTokens, usage.cacheWriteTokens with
  | .known input, .known cached, .known write => do
    let uncached ← okOr ((checkedSubU64 input cached).bind fun value =>
        checkedSubU64 value write)
      ⟨"usage.input_tokens", .inconsistentUsage, none,
        "cached input subsets exceed input tokens"⟩
    let rounded ← roundMicros uncached ratePerMillionMicros
    .ok (.micros rounded)
  | .known input, .unknown, .unknown => do
    let rounded ← roundMicros input ratePerMillionMicros
    .ok (.micros rounded)
  | _, _, _ => .ok .unknown

def sumAmounts (input output cachedInput cacheWrite : MoneyAmount) :
    Except CostError MoneyAmount :=
  match input, output, cachedInput, cacheWrite with
  | .micros input, .micros output, .micros cachedInput, .micros cacheWrite => do
    let sum ← okOr (((checkedI128 (input + output)).bind fun value =>
        checkedI128 (value + cachedInput)).bind fun value => checkedI128 (value + cacheWrite))
      ⟨"cost.total", .overflow, none, "cost total overflowed checked i128 arithmetic"⟩
    .ok (.micros sum)
  | _, _, _, _ => .ok .unknown

def estimateWith (usage : UsageDetails) (price : PriceProfile) :
    Except CostError CostEstimate := do
  let cachedInput ← pricedTokens usage.cachedInputTokens price.cachedInputPerMillionMicros
  let cacheWrite ← pricedTokens usage.cacheWriteTokens price.cacheWritePerMillionMicros
  let output ← pricedTokens usage.outputTokens price.outputPerMillionMicros
  let input ← pricedInput usage price.inputPerMillionMicros
  let total ← sumAmounts input output cachedInput cacheWrite
  .ok {
    currency := some price.currency
    input, output, cachedInput, cacheWrite, total
    priceVersion := some price.version
    priceSource := some price.source }

def estimateCost (usage : UsageDetails) (price : Option PriceProfile) :
    Except CostError CostEstimate := do
  usage.validateRelationships
  match price with
  | none => .ok ⟨none, .unknown, .unknown, .unknown, .unknown, .unknown, none, none⟩
  | some price => estimateWith usage price

/-! ## Rounding -/

section Rounding

variable {tokens rate : UInt64} {rounded : Int}

def product (tokens rate : UInt64) : Nat := tokens.toNat * rate.toNat

theorem checkedI128_eq_some {value result : Int} :
    checkedI128 value = some result ↔ FitsI128 value ∧ result = value := by
  unfold checkedI128
  split
  · next fits => simp [fits, eq_comm]
  · next tooLarge => simp [tooLarge]

theorem roundMicros_eq_ok : roundMicros tokens rate = .ok rounded ↔
      FitsI128 (product tokens rate + 500000) ∧
        rounded = ((product tokens rate + 500000) / 1000000 : Nat) := by
  have isProduct : (tokens.toNat : Int) * rate.toNat = (product tokens rate : Nat) := by
    rw [product, Nat.cast_mul]
  have quotient : ((product tokens rate : Int) + 500000).tdiv 1000000 =
      ((product tokens rate + 500000) / 1000000 : Nat) := by
    rw [Int.tdiv_eq_ediv_of_nonneg (by positivity)]
    push_cast
    rfl
  simp only [roundMicros, bind_eq_ok, okOr_eq_ok, Option.bind_eq_some_iff, checkedI128_eq_some,
    checkedDivI128, isProduct, show (1000000 : Int) ≠ 0 by decide, if_false]
  constructor
  · rintro ⟨_, ⟨_, rfl⟩, _, ⟨fits, rfl⟩, _, rfl⟩
    exact ⟨fits, quotient⟩
  · rintro ⟨fits, rfl⟩
    have large := fits.2
    refine ⟨_, ⟨⟨?_, ?_⟩, rfl⟩, _, ⟨fits, rfl⟩, ⟨?_, ?_⟩, quotient.symm⟩
    · omega
    · omega
    · rw [quotient]
      omega
    · rw [quotient]
      omega

theorem succeeds_roundMicros :
    Succeeds (roundMicros tokens rate) ↔ FitsI128 (product tokens rate + 500000) :=
  ⟨fun ⟨_, isRounded⟩ => (roundMicros_eq_ok.mp isRounded).1,
    fun fits => ⟨_, roundMicros_eq_ok.mpr ⟨fits, rfl⟩⟩⟩

/-- Rounding is off by at most half a unit. -/
theorem roundMicros_error (isRounded : roundMicros tokens rate = .ok rounded) :
    (product tokens rate : ℤ) - 500000 ≤ 1000000 * rounded ∧
      1000000 * rounded ≤ product tokens rate + 500000 := by
  rcases roundMicros_eq_ok.mp isRounded with ⟨_, rfl⟩
  omega

theorem roundMicros_small (isRounded : roundMicros tokens rate = .ok rounded) :
    0 ≤ rounded ∧ rounded < 2 ^ 120 := by
  rcases roundMicros_eq_ok.mp isRounded with ⟨⟨_, fits⟩, rfl⟩
  omega

end Rounding

/-! ## Line items -/

section Items

variable {usage : UsageDetails} {tokens : TokenCount} {rate : UInt64} {amount : MoneyAmount}

def pricedProducts : TokenCount → UInt64 → List Nat
  | .unknown, _ => []
  | .known value, rate => [product value rate]

def uncachedTokens (usage : UsageDetails) : TokenCount :=
  match usage.inputTokens, usage.cachedInputTokens, usage.cacheWriteTokens with
  | .known input, .known cached, .known write => .known (input - cached - write)
  | .known input, .unknown, .unknown => .known input
  | _, _, _ => .unknown

theorem succeeds_pricedTokens : Succeeds (pricedTokens tokens rate) ↔
      ∀ total ∈ pricedProducts tokens rate, FitsI128 (total + 500000) := by
  cases tokens with
  | unknown => exact iff_of_true (succeeds_ok _) nofun
  | known value =>
    rw [pricedProducts, List.forall_mem_singleton, ← succeeds_roundMicros]
    constructor
    · rintro ⟨_, isAmount⟩
      rcases bind_eq_ok.mp isAmount with ⟨rounded, isRounded, _⟩
      exact ⟨rounded, isRounded⟩
    · rintro ⟨rounded, isRounded⟩
      exact ⟨.micros rounded, by simp [pricedTokens, isRounded]⟩

def IsRounded (tokens : TokenCount) (rate : UInt64) (amount : MoneyAmount) : Prop :=
  match tokens with
  | .unknown => amount = .unknown
  | .known value => ∃ rounded, roundMicros value rate = .ok rounded ∧ amount = .micros rounded

theorem pricedTokens_eq_ok :
    pricedTokens tokens rate = .ok amount ↔ IsRounded tokens rate amount := by
  cases tokens with
  | unknown => simp [pricedTokens, IsRounded, eq_comm]
  | known value =>
    simp only [pricedTokens, IsRounded, bind_eq_ok, Except.ok.injEq]
    simp only [eq_comm]

theorem parts_of_input {input cached write : UInt64}
    (valid : usage.validateRelationships = .ok ()) (isInput : usage.inputTokens = .known input)
    (isCached : usage.cachedInputTokens = .known cached)
    (isWrite : usage.cacheWriteTokens = .known write) :
    cached.toNat + write.toNat ≤ input.toNat := by
  simp only [UsageDetails.validateRelationships, bind_eq_ok, exists_unit,
    UsageDetails.validateInputSubsets, isInput, isCached, isWrite, reject_eq_ok] at valid
  exact UsageDetails.subsets_fit valid.2.1

theorem sub_steps {input cached write : UInt64}
    (fits : cached.toNat + write.toNat ≤ input.toNat) : cached ≤ input ∧ write ≤ input - cached ∧
      (input - cached - write).toNat = input.toNat - cached.toNat - write.toNat := by
  have first : cached ≤ input :=
    UInt64.le_iff_toNat_le.mpr (Nat.le_trans (Nat.le_add_right _ _) fits)
  have between := UInt64.toNat_sub_of_le input cached first
  have second : write ≤ input - cached := by
    rw [UInt64.le_iff_toNat_le, between]
    exact Nat.le_sub_of_add_le' fits
  exact ⟨first, second, by rw [UInt64.toNat_sub_of_le _ _ second, between]⟩

/-- In consistent usage, the input is priced like the tokens that no cache is about. -/
theorem pricedInput_eq (valid : usage.validateRelationships = .ok ()) :
    pricedInput usage rate = pricedTokens (uncachedTokens usage) rate := by
  cases isInput : usage.inputTokens with
  | unknown => simp only [pricedInput, uncachedTokens, isInput, pricedTokens]
  | known input =>
    cases isCached : usage.cachedInputTokens with
    | unknown =>
      cases isWrite : usage.cacheWriteTokens <;>
        simp only [pricedInput, uncachedTokens, isInput, isCached, isWrite, pricedTokens]
    | known cached =>
      cases isWrite : usage.cacheWriteTokens with
      | unknown => simp only [pricedInput, uncachedTokens, isInput, isCached, isWrite, pricedTokens]
      | known write =>
        have fits := parts_of_input valid isInput isCached isWrite
        rcases sub_steps fits with ⟨first, second, _⟩
        have uncached : okOr ((checkedSubU64 input cached).bind fun value =>
            checkedSubU64 value write)
            (⟨"usage.input_tokens", .inconsistentUsage, none,
              "cached input subsets exceed input tokens"⟩ : CostError) =
              .ok (input - cached - write) := by
          rw [checkedSubU64, if_pos first, Option.bind_some, checkedSubU64, if_pos second, okOr]
        simp only [pricedInput, uncachedTokens, isInput, isCached, isWrite, pricedTokens]
        rw [uncached, ok_bind]

/-! ## Totals -/

theorem IsRounded.small (isRounded : IsRounded tokens rate amount) {value : Int}
    (isValue : amount = .micros value) : 0 ≤ value ∧ value < 2 ^ 120 := by
  cases tokens with
  | unknown => cases isRounded.symm.trans isValue
  | known =>
    rcases isRounded with ⟨rounded, isRounded, isAmount⟩
    cases isAmount.symm.trans isValue
    exact roundMicros_small isRounded

def sumOf : MoneyAmount → MoneyAmount → MoneyAmount → MoneyAmount → MoneyAmount
  | .micros first, .micros second, .micros third, .micros fourth =>
    .micros (first + second + third + fourth)
  | _, _, _, _ => .unknown

/-- Rounded amounts are too small for their sum to overflow. -/
theorem sumAmounts_eq {input output cachedInput cacheWrite : MoneyAmount}
    (small : ∀ amount ∈ [input, output, cachedInput, cacheWrite], ∀ value,
      amount = .micros value → 0 ≤ value ∧ value < 2 ^ 120) :
    sumAmounts input output cachedInput cacheWrite =
      .ok (sumOf input output cachedInput cacheWrite) := by
  unfold sumAmounts sumOf
  split
  · next first second third fourth =>
      simp only [List.forall_mem_cons, MoneyAmount.micros.injEq, forall_eq'] at small
      rcases small with ⟨firstSmall, secondSmall, thirdSmall, fourthSmall, _⟩
      have fits : ∀ value : Int, 0 ≤ value → value < 2 ^ 127 →
          checkedI128 value = some value := fun _ low high => if_pos ⟨by omega, high⟩
      simp only [fits (first + second) (by omega) (by omega), Option.bind_some,
        fits (first + second + third) (by omega) (by omega),
        fits (first + second + third + fourth) (by omega) (by omega), okOr, ok_bind]
  · rfl

theorem estimateWith_eq_ok {price : PriceProfile} {estimate : CostEstimate}
    (valid : usage.validateRelationships = .ok ()) : estimateWith usage price = .ok estimate →
      IsRounded (uncachedTokens usage) price.inputPerMillionMicros estimate.input ∧
        IsRounded usage.outputTokens price.outputPerMillionMicros estimate.output ∧
          IsRounded usage.cachedInputTokens price.cachedInputPerMillionMicros
              estimate.cachedInput ∧
            IsRounded usage.cacheWriteTokens price.cacheWritePerMillionMicros
                estimate.cacheWrite ∧
              estimate.total = sumOf estimate.input estimate.output estimate.cachedInput
                estimate.cacheWrite := by
  intro accepted
  simp only [estimateWith, bind_eq_ok, pricedInput_eq valid, pricedTokens_eq_ok,
    Except.ok.injEq] at accepted
  rcases accepted with ⟨cachedInput, isCached, cacheWrite, isWrite, output, isOutput, input,
    isInput, total, isTotal, rfl⟩
  refine ⟨isInput, isOutput, isCached, isWrite, ?_⟩
  rw [sumAmounts_eq] at isTotal
  · exact (Except.ok.inj isTotal).symm
  · simp only [List.forall_mem_cons]
    exact ⟨fun _ => isInput.small, fun _ => isOutput.small, fun _ => isCached.small,
      fun _ => isWrite.small, List.forall_mem_nil _⟩

end Items

def costProducts (usage : UsageDetails) (price : PriceProfile) : List Nat :=
  pricedProducts usage.cachedInputTokens price.cachedInputPerMillionMicros ++
    pricedProducts usage.cacheWriteTokens price.cacheWritePerMillionMicros ++
    pricedProducts usage.outputTokens price.outputPerMillionMicros ++
    pricedProducts (uncachedTokens usage) price.inputPerMillionMicros

theorem succeeds_estimateWith {usage : UsageDetails} {price : PriceProfile}
    (valid : usage.validateRelationships = .ok ()) : Succeeds (estimateWith usage price) ↔
      ∀ total ∈ costProducts usage price, FitsI128 (total + 500000) := by
  simp only [costProducts, List.forall_mem_append, ← succeeds_pricedTokens]
  constructor
  · rintro ⟨estimate, accepted⟩
    rcases estimateWith_eq_ok valid accepted with ⟨isInput, isOutput, isCached, isWrite, _⟩
    exact ⟨⟨⟨⟨_, pricedTokens_eq_ok.mpr isCached⟩, ⟨_, pricedTokens_eq_ok.mpr isWrite⟩⟩,
      ⟨_, pricedTokens_eq_ok.mpr isOutput⟩⟩, ⟨_, pricedTokens_eq_ok.mpr isInput⟩⟩
  · rintro ⟨⟨⟨⟨cachedInput, isCached⟩, ⟨cacheWrite, isWrite⟩⟩, ⟨output, isOutput⟩⟩,
      ⟨input, isInput⟩⟩
    have isTotal : sumAmounts input output cachedInput cacheWrite =
        .ok (sumOf input output cachedInput cacheWrite) := by
      refine sumAmounts_eq ?_
      simp only [List.forall_mem_cons]
      exact ⟨fun _ => (pricedTokens_eq_ok.mp isInput).small, fun _ => (pricedTokens_eq_ok.mp
        isOutput).small, fun _ => (pricedTokens_eq_ok.mp isCached).small, fun _ =>
        (pricedTokens_eq_ok.mp isWrite).small, List.forall_mem_nil _⟩
    simp only [estimateWith, pricedInput_eq valid, isCached, isWrite, isOutput, isInput, isTotal,
      ok_bind, succeeds_ok]

def exactCost (input output cached write : UInt64) (price : PriceProfile) : ℚ :=
  (((input.toNat : ℚ) - cached.toNat - write.toNat) * price.inputPerMillionMicros.toNat +
    cached.toNat * price.cachedInputPerMillionMicros.toNat +
    write.toNat * price.cacheWritePerMillionMicros.toNat +
    output.toNat * price.outputPerMillionMicros.toNat) / 1000000

theorem IsRounded.known_iff {tokens : TokenCount} {rate : UInt64} {amount : MoneyAmount}
    (isRounded : IsRounded tokens rate amount) : amount ≠ .unknown ↔ tokens.isKnown = true := by
  cases tokens with
  | unknown => exact iff_of_false (fun known => known isRounded) nofun
  | known =>
    rcases isRounded with ⟨_, _, rfl⟩
    exact iff_of_true nofun rfl

theorem sumOf_known (first second third fourth : MoneyAmount) :
    sumOf first second third fourth ≠ .unknown ↔
      first ≠ .unknown ∧ second ≠ .unknown ∧ third ≠ .unknown ∧ fourth ≠ .unknown := by
  cases first <;> cases second <;> cases third <;> cases fourth <;> simp [sumOf]

section Total

variable {usage : UsageDetails} {price : PriceProfile} {estimate : CostEstimate}

theorem total_known (valid : usage.validateRelationships = .ok ())
    (accepted : estimateWith usage price = .ok estimate) : estimate.total ≠ .unknown ↔
      usage.inputTokens.isKnown = true ∧ usage.outputTokens.isKnown = true ∧
        usage.cachedInputTokens.isKnown = true ∧ usage.cacheWriteTokens.isKnown = true := by
  rcases estimateWith_eq_ok valid accepted with ⟨isInput, isOutput, isCached, isWrite, isTotal⟩
  rw [isTotal, sumOf_known, isInput.known_iff, isOutput.known_iff, isCached.known_iff,
    isWrite.known_iff]
  unfold uncachedTokens
  cases usage.inputTokens <;> cases usage.cachedInputTokens <;>
    cases usage.cacheWriteTokens <;> simp [TokenCount.isKnown]

theorem total_error (valid : usage.validateRelationships = .ok ())
    (accepted : estimateWith usage price = .ok estimate) {total : Int}
    {input output cached write : UInt64} (isTotal : estimate.total = .micros total)
    (isInput : usage.inputTokens = .known input) (isOutput : usage.outputTokens = .known output)
    (isCached : usage.cachedInputTokens = .known cached)
    (isWrite : usage.cacheWriteTokens = .known write) :
    |(total : ℚ) - exactCost input output cached write price| ≤ 2 := by
  have fits := parts_of_input valid isInput isCached isWrite
  have isUncached : uncachedTokens usage = .known (input - cached - write) := by
    simp only [uncachedTokens, isInput, isCached, isWrite]
  rcases estimateWith_eq_ok valid accepted with ⟨inputs, outputs, caches, writes, isSum⟩
  rw [isUncached] at inputs
  rw [isOutput] at outputs
  rw [isCached] at caches
  rw [isWrite] at writes
  rcases inputs with ⟨inputCost, inputRounded, inputAmount⟩
  rcases outputs with ⟨outputCost, outputRounded, outputAmount⟩
  rcases caches with ⟨cachedCost, cachedRounded, cachedAmount⟩
  rcases writes with ⟨writeCost, writeRounded, writeAmount⟩
  rw [isTotal, inputAmount, outputAmount, cachedAmount, writeAmount, sumOf,
    MoneyAmount.micros.injEq] at isSum
  have inputError := roundMicros_error inputRounded
  have outputError := roundMicros_error outputRounded
  have cachedError := roundMicros_error cachedRounded
  have writeError := roundMicros_error writeRounded
  -- the four errors together, a million times too large
  have low : (product (input - cached - write) price.inputPerMillionMicros +
      product cached price.cachedInputPerMillionMicros +
      product write price.cacheWritePerMillionMicros +
      product output price.outputPerMillionMicros : ℤ) - 2000000 ≤ 1000000 * total := by
    omega
  have high : 1000000 * total ≤ (product (input - cached - write) price.inputPerMillionMicros +
      product cached price.cachedInputPerMillionMicros +
      product write price.cacheWritePerMillionMicros +
      product output price.outputPerMillionMicros : ℤ) + 2000000 := by
    omega
  have isExact : exactCost input output cached write price * 1000000 =
      ((product (input - cached - write) price.inputPerMillionMicros +
        product cached price.cachedInputPerMillionMicros +
        product write price.cacheWritePerMillionMicros +
        product output price.outputPerMillionMicros : ℤ) : ℚ) := by
    simp only [exactCost, product, (sub_steps fits).2.2, Nat.sub_sub]
    push_cast [Nat.cast_sub fits]
    ring
  have lowRational := (Int.cast_le (R := ℚ)).mpr low
  have highRational := (Int.cast_le (R := ℚ)).mpr high
  rw [Int.cast_sub, ← isExact, Int.cast_mul] at lowRational
  rw [Int.cast_add, ← isExact, Int.cast_mul] at highRational
  norm_num at lowRational highRational
  rw [abs_le]
  constructor <;> linarith

end Total

/-- When an estimate fails, when it has a total, and how far that is from the exact cost. -/
theorem estimateCost_accurate (usage : UsageDetails) (price : PriceProfile) :
    (¬ Succeeds (estimateCost usage (some price)) ↔
      usage.validateRelationships ≠ .ok () ∨
        ∃ total ∈ costProducts usage price, ¬ FitsI128 (total + 500000)) ∧
    ∀ estimate, estimateCost usage (some price) = .ok estimate →
      (estimate.total ≠ .unknown ↔
        usage.inputTokens.isKnown = true ∧ usage.outputTokens.isKnown = true ∧
          usage.cachedInputTokens.isKnown = true ∧ usage.cacheWriteTokens.isKnown = true) ∧
      ∀ total input output cached write, estimate.total = .micros total →
        usage.inputTokens = .known input → usage.outputTokens = .known output →
          usage.cachedInputTokens = .known cached → usage.cacheWriteTokens = .known write →
            |(total : ℚ) - exactCost input output cached write price| ≤ 2 := by
  constructor
  · by_cases valid : usage.validateRelationships = .ok ()
    · have same : estimateCost usage (some price) = estimateWith usage price := by
        rw [estimateCost, valid, ok_bind]
      rw [same, succeeds_estimateWith valid]
      simp [valid]
    · refine iff_of_true ?_ (.inl valid)
      rintro ⟨estimate, accepted⟩
      simp only [estimateCost, bind_eq_ok, exists_unit] at accepted
      exact valid accepted.1
  · intro estimate accepted
    simp only [estimateCost, bind_eq_ok, exists_unit] at accepted
    exact ⟨total_known accepted.1 accepted.2,
      fun _ _ _ _ _ => total_error accepted.1 accepted.2⟩

end Philo
