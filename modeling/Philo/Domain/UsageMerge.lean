import Mathlib.Order.Bounds.OrderIso
import Philo.Domain.Usage
import Philo.Foundation.Join
import Philo.Foundation.Pipeline

/-! Usage snapshots are ordered by what they know, and merging them is taking their least
upper bound. -/

namespace Philo

open Result

/-! ## Counts -/

namespace TokenCount

/-- A count that is not known is below every other, and nothing else is below anything
else. -/
instance : PartialOrder TokenCount where
  le count other := count = unknown ∨ count = other
  le_refl _ := .inr rfl
  le_trans first second third := by
    rintro (rfl | rfl) later
    · exact .inl rfl
    · exact later
  le_antisymm first second := by
    rintro (rfl | rfl) later
    · exact later.elim Eq.symm Eq.symm
    · rfl

theorem le_def {count other : TokenCount} : count ≤ other ↔ count = unknown ∨ count = other :=
  Iff.rfl

theorem unknown_le (count : TokenCount) : unknown ≤ count := .inl rfl

@[simp] theorem known_le {value : UInt64} {other : TokenCount} :
    known value ≤ other ↔ other = known value := by
  rw [le_def]
  exact ⟨fun below => below.elim nofun Eq.symm, fun same => .inr same.symm⟩

theorem isLUB_unknown (count : TokenCount) : IsLUB {unknown, count} count :=
  ⟨by rintro _ (rfl | rfl); exacts [unknown_le _, le_refl _],
    fun _ bound => bound (Set.mem_insert_of_mem _ rfl)⟩

def union (counts : List TokenCount) : TokenCount := (counts.find? isKnown).getD unknown

theorem isLUB_union {counts : List TokenCount}
    (agree : ∀ value, known value ∈ counts → ∀ other, known other ∈ counts → value = other) :
    IsLUB {count | count ∈ counts} (union counts) := by
  cases isFound : counts.find? isKnown with
  | none =>
    have isUnion : union counts = unknown := by rw [union, isFound]; rfl
    rw [isUnion]
    refine ⟨fun count member => ?_, fun bound _ => unknown_le bound⟩
    have notKnown := List.find?_eq_none.mp isFound count member
    cases count with
    | unknown => exact le_refl _
    | known => exact absurd rfl notKnown
  | some found =>
    have isUnion : union counts = found := by rw [union, isFound]; rfl
    have isMember := List.mem_of_find?_eq_some isFound
    rw [isUnion]
    refine ⟨fun count member => ?_, fun bound isBound => isBound isMember⟩
    cases count with
    | unknown => exact unknown_le _
    | known value =>
      cases found with
      | unknown => cases List.find?_some isFound
      | known other => rw [agree value member other isMember]

theorem mergeTokenCount_isLUB {previous next merged : TokenCount} {field : String} :
    mergeTokenCount previous next field = .ok merged ↔ IsLUB {previous, next} merged := by
  cases previous with
  | unknown =>
    simp only [mergeTokenCount, Except.ok.injEq]
    exact ⟨fun same => same ▸ isLUB_unknown next, fun isLUB => (isLUB_unknown next).unique isLUB⟩
  | known left =>
    cases next with
    | unknown =>
      have isLUB := isLUB_unknown (known left)
      rw [Set.pair_comm] at isLUB
      simp only [mergeTokenCount, Except.ok.injEq]
      exact ⟨fun same => same ▸ isLUB, fun other => isLUB.unique other⟩
    | known right =>
      simp only [mergeTokenCount]
      by_cases same : left = right
      · subst same
        simp only [if_true, Except.ok.injEq, Set.pair_eq_singleton]
        exact ⟨fun same => same ▸ isLUB_singleton, fun other => isLUB_singleton.unique other⟩
      · simp only [same, if_false, reduceCtorEq, false_iff]
        intro isLUB
        have leftBound := known_le.mp (isLUB.1 (Set.mem_insert _ _))
        have rightBound := known_le.mp (isLUB.1 (Set.mem_insert_of_mem _ rfl))
        exact same (known.inj (leftBound.symm.trans rightBound))

end TokenCount

/-! ## Snapshots -/

inductive UsageField where
  | input | output | total | cachedInput | cacheWrite | reasoning
  deriving DecidableEq

namespace UsageDetails

def get (details : UsageDetails) : UsageField → TokenCount
  | .input => details.inputTokens
  | .output => details.outputTokens
  | .total => details.totalTokens
  | .cachedInput => details.cachedInputTokens
  | .cacheWrite => details.cacheWriteTokens
  | .reasoning => details.reasoningTokens

def ofFields (counts : UsageField → TokenCount) : UsageDetails where
  inputTokens := counts .input
  outputTokens := counts .output
  totalTokens := counts .total
  cachedInputTokens := counts .cachedInput
  cacheWriteTokens := counts .cacheWrite
  reasoningTokens := counts .reasoning

@[simp] theorem get_ofFields (counts : UsageField → TokenCount) :
    (ofFields counts).get = counts := by
  funext field
  cases field <;> rfl

theorem get_injective : Function.Injective get := by
  intro first second same
  have fields : ∀ details : UsageDetails, ofFields details.get = details := fun _ => rfl
  rw [← fields first, same, fields]

/-- A snapshot is below another if everything that it knows is the same there. -/
instance : PartialOrder UsageDetails := PartialOrder.lift get get_injective

def fieldsIso : UsageDetails ≃o (UsageField → TokenCount) where
  toFun := get
  invFun := ofFields
  left_inv _ := rfl
  right_inv counts := get_ofFields counts
  map_rel_iff' := Iff.rfl

theorem isLUB_fields {snapshots : Set UsageDetails} {joined : UsageDetails} :
    IsLUB snapshots joined ↔
      ∀ field, IsLUB ((fun details => details.get field) '' snapshots) (joined.get field) := by
  have moved : IsLUB snapshots joined ↔ IsLUB (get '' snapshots) joined.get :=
    (OrderIso.isLUB_image' fieldsIso).symm
  rw [moved, isLUB_pi]
  simp only [Set.image_image, Function.eval]

/-- The merge of two snapshots is their join. -/
theorem merge_isLUB {previous next merged : UsageDetails} :
    previous.merge next = .ok merged ↔ IsLUB {previous, next} merged := by
  rw [isLUB_fields]
  simp only [merge, bind_eq_ok, Except.ok.injEq, TokenCount.mergeTokenCount_isLUB, Set.image_pair]
  constructor
  · rintro ⟨_, input, _, output, _, total, _, cachedInput, _, cacheWrite, _, reasoning, rfl⟩
      field
    cases field
    · exact input
    · exact output
    · exact total
    · exact cachedInput
    · exact cacheWrite
    · exact reasoning
  · intro fields
    exact ⟨_, fields .input, _, fields .output, _, fields .total, _, fields .cachedInput, _,
      fields .cacheWrite, _, fields .reasoning, rfl⟩

/-! ## Unions -/

def union (snapshots : List UsageDetails) : UsageDetails :=
  ofFields fun field => TokenCount.union (snapshots.map fun details => details.get field)

def Agree (snapshots : List UsageDetails) : Prop :=
  ∀ field, ∀ first ∈ snapshots, ∀ second ∈ snapshots, ∀ value other,
    first.get field = .known value → second.get field = .known other → value = other

theorem isLUB_union {snapshots : List UsageDetails} (agree : Agree snapshots) :
    IsLUB {details | details ∈ snapshots} (union snapshots) := by
  rw [isLUB_fields]
  intro field
  have image : (fun details : UsageDetails => details.get field) '' {details | details ∈ snapshots} =
      {count | count ∈ snapshots.map fun details => details.get field} := by
    ext count
    simp
  rw [image, union, get_ofFields]
  refine TokenCount.isLUB_union fun value isValue other isOther => ?_
  rcases List.mem_map.mp isValue with ⟨first, isFirst, firstValue⟩
  rcases List.mem_map.mp isOther with ⟨second, isSecond, secondValue⟩
  exact agree field first isFirst second isSecond value other firstValue secondValue

theorem agree_of_bddAbove {snapshots : List UsageDetails}
    (bounded : BddAbove {details | details ∈ snapshots}) : Agree snapshots := by
  rcases bounded with ⟨bound, isBound⟩
  intro field first isFirst second isSecond value other isValue isOther
  have firstBelow : first.get field ≤ bound.get field := isBound isFirst field
  have secondBelow : second.get field ≤ bound.get field := isBound isSecond field
  rw [isValue, TokenCount.known_le] at firstBelow
  rw [isOther, TokenCount.known_le] at secondBelow
  exact TokenCount.known.inj (firstBelow.symm.trans secondBelow)

/-! ## What is less known is as consistent -/

section Consistent

variable {less more : UsageDetails}

theorem known_of_le (below : less ≤ more) (field : UsageField) {value : UInt64}
    (isKnown : less.get field = .known value) : more.get field = .known value := by
  have atField : less.get field ≤ more.get field := below field
  rwa [isKnown, TokenCount.known_le] at atField

theorem validateTotal_of_le (below : less ≤ more) (valid : more.validateTotal = .ok ()) :
    less.validateTotal = .ok () := by
  unfold validateTotal
  split
  · next input output total isInput isOutput isTotal =>
      have moreInput : more.inputTokens = _ := known_of_le below .input isInput
      have moreOutput : more.outputTokens = _ := known_of_le below .output isOutput
      have moreTotal : more.totalTokens = _ := known_of_le below .total isTotal
      simpa only [validateTotal, moreInput, moreOutput, moreTotal] using valid
  · rfl

theorem validateReasoning_of_le (below : less ≤ more) (valid : more.validateReasoning = .ok ()) :
    less.validateReasoning = .ok () := by
  unfold validateReasoning
  split
  · next output reasoning isOutput isReasoning =>
      have moreOutput : more.outputTokens = _ := known_of_le below .output isOutput
      have moreReasoning : more.reasoningTokens = _ := known_of_le below .reasoning isReasoning
      simpa only [validateReasoning, moreOutput, moreReasoning] using valid
  · rfl

theorem parts_le {input cached write : UInt64}
    (fits : ¬ (checkedAddU64 cached write).all (fun sum => decide (input < sum)) = true) :
    ¬ input < cached ∧ ¬ input < write := by
  have together := subsets_fit fits
  simp only [UInt64.lt_iff_toNat_lt]
  omega

theorem validateInputSubsets_of_le (below : less ≤ more)
    (valid : more.validateInputSubsets = .ok ()) : less.validateInputSubsets = .ok () := by
  unfold validateInputSubsets
  split
  · next input cached write isInput isCached isWrite =>
      have moreInput : more.inputTokens = _ := known_of_le below .input isInput
      have moreCached : more.cachedInputTokens = _ := known_of_le below .cachedInput isCached
      have moreWrite : more.cacheWriteTokens = _ := known_of_le below .cacheWrite isWrite
      simpa only [validateInputSubsets, moreInput, moreCached, moreWrite] using valid
  · next input cached isInput isCached _ =>
      have moreInput : more.inputTokens = _ := known_of_le below .input isInput
      have moreCached : more.cachedInputTokens = _ := known_of_le below .cachedInput isCached
      simp only [validateInputSubsets, moreInput, moreCached] at valid
      rw [reject_eq_ok]
      cases moreWrite : more.cacheWriteTokens with
      | unknown =>
        rw [moreWrite] at valid
        exact reject_eq_ok.mp valid
      | known write =>
        rw [moreWrite] at valid
        exact (parts_le (reject_eq_ok.mp valid)).1
  · next input write isInput _ isWrite =>
      have moreInput : more.inputTokens = _ := known_of_le below .input isInput
      have moreWrite : more.cacheWriteTokens = _ := known_of_le below .cacheWrite isWrite
      simp only [validateInputSubsets, moreInput, moreWrite] at valid
      rw [reject_eq_ok]
      cases moreCached : more.cachedInputTokens with
      | unknown =>
        rw [moreCached] at valid
        exact reject_eq_ok.mp valid
      | known cached =>
        rw [moreCached] at valid
        exact (parts_le (reject_eq_ok.mp valid)).2
  · rfl

theorem validateRelationships_of_le (below : less ≤ more)
    (valid : more.validateRelationships = .ok ()) : less.validateRelationships = .ok () := by
  simp only [validateRelationships, bind_eq_ok, exists_unit] at valid ⊢
  exact ⟨validateTotal_of_le below valid.1, validateInputSubsets_of_le below valid.2.1,
    validateReasoning_of_le below valid.2.2⟩

end Consistent

theorem hasCompleteCore_of_le {less more : UsageDetails} (below : less ≤ more)
    (complete : less.hasCompleteCore = true) : more.hasCompleteCore = true := by
  have known : ∀ field, (less.get field).isKnown = true → (more.get field).isKnown = true := by
    intro field isKnown
    cases value : less.get field with
    | unknown =>
      rw [value] at isKnown
      cases isKnown
    | known count =>
      rw [known_of_le below field value]
      rfl
  simp only [hasCompleteCore, Bool.and_eq_true] at complete ⊢
  exact ⟨⟨known .input complete.1.1, known .output complete.1.2⟩, known .total complete.2⟩

end UsageDetails

/-! ## One merge after another -/

def usageMerger : Producer (Option UsageDetails) UsageDetails UsageMergeOutcome CostError where
  accept previous next := do
    let (merged, outcome) ← mergeUsageDetails previous next
    .ok (some merged, [outcome])
  finish _ := .ok []

def UsageMergeOutcome.isEmitP1 : UsageMergeOutcome → Bool
  | emitP1 _ => true
  | _ => false

section Merging

open UsageDetails

variable {previous next merged whole : UsageDetails} {outcome : UsageMergeOutcome}
  {outcomes : List UsageMergeOutcome} {final : Option UsageDetails} {rest : List UsageDetails}

theorem mergeUsageDetails_none : mergeUsageDetails none next = .ok (merged, outcome) →
      next.validateRelationships = .ok () ∧ merged = next ∧
        outcome.isEmitP1 = next.hasCompleteCore := by
  intro accepted
  simp only [mergeUsageDetails, bind_eq_ok, exists_unit, Except.ok.injEq, Prod.mk.injEq] at accepted
  rcases accepted with ⟨valid, rfl, rfl⟩
  refine ⟨valid, rfl, ?_⟩
  cases next.hasCompleteCore <;> cases next.hasAnyKnown <;> rfl

theorem succeeds_mergeUsageDetails_none (valid : next.validateRelationships = .ok ()) :
    ∃ outcome, mergeUsageDetails none next = .ok (next, outcome) := by
  simp [mergeUsageDetails, valid]

theorem mergeUsageDetails_some
    (accepted : mergeUsageDetails (some previous) next = .ok (merged, outcome)) :
    IsLUB {previous, next} merged ∧ merged.validateRelationships = .ok () ∧
      outcome.isEmitP1 = (!previous.hasCompleteCore && merged.hasCompleteCore) := by
  simp only [mergeUsageDetails, bind_eq_ok, exists_unit, merge_isLUB] at accepted
  rcases accepted with ⟨_, joined, isJoined, valid, accepted⟩
  split at accepted
  · next same =>
      cases accepted
      refine ⟨isJoined, valid, ?_⟩
      rw [same]
      cases previous.hasCompleteCore <;> rfl
  · split at accepted
    · next complete =>
        cases accepted
        exact ⟨isJoined, valid, complete.symm⟩
    · next incomplete =>
        cases accepted
        refine ⟨isJoined, valid, ?_⟩
        simpa [UsageMergeOutcome.isEmitP1] using incomplete

theorem succeeds_mergeUsageDetails_some (isJoined : IsLUB {previous, next} merged)
    (valid : merged.validateRelationships = .ok ()) :
    ∃ outcome, mergeUsageDetails (some previous) next = .ok (merged, outcome) := by
  have nextValid : next.validateRelationships = .ok () :=
    validateRelationships_of_le (isJoined.1 (Set.mem_insert_of_mem _ rfl)) valid
  simp only [mergeUsageDetails, nextValid, ok_bind, merge_isLUB.mpr isJoined, valid]
  split
  · exact ⟨_, rfl⟩
  · split
    · exact ⟨_, rfl⟩
    · exact ⟨_, rfl⟩

theorem run_usageMerger
    (accepted : usageMerger.run (some previous) rest = .ok (final, outcomes)) :
    ∃ whole, final = some whole ∧ IsLUB {details | details ∈ previous :: rest} whole ∧
      (previous.validateRelationships = .ok () → whole.validateRelationships = .ok ()) ∧
        outcomes.countP UsageMergeOutcome.isEmitP1 =
          if !previous.hasCompleteCore && whole.hasCompleteCore then 1 else 0 := by
  induction rest generalizing previous outcomes with
  | nil =>
    cases accepted
    refine ⟨previous, rfl, isLUB_singleton_list.mpr rfl, id, ?_⟩
    cases previous.hasCompleteCore <;> rfl
  | cons next rest induction =>
    rw [Producer.run_cons_eq_ok] at accepted
    rcases accepted with ⟨state, emitted, later, isState, isFinal, rfl⟩
    simp only [usageMerger, bind_eq_ok, Prod.exists, Except.ok.injEq, Prod.mk.injEq] at isState
    rcases isState with ⟨merged, outcome, isMerged, rfl, rfl⟩
    rcases mergeUsageDetails_some isMerged with ⟨isJoined, valid, isP1⟩
    rcases induction isFinal with ⟨whole, isWhole, isLUB, wholeValid, laterP1⟩
    refine ⟨whole, isWhole, (isLUB_cons_cons isJoined).mpr isLUB, fun _ => wholeValid valid, ?_⟩
    have before : previous.hasCompleteCore = true → merged.hasCompleteCore = true :=
      hasCompleteCore_of_le (isJoined.1 (Set.mem_insert _ _))
    have after : merged.hasCompleteCore = true → whole.hasCompleteCore = true :=
      hasCompleteCore_of_le (isLUB.1 List.mem_cons_self)
    rw [List.countP_append, laterP1, List.countP_singleton, isP1]
    revert before after
    cases previous.hasCompleteCore <;> cases merged.hasCompleteCore <;>
      cases whole.hasCompleteCore <;> simp

theorem exists_join (bounded : BddAbove {previous, next}) :
    ∃ joined, IsLUB {previous, next} joined := by
  have pair : {previous, next} = {details | details ∈ [previous, next]} := by
    ext details
    simp
  rw [pair] at bounded ⊢
  exact ⟨_, isLUB_union (agree_of_bddAbove bounded)⟩

/-- A run of merges succeeds if there is something consistent for it to come to. -/
theorem succeeds_usageMerger (isWhole : IsLUB {details | details ∈ previous :: rest} whole)
    (valid : whole.validateRelationships = .ok ()) :
    Succeeds (usageMerger.run (some previous) rest) := by
  induction rest generalizing previous with
  | nil => exact succeeds_ok _
  | cons next rest induction =>
    rcases exists_join (bddAbove_pair isWhole) with ⟨joined, isJoined⟩
    have joinedValid := validateRelationships_of_le (join_le_whole isJoined isWhole) valid
    rcases succeeds_mergeUsageDetails_some isJoined joinedValid with ⟨outcome, isMerged⟩
    rcases induction ((isLUB_cons_cons isJoined).mp isWhole) with
      ⟨⟨final, outcomes⟩, isFinal⟩
    refine ⟨(final, [outcome] ++ outcomes), usageMerger.run_cons_eq_ok.mpr
      ⟨some joined, [outcome], outcomes, ?_, isFinal, rfl⟩⟩
    simp [usageMerger, isMerged]

variable {snapshots permuted : List UsageDetails}

theorem union_eq (isWhole : IsLUB {details | details ∈ snapshots} whole) :
    Agree snapshots ∧ union snapshots = whole := by
  have agree := agree_of_bddAbove ⟨whole, isWhole.1⟩
  exact ⟨agree, (isLUB_union agree).unique isWhole⟩

theorem run_usageMerger_none (accepted : usageMerger.run none snapshots = .ok (final, outcomes)) :
    Agree snapshots ∧ (union snapshots).validateRelationships = .ok () ∧
      final = (if snapshots = [] then none else some (union snapshots)) ∧
        outcomes.countP UsageMergeOutcome.isEmitP1 =
          if (union snapshots).hasCompleteCore then 1 else 0 := by
  cases snapshots with
  | nil =>
    cases accepted
    exact ⟨nofun, rfl, rfl, rfl⟩
  | cons first rest =>
    rw [Producer.run_cons_eq_ok] at accepted
    rcases accepted with ⟨state, emitted, later, isState, isFinal, rfl⟩
    simp only [usageMerger, bind_eq_ok, Prod.exists, Except.ok.injEq, Prod.mk.injEq] at isState
    rcases isState with ⟨merged, outcome, isMerged, rfl, rfl⟩
    rcases mergeUsageDetails_none isMerged with ⟨valid, rfl, isP1⟩
    rcases run_usageMerger isFinal with ⟨whole, rfl, isWhole, wholeValid, laterP1⟩
    rcases union_eq isWhole with ⟨agree, isUnion⟩
    rw [isUnion]
    refine ⟨agree, wholeValid valid, by simp, ?_⟩
    have after : merged.hasCompleteCore = true → whole.hasCompleteCore = true :=
      hasCompleteCore_of_le (isWhole.1 List.mem_cons_self)
    rw [List.countP_append, laterP1, List.countP_singleton, isP1]
    revert after
    cases merged.hasCompleteCore <;> cases whole.hasCompleteCore <;> simp

theorem succeeds_usageMerger_none (agree : Agree snapshots)
    (valid : (union snapshots).validateRelationships = .ok ()) :
    Succeeds (usageMerger.run none snapshots) := by
  cases snapshots with
  | nil => exact succeeds_ok _
  | cons first rest =>
    have isWhole := isLUB_union agree
    have firstValid := validateRelationships_of_le (isWhole.1 List.mem_cons_self) valid
    rcases succeeds_mergeUsageDetails_none firstValid with ⟨outcome, isMerged⟩
    rcases succeeds_usageMerger isWhole valid with ⟨⟨final, outcomes⟩, isFinal⟩
    refine ⟨(final, [outcome] ++ outcomes), usageMerger.run_cons_eq_ok.mpr
      ⟨some first, [outcome], outcomes, ?_, isFinal, rfl⟩⟩
    simp [usageMerger, isMerged]

theorem union_perm (same : permuted.Perm snapshots) (agree : Agree snapshots) :
    Agree permuted ∧ union permuted = union snapshots := by
  have sameSet : {details | details ∈ permuted} = {details | details ∈ snapshots} := by
    ext details
    exact same.mem_iff
  refine union_eq ?_
  rw [sameSet]
  exact isLUB_union agree

end Merging

open UsageDetails in
/-- A sequence of snapshots can be merged if no field has two values and the values are
consistent. The result is what is known in any of them, whatever their order, and the core
counters are reported once. -/
theorem usageMerger_joins (snapshots : List UsageDetails) :
    (Succeeds (usageMerger.run none snapshots) ↔
      Agree snapshots ∧ (union snapshots).validateRelationships = .ok ()) ∧
    ∀ final outcomes, usageMerger.run none snapshots = .ok (final, outcomes) →
      final = (if snapshots = [] then none else some (union snapshots)) ∧
        outcomes.countP UsageMergeOutcome.isEmitP1 =
            (if (union snapshots).hasCompleteCore then 1 else 0) ∧
          ∀ permuted, permuted.Perm snapshots →
            ∃ reordered, usageMerger.run none permuted = .ok (final, reordered) := by
  refine ⟨⟨?_, fun given => succeeds_usageMerger_none given.1 given.2⟩, ?_⟩
  · rintro ⟨⟨final, outcomes⟩, accepted⟩
    rcases run_usageMerger_none accepted with ⟨agree, valid, _, _⟩
    exact ⟨agree, valid⟩
  · intro final outcomes accepted
    rcases run_usageMerger_none accepted with ⟨agree, valid, isFinal, isP1⟩
    refine ⟨isFinal, isP1, fun permuted same => ?_⟩
    rcases union_perm same agree with ⟨permutedAgree, sameUnion⟩
    rcases succeeds_usageMerger_none permutedAgree (sameUnion ▸ valid) with
      ⟨⟨other, reordered⟩, isOther⟩
    have otherFinal := (run_usageMerger_none isOther).2.2.1
    have sameEmpty : permuted = [] ↔ snapshots = [] := by
      rw [← List.length_eq_zero_iff, same.length_eq, List.length_eq_zero_iff]
    simp only [sameUnion, sameEmpty, ← isFinal] at otherFinal
    exact ⟨reordered, otherFinal ▸ isOther⟩

end Philo
