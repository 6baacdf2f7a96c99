import Philo.Domain.Schema.Verdict

/-! The validator and the evaluation of a schema agree as long as the guard lets them. -/

namespace Philo

open Result Checked

namespace ToolSchema

open Evaluation

/-! ## Outcomes -/

def TooDeep (result : Except ToolValidationError Unit) : Prop :=
  ∃ error, result = .error error ∧ isTooDeep error = true

def HasVerdict (result : Except ToolValidationError Unit) (verdict : Bool) : Prop :=
  match result with
  | .ok _ => verdict = true
  | .error error => verdict = false ∧ isTooDeep error = false

namespace ReferenceGuard

def spend (guard : ReferenceGuard) (count : Nat) : ReferenceGuard :=
  { guard with expansionCount := saturatingAdd guard.expansionCount count }

def Allows (guard : ReferenceGuard) (count : Nat) : Prop :=
  (guard.spend count).expansionCount ≤ guard.maxExpansions

instance (guard : ReferenceGuard) (count : Nat) : Decidable (guard.Allows count) :=
  inferInstanceAs (Decidable (_ ≤ _))

structure Open (guard : ReferenceGuard) : Prop where
  within : guard.expansionCount ≤ guard.maxExpansions
  fits : guard.maxExpansions < 2 ^ 64

section Spend

variable {guard : ReferenceGuard} {count more : Nat}

theorem spend_zero (isOpen : guard.Open) : guard.spend 0 = guard := by
  have within := isOpen.within
  have fits := isOpen.fits
  have same : saturatingAdd guard.expansionCount 0 = guard.expansionCount := by
    simp only [saturatingAdd]
    omega
  rw [spend, same]

theorem spend_spend : (guard.spend count).spend more = guard.spend (count + more) := by
  simp only [spend, saturatingAdd, mk.injEq, true_and, and_true]
  omega

theorem allows_spend : (guard.spend count).Allows more ↔ guard.Allows (count + more) := by
  rw [Allows, spend_spend]
  rfl

theorem allows_zero (isOpen : guard.Open) : guard.Allows 0 := by
  rw [Allows, spend_zero isOpen]
  exact isOpen.within

theorem Allows.of_add (allows : guard.Allows (count + more)) : guard.Allows count := by
  simp only [Allows, spend, saturatingAdd] at allows ⊢
  omega

theorem Open.spend (isOpen : guard.Open) (allows : guard.Allows count) :
    (guard.spend count).Open := ⟨allows, isOpen.fits⟩

theorem new_open (limits : SchemaLimits) : (new limits).Open := by
  refine ⟨Nat.zero_le _, ?_⟩
  simp only [new, saturatingMul]
  omega

end Spend

end ReferenceGuard

open ReferenceGuard

/-- A validation does what an evaluation says, unless the guard stops it. -/
def Outcome (guard : ReferenceGuard)
    (result : Except ToolValidationError Unit × Validation) : Evaluation → Prop
  | none => TooDeep result.1
  | some (verdict, count) =>
    if guard.Allows count then
      result.2.guard = guard.spend count ∧ HasVerdict result.1 verdict
    else TooDeep result.1

/-- A check and an evaluation agree while the given references are being followed. -/
def Agrees (active : List String) (check : Validator) (evaluation : Evaluation) : Prop :=
  ∀ state, state.guard.activeRefs = active → state.guard.Open →
    Outcome state.guard (check state) evaluation

section Agrees

variable {active : List String} {first second check : Validator}
  {evaluation firstEvaluation secondEvaluation : Evaluation}

variable {guard : ReferenceGuard} {count : Nat}
  {result : Except ToolValidationError Unit × Validation} {path : String}
  {entries : List (String × Json)} {limits : SchemaLimits} {value : Json}

theorem agrees_lift {result : Except ToolValidationError Unit} {verdict : Bool}
    (same : HasVerdict result verdict) : Agrees active (lift result) (done verdict) := by
  intro state _ isOpen
  simp only [Outcome, done, allows_zero isOpen, if_true, spend_zero isOpen]
  exact ⟨rfl, same⟩

theorem outcome_some {verdict : Bool} : Outcome guard result (some (verdict, count)) ↔
      (guard.Allows count → result.2.guard = guard.spend count ∧ HasVerdict result.1 verdict) ∧
        (¬ guard.Allows count → TooDeep result.1) := by
  by_cases allows : guard.Allows count <;> simp [Outcome, allows]

/-- Once the guard has stopped a validation, no evaluation that goes on is affordable. -/
theorem outcome_stopped (stopped : TooDeep result.1) (notAllowed : ¬ guard.Allows count) :
    Outcome guard result (evaluation.after count) := by
  cases evaluation with
  | none => exact stopped
  | some pair =>
    refine outcome_some.mpr ⟨fun allows => absurd allows.of_add notAllowed, fun _ => stopped⟩

/-- What happens after some references happens to the guard that has counted them. -/
theorem outcome_after (outcome : Outcome (guard.spend count) result evaluation) :
    Outcome guard result (evaluation.after count) := by
  cases evaluation with
  | none => exact outcome
  | some pair =>
    rw [outcome_some] at outcome
    rw [allows_spend, spend_spend] at outcome
    exact outcome_some.mpr outcome

theorem Agrees.andThen (firstAgrees : Agrees active first firstEvaluation)
    (secondAgrees : Agrees active second secondEvaluation) :
    Agrees active (first.andThen second) (firstEvaluation.andThen secondEvaluation) := by
  intro state isActive isOpen
  have outcome := firstAgrees state isActive isOpen
  unfold Checked.andThen
  cases firstEvaluation with
  | none =>
    rcases outcome with ⟨error, isError, tooDeep⟩
    rcases isFirst : first state with ⟨result, next⟩
    rw [isFirst] at isError
    cases isError
    exact ⟨error, rfl, tooDeep⟩
  | some pair =>
    rcases pair with ⟨held, count⟩
    rw [outcome_some] at outcome
    rcases isFirst : first state with ⟨result, next⟩
    rw [isFirst] at outcome
    by_cases allows : state.guard.Allows count
    · rcases outcome.1 allows with ⟨sameGuard, verdict⟩
      cases result with
      | ok =>
        cases verdict
        refine outcome_after ?_
        have isOpen' := isOpen.spend allows
        rw [← sameGuard] at isOpen' ⊢
        refine secondAgrees next ?_ isOpen'
        rw [sameGuard]
        exact isActive
      | error error =>
        rcases verdict with ⟨rfl, notDeep⟩
        exact outcome_some.mpr ⟨fun _ => ⟨sameGuard, rfl, notDeep⟩, absurd allows⟩
    · rcases outcome.2 allows with ⟨error, rfl, tooDeep⟩
      cases held with
      | true => exact outcome_stopped ⟨error, rfl, tooDeep⟩ allows
      | false => exact outcome_some.mpr ⟨fun now => absurd now allows, fun _ => ⟨error, rfl, tooDeep⟩⟩

theorem agrees_each {α : Type} {items : List α} {checkItem : α → Validator}
    {evaluateItem : α → Evaluation}
    (agrees : ∀ item ∈ items, Agrees active (checkItem item) (evaluateItem item)) :
    Agrees active (each checkItem items) (all evaluateItem items) := by
  induction items with
  | nil => exact agrees_lift rfl
  | cons item rest induction =>
    rw [List.forall_mem_cons] at agrees
    exact agrees.1.andThen (induction agrees.2)

theorem agrees_firstOf {items : List Json} {otherwise : ToolValidationError}
    {checkItem : Json → Validator} {evaluateItem : Json → Evaluation}
    (notDeep : isTooDeep otherwise = false)
    (agrees : ∀ item ∈ items, Agrees active (checkItem item) (evaluateItem item)) :
    Agrees active (firstOf isTooDeep otherwise checkItem items) (any evaluateItem items) := by
  induction items with
  | nil => exact agrees_lift ⟨rfl, notDeep⟩
  | cons item rest induction =>
    rw [List.forall_mem_cons] at agrees
    intro state isActive isOpen
    have outcome := agrees.1 state isActive isOpen
    unfold firstOf any
    rcases isFirst : checkItem item state with ⟨result, next⟩
    rw [isFirst] at outcome
    cases isEvaluation : evaluateItem item with
    | none =>
      rw [isEvaluation] at outcome
      rcases outcome with ⟨error, rfl, tooDeep⟩
      simp only [tooDeep, if_true]
      exact ⟨error, rfl, tooDeep⟩
    | some pair =>
      rcases pair with ⟨held, count⟩
      rw [isEvaluation, outcome_some] at outcome
      by_cases allows : state.guard.Allows count
      · rcases outcome.1 allows with ⟨sameGuard, verdict⟩
        cases result with
        | ok =>
          cases verdict
          exact outcome_some.mpr ⟨fun _ => ⟨sameGuard, rfl⟩, absurd allows⟩
        | error error =>
          rcases verdict with ⟨rfl, notFatal⟩
          simp only [notFatal, Bool.false_eq_true, if_false]
          refine outcome_after ?_
          have isOpen' := isOpen.spend allows
          rw [← sameGuard] at isOpen' ⊢
          refine induction agrees.2 next ?_ isOpen'
          rw [sameGuard]
          exact isActive
      · rcases outcome.2 allows with ⟨error, rfl, tooDeep⟩
        simp only [tooDeep, if_true]
        cases held with
        | true =>
          exact outcome_some.mpr ⟨fun now => absurd now allows, fun _ => ⟨error, rfl, tooDeep⟩⟩
        | false => exact outcome_stopped ⟨error, rfl, tooDeep⟩ allows

/-! ## The parts of a node -/

def NotDeep (error : ToolValidationError) : Prop := isTooDeep error = false

theorem notDeep_present {map : List (String × Json)} (names : List (Json × Nat)) :
    FailsWith NotDeep (validatePresent path map names) := by
  induction names with
  | nil => exact failsWith_ok ()
  | cons name rest induction => exact (failsWith_reject (by rfl)).bind fun _ => induction

theorem notDeep_local : FailsWith NotDeep (validateLocal entries path limits value) := by
  have own : ∀ {condition : Prop} [Decidable condition] {message : String},
      FailsWith NotDeep (reject condition (violation path message)) := failsWith_reject rfl
  refine own.bind fun _ => own.bind fun _ => own.bind fun _ => ?_
  cases value with
  | string => exact own.bind fun _ => own
  | number => exact own.bind fun _ => own
  | array => exact (failsWith_reject (by rfl)).bind fun _ => own.bind fun _ => own
  | object => exact notDeep_present _
  | null | bool => exact failsWith_ok ()

theorem agrees_local (bounded : Bounded limits value) :
    Agrees active (lift (validateLocal entries path limits value))
      (done (validateLocal entries "#" limits value).isOk) := by
  have fits : ∀ items, value = .array items → items.length ≤ limits.maxJsonArrayItems :=
    fun items isArray => bounded items (isArray ▸ .self _)
  -- the place of a node has no effect on the result
  have samePlace : validateLocal entries path limits value = .ok () ↔
      validateLocal entries "#" limits value = .ok () := by
    simp only [validateLocal, bind_eq_ok, reject_eq_ok, exists_const, validateSizes_eq_ok fits]
  refine agrees_lift ?_
  cases isResult : validateLocal entries path limits value with
  | ok =>
    rw [samePlace.mp isResult]
    rfl
  | error error =>
    refine ⟨?_, notDeep_local error isResult⟩
    cases isOther : validateLocal entries "#" limits value with
    | ok => cases isResult.symm.trans (samePlace.mpr isOther)
    | error => rfl

theorem outcome_leave {canonical : String}
    (outcome : Outcome { guard with activeRefs := canonical :: guard.activeRefs } result
      evaluation) :
    Outcome guard (result.1, result.2.leave canonical) evaluation := by
  cases evaluation with
  | none => exact outcome
  | some pair =>
    rw [outcome_some] at outcome
    refine outcome_some.mpr ⟨fun allows => ?_, outcome.2⟩
    rcases outcome.1 allows with ⟨sameGuard, verdict⟩
    refine ⟨?_, verdict⟩
    simp only [Validation.leave, leave, sameGuard, spend, List.erase_cons_head]

theorem agrees_referenced {root : Json} {reference : String} {validate : Json → Validator}
    {evaluateTarget : List String → Json → Evaluation}
    (inner : ∀ active target, Agrees active (validate target) (evaluateTarget active target)) :
    Agrees active (validateReferenced root reference path validate)
      (evaluateReferenced root active reference evaluateTarget) := by
  unfold validateReferenced evaluateReferenced
  cases Pointer.canonicalizeLocalRef reference with
  | none => exact agrees_lift (by exact ⟨rfl, rfl⟩)
  | some canonical =>
    dsimp only
    cases Pointer.resolveLocalRef root canonical with
    | none => exact agrees_lift (by exact ⟨rfl, rfl⟩)
    | some target =>
      rintro state rfl isOpen
      simp only [Checked.andThen, Validation.enter, enter]
      by_cases again : canonical ∈ state.guard.activeRefs
      · simp only [again, or_true, if_true]
        exact ⟨_, rfl, rfl⟩
      · simp only [again, or_false, if_false]
        by_cases allows : state.guard.Allows 1
        · have within : ¬ state.guard.maxExpansions <
              saturatingAdd state.guard.expansionCount 1 := Nat.not_lt.mpr allows
          simp only [within, if_false]
          refine outcome_after (outcome_leave ?_)
          exact inner _ target ⟨_, state.visits⟩ rfl ⟨allows, isOpen.fits⟩
        · have exceeded : state.guard.maxExpansions <
              saturatingAdd state.guard.expansionCount 1 := Nat.lt_of_not_le allows
          simp only [exceeded, if_true]
          exact outcome_stopped (by exact ⟨_, rfl, rfl⟩) allows

theorem agrees_children {validate : Json → Json → String → Validator}
    {evaluateChild : Json → Json → Evaluation} (bounded : Bounded limits value)
    (inner : ∀ schema child path, Bounded limits child →
      Agrees active (validate schema child path) (evaluateChild schema child)) :
    Agrees active (validateChildren entries value path validate)
      (evaluateChildren entries value evaluateChild) := by
  cases value with
  | array items =>
    simp only [validateChildren, evaluateChildren]
    cases entries.lookup "items" with
    | none => exact agrees_lift (by exact rfl)
    | some itemSchema =>
      dsimp only
      rw [← List.zipIdx_map_fst 0 items, all_map, List.zipIdx_map_fst]
      refine agrees_each ?_
      rintro ⟨item, index⟩ member
      exact inner _ _ _ (bounded.item (List.fst_mem_of_mem_zipIdx member))
  | object map =>
    refine agrees_each ?_
    rintro ⟨key, child⟩ member
    dsimp only
    cases propertySchema? entries key with
    | some schema => exact inner _ _ _ (bounded.entry member)
    | none =>
      dsimp only
      cases allowsAdditional entries with
      | false => exact agrees_lift (by exact ⟨rfl, rfl⟩)
      | true => exact agrees_lift (by exact rfl)
  | null | bool | number | string => exact agrees_lift (by exact rfl)

theorem Agrees.after_visit {node : Json} (agrees : Agrees active check evaluation) :
    Agrees active ((Validation.visit node value).andThen check) evaluation :=
  fun state isActive isOpen =>
    agrees ⟨state.guard, ⟨node, value, state.guard.activeRefs⟩ :: state.visits⟩ isActive isOpen

/-- The validator agrees with the evaluation, at every node. -/
theorem agrees_validateValue (root : Json) {limits : SchemaLimits} (depth : Nat)
    (active : List String) (schema value : Json) (path : String)
    (bounded : Bounded limits value) :
    Agrees active (validateValue root limits depth schema value path)
      (evaluate root limits depth active schema value) := by
  induction depth generalizing active schema value path with
  | zero => exact fun _ _ _ => ⟨_, rfl, rfl⟩
  | succ depth induction =>
    unfold validateValue evaluate
    cases schema with
    | object entries =>
      simp only [Json.asObject?]
      refine fun state isActive isOpen => ?_
      refine Agrees.after_visit ?_ state isActive isOpen
      cases (entries.lookup "$ref").bind Json.asStr? with
      | some reference =>
        exact agrees_referenced fun active target => induction active target value path bounded
      | none =>
        refine Agrees.andThen ?_ ((agrees_local bounded).andThen
          (agrees_children bounded fun schema child path bounded =>
            induction active schema child path bounded))
        unfold validateAnyOf evaluateAnyOf
        cases (entries.lookup "anyOf").bind Json.asArray? with
        | none => exact agrees_lift (by exact rfl)
        | some branches =>
          exact agrees_firstOf rfl fun branch _ => induction active branch value path bounded
    | null | bool | number | string | array =>
      exact fun state isActive isOpen => agrees_lift (by exact ⟨rfl, rfl⟩)
        ⟨state.guard, _⟩ isActive isOpen

end Agrees

end ToolSchema

end Philo
