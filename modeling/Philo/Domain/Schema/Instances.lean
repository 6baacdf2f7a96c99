import Philo.Domain.Schema.Depth

/-! Which instances a schema accepts. -/

namespace Philo

open Result

namespace ToolSchema

open Evaluation

section Instances

variable {root value : Json} {limits : SchemaLimits}

theorem outcome_validation (bounded : Bounded limits value) :
    Outcome (.new limits) (validation root value limits)
      (evaluate root limits (steps root) [] root value) :=
  agrees_validateValue root (steps root) [] root value "#" bounded ⟨.new limits, []⟩ rfl
    (ReferenceGuard.new_open limits)

/-- A verdict that some depth comes to is the one at the model's depth. -/
theorem evaluate_steps {depth : Nat} {verdict : Bool × Nat}
    (isVerdict : evaluate root limits depth [] root value = some verdict) :
    evaluate root limits (steps root) [] root value = some verdict :=
  evaluate_extends limits depth (inDocument_nil root) (.self _)
    (Nat.le_of_eq (stepsFrom_root root)) verdict isVerdict

theorem affordable_iff : Affordable limits root value ↔
      ∃ verdict count, evaluate root limits (steps root) [] root value = some (verdict, count) ∧
        (ReferenceGuard.new limits).Allows count := by
  constructor
  · rintro ⟨depth, verdict, count, isVerdict, allowed⟩
    exact ⟨verdict, count, evaluate_steps isVerdict, allowed⟩
  · rintro ⟨verdict, count, isVerdict, allowed⟩
    exact ⟨steps root, verdict, count, isVerdict, allowed⟩

theorem not_ok_of_tooDeep {result : Except ToolValidationError Unit} (tooDeep : TooDeep result) :
    result ≠ .ok () := by
  rintro rfl
  rcases tooDeep with ⟨_, isError, _⟩
  cases isError

theorem hasVerdict_ok {result : Except ToolValidationError Unit} {verdict : Bool}
    (has : HasVerdict result verdict) : result = .ok () ↔ verdict = true := by
  cases result with
  | ok => exact iff_of_true rfl has
  | error error =>
    refine iff_of_false nofun ?_
    rw [has.1]
    exact Bool.false_ne_true

theorem validation_tooDeep (bounded : Bounded limits value)
    (beyond : ¬ Affordable limits root value) : TooDeep (validation root value limits).1 := by
  rw [affordable_iff] at beyond
  have outcome := @outcome_validation root value limits bounded
  cases isVerdict : evaluate root limits (steps root) [] root value with
  | none =>
    rw [isVerdict] at outcome
    exact outcome
  | some pair =>
    rw [isVerdict, outcome_some] at outcome
    exact outcome.2 fun allowed => beyond ⟨pair.1, pair.2, isVerdict, allowed⟩

theorem validation_eq_ok (bounded : Bounded limits value) :
    (validation root value limits).1 = .ok () ↔
      Satisfies root root value ∧ Affordable limits root value := by
  by_cases affordable : Affordable limits root value
  · rcases affordable_iff.mp affordable with ⟨verdict, count, isVerdict, allowed⟩
    have outcome := @outcome_validation root value limits bounded
    rw [isVerdict, outcome_some] at outcome
    rw [hasVerdict_ok (outcome.1 allowed).2,
      decides_evaluate (steps root) [] root bounded verdict count isVerdict]
    exact (and_iff_left affordable).symm
  · exact iff_of_false (not_ok_of_tooDeep (validation_tooDeep bounded affordable))
      fun accepted => affordable accepted.2

end Instances

/-- A schema accepts an instance that is within the limits if the instance satisfies it, and
if the references that lead there are not more than the guard allows. -/
theorem validate_iff_satisfies (render : Json → String) (schema : ToolSchema) (value : Json)
    (limits : SchemaLimits) :
    validate render schema value limits = .ok () ↔
      preflightInstance render value limits = .ok () ∧
        Satisfies schema.value schema.value value ∧ Affordable limits schema.value value := by
  simp only [validate, validateInstance, bind_eq_ok, exists_unit]
  refine and_congr_right fun preflight => validation_eq_ok ?_
  exact (preflightInstance_eq_ok.mp preflight).2.2

def sharedItem : Json :=
  .object [("$defs", .object [("a", .object [])]),
    ("items", .object [("$ref", .string "#/$defs/a")])]

def shallow : SchemaLimits := ⟨256 * 1024, 3, 65536⟩

def tenItems : Json := .array (List.replicate 10 .null)

theorem sharedItem_satisfied : Satisfies sharedItem sharedItem tenItems := by
  have isVerdict : evaluate sharedItem shallow (steps sharedItem) [] sharedItem tenItems =
      some (true, 10) := by decide +kernel
  refine (decides_evaluate _ _ _ ?_ true 10 isVerdict).mp rfl
  have checked : checkArrayLengths shallow tenItems "#" = .ok () := by decide +kernel
  exact (checkArrayLengths_eq_ok shallow tenItems "#").mp checked

/-- Ten items are one reference too many, whatever the serializer writes within the size
limits. -/
theorem tenItems_rejected :
    (∀ render, Text.len (render sharedItem) ≤ shallow.maxSchemaBytes →
      Succeeds (compileSchema render sharedItem shallow)) ∧
    Satisfies sharedItem sharedItem tenItems ∧
    ∀ render, Text.len (render tenItems) ≤ maxToolArgumentsBytes →
      preflightInstance render tenItems shallow = .ok () ∧
        ∀ strict, validate render ⟨sharedItem, strict⟩ tenItems shallow ≠ .ok () := by
  refine ⟨@compiles_of_document _ _ false (by decide +kernel), sharedItem_satisfied,
    fun render fits => ?_⟩
  have checked : checkArrayLengths shallow tenItems "#" = .ok () := by decide +kernel
  refine ⟨preflightInstance_eq_ok.mpr ⟨fits, by decide +kernel,
    (checkArrayLengths_eq_ok shallow tenItems "#").mp checked⟩, fun strict accepted => ?_⟩
  simp only [validate, validateInstance, bind_eq_ok, exists_unit] at accepted
  have rejected : (validation sharedItem tenItems shallow).1.isOk = false := by decide +kernel
  rw [accepted.2] at rejected
  cases rejected

end ToolSchema

end Philo
