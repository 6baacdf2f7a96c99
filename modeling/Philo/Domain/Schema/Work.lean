import Mathlib.Algebra.BigOperators.Ring.List
import Mathlib.Algebra.Order.BigOperators.Group.List
import Mathlib.Algebra.Order.Ring.Nat
import Philo.Domain.Schema.Instances
import Philo.Domain.Schema.Visits

/-! How many calls a validation makes. -/

namespace Philo

open Result Checked Pointer Json List

namespace ToolSchema

/-! ## Sizes -/

def size (value : Json) : Nat := (valuesIn value).length

theorem size_pos (value : Json) : 0 < size value := by cases value <;> simp [size, valuesIn]

theorem length_valuesInItems (items : List Json) :
    (valuesInItems items).length = (items.map size).sum := by
  induction items with
  | nil => rfl
  | cons item rest induction =>
    rw [valuesInItems, length_append, induction]
    rfl

theorem length_valuesInEntries (entries : List (String × Json)) :
    (valuesInEntries entries).length = (entries.map fun entry => size entry.2).sum := by
  induction entries with
  | nil => rfl
  | cons entry rest induction =>
    rw [valuesInEntries, length_append, induction]
    rfl

theorem size_array (items : List Json) : size (.array items) = (items.map size).sum + 1 := by
  rw [size, valuesIn, length_cons, length_valuesInItems]

theorem size_object (entries : List (String × Json)) :
    size (.object entries) = (entries.map fun entry => size entry.2).sum + 1 := by
  rw [size, valuesIn, length_cons, length_valuesInEntries]

theorem size_le_sum {α : Type} {measure : α → Nat} {items : List α} {item : α}
    (member : item ∈ items) : measure item ≤ (items.map measure).sum :=
  single_le_sum (fun _ _ => Nat.zero_le _) _ (mem_map_of_mem member)

theorem size_within {inner outer : Json} (within : inner.Within outer) :
    size inner ≤ size outer := by
  induction within with
  | self => exact Nat.le_refl _
  | item member _ induction =>
    rw [size_array]
    have part := @size_le_sum _ size _ _ member
    omega
  | entry member _ induction =>
    rw [size_object]
    have part := @size_le_sum _ (fun entry : String × Json => size entry.2) _ _ member
    omega

def sizeAt (entries : List (String × Json)) (key : String) : Nat :=
  ((entries.lookup key).map size).getD 0

theorem sizeAt_eq {entries : List (String × Json)} {key : String} {child : Json}
    (found : entries.lookup key = some child) : sizeAt entries key = size child := by
  rw [sizeAt, found]
  rfl

theorem sizeAt_cons (name key : String) (child : Json) (rest : List (String × Json)) :
    sizeAt ((name, child) :: rest) key = if key = name then size child else sizeAt rest key := by
  by_cases same : key = name
  · simp [sizeAt, same]
  · simp [sizeAt, lookup_cons, beq_false_of_ne same, same]

theorem sizeAt_children (entries : List (String × Json)) :
    sizeAt entries "anyOf" + (sizeAt entries "items" + sizeAt entries "properties") ≤
      (entries.map fun entry => size entry.2).sum := by
  induction entries with
  | nil => exact Nat.le_refl 0
  | cons entry rest induction =>
    rcases entry with ⟨name, child⟩
    simp only [sizeAt_cons, map_cons, sum_cons]
    split_ifs <;> first | omega | (subst_vars; simp_all)

/-! ## Bounds -/

def expansions (state : Validation) : Nat :=
  min state.guard.expansionCount state.guard.maxExpansions

structure Counts (most : Nat) (state : Validation) : Prop where
  most : state.guard.maxExpansions = most
  fits : state.guard.expansionCount < 2 ^ 64

section Bounds

variable {root value : Json} {limits : SchemaLimits} {most unit : Nat}
  {entries : List (String × Json)} {path : String}

abbrev Calling (most unit bound : Nat) (check : Validator) : Prop :=
  Costs (fun state => state.visits.length) (fun state => expansions state * unit) (Counts most)
    bound check

theorem calling_visit (node value : Json) : Calling most unit 1 (Validation.visit node value) :=
  fun _ kept => ⟨⟨kept.most, kept.fits⟩, Nat.le_refl _⟩

theorem calling_referenced {reference : String} {validate : Json → Validator}
    (fits : most + 1 < 2 ^ 64) (inner : ∀ target, resolveLocalRef root reference = some target →
      Calling most unit unit (validate target)) :
    Calling most unit 0 (validateReferenced root reference path validate) := by
  unfold validateReferenced
  split
  · exact costs_lift (.error _)
  · next canonical isCanonical =>
      split
      · exact costs_lift (.error _)
      · next target resolved =>
          rw [resolveLocalRef_canonical isCanonical] at resolved
          rintro ⟨guard, visits⟩ ⟨isMost, isCount⟩
          simp only at isMost isCount
          have next : saturatingAdd guard.expansionCount 1 < 2 ^ 64 := by
            simp only [saturatingAdd]
            omega
          simp only [Checked.andThen, Validation.enter, ReferenceGuard.enter]
          by_cases refused : guard.maxExpansions < saturatingAdd guard.expansionCount 1 ∨
              canonical ∈ guard.activeRefs
          · simp only [if_pos refused]
            refine ⟨⟨isMost, next⟩, ?_⟩
            have forward : guard.expansionCount ≤ saturatingAdd guard.expansionCount 1 := by
              simp only [saturatingAdd]
              omega
            refine Nat.add_le_add_left (Nat.mul_le_mul_right unit ?_) _
            simp only [expansions]
            omega
          · simp only [if_neg refused]
            push Not at refused
            have exact_ : saturatingAdd guard.expansionCount 1 = guard.expansionCount + 1 := by
              have within := refused.1
              simp only [saturatingAdd] at within ⊢
              omega
            rcases inner target resolved ⟨{ guard with
              expansionCount := saturatingAdd guard.expansionCount 1
              activeRefs := canonical :: guard.activeRefs }, visits⟩ ⟨isMost, next⟩ with
              ⟨⟨stillMost, stillFits⟩, done⟩
            refine ⟨⟨stillMost, stillFits⟩, ?_⟩
            simp only [expansions, exact_] at done ⊢
            rw [exact_] at refused
            rw [Nat.min_eq_left refused.1, Nat.succ_mul] at done
            rw [Nat.min_eq_left (by omega)]
            simp only [Checked.ending, Validation.leave, ReferenceGuard.leave]
            omega

theorem calling_anyOf {validate : Json → Validator}
    (inner : ∀ branches branch, (entries.lookup "anyOf").bind asArray? = some branches →
      branch ∈ branches → Calling most unit (size branch * size value) (validate branch)) :
    Calling most unit (sizeAt entries "anyOf" * size value)
      (validateAnyOf entries path validate) := by
  unfold validateAnyOf
  split
  · exact costs_pass.mono (Nat.zero_le _)
  · next branches isAnyOf =>
      refine (costs_firstOf fun branch member => inner branches branch isAnyOf member).mono ?_
      rcases Option.bind_eq_some_iff.mp isAnyOf with ⟨array, isArray, isBranches⟩
      cases array with
      | array =>
        cases isBranches
        rw [sum_map_mul_right, sizeAt_eq isArray, size_array]
        exact Nat.mul_le_mul_right _ (Nat.le_succ _)
      | null | bool | number | string | object => cases isBranches

theorem calling_children {validate : Json → Json → String → Validator}
    (inner : ∀ schema child path, (entries.lookup "items" = some schema ∨
        ∃ key, propertySchema? entries key = some schema) → child.Within value →
      Calling most unit (size schema * size child) (validate schema child path)) :
    Calling most unit ((sizeAt entries "items" + sizeAt entries "properties") * size value)
      (validateChildren entries value path validate) := by
  cases value with
  | array items =>
    simp only [validateChildren]
    cases isItems : entries.lookup "items" with
    | none => exact costs_pass.mono (Nat.zero_le _)
    | some itemSchema =>
      have each : ∀ entry ∈ items.zipIdx, Calling most unit (size itemSchema * size entry.1)
          (validate itemSchema entry.1 (path ++ "/" ++ toString entry.2)) := by
        rintro ⟨item, index⟩ member
        exact inner _ _ _ (.inl isItems)
          (.item (fst_mem_of_mem_zipIdx member) (.self _))
      refine (costs_each each).mono ?_
      have items' : (items.zipIdx.map fun entry => size itemSchema * size entry.1) =
          items.map fun item => size itemSchema * size item := by
        rw [← zipIdx_map_fst 0 items, map_map, zipIdx_map_fst]
        rfl
      rw [items', sum_map_mul_left, sizeAt_eq isItems, size_array]
      exact Nat.mul_le_mul (Nat.le_add_right ..) (Nat.le_succ _)
  | object map =>
    refine (costs_each fun entry member => (?_ : Calling most unit
      (sizeAt entries "properties" * size entry.2) _)).mono ?_
    · dsimp only
      cases isSchema : propertySchema? entries entry.1 with
      | none => exact (costs_failIf _ _).mono (Nat.zero_le _)
      | some schema =>
        refine (inner _ _ _ (.inr ⟨entry.1, isSchema⟩) (.entry member (.self _))).mono ?_
        refine Nat.mul_le_mul_right _ ?_
        rcases Option.bind_eq_some_iff.mp isSchema with ⟨properties, isProperties, found⟩
        rcases Option.bind_eq_some_iff.mp isProperties with ⟨object, isObject, isMap⟩
        cases object with
        | object =>
          cases isMap
          rw [sizeAt_eq isObject]
          exact size_within (within_of_lookup found).1
        | null | bool | number | string | array => cases isMap
    · rw [sum_map_mul_left, size_object]
      exact Nat.mul_le_mul (Nat.le_add_left ..) (Nat.le_succ _)
  | null | bool | number | string => exact costs_pass.mono (Nat.zero_le _)

/-- The cost of a call is that of all pairs of values below it. -/
theorem calling_validateValue {mostValues : Nat} (fits : most + 1 < 2 ^ 64) (depth : Nat)
    (schema value : Json) (path : String) (within : schema.Within root)
    (bounded : size value ≤ mostValues) :
    Calling most (size root * mostValues) (size schema * size value)
      (validateValue root limits depth schema value path) := by
  induction depth generalizing schema value path with
  | zero => exact (costs_lift _).mono (Nat.zero_le _)
  | succ depth induction =>
    unfold validateValue
    have pair : 1 ≤ size schema * size value := Nat.mul_pos (size_pos schema) (size_pos value)
    cases schema with
    | object entries =>
      simp only [asObject?]
      cases isReference : (entries.lookup "$ref").bind asStr? with
      | some reference =>
        refine ((calling_visit _ _).andThen (calling_referenced fits ?_)).mono pair
        intro target resolved
        have targetWithin := within_resolved resolved
        refine (induction target value path targetWithin bounded).mono ?_
        exact Nat.mul_le_mul (size_within targetWithin) bounded
      | none =>
        have anyOf : Calling most (size root * mostValues)
            (sizeAt entries "anyOf" * size value)
            (validateAnyOf entries path fun branch =>
              validateValue root limits depth branch value path) := by
          refine calling_anyOf fun branches branch isAnyOf member => ?_
          exact induction branch value path
            ((within_of_branch isAnyOf member).1.trans within) bounded
        have children : Calling most (size root * mostValues)
            ((sizeAt entries "items" + sizeAt entries "properties") * size value)
            (validateChildren entries value path (validateValue root limits depth)) := by
          refine calling_children fun schema child path isSchema isChild => ?_
          have schemaWithin : schema.Within (.object entries) := by
            rcases isSchema with isItems | ⟨key, isProperty⟩
            · exact (within_of_lookup isItems).1
            · exact (within_of_property isProperty).1
          exact induction schema child path (schemaWithin.trans within)
            (Nat.le_trans (size_within isChild) bounded)
        refine ((calling_visit _ _).andThen
          (anyOf.andThen ((costs_lift _).andThen children))).mono ?_
        have parts := Nat.mul_le_mul_right (size value) (sizeAt_children entries)
        have one := size_pos value
        rw [Nat.add_mul] at parts
        rw [size_object, Nat.succ_mul]
        omega
    | null | bool | number | string | array =>
      exact ((calling_visit _ _).andThen (costs_lift _)).mono pair

end Bounds

/-! ## Nesting -/

section Nesting

variable {root : Json} {limits : SchemaLimits} {active : List String} {schema value : Json}
  {path : String}

theorem sameOn_referenced {reference : String} {validate other : Json → Validator}
    (inner : ∀ canonical target, canonicalizeLocalRef reference = some canonical →
      resolveLocalRef root canonical = some target → canonical ∉ active →
        SameOn (Following (canonical :: active)) (validate target) (other target)) :
    SameOn (Following active) (validateReferenced root reference path validate)
      (validateReferenced root reference path other) := by
  unfold validateReferenced
  split
  · exact sameOn_lift (.error _)
  · next canonical isCanonical =>
      split
      · exact sameOn_lift (.error _)
      · next target resolved =>
          rintro ⟨guard, visits⟩ rfl
          simp only [Checked.andThen, Validation.enter, ReferenceGuard.enter]
          by_cases refused : guard.maxExpansions < saturatingAdd guard.expansionCount 1 ∨
              canonical ∈ guard.activeRefs
          · simp only [if_pos refused]
            exact ⟨trivial, rfl⟩
          · simp only [if_neg refused]
            have notActive : canonical ∉ guard.activeRefs := fun member => refused (.inr member)
            rcases inner canonical target isCanonical resolved notActive ⟨{ guard with
              expansionCount := saturatingAdd guard.expansionCount 1
              activeRefs := canonical :: guard.activeRefs }, visits⟩ rfl with ⟨same, still⟩
            simp only [Checked.ending, ← same]
            refine ⟨trivial, ?_⟩
            simp only [Following, Validation.leave, ReferenceGuard.leave]
            rw [show _ = _ from still, erase_cons_head]

/-- However deep the calls may be nested, they are never nested deeper than the model
allows. -/
theorem sameOn_validateValue {depth other : Nat} (inDocument : InDocument root active)
    (within : schema.Within root) (enough : stepsFrom root active schema ≤ depth)
    (enoughOther : stepsFrom root active schema ≤ other) :
    SameOn (Following active) (validateValue root limits depth schema value path)
      (validateValue root limits other schema value path) := by
  induction depth generalizing active schema value path other with
  | zero =>
    have some_ := jsonDepth_pos schema
    simp only [stepsFrom] at enough
    omega
  | succ depth induction =>
    obtain ⟨other, rfl⟩ : ∃ less, other = less + 1 := by
      refine Nat.exists_eq_add_one.mpr (Nat.lt_of_lt_of_le ?_ enoughOther)
      exact Nat.lt_of_lt_of_le (jsonDepth_pos schema) (Nat.le_add_left ..)
    unfold validateValue
    have visited : SameOn (Following active) (Validation.visit schema value)
        (Validation.visit schema value) := fun _ following => ⟨rfl, following⟩
    refine visited.andThen ?_
    cases schema with
    | object entries =>
      simp only [asObject?]
      have below : ∀ {child value : Json} {path : String}, child.Within (.object entries) ∧
          jsonDepth child < jsonDepth (.object entries) →
            SameOn (Following active) (validateValue root limits depth child value path)
              (validateValue root limits other child value path) := fun inside =>
        induction inDocument (inside.1.trans within)
          (Nat.le_of_lt_succ (Nat.lt_of_lt_of_le (stepsFrom_child inside.2) enough))
          (Nat.le_of_lt_succ (Nat.lt_of_lt_of_le (stepsFrom_child inside.2) enoughOther))
      cases isReference : (entries.lookup "$ref").bind asStr? with
      | some reference =>
        refine sameOn_referenced fun canonical target isCanonical resolved notActive => ?_
        have next : InDocument root (canonical :: active) := by
          refine inDocument.cons within ?_ notActive
          simp [reference?, get?, isReference, isCanonical]
        have targetWithin := within_resolved resolved
        exact induction next targetWithin
          (Nat.le_of_lt_succ (Nat.lt_of_lt_of_le (stepsFrom_target next targetWithin) enough))
          (Nat.le_of_lt_succ
            (Nat.lt_of_lt_of_le (stepsFrom_target next targetWithin) enoughOther))
      | none =>
        refine SameOn.andThen ?_ ((sameOn_lift _).andThen ?_)
        · unfold validateAnyOf
          cases found : (entries.lookup "anyOf").bind asArray? with
          | none => exact sameOn_lift (.ok ())
          | some branches =>
            exact sameOn_firstOf fun branch member => below (within_of_branch found member)
        · unfold validateChildren
          cases value with
          | array items =>
            cases found : entries.lookup "items" with
            | none => exact sameOn_lift (.ok ())
            | some itemSchema => exact sameOn_each fun item _ => below (within_of_lookup found)
          | object map =>
            refine sameOn_each fun entry _ => ?_
            rcases entry with ⟨key, child⟩
            dsimp only
            cases found : propertySchema? entries key with
            | none =>
              intro state following
              refine ⟨rfl, ?_⟩
              unfold failIf
              split <;> exact following
            | some schema => exact below (within_of_property found)
          | null | bool | number | string => exact sameOn_lift (.ok ())
    | null | bool | number | string | array => exact sameOn_lift (.error _)

/-- The calls are nested only finitely deep: no more room changes anything. -/
theorem validateValue_settles (root value : Json) (limits : SchemaLimits) {depth : Nat}
    (enough : steps root ≤ depth) :
    validateValue root limits depth root value "#" ⟨.new limits, []⟩ =
      validation root value limits := by
  have room := Nat.le_of_eq (stepsFrom_root root)
  exact (sameOn_validateValue (inDocument_nil root) (.self _) (Nat.le_trans room enough) room
    ⟨.new limits, []⟩ rfl).1

end Nesting

/-! ## Whole runs -/

/-- A square that fits does not saturate, and one more fits, too. -/
theorem maxExpansions_eq {limits : SchemaLimits}
    (fits : (max 1 limits.maxSchemaDepth) ^ 2 < 2 ^ 64) :
    (ReferenceGuard.new limits).maxExpansions = (max 1 limits.maxSchemaDepth) ^ 2 ∧
      (max 1 limits.maxSchemaDepth) ^ 2 + 1 < 2 ^ 64 := by
  have small : max 1 limits.maxSchemaDepth < 2 ^ 32 := by
    by_contra large
    have squared := Nat.pow_le_pow_left (Nat.not_lt.mp large) 2
    omega
  have squared : (max 1 limits.maxSchemaDepth) ^ 2 ≤ (2 ^ 32 - 1) ^ 2 :=
    Nat.pow_le_pow_left (by omega) 2
  refine ⟨?_, by omega⟩
  simp only [ReferenceGuard.new, saturatingMul]
  rw [Nat.max_comm, ← Nat.pow_two]
  omega

theorem visits_le (root value : Json) (limits : SchemaLimits)
    (fits : (max 1 limits.maxSchemaDepth) ^ 2 < 2 ^ 64) :
    (validation root value limits).2.visits.length ≤
      (1 + (max 1 limits.maxSchemaDepth) ^ 2) * size root * size value := by
  rcases maxExpansions_eq fits with ⟨isMost, counted⟩
  have costs := @calling_validateValue root limits _ _ counted (steps root) root value "#"
    (.self root) (Nat.le_refl (size value)) ⟨.new limits, []⟩ ⟨isMost, Nat.two_pow_pos 64⟩
  rcases costs with ⟨⟨stillMost, _⟩, done⟩
  have spent : expansions (validation root value limits).2 ≤
      (max 1 limits.maxSchemaDepth) ^ 2 := by
    rw [← stillMost]
    exact Nat.min_le_right ..
  have nothing : expansions ⟨.new limits, []⟩ = 0 := Nat.zero_min _
  dsimp only at done
  rw [nothing, Nat.zero_mul, Nat.add_zero, length_nil, Nat.zero_add] at done
  calc
    (validation root value limits).2.visits.length ≤ size root * size value +
        expansions (validation root value limits).2 * (size root * size value) := done
    _ ≤ size root * size value +
        (max 1 limits.maxSchemaDepth) ^ 2 * (size root * size value) :=
      Nat.add_le_add_left (Nat.mul_le_mul_right _ spent) _
    _ = (1 + (max 1 limits.maxSchemaDepth) ^ 2) * size root * size value := by
      rw [Nat.mul_assoc, Nat.add_mul, Nat.one_mul]

/-- While the square of the depth limit fits the counter, a validation ends, and it makes at
most one round of calls for every pair of values, and one more for every reference that the
guard allows. -/
theorem validation_work (schema value : Json) (limits : SchemaLimits)
    (fits : (max 1 limits.maxSchemaDepth) ^ 2 < 2 ^ 64) :
    (∀ depth, steps schema ≤ depth →
      validateValue schema limits depth schema value "#" ⟨.new limits, []⟩ =
        validation schema value limits) ∧
    (validation schema value limits).2.visits.length ≤
      (1 + (max 1 limits.maxSchemaDepth) ^ 2) * size schema * size value :=
  ⟨fun _ enough => validateValue_settles schema value limits enough,
    visits_le schema value limits fits⟩

def referringSchema : Json :=
  .object [("$defs", .object [("a", .object [("type", .string "null")])]),
    ("$ref", .string "#/$defs/a")]

theorem referringSchema_work :
    (validation referringSchema .null .official).2.visits.length = 2 ∧
      (validation referringSchema .null .official).2.visits.length ≤ 1025 * 5 * 1 := by
  refine ⟨by decide +kernel, ?_⟩
  exact (validation_work referringSchema .null .official (by decide)).2

/-! ## A guard that does not count -/

/-- A check that fails after many calls, when the guard allows any number of references. -/
def Burns (active : List String) (calls : Nat) (check : Validator) : Prop :=
  ∀ state, Following active state → state.guard.maxExpansions = 2 ^ 64 - 1 →
    ∃ error next, check state = (.error error, next) ∧ isTooDeep error = false ∧
      Following active next ∧ next.guard.maxExpansions = 2 ^ 64 - 1 ∧
        state.visits.length + calls ≤ next.visits.length

section Burns

variable {root target value : Json} {limits : SchemaLimits} {active : List String}
  {calls depth : Nat} {reference path : String} {branches : List Json}

theorem burns_firstOf {otherwise : ToolValidationError} {check : Json → Validator}
    (notDeep : isTooDeep otherwise = false)
    (burns : ∀ branch ∈ branches, Burns active calls (check branch)) :
    Burns active (branches.length * calls) (firstOf isTooDeep otherwise check branches) := by
  induction branches with
  | nil =>
    intro state following most
    exact ⟨otherwise, state, rfl, notDeep, following, most, by simp⟩
  | cons branch rest induction =>
    rw [forall_mem_cons] at burns
    intro state following most
    rcases burns.1 state following most with ⟨error, next, failed, shallow, kept, still, spent⟩
    rcases induction burns.2 next kept still with ⟨error, last, later, rest⟩
    refine ⟨error, last, ?_, rest.1, rest.2.1, rest.2.2.1, ?_⟩
    · simp only [firstOf, failed, shallow, Bool.false_eq_true, if_false, later]
    · rw [length_cons, Nat.succ_mul]
      omega

theorem burns_anyOf (burns : ∀ branch ∈ branches,
      Burns active calls (validateValue root limits depth branch value path)) :
    Burns active (branches.length * calls)
      (validateValue root limits (depth + 1) (.object [("anyOf", .array branches)]) value path) := by
  intro state following most
  have noReference : [("anyOf", array branches)].lookup "$ref" = none := rfl
  rcases @burns_firstOf _ _ _ (violation path "value matches no anyOf branch") _ rfl burns
    { state with visits := ⟨.object [("anyOf", .array branches)], value,
      state.guard.activeRefs⟩ :: state.visits } following most with
    ⟨error, next, failed, shallow, kept, still, spent⟩
  refine ⟨error, next, ?_, shallow, kept, still, ?_⟩
  · simp only [validateValue, Checked.andThen, Validation.visit, asObject?, validateAnyOf,
      noReference, Option.bind_none, lookup_cons_self, Option.bind_some, asArray?, failed]
  · rw [length_cons] at spent
    omega

/-- A reference that can be entered leads to all that its target does. -/
theorem burns_reference (canonical : canonicalizeLocalRef reference = some reference)
    (resolved : resolveLocalRef root reference = some target)
    (inactive : reference ∉ active) {entries : List (String × Json)}
    (isReference : entries.lookup "$ref" = some (.string reference))
    (burns : Burns (reference :: active) calls
      (validateValue root limits depth target value path)) :
    Burns active calls (validateValue root limits (depth + 1) (.object entries) value path) := by
  rintro ⟨guard, visits⟩ rfl most
  simp only at most
  have enters : ¬ (guard.maxExpansions < saturatingAdd guard.expansionCount 1 ∨
      reference ∈ guard.activeRefs) := by
    rintro (exceeded | member)
    · simp only [saturatingAdd] at exceeded
      omega
    · exact inactive member
  have entered := burns ⟨{ guard with
    expansionCount := saturatingAdd guard.expansionCount 1
    activeRefs := reference :: guard.activeRefs },
    ⟨.object entries, value, guard.activeRefs⟩ :: visits⟩ rfl most
  rcases entered with ⟨error, next, failed, shallow, kept, still, spent⟩
  refine ⟨error, Validation.leave reference next, ?_, shallow, ?_, still, ?_⟩
  · simp only [validateValue, Checked.andThen, Validation.visit, asObject?, isReference,
      Option.bind_some, asStr?, validateReferenced, canonical, resolved,
      Validation.enter, ReferenceGuard.enter, if_neg enters, Checked.ending, failed]
  · simp only [Following, Validation.leave, ReferenceGuard.leave]
    rw [show _ = _ from kept, erase_cons_head]
  · rw [length_cons] at spent
    dsimp only [Validation.leave]
    omega

end Burns

def chainNames : List String := "ABCDEFGHIJKLMNOPQRSTUVWXYZabcdefghijkl".toList.map String.singleton

def chainReference (name : String) : String := "#/$defs/" ++ name

/-- A definition tries the next one four times, and the last one takes only strings. -/
def chainNode : List String → Json
  | [] => .object [("type", .string "string")]
  | name :: _ => .object [("anyOf",
      .array (replicate 4 (.object [("$ref", .string (chainReference name))])))]

def chainDefinitions : List String → List (String × Json)
  | [] => []
  | name :: rest => (name, chainNode rest) :: chainDefinitions rest

def chainResolves (root : Json) : List String → Bool
  | [] => true
  | name :: rest =>
    canonicalizeLocalRef (chainReference name) = some (chainReference name) &&
      resolveLocalRef root (chainReference name) = some (chainNode rest) &&
        decide (chainReference name ∉ rest.map chainReference) && chainResolves root rest

theorem burns_chain {root : Json} {limits : SchemaLimits} {depth : Nat} {path : String}
    {active names : List String} (resolves : chainResolves root names = true)
    (inactive : ∀ name ∈ names, chainReference name ∉ active)
    (enough : 2 * names.length + 1 ≤ depth) : Burns active (4 ^ names.length)
      (validateValue root limits depth (chainNode names) .null path) := by
  induction names generalizing depth active with
  | nil =>
    obtain ⟨depth, rfl⟩ : ∃ less, depth = less + 1 := Nat.exists_eq_add_one.mpr enough
    intro state following most
    exact ⟨violation path "value does not match the declared type", _, rfl, rfl, following, most,
      Nat.le_refl _⟩
  | cons name rest induction =>
    rw [length_cons] at enough
    obtain ⟨depth, rfl⟩ : ∃ less, depth = less + 2 := ⟨depth - 2, by omega⟩
    simp only [chainResolves, Bool.and_eq_true, decide_eq_true_eq] at resolves
    rcases resolves with ⟨⟨⟨canonical, resolved⟩, distinct⟩, later⟩
    rw [forall_mem_cons] at inactive
    rw [length_cons, Nat.pow_succ, Nat.mul_comm]
    refine @burns_anyOf _ _ _ _ _ _ _ (replicate 4 _) fun branch member => ?_
    rw [eq_of_mem_replicate member]
    refine burns_reference canonical resolved inactive.1 rfl (induction later ?_ (by omega))
    intro other isOther
    rw [mem_cons, not_or]
    refine ⟨fun same => distinct ?_, inactive.2 other isOther⟩
    rw [← same]
    exact mem_map_of_mem isOther

def longChain : Json :=
  .object [("$defs", .object (chainDefinitions chainNames)),
    ("$ref", .string (chainReference "A"))]

def deepLimits : SchemaLimits := { SchemaLimits.official with maxSchemaDepth := 2 ^ 32 }

/-- Each of the 37 links is followed four times as often as the one before it. -/
theorem longChain_calls :
    (∀ render, Text.len (render longChain) ≤ deepLimits.maxSchemaBytes →
      Succeeds (compileSchema render longChain deepLimits)) ∧
    (1 + (max 1 deepLimits.maxSchemaDepth) ^ 2) * size longChain * size .null <
      (validation longChain .null deepLimits).2.visits.length := by
  refine ⟨@compiles_of_document _ _ false (by decide +kernel), ?_⟩
  have resolves : chainResolves longChain ("A" :: chainNames.tail) = true := by decide +kernel
  simp only [chainResolves, Bool.and_eq_true, decide_eq_true_eq] at resolves
  rcases resolves with ⟨⟨⟨canonical, resolved⟩, distinct⟩, later⟩
  have inactive : ∀ name ∈ chainNames.tail, chainReference name ∉ [chainReference "A"] := by
    intro name member same
    rw [← mem_singleton.mp same] at distinct
    exact distinct (mem_map_of_mem member)
  obtain ⟨depth, isDepth, enough⟩ : ∃ depth, steps longChain = depth + 1 ∧
      2 * chainNames.tail.length + 1 ≤ depth :=
    ⟨steps longChain - 1, by decide +kernel, by decide +kernel⟩
  have burns := @burns_reference longChain _ .null deepLimits [] _ _ _ "#" canonical resolved nofun
    [("$defs", .object (chainDefinitions chainNames)), ("$ref", .string (chainReference "A"))] rfl
    (burns_chain later inactive enough)
  rcases burns ⟨.new deepLimits, []⟩ rfl rfl with ⟨error, next, isNext, _, _, _, spent⟩
  have small : (1 + (max 1 deepLimits.maxSchemaDepth) ^ 2) * size longChain * size .null <
      4 ^ chainNames.tail.length := by decide +kernel
  rw [length_nil, Nat.zero_add] at spent
  refine Nat.lt_of_lt_of_le small ?_
  rw [validation, isDepth]
  exact (congrArg (fun run => run.2.visits.length) isNext).symm ▸ spent

end ToolSchema

end Philo
