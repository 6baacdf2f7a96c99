import Philo.Domain.Schema.Meaning

/-! The verdict of an evaluation is what the schema means. -/

namespace Philo

open Result Json Pointer

namespace ToolSchema

/-! ## One node -/

section Local

variable {entries : List (String × Json)} {path : String} {limits : SchemaLimits} {value : Json}

theorem validatePresent_eq_ok {map : List (String × Json)} {names : List Json} {first : Nat} :
    validatePresent path map (names.zipIdx first) = .ok () ↔
      ∀ name, .string name ∈ names → map.lookup name ≠ none := by
  induction names generalizing first with
  | nil => exact iff_of_true rfl fun _ member => nomatch member
  | cons item rest induction =>
    rw [List.zipIdx_cons, validatePresent, bind_eq_ok, exists_unit, reject_eq_ok, induction]
    constructor
    · rintro ⟨present, others⟩ name member
      rcases List.mem_cons.mp member with rfl | later
      · exact fun missing => present ⟨name, rfl, missing⟩
      · exact others name later
    · intro present
      refine ⟨?_, fun name member => present name (List.mem_cons_of_mem _ member)⟩
      rintro ⟨name, isName, missing⟩
      cases item <;> cases isName
      exact present name List.mem_cons_self missing

theorem validateSizes_eq_ok
    (fits : ∀ items, value = .array items → items.length ≤ limits.maxJsonArrayItems) :
    validateSizes entries path limits value = .ok () ↔
      (∀ text, value = .string text →
        (∀ least ∈ (entries.lookup "minLength").bind asU64?, least ≤ text.length) ∧
          ∀ most ∈ (entries.lookup "maxLength").bind asU64?, text.length ≤ most) ∧
      (∀ number, value = .number number →
        (∀ least ∈ (entries.lookup "minimum").bind asF64?,
          number.asF64.lt least = false) ∧
          ∀ most ∈ (entries.lookup "maximum").bind asF64?,
            most.lt number.asF64 = false) ∧
      (∀ items, value = .array items →
        (∀ least ∈ (entries.lookup "minItems").bind asU64?, least ≤ items.length) ∧
          ∀ most ∈ (entries.lookup "maxItems").bind asU64?, items.length ≤ most) ∧
      (∀ map, value = .object map →
        ∀ names ∈ (entries.lookup "required").bind asArray?,
          ∀ name, .string name ∈ names → map.lookup name ≠ none) := by
  cases value with
  | string text => simp [validateSizes, validateText]
  | number number => simp [validateSizes, validateNumber]
  | array items => simp [validateSizes, validateItemCount, fits items rfl]
  | object map =>
    simp only [validateSizes, validatePresent_eq_ok, reduceCtorEq, false_implies, implies_true,
      true_and, object.injEq, forall_eq']
    cases (entries.lookup "required").bind asArray? <;> simp
  | null | bool => simp [validateSizes]

theorem meets_iff
    (fits : ∀ items, value = .array items → items.length ≤ limits.maxJsonArrayItems) :
    Meets entries value ↔ validateLocal entries path limits value = .ok () ∧
      ∀ map, value = .object map → allowsAdditional entries = false →
        ∀ entry ∈ map, propertySchema? entries entry.1 ≠ none := by
  simp only [validateLocal, bind_eq_ok, reject_eq_ok, exists_const,
    validateSizes_eq_ok fits, not_exists, not_and, Bool.not_eq_false, List.any_eq_true]
  constructor
  · rintro ⟨type, const, enum, minLength, maxLength, minimum, maximum, minItems, maxItems,
      required, additional⟩
    exact ⟨⟨type, const, enum, fun text isText => ⟨minLength text isText, maxLength text isText⟩,
      fun number isNumber => ⟨minimum number isNumber, maximum number isNumber⟩,
      fun items isArray => ⟨minItems items isArray, maxItems items isArray⟩, required⟩, additional⟩
  · rintro ⟨⟨type, const, enum, lengths, bounds, counts, required⟩, additional⟩
    exact ⟨type, const, enum, fun text isText => (lengths text isText).1,
      fun text isText => (lengths text isText).2, fun number isNumber => (bounds number isNumber).1,
      fun number isNumber => (bounds number isNumber).2, fun items isArray => (counts items isArray).1,
      fun items isArray => (counts items isArray).2, required, additional⟩

end Local

/-! ## Verdicts -/

namespace Evaluation

variable {α : Type} {first second evaluation : Evaluation} {Fact Other : Prop}
  {items : List α} {evaluateItem : α → Evaluation} {Holds : α → Prop}

def Decides (evaluation : Evaluation) (Fact : Prop) : Prop :=
  ∀ verdict count, evaluation = some (verdict, count) → (verdict = true ↔ Fact)

theorem decides_done {verdict : Bool} (same : verdict = true ↔ Fact) :
    Decides (done verdict) Fact := by
  rintro _ _ ⟨⟩
  exact same

theorem Decides.congr (decides : Decides evaluation Fact) (same : Fact ↔ Other) :
    Decides evaluation Other :=
  fun verdict count isSome => (decides verdict count isSome).trans same

theorem Decides.after (decides : Decides evaluation Fact) (count : Nat) :
    Decides (evaluation.after count) Fact := by
  intro verdict total isSome
  rcases Option.map_eq_some_iff.mp isSome with ⟨⟨inner, more⟩, isInner, same⟩
  cases same
  exact decides verdict more isInner

theorem Decides.andThen (firstDecides : Decides first Fact) (secondDecides : Decides second Other) :
    Decides (first.andThen second) (Fact ∧ Other) := by
  intro verdict total isSome
  rcases Option.bind_eq_some_iff.mp isSome with ⟨⟨held, count⟩, isFirst, isSecond⟩
  have fact := firstDecides held count isFirst
  cases held with
  | false =>
    cases isSecond
    simp [← fact]
  | true =>
    rw [secondDecides.after count verdict total isSecond]
    simp [← fact]

theorem Decides.orElse (firstDecides : Decides first Fact) (secondDecides : Decides second Other) :
    Decides (first.orElse second) (Fact ∨ Other) := by
  intro verdict total isSome
  rcases Option.bind_eq_some_iff.mp isSome with ⟨⟨held, count⟩, isFirst, isSecond⟩
  have fact := firstDecides held count isFirst
  cases held with
  | false =>
    rw [secondDecides.after count verdict total isSecond]
    simp [← fact]
  | true =>
    cases isSecond
    simp [← fact]

theorem decides_all (decides : ∀ item ∈ items, Decides (evaluateItem item) (Holds item)) :
    Decides (all evaluateItem items) (∀ item ∈ items, Holds item) := by
  induction items with
  | nil => exact decides_done (by simp)
  | cons item rest induction =>
    rw [List.forall_mem_cons] at decides
    exact (decides.1.andThen (induction decides.2)).congr List.forall_mem_cons.symm

theorem decides_any (decides : ∀ item ∈ items, Decides (evaluateItem item) (Holds item)) :
    Decides (any evaluateItem items) (∃ item ∈ items, Holds item) := by
  induction items with
  | nil => exact decides_done (by simp)
  | cons item rest induction =>
    rw [List.forall_mem_cons] at decides
    exact (decides.1.orElse (induction decides.2)).congr (by simp)

end Evaluation

open Evaluation

section Meaning

variable {root value : Json} {entries : List (String × Json)} {limits : SchemaLimits}

theorem satisfies_reference {reference : String}
    (isReference : (entries.lookup "$ref").bind asStr? = some reference) :
    Satisfies root (.object entries) value ↔
      ∃ target, resolveLocalRef root reference = some target ∧
        Satisfies root target value := by
  constructor
  · intro satisfies
    cases satisfies with
    | reference same resolved holds =>
      cases isReference.symm.trans same
      exact ⟨_, resolved, holds⟩
    | node noReference => cases isReference.symm.trans noReference
  · rintro ⟨target, resolved, holds⟩
    exact .reference isReference resolved holds

theorem satisfies_node (noReference : (entries.lookup "$ref").bind asStr? = none) :
    Satisfies root (.object entries) value ↔
      (∀ branches ∈ (entries.lookup "anyOf").bind asArray?,
        ∃ branch ∈ branches, Satisfies root branch value) ∧ Meets entries value ∧
          (∀ items itemSchema, value = .array items → entries.lookup "items" = some itemSchema →
            ∀ item ∈ items, Satisfies root itemSchema item) ∧
            ∀ map key child schema, value = .object map → (key, child) ∈ map →
              propertySchema? entries key = some schema → Satisfies root schema child := by
  constructor
  · intro satisfies
    cases satisfies with
    | reference isReference => cases isReference.symm.trans noReference
    | @node _ _ branch _ meets isBranch holds items properties =>
      refine ⟨fun branches isAnyOf => ⟨branch, isBranch branches isAnyOf, holds ?_⟩, meets,
        items, properties⟩
      rw [show _ = some branches from isAnyOf]
      exact Option.some_ne_none branches
  · rintro ⟨anyOf, meets, items, properties⟩
    cases isAnyOf : (entries.lookup "anyOf").bind asArray? with
    | none =>
      refine @Satisfies.node root entries value .null noReference meets ?_ ?_ items properties
      · rw [isAnyOf]
        exact fun _ none => nomatch none
      · exact fun isSome => absurd isAnyOf isSome
    | some branches =>
      rcases anyOf branches isAnyOf with ⟨branch, member, holds⟩
      refine .node noReference meets ?_ (fun _ => holds) items properties
      intro other isOther
      cases isAnyOf.symm.trans isOther
      exact member

def Bounded (limits : SchemaLimits) (value : Json) : Prop :=
  ∀ items, (array items).Within value → items.length ≤ limits.maxJsonArrayItems

theorem Bounded.item {items : List Json} (bounded : Bounded limits (.array items)) {item : Json}
    (member : item ∈ items) : Bounded limits item :=
  fun _ within => bounded _ (.item member within)

theorem Bounded.entry {map : List (String × Json)} (bounded : Bounded limits (.object map))
    {key : String} {child : Json} (member : (key, child) ∈ map) : Bounded limits child :=
  fun _ within => bounded _ (.entry member within)

theorem decides_children {evaluateChild : Json → Json → Evaluation}
    (bounded : Bounded limits value) (decides : ∀ schema child, Bounded limits child →
      Decides (evaluateChild schema child) (Satisfies root schema child)) :
    Decides (evaluateChildren entries value evaluateChild)
      ((∀ map, value = .object map → allowsAdditional entries = false →
        ∀ entry ∈ map, propertySchema? entries entry.1 ≠ none) ∧
        (∀ items itemSchema, value = .array items → entries.lookup "items" = some itemSchema →
          ∀ item ∈ items, Satisfies root itemSchema item) ∧
          ∀ map key child schema, value = .object map → (key, child) ∈ map →
            propertySchema? entries key = some schema → Satisfies root schema child) := by
  cases value with
  | array items =>
    simp only [evaluateChildren]
    cases isItems : entries.lookup "items" with
    | none => exact decides_done (by simp)
    | some itemSchema =>
      refine (decides_all fun item member => decides itemSchema item (bounded.item member)).congr ?_
      simp
  | object map =>
    simp only [evaluateChildren]
    refine (decides_all fun entry member => (?_ : Decides _
      ((propertySchema? entries entry.1).elim (allowsAdditional entries = true)
        (Satisfies root · entry.2)))).congr ?_
    · cases propertySchema? entries entry.1 with
      | none => exact decides_done Iff.rfl
      | some schema => exact decides schema entry.2 (bounded.entry member)
    constructor
    · intro holds
      refine ⟨?_, by simp, ?_⟩
      · rintro _ ⟨⟩ notAllowed entry member missing
        have allowed := holds entry member
        rw [missing] at allowed
        exact Bool.false_ne_true (notAllowed.symm.trans allowed)
      · rintro _ key child schema ⟨⟩ member isSchema
        have satisfied := holds (key, child) member
        rwa [isSchema] at satisfied
    · rintro ⟨additional, _, properties⟩ ⟨key, child⟩ member
      cases isSchema : propertySchema? entries key with
      | none =>
        refine Bool.not_eq_false _ |>.mp fun notAllowed => ?_
        exact additional map rfl notAllowed (key, child) member isSchema
      | some schema => exact properties map key child schema rfl member isSchema
  | null | bool | number | string => exact decides_done (by simp)

/-- The verdict of an evaluation is whether the instance satisfies the node. -/
theorem decides_evaluate (depth : Nat) (active : List String) (schema : Json)
    (bounded : Bounded limits value) :
    Decides (evaluate root limits depth active schema value) (Satisfies root schema value) := by
  induction depth generalizing active schema value with
  | zero => exact fun _ _ none => nomatch none
  | succ depth induction =>
    unfold evaluate
    cases schema with
    | object entries =>
      simp only [asObject?]
      cases isReference : (entries.lookup "$ref").bind asStr? with
      | some reference =>
        simp only [evaluateReferenced]
        cases isCanonical : canonicalizeLocalRef reference with
        | none =>
          refine decides_done (iff_of_false Bool.false_ne_true ?_)
          rw [satisfies_reference isReference]
          rintro ⟨target, resolved, _⟩
          rw [resolveLocalRef_of_not_canonical isCanonical] at resolved
          cases resolved
        | some canonical =>
          simp only [resolveLocalRef_canonical isCanonical]
          cases resolved : resolveLocalRef root reference with
          | none =>
            refine decides_done (iff_of_false Bool.false_ne_true ?_)
            rw [satisfies_reference isReference, resolved]
            rintro ⟨_, none, _⟩
            cases none
          | some target =>
            simp only
            split
            · exact fun _ _ none => nomatch none
            · refine ((induction _ target bounded).after 1).congr ?_
              rw [satisfies_reference isReference, resolved]
              simp
      | none =>
        have branches : Decides (evaluateAnyOf entries fun branch =>
            evaluate root limits depth active branch value)
            (∀ branches ∈ (entries.lookup "anyOf").bind asArray?,
              ∃ branch ∈ branches, Satisfies root branch value) := by
          unfold evaluateAnyOf
          cases (entries.lookup "anyOf").bind asArray? with
          | none => exact decides_done (by simp)
          | some branches =>
            refine (decides_any fun branch _ => induction active branch bounded).congr ?_
            simp
        have own : Decides (done (validateLocal entries "#" limits value).isOk)
            (validateLocal entries "#" limits value = .ok ()) := by
          refine decides_done ?_
          cases validateLocal entries "#" limits value <;> simp [Except.isOk, Except.toBool]
        have children := @decides_children root value entries limits _ bounded
          fun schema child bounded => induction active schema bounded
        refine (branches.andThen (own.andThen children)).congr ?_
        rw [satisfies_node isReference, @meets_iff entries "#" limits value
          fun items isArray => bounded items (isArray ▸ .self _)]
        tauto
    | null | bool | number | string | array =>
      exact decides_done (iff_of_false Bool.false_ne_true nofun)

end Meaning

end ToolSchema

end Philo
