import Philo.Domain.Schema.Validate

/-! What a schema says about an instance, and how many references it takes to find out. -/

namespace Philo

open Result Json

namespace ToolSchema

/-! ## Meaning -/

/-- The constraints of the keywords that look at no other node, and of
`additionalProperties`. -/
structure Meets (entries : List (String × Json)) (value : Json) : Prop where
  type : ∀ type ∈ entries.lookup "type", matchesType type value = true
  const : ∀ constant ∈ entries.lookup "const", value.same constant = true
  enum : ∀ choices ∈ (entries.lookup "enum").bind asArray?,
    ∃ choice ∈ choices, choice.same value = true
  minLength : ∀ text, value = .string text →
    ∀ least ∈ (entries.lookup "minLength").bind asU64?, least ≤ text.length
  maxLength : ∀ text, value = .string text →
    ∀ most ∈ (entries.lookup "maxLength").bind asU64?, text.length ≤ most
  minimum : ∀ number, value = .number number →
    ∀ least ∈ (entries.lookup "minimum").bind asF64?, number.asF64.lt least = false
  maximum : ∀ number, value = .number number →
    ∀ most ∈ (entries.lookup "maximum").bind asF64?, most.lt number.asF64 = false
  minItems : ∀ items, value = .array items →
    ∀ least ∈ (entries.lookup "minItems").bind asU64?, least ≤ items.length
  maxItems : ∀ items, value = .array items →
    ∀ most ∈ (entries.lookup "maxItems").bind asU64?, items.length ≤ most
  required : ∀ map, value = .object map →
    ∀ names ∈ (entries.lookup "required").bind asArray?,
      ∀ name, .string name ∈ names → map.lookup name ≠ none
  additional : ∀ map, value = .object map → allowsAdditional entries = false →
    ∀ entry ∈ map, propertySchema? entries entry.1 ≠ none

/-- An instance satisfies a node of a document. A node with a reference means what the
reference names, and nothing else. -/
inductive Satisfies (root : Json) : Json → Json → Prop
  | reference {entries : List (String × Json)} {value target : Json} {reference : String}
      (isReference : (entries.lookup "$ref").bind asStr? = some reference)
      (resolved : Pointer.resolveLocalRef root reference = some target)
      (holds : Satisfies root target value) : Satisfies root (.object entries) value
  | node {entries : List (String × Json)} {value branch : Json}
      (noReference : (entries.lookup "$ref").bind asStr? = none)
      (meets : Meets entries value)
      (isBranch : ∀ branches ∈ (entries.lookup "anyOf").bind asArray?, branch ∈ branches)
      (holds : (entries.lookup "anyOf").bind asArray? ≠ none → Satisfies root branch value)
      (items : ∀ items itemSchema, value = .array items →
        entries.lookup "items" = some itemSchema → ∀ item ∈ items, Satisfies root itemSchema item)
      (properties : ∀ map key child schema, value = .object map → (key, child) ∈ map →
        propertySchema? entries key = some schema → Satisfies root schema child) :
      Satisfies root (.object entries) value

/-! ## Evaluation -/

abbrev Evaluation := Option (Bool × Nat)

namespace Evaluation

variable {α : Type}

def done (verdict : Bool) : Evaluation := some (verdict, 0)

def after (count : Nat) (evaluation : Evaluation) : Evaluation :=
  evaluation.map fun (verdict, more) => (verdict, count + more)

def andThen (first second : Evaluation) : Evaluation :=
  first.bind fun (verdict, count) => if verdict then second.after count else some (false, count)

def orElse (first second : Evaluation) : Evaluation :=
  first.bind fun (verdict, count) => if verdict then some (true, count) else second.after count

def all (evaluate : α → Evaluation) : List α → Evaluation
  | [] => done true
  | item :: rest => (evaluate item).andThen (all evaluate rest)

theorem all_map {β : Type} (evaluate : α → Evaluation) (get : β → α) (items : List β) :
    all evaluate (items.map get) = all (fun item => evaluate (get item)) items := by
  induction items with
  | nil => rfl
  | cons item rest induction => rw [List.map_cons, all, all, induction]

def any (evaluate : α → Evaluation) : List α → Evaluation
  | [] => done false
  | item :: rest => (evaluate item).orElse (any evaluate rest)

end Evaluation

open Evaluation

def evaluateReferenced (root : Json) (active : List String) (reference : String)
    (evaluate : List String → Json → Evaluation) : Evaluation :=
  match Pointer.canonicalizeLocalRef reference with
  | none => done false
  | some canonical =>
    match Pointer.resolveLocalRef root canonical with
    | none => done false
    | some target =>
      if canonical ∈ active then none
      else (evaluate (canonical :: active) target).after 1

def evaluateAnyOf (entries : List (String × Json)) (evaluate : Json → Evaluation) : Evaluation :=
  match (entries.lookup "anyOf").bind asArray? with
  | none => done true
  | some branches => any evaluate branches

def evaluateChildren (entries : List (String × Json)) (value : Json)
    (evaluate : Json → Json → Evaluation) : Evaluation :=
  match value with
  | .array items =>
    match entries.lookup "items" with
    | none => done true
    | some itemSchema => all (evaluate itemSchema) items
  | .object map =>
    all (fun (key, child) =>
      match propertySchema? entries key with
      | some schema => evaluate schema child
      | none => done (allowsAdditional entries)) map
  | _ => done true

/-- The evaluation of a node from left to right, down to a depth. It has no verdict if it
gets below the depth, or into a reference that is being followed. -/
def evaluate (root : Json) (limits : SchemaLimits) :
    Nat → List String → Json → Json → Evaluation
  | 0, _, _, _ => none
  | depth + 1, active, schema, value =>
    match schema.asObject? with
    | none => done false
    | some entries =>
      match (entries.lookup "$ref").bind asStr? with
      | some reference =>
        evaluateReferenced root active reference fun active target =>
          evaluate root limits depth active target value
      | none =>
        (evaluateAnyOf entries fun branch =>
          evaluate root limits depth active branch value).andThen
            ((done (validateLocal entries "#" limits value).isOk).andThen
              (evaluateChildren entries value (evaluate root limits depth active)))

/-- The evaluation comes to a verdict, and follows no more references than the guard
allows. A bound that does not fit into a `usize` is no bound. -/
def Affordable (limits : SchemaLimits) (schema value : Json) : Prop :=
  ∃ depth verdict count, evaluate schema limits depth [] schema value = some (verdict, count) ∧
    saturatingAdd 0 count ≤ (ReferenceGuard.new limits).maxExpansions

end ToolSchema

end Philo
