import Philo.Domain.Schema.Compile
import Philo.Foundation.Checked

/-! Validation of a JSON instance against a schema. -/

namespace Philo

open Result Checked

namespace ToolSchema

def violation (path message : String) : ToolValidationError :=
  ⟨"arguments", .schemaViolation, some path, message⟩

/-! ## One node -/

def matchesBasicType (kind : String) (value : Json) : Bool :=
  match kind with
  | "object" => value.asObject?.isSome
  | "array" => value.asArray?.isSome
  | "string" => value.asStr?.isSome
  | "number" => value.asF64?.isSome
  | "integer" => value.isInteger || value.asF64?.any Float64.isWhole
  | "boolean" => value.asBool?.isSome
  | "null" => match value with | .null => true | _ => false
  | _ => false

def matchesType (type value : Json) : Bool :=
  match type with
  | .string kind => matchesBasicType kind value
  | .array kinds => (kinds.filterMap Json.asStr?).any fun kind => matchesBasicType kind value
  | _ => false

section Local

variable (entries : List (String × Json)) (path : String)

def validateText (text : String) : Except ToolValidationError Unit := do
  reject (∃ least ∈ (entries.lookup "minLength").bind Json.asU64?, text.length < least)
    (violation path "string is shorter than minLength")
  reject (∃ most ∈ (entries.lookup "maxLength").bind Json.asU64?, most < text.length)
    (violation path "string is longer than maxLength")

def validateNumber (number : Float64) : Except ToolValidationError Unit := do
  reject (∃ least ∈ (entries.lookup "minimum").bind Json.asF64?, number.lt least = true)
    (violation path "number is less than minimum")
  reject (∃ most ∈ (entries.lookup "maximum").bind Json.asF64?, most.lt number = true)
    (violation path "number is greater than maximum")

def validateItemCount (limits : SchemaLimits) (items : List Json) :
    Except ToolValidationError Unit := do
  reject (limits.maxJsonArrayItems < items.length)
    ⟨"arguments", .argumentsTooLarge, some path, "JSON array exceeds the allowed length"⟩
  reject (∃ least ∈ (entries.lookup "minItems").bind Json.asU64?, items.length < least)
    (violation path "array has fewer items than minItems")
  reject (∃ most ∈ (entries.lookup "maxItems").bind Json.asU64?, most < items.length)
    (violation path "array has more items than maxItems")

/-- The loop over `required`, which skips what is not a string. -/
def validatePresent (map : List (String × Json)) :
    List (Json × Nat) → Except ToolValidationError Unit
  | [] => .ok ()
  | (name, index) :: rest => do
    reject (∃ key ∈ name.asStr?, map.lookup key = none)
      (violation (path ++ "/required/" ++ toString index) "required property is missing")
    validatePresent map rest

def validateSizes (limits : SchemaLimits) (value : Json) : Except ToolValidationError Unit :=
  match value with
  | .string text => validateText entries path text
  | .number number => validateNumber entries path number.asF64
  | .array items => validateItemCount entries path limits items
  | .object map =>
    validatePresent path map
      (((entries.lookup "required").bind Json.asArray?).getD []).zipIdx
  | _ => .ok ()

def validateLocal (limits : SchemaLimits) (value : Json) : Except ToolValidationError Unit := do
  reject (∃ type ∈ entries.lookup "type", matchesType type value = false)
    (violation path "value does not match the declared type")
  reject (∃ constant ∈ entries.lookup "const", value.same constant = false)
    (violation path "value does not equal const")
  reject (∃ choices ∈ (entries.lookup "enum").bind Json.asArray?,
      choices.any (fun choice => choice.same value) = false)
    (violation path "value is not present in enum")
  validateSizes entries path limits value

def propertySchema? (key : String) : Option Json :=
  ((entries.lookup "properties").bind Json.asObject?).bind (List.lookup key)

def allowsAdditional : Bool := ((entries.lookup "additionalProperties").bind Json.asBool?).getD true

end Local

/-! ## References -/

structure ReferenceGuard where
  activeRefs : List String
  expansionCount : Nat
  maxExpansions : Nat

namespace ReferenceGuard

def new (limits : SchemaLimits) : ReferenceGuard where
  activeRefs := []
  expansionCount := 0
  maxExpansions := saturatingMul (max limits.maxSchemaDepth 1) (max limits.maxSchemaDepth 1)

def enter (reference path : String) : Checked ReferenceGuard ToolValidationError := fun guard =>
  let expansionCount := saturatingAdd guard.expansionCount 1
  if guard.maxExpansions < expansionCount ∨ reference ∈ guard.activeRefs then
    (.error ⟨"arguments", .argumentsTooDeep, some path,
      "local schema reference expansion exceeded the safety budget"⟩,
      { guard with expansionCount })
  else (.ok (), { guard with expansionCount, activeRefs := reference :: guard.activeRefs })

def leave (reference : String) (guard : ReferenceGuard) : ReferenceGuard :=
  { guard with activeRefs := guard.activeRefs.erase reference }

end ReferenceGuard

structure Visit where
  node : Json
  value : Json
  activeRefs : List String
  deriving DecidableEq

/-- The guard, and the calls that were made so far, the last one first. The calls are not in
the source: nothing reads them. -/
structure Validation where
  guard : ReferenceGuard
  visits : List Visit

abbrev Validator := Checked Validation ToolValidationError

namespace Validation

def visit (node value : Json) : Validator := fun state =>
  (.ok (), { state with visits := ⟨node, value, state.guard.activeRefs⟩ :: state.visits })

def enter (reference path : String) : Validator := fun state =>
  let (result, guard) := ReferenceGuard.enter reference path state.guard
  (result, { state with guard })

def leave (reference : String) (state : Validation) : Validation :=
  { state with guard := state.guard.leave reference }

end Validation

/-! ## Instances -/

def isTooDeep (error : ToolValidationError) : Bool := error.reason = .argumentsTooDeep

def validateReferenced (root : Json) (reference path : String)
    (validate : Json → Validator) : Validator :=
  match Pointer.canonicalizeLocalRef reference with
  | none => fail (violation path
      "local schema reference contains an invalid JSON Pointer escape")
  | some canonical =>
    match Pointer.resolveLocalRef root canonical with
    | none => fail (violation path "local schema reference could not be resolved")
    | some resolved =>
      (Validation.enter canonical path).andThen
        ((validate resolved).ending (Validation.leave canonical))

def validateAnyOf (entries : List (String × Json)) (path : String)
    (validate : Json → Validator) : Validator :=
  match (entries.lookup "anyOf").bind Json.asArray? with
  | none => pass
  | some branches =>
    firstOf isTooDeep (violation path "value matches no anyOf branch") validate branches

def validateChildren (entries : List (String × Json)) (value : Json) (path : String)
    (validate : Json → Json → String → Validator) : Validator :=
  match value with
  | .array items =>
    match entries.lookup "items" with
    | none => pass
    | some itemSchema =>
      each (fun (item, index) => validate itemSchema item (path ++ "/" ++ toString index))
        items.zipIdx
  | .object map =>
    each (fun (key, child) =>
      match propertySchema? entries key with
      | some schema => validate schema child (path ++ "/" ++ key)
      | none => failIf (allowsAdditional entries = false)
          (violation (path ++ "/" ++ key) "additional property is not allowed")) map
  | _ => pass

/-- `validate_value`. The first number bounds the nesting of the calls; the source has no
such bound, and `steps` is one that is never reached. -/
def validateValue (root : Json) (limits : SchemaLimits) :
    Nat → Json → Json → String → Validator
  | 0, _, _, path => fail ⟨"arguments", .argumentsTooDeep, some path,
      "local schema reference expansion exceeded the safety budget"⟩
  | depth + 1, schema, value, path =>
    (Validation.visit schema value).andThen
      (match schema.asObject? with
      | none => fail (violation path "schema node is not an object")
      | some entries =>
        match (entries.lookup "$ref").bind Json.asStr? with
        | some reference =>
          validateReferenced root reference path fun resolved =>
            validateValue root limits depth resolved value path
        | none =>
          (validateAnyOf entries path fun branch =>
            validateValue root limits depth branch value path).andThen
              ((lift (validateLocal entries path limits value)).andThen
                (validateChildren entries value path
                  (validateValue root limits depth))))

/-! ## Documents -/

mutual

def valuesIn : Json → List Json
  | .array items => .array items :: valuesInItems items
  | .object entries => .object entries :: valuesInEntries entries
  | value => [value]

def valuesInItems : List Json → List Json
  | [] => []
  | item :: rest => valuesIn item ++ valuesInItems rest

def valuesInEntries : List (String × Json) → List Json
  | [] => []
  | (_, child) :: rest => valuesIn child ++ valuesInEntries rest

end

/-- No reference is followed inside itself, and between two references the nodes get
smaller. -/
def steps (root : Json) : Nat := ((valuesIn root).length + 1) * jsonDepth root

def validation (schema value : Json) (limits : SchemaLimits) :
    Except ToolValidationError Unit × Validation :=
  validateValue schema limits (steps schema) schema value "#" ⟨.new limits, []⟩

end ToolSchema

structure ToolSchema where
  value : Json
  strictCompatible : Bool

namespace ToolSchema

def withLimits (render : Json → String) (value : Json) (limits : SchemaLimits) :
    Except SchemaError ToolSchema := do
  let strictCompatible ← compileSchema render value limits
  .ok ⟨value, strictCompatible⟩

def new (render : Json → String) (value : Json) : Except SchemaError ToolSchema :=
  withLimits render value .official

def validate (render : Json → String) (schema : ToolSchema) (value : Json)
    (limits : SchemaLimits) : Except ToolValidationError Unit :=
  validateInstance render (fun schema value limits => (validation schema.value value limits).1)
    schema value limits

def library (fromStr : String → Except JsonError Json) (render : Json → String) :
    JsonLibrary ToolSchema where
  fromStr := fromStr
  render := render
  validateInstance := validate render

end ToolSchema

end Philo
