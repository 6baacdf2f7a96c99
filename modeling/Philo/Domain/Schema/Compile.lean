import Philo.Domain.JsonView
import Philo.Domain.Schema.Reference

/-! Schema compilation: which documents are accepted. -/

namespace Philo

open Result Std

namespace ToolSchema

def allowedKeywords : List String :=
  ["$schema", "$defs", "$ref", "type", "description", "title", "properties", "required",
    "additionalProperties", "items", "enum", "const", "anyOf", "minLength", "maxLength",
    "minimum", "maximum", "minItems", "maxItems"]

/-! ## Keywords of one node -/

section Keywords

variable (entries : List (String × Json)) (path : String)

def keywordError (keyword : String) (place : String) (message : String) : SchemaError :=
  ⟨"schema." ++ keyword, .invalidKeywordType, some place, message⟩

def validateKeys : Except SchemaError Unit :=
  entries.forM fun (key, _) =>
    reject (key ∉ allowedKeywords) ⟨"schema", .unsupportedKeyword, some (path ++ "/" ++ key),
      "schema contains an unsupported keyword"⟩

def validateReference (defs : TreeSet String) : Except SchemaError Unit :=
  match entries.lookup "$ref" with
  | none => .ok ()
  | some reference => do
    let reference ← okOr reference.asStr?
      (keywordError "$ref" (path ++ "/$ref") "$ref must be a string")
    reject (Text.startsWith reference "#/" = false) ⟨"schema.$ref", .remoteReference,
      some (path ++ "/$ref"), "remote schema references are not allowed"⟩
    let canonical ← okOr (Pointer.canonicalizeLocalRef reference)
      (keywordError "$ref" (path ++ "/$ref")
        "local schema reference contains an invalid JSON Pointer escape")
    reject (canonical ∉ defs) ⟨"schema.$ref", .unresolvedLocalReference,
      some (path ++ "/$ref"), "local schema reference could not be resolved"⟩

def basicTypes : List String :=
  ["object", "array", "string", "number", "integer", "boolean", "null"]

def validateBasicType (kind : String) : Except SchemaError Unit :=
  reject (kind ∉ basicTypes)
    (keywordError "type" (path ++ "/type") "type uses an unsupported primitive")

def distinctNames (keyword notString notUnique : String)
    (check : String → Except SchemaError Unit) :
    List Json → Nat → List String → Except SchemaError (List String)
  | [], _, seen => .ok seen
  | item :: rest, index, seen => do
    let place := path ++ "/" ++ keyword ++ "/" ++ toString index
    let name ← okOr item.asStr? (keywordError keyword place notString)
    reject (name ∈ seen) (keywordError keyword place notUnique)
    check name
    distinctNames keyword notString notUnique check rest (index + 1) (seen ++ [name])

def validateTypeKeyword : Json → Except SchemaError Unit
  | .string kind => validateBasicType path kind
  | .array kinds => do
    reject (kinds = [])
      (keywordError "type" (path ++ "/type") "type arrays must not be empty")
    let _ ← distinctNames path "type" "type array entries must be strings"
      "type array entries must be unique" (validateBasicType path) kinds 0 []
    .ok ()
  | _ =>
    .error (keywordError "type" (path ++ "/type")
      "type must be a string or array of strings")

def validateType : Except SchemaError Unit :=
  match entries.lookup "type" with
  | none => .ok ()
  | some value => validateTypeKeyword path value

def validateRequiredNames (names : List String) : Except SchemaError Unit :=
  match (entries.lookup "properties").bind Json.asObject? with
  | some properties =>
    reject (∃ name ∈ names, properties.lookup name = none) (keywordError "required"
      (path ++ "/required") "required names must exist in properties")
  | none =>
    reject (names ≠ []) (keywordError "required" (path ++ "/required")
      "required requires object properties")

def validateRequired : Except SchemaError Unit :=
  match entries.lookup "required" with
  | none => .ok ()
  | some required => do
    let items ← okOr required.asArray? (keywordError "required" (path ++ "/required")
      "required must be an array of strings")
    let names ← distinctNames path "required" "required entries must be strings"
      "required entries must be unique" (fun _ => .ok ()) items 0 []
    validateRequiredNames entries path names

def validateAdditional : Except SchemaError Unit :=
  match entries.lookup "additionalProperties" with
  | none => .ok ()
  | some additional =>
    reject (additional.asBool? = none) (keywordError "additionalProperties"
      (path ++ "/additionalProperties") "additionalProperties must be a boolean")

/-! ## Boundaries -/

/-- `optional_usize_keyword`. Every `u64` is a `usize`. -/
def optionalUsizeKeyword (key : String) : Except SchemaError (Option Nat) :=
  match entries.lookup key with
  | none => .ok none
  | some value => do
    let number ← okOr value.asU64? (keywordError key (path ++ "/" ++ key)
      "length and item boundaries must be non-negative integers")
    .ok (some number)

def optionalJsonNumber (key : String) : Except SchemaError (Option Float64) :=
  match entries.lookup key with
  | none => .ok none
  | some value => do
    let number ← okOr (value.asF64?.filter Float64.isFinite)
      (keywordError key (path ++ "/" ++ key) "numeric boundaries must be finite JSON numbers")
    .ok (some number)

def exceeds {Number : Type} (lt : Number → Number → Bool) (minimum maximum : Option Number) :
    Bool :=
  match minimum, maximum with
  | some minimum, some maximum => lt maximum minimum
  | _, _ => false

def validateOrderedUsizePair (minimum maximum : Option Nat) (minimumKey : String) :
    Except SchemaError Unit :=
  reject (exceeds (fun left right => decide (left < right)) minimum maximum = true)
    (keywordError minimumKey (path ++ "/" ++ minimumKey)
      "minimum boundary must not exceed maximum boundary")

def validateBoundaryKeywords (limits : SchemaLimits) : Except SchemaError Unit := do
  let minLength ← optionalUsizeKeyword entries path "minLength"
  let maxLength ← optionalUsizeKeyword entries path "maxLength"
  let minItems ← optionalUsizeKeyword entries path "minItems"
  let maxItems ← optionalUsizeKeyword entries path "maxItems"
  validateOrderedUsizePair path minLength maxLength "minLength"
  validateOrderedUsizePair path minItems maxItems "minItems"
  reject (∃ count ∈ maxItems, limits.maxJsonArrayItems < count) ⟨"schema.maxItems", .tooLarge,
    some (path ++ "/maxItems"), "maxItems exceeds the allowed array length"⟩
  let minimum ← optionalJsonNumber entries path "minimum"
  let maximum ← optionalJsonNumber entries path "maximum"
  reject (exceeds Float64.lt minimum maximum = true)
    (keywordError "minimum" (path ++ "/minimum") "minimum must not exceed maximum")

/-! ## The children of a node -/

def namedNodes (key : String) : Except SchemaError (List (String × Json)) :=
  match entries.lookup key with
  | none => .ok []
  | some value => do
    let children ← okOr value.asObject?
      (keywordError key (path ++ "/" ++ key) (key ++ " must be an object"))
    .ok (children.map fun (name, child) => (path ++ "/" ++ key ++ "/" ++ name, child))

def itemNode : List (String × Json) :=
  ((entries.lookup "items").map fun child => (path ++ "/items", child)).toList

def branchNodes : Except SchemaError (List (String × Json)) :=
  match entries.lookup "anyOf" with
  | none => .ok []
  | some value => do
    let branches ← okOr value.asArray?
      (keywordError "anyOf" (path ++ "/anyOf") "anyOf must be an array")
    reject (branches = []) (keywordError "anyOf" (path ++ "/anyOf") "anyOf must not be empty")
    .ok (branches.zipIdx.map fun (branch, index) => (path ++ "/anyOf/" ++ toString index, branch))

end Keywords

/-! ## Documents -/

def validateKeywords (defs : TreeSet String) (entries : List (String × Json)) (path : String) :
    Except SchemaError Unit := do
  validateKeys entries path
  validateReference entries path defs
  validateType entries path
  validateRequired entries path
  validateAdditional entries path

/-- `validate_schema_node`. The first argument is the depth that is left to look at. -/
def validateSchemaNode (defs : TreeSet String) (limits : SchemaLimits) :
    Nat → Json → String → Except SchemaError Unit
  | 0, _, path => .error ⟨"schema", .tooDeep, some path,
      "schema exceeds the allowed nesting depth"⟩
  | depth + 1, value, path => do
    let entries ← okOr value.asObject?
      ⟨"schema", .notAnObject, some path, "schema nodes must be objects"⟩
    validateKeywords defs entries path
    let properties ← namedNodes entries path "properties"
    properties.forM fun (place, child) => validateSchemaNode defs limits depth child place
    (itemNode entries path).forM fun (place, child) =>
      validateSchemaNode defs limits depth child place
    let branches ← branchNodes entries path
    branches.forM fun (place, child) => validateSchemaNode defs limits depth child place
    let definitions ← namedNodes entries path "$defs"
    definitions.forM fun (place, child) => validateSchemaNode defs limits depth child place
    validateBoundaryKeywords entries path limits

mutual

def nodeIsStrictCompatible : Nat → Json → Bool
  | 0, _ => false
  | depth + 1, value =>
    match value.asObject? with
    | none => false
    | some entries =>
      match (entries.lookup "anyOf").bind Json.asArray? with
      | some branches => !branches.isEmpty && branches.all (nodeIsStrictCompatible depth)
      | none =>
        match entries.lookup "type" with
        | some (.string "object") => objectIsStrict depth entries
        | some (.string "array") => (entries.lookup "items").any (nodeIsStrictCompatible depth)
        | some (.string _) | some (.array _) | none => true
        | some _ => false

def objectIsStrict : Nat → List (String × Json) → Bool
  | 0, _ => false
  | depth + 1, entries =>
    match (entries.lookup "additionalProperties").bind Json.asBool? with
    | some false =>
      match (entries.lookup "properties").bind Json.asObject? with
      | none => false
      | some properties =>
        let required := (((entries.lookup "required").bind Json.asArray?).getD []).filterMap
          Json.asStr?
        properties.all (fun (name, _) => required.contains name) &&
          properties.all fun (_, child) => nodeIsStrictCompatible depth child
    | _ => false

end

def isStrictCompatibleRoot (value : Json) : Bool :=
  match value.asObject? with
  | none => false
  | some entries =>
    decide ((entries.lookup "type").bind Json.asStr? = some "object") &&
      objectIsStrict (2 * jsonDepth value) entries

def compileDocument (value : Json) (limits : SchemaLimits) : Except SchemaError Bool := do
  reject (limits.maxSchemaDepth < jsonDepth value)
    ⟨"schema", .tooDeep, none, "schema exceeds the allowed nesting depth"⟩
  reject (value.isObject = false)
    ⟨"schema", .notAnObject, some "#", "schema root must be a JSON object"⟩
  let defs ← collectDefs value
  validateSchemaNode defs limits (jsonDepth value) value "#"
  validateLocalReferenceGraph value defs limits
  .ok (isStrictCompatibleRoot value)

/-- `compile_schema`. Serializing a `Value` cannot fail. -/
def compileSchema (render : Json → String) (value : Json) (limits : SchemaLimits) :
    Except SchemaError Bool := do
  reject (limits.maxSchemaBytes < Text.len (render value))
    ⟨"schema", .tooLarge, none, "schema exceeds the allowed byte limit"⟩
  compileDocument value limits

theorem compileSchema_eq_ok {render : Json → String} {value : Json} {limits : SchemaLimits}
    {strict : Bool} : compileSchema render value limits = .ok strict ↔
      Text.len (render value) ≤ limits.maxSchemaBytes ∧
        compileDocument value limits = .ok strict := by
  simp only [compileSchema, bind_eq_ok, reject_eq_ok, exists_const, Nat.not_lt]

theorem compileSchema_of_document {value : Json} {limits : SchemaLimits} {strict : Bool}
    (given : (compileDocument value limits).toOption = some strict) (render : Json → String)
    (fits : Text.len (render value) ≤ limits.maxSchemaBytes) :
    compileSchema render value limits = .ok strict := by
  refine compileSchema_eq_ok.mpr ⟨fits, ?_⟩
  cases compiled : compileDocument value limits with
  | error =>
    rw [compiled] at given
    cases given
  | ok =>
    rw [compiled] at given
    exact congrArg _ (Option.some.inj given)

theorem compiles_of_document {value : Json} {limits : SchemaLimits} {strict : Bool}
    (given : (compileDocument value limits).toOption = some strict) (render : Json → String)
    (fits : Text.len (render value) ≤ limits.maxSchemaBytes) :
    Succeeds (compileSchema render value limits) :=
  ⟨strict, compileSchema_of_document given render fits⟩

end ToolSchema

end Philo
