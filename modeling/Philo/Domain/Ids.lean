import Philo.Domain.Error
import Philo.Foundation.Result

/-! Typed identifiers. Each identifier type carries the rule its constructor
checks, so a value of the type is always one the constructor would accept. -/

namespace Philo

open Result

inductive IdKind where
  | provider | protocol | model | localRequest | providerRequest | generation | trace
  deriving DecidableEq, Repr

namespace IdKind

def typeName : IdKind → String
  | provider => "ProviderId"
  | protocol => "ProtocolId"
  | model => "ModelId"
  | localRequest => "LocalRequestId"
  | providerRequest => "ProviderRequestId"
  | generation => "GenerationId"
  | trace => "TraceId"

def label : IdKind → String
  | provider => "provider id"
  | protocol => "protocol id"
  | model => "model id"
  | localRequest | providerRequest | generation | trace => "lifecycle id"

end IdKind

/-- An identifier that is not empty and has no white space at either end. -/
structure ValidatedId (kind : IdKind) where
  value : String
  notEmpty : value ≠ ""
  trimmed : Text.trim value = value
  deriving DecidableEq

abbrev ProviderId := ValidatedId .provider
abbrev ProtocolId := ValidatedId .protocol
abbrev ModelId := ValidatedId .model
abbrev LocalRequestId := ValidatedId .localRequest
abbrev ProviderRequestId := ValidatedId .providerRequest
abbrev GenerationId := ValidatedId .generation

def sampleRequestId : LocalRequestId := ⟨"local", by decide, by decide⟩

def ValidatedId.new (kind : IdKind) (value : String) :
    Except ValidationError (ValidatedId kind) :=
  let refuse reason : ValidationError :=
    ⟨kind.typeName, reason,
      kind.label ++ " must be non-empty and have no boundary whitespace"⟩
  if empty : value = "" then .error (refuse .empty)
  else if trimmed : Text.trim value = value then .ok ⟨value, empty, trimmed⟩
  else .error (refuse .boundaryWhitespace)

abbrev ContentIndex := UInt32

abbrev WireToolIndex := UInt32

@[ext] structure ToolCallId where
  value : String
  notEmpty : value ≠ ""
  bounded : Text.len value ≤ 256
  deriving DecidableEq

namespace ToolCallId

def maxBytes : Nat := 256

def new (value : String) : Except ValidationError ToolCallId :=
  if empty : value = "" then
    .error ⟨"tool_call_id", .empty, "tool call id must not be empty"⟩
  else if long : maxBytes < Text.len value then
    .error ⟨"tool_call_id", .outOfRange, "tool call id exceeds the domain byte limit"⟩
  else .ok ⟨value, empty, Nat.le_of_not_lt long⟩

theorem new_eq_ok {value : String} {id : ToolCallId} (built : new value = .ok id) :
    id.value = value := by
  unfold new at built
  split at built
  · cases built
  · split at built <;> cases built
    rfl

theorem new_value (id : ToolCallId) : new id.value = .ok id := by
  have notLong : ¬ maxBytes < Text.len id.value := Nat.not_lt.mpr id.bounded
  simp [new, id.notEmpty, notLong]

instance : Ord ToolCallId := ⟨compareOn value⟩

instance : Std.TransOrd ToolCallId := inferInstanceAs (Std.TransCmp (compareOn value))

instance : Std.LawfulEqOrd ToolCallId where
  eq_of_compare {left right} equal := by
    have compared : compare left.value right.value = .eq := equal
    exact ToolCallId.ext (Std.LawfulEqCmp.eq_of_compare compared)

end ToolCallId

structure ToolName where
  value : String
  notEmpty : value ≠ ""
  bounded : Text.len value ≤ 64
  plain : Text.allAsciiAlphanumericOr ['_', '-'] value = true
  deriving DecidableEq

namespace ToolName

def maxBytes : Nat := 64

def new (value : String) : Except ValidationError ToolName :=
  if empty : value = "" then
    .error ⟨"tool_name", .empty, "tool name must not be empty"⟩
  else if long : maxBytes < Text.len value then
    .error ⟨"tool_name", .outOfRange, "tool name exceeds 64 bytes"⟩
  else if plain : Text.allAsciiAlphanumericOr ['_', '-'] value = true then
    .ok ⟨value, empty, Nat.le_of_not_lt long, plain⟩
  else
    .error ⟨"tool_name", .invalidIdentifier, "tool name contains an unsupported character"⟩

theorem new_eq_ok {value : String} {name : ToolName} (accepted : new value = .ok name) :
    name.value = value := by
  unfold new at accepted
  split at accepted
  · cases accepted
  · split at accepted
    · cases accepted
    · split at accepted <;> cases accepted
      rfl

end ToolName

end Philo
