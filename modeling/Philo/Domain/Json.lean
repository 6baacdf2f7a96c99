import Philo.Domain.LlmError

/-! JSON values as `serde_json::Value` holds them, and the interface of the
`serde_json` functions that the modelled code calls. -/

namespace Philo

/-- `serde_json::Number`: a `u64`, a negative `i64`, or the bits of an `f64`. -/
inductive JsonNumber where
  | posInt (value : UInt64)
  | negInt (value : Int64)
  | float (bits : UInt64)
  deriving DecidableEq

/-- `serde_json::Value`. An object lists its entries in key order. -/
inductive Json where
  | null
  | bool (value : Bool)
  | number (value : JsonNumber)
  | string (value : String)
  | array (items : List Json)
  | object (entries : List (String × Json))

namespace Json

def get? (key : String) : Json → Option Json
  | object entries => entries.lookup key
  | _ => none

def asStr? : Json → Option String
  | string value => some value
  | _ => none

def isObject : Json → Bool
  | object _ => true
  | _ => false

def isEmptyObject : Json → Bool
  | object entries => entries.isEmpty
  | _ => false

end Json

inductive JsonErrorCategory where
  | io | syntactic | data | eof
  deriving DecidableEq

structure JsonError where
  category : JsonErrorCategory
  line : Nat
  column : Nat
  deriving DecidableEq

structure SchemaLimits where
  maxSchemaBytes : Nat
  maxSchemaDepth : Nat
  maxJsonArrayItems : Nat
  deriving DecidableEq

def SchemaLimits.official : SchemaLimits := ⟨256 * 1024, 32, 65536⟩

/-- The functions on JSON that the protocol layer is parametric in:
`serde_json::from_str::<Value>`, `Value::to_string`, and
`ToolSchema::validate_instance` over an abstract type of compiled schemas. -/
structure JsonLibrary (Schema : Type) where
  fromStr : String → Except JsonError Json
  render : Json → String
  validateInstance : Schema → Json → SchemaLimits → Except ToolValidationError Unit

end Philo
