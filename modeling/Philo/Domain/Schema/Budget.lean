import Philo.Domain.Json

/-! The resource budget of `schema/budget.rs` that every JSON instance has to meet before
it is compared with a schema. -/

namespace Philo

open Result

inductive Json.Within : Json → Json → Prop
  | self (value : Json) : Within value value
  | item {inner item : Json} {items : List Json} (member : item ∈ items)
      (within : Within inner item) : Within inner (.array items)
  | entry {inner : Json} {entry : String × Json} {entries : List (String × Json)}
      (member : entry ∈ entries) (within : Within inner entry.2) :
      Within inner (.object entries)

namespace ToolSchema

mutual

def jsonDepth : Json → Nat
  | .array items => 1 + maxDepth items
  | .object entries => 1 + maxEntryDepth entries
  | _ => 1

def maxDepth : List Json → Nat
  | [] => 0
  | item :: rest => max (jsonDepth item) (maxDepth rest)

def maxEntryDepth : List (String × Json) → Nat
  | [] => 0
  | (_, value) :: rest => max (jsonDepth value) (maxEntryDepth rest)

end

mutual

def checkArrayLengths (limits : SchemaLimits) : Json → String → Except ToolValidationError Unit
  | .array items, path => do
    reject (limits.maxJsonArrayItems < items.length)
      ⟨"arguments", .argumentsTooLarge, some path, "JSON array exceeds the allowed length"⟩
    checkItems limits items path 0
  | .object entries, path => checkEntries limits entries path
  | _, _ => .ok ()

def checkItems (limits : SchemaLimits) :
    List Json → String → Nat → Except ToolValidationError Unit
  | [], _, _ => .ok ()
  | item :: rest, path, index => do
    checkArrayLengths limits item (path ++ "/" ++ toString index)
    checkItems limits rest path (index + 1)

def checkEntries (limits : SchemaLimits) :
    List (String × Json) → String → Except ToolValidationError Unit
  | [], _ => .ok ()
  | (key, child) :: rest, path => do
    checkArrayLengths limits child (path ++ "/" ++ key)
    checkEntries limits rest path

end

def maxToolArgumentsBytes : Nat := 1024 * 1024

/-- `preflight_instance`. Serializing a `Value` cannot fail. -/
def preflightInstance (render : Json → String) (value : Json) (limits : SchemaLimits) :
    Except ToolValidationError Unit := do
  reject (maxToolArgumentsBytes < Text.len (render value))
    ⟨"arguments", .argumentsTooLarge, some "#",
      "tool arguments exceed the allowed byte limit"⟩
  reject (limits.maxSchemaDepth < jsonDepth value)
    ⟨"arguments", .argumentsTooDeep, some "#",
      "tool arguments exceed the allowed nesting depth"⟩
  checkArrayLengths limits value "#"

def validateInstance {Schema : Type} (render : Json → String)
    (validateValue : Schema → Json → SchemaLimits → Except ToolValidationError Unit)
    (schema : Schema) (value : Json) (limits : SchemaLimits) :
    Except ToolValidationError Unit := do
  preflightInstance render value limits
  validateValue schema value limits

/-! ## What passes -/

mutual

theorem checkArrayLengths_eq_ok (limits : SchemaLimits) (value : Json) (path : String) :
    checkArrayLengths limits value path = .ok () ↔
      ∀ items, (Json.array items).Within value →
        items.length ≤ limits.maxJsonArrayItems := by
  cases value with
  | array elements =>
    simp only [checkArrayLengths, bind_eq_ok, reject_eq_ok, exists_const, Nat.not_lt,
      checkItems_eq_ok limits elements path 0]
    constructor
    · rintro ⟨fits, inside⟩ items (_ | ⟨member, within⟩)
      · exact fits
      · exact inside _ member items within
    · intro all
      exact ⟨all elements (.self _), fun item member items within =>
        all items (.item member within)⟩
  | object entries =>
    simp only [checkArrayLengths, checkEntries_eq_ok limits entries path]
    constructor
    · rintro inside items (_ | _ | ⟨member, within⟩)
      exact inside _ member items within
    · exact fun all entry member items within => all items (.entry member within)
  | null | bool | number | string =>
    refine iff_of_true rfl ?_
    rintro items ⟨⟩

theorem checkItems_eq_ok (limits : SchemaLimits) (elements : List Json) (path : String)
    (index : Nat) : checkItems limits elements path index = .ok () ↔
      ∀ item ∈ elements, ∀ items, (Json.array items).Within item →
        items.length ≤ limits.maxJsonArrayItems := by
  cases elements with
  | nil => simp [checkItems]
  | cons item rest =>
    simp only [checkItems, bind_eq_ok, exists_const, List.forall_mem_cons,
      checkItems_eq_ok limits rest path (index + 1),
      checkArrayLengths_eq_ok limits item (path ++ "/" ++ toString index)]

theorem checkEntries_eq_ok (limits : SchemaLimits) (entries : List (String × Json))
    (path : String) : checkEntries limits entries path = .ok () ↔
      ∀ entry ∈ entries, ∀ items, (Json.array items).Within entry.2 →
        items.length ≤ limits.maxJsonArrayItems := by
  cases entries with
  | nil => simp [checkEntries]
  | cons entry rest =>
    rcases entry with ⟨key, child⟩
    simp only [checkEntries, bind_eq_ok, exists_const, List.forall_mem_cons,
      checkEntries_eq_ok limits rest path,
      checkArrayLengths_eq_ok limits child (path ++ "/" ++ key)]

end

/-- An instance passes within the byte, the depth and the array limit, and not otherwise. -/
theorem preflightInstance_eq_ok {render : Json → String} {value : Json} {limits : SchemaLimits} :
    preflightInstance render value limits = .ok () ↔
      Text.len (render value) ≤ maxToolArgumentsBytes ∧
        jsonDepth value ≤ limits.maxSchemaDepth ∧
          ∀ items, (Json.array items).Within value →
            items.length ≤ limits.maxJsonArrayItems := by
  simp only [preflightInstance, bind_eq_ok, reject_eq_ok, exists_const, Nat.not_lt,
    checkArrayLengths_eq_ok]

end ToolSchema

/-- The library's validator is `validate_instance`: it looks at the budget first. -/
def JsonLibrary.Preflights {Schema : Type} (library : JsonLibrary Schema) : Prop :=
  ∃ validateValue, library.validateInstance =
    ToolSchema.validateInstance library.render validateValue

theorem JsonLibrary.Preflights.preflight {Schema : Type} {library : JsonLibrary Schema}
    (preflights : library.Preflights) {schema : Schema} {value : Json}
    {limits : SchemaLimits} (valid : library.validateInstance schema value limits = .ok ()) :
    ToolSchema.preflightInstance library.render value limits = .ok () := by
  rcases preflights with ⟨validateValue, same⟩
  rw [same, ToolSchema.validateInstance, bind_eq_ok] at valid
  rcases valid with ⟨_, passed, _⟩
  exact passed

end Philo
