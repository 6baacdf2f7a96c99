import Philo.Domain.Json
import Philo.Foundation.Float64

/-! How `serde_json` looks at a value: the typed accessors, and equality. -/

namespace Philo

namespace JsonNumber

def asF64 : JsonNumber → Float64
  | posInt value => .ofUInt64 value
  | negInt value => .ofInt64 value
  | float bits => ⟨bits⟩

def same : JsonNumber → JsonNumber → Bool
  | posInt left, posInt right => left = right
  | negInt left, negInt right => left = right
  | float left, float right => Float64.eq ⟨left⟩ ⟨right⟩
  | _, _ => false

end JsonNumber

namespace Json

def asBool? : Json → Option Bool
  | bool value => some value
  | _ => none

def asArray? : Json → Option (List Json)
  | array items => some items
  | _ => none

def asObject? : Json → Option (List (String × Json))
  | object entries => some entries
  | _ => none

def asU64? : Json → Option Nat
  | number (.posInt value) => some value.toNat
  | _ => none

def asF64? : Json → Option Float64
  | number value => some value.asF64
  | _ => none

def isInteger : Json → Bool
  | number (.posInt _) | number (.negInt _) => true
  | _ => false

mutual

def same : Json → Json → Bool
  | null, null => true
  | bool left, bool right => left = right
  | number left, number right => left.same right
  | string left, string right => left = right
  | array left, array right => sameItems left right
  | object left, object right => sameEntries left right
  | _, _ => false

def sameItems : List Json → List Json → Bool
  | [], [] => true
  | left :: lefts, right :: rights => same left right && sameItems lefts rights
  | _, _ => false

def sameEntries : List (String × Json) → List (String × Json) → Bool
  | [], [] => true
  | (leftKey, left) :: lefts, (rightKey, right) :: rights =>
    leftKey = rightKey && same left right && sameEntries lefts rights
  | _, _ => false

end

/-! ## Identity -/

mutual

/-- Whether two values are the same term, so that runs on known values can be evaluated. -/
def identical : Json → Json → Bool
  | null, null => true
  | bool left, bool right => decide (left = right)
  | number left, number right => decide (left = right)
  | string left, string right => decide (left = right)
  | array left, array right => identicalItems left right
  | object left, object right => identicalEntries left right
  | _, _ => false

def identicalItems : List Json → List Json → Bool
  | [], [] => true
  | left :: lefts, right :: rights => identical left right && identicalItems lefts rights
  | _, _ => false

def identicalEntries : List (String × Json) → List (String × Json) → Bool
  | [], [] => true
  | (leftKey, left) :: lefts, (rightKey, right) :: rights =>
    decide (leftKey = rightKey) && identical left right && identicalEntries lefts rights
  | _, _ => false

end

mutual

theorem identical_iff (left right : Json) : identical left right = true ↔ left = right := by
  cases left with
  | array lefts => cases right <;> simp [identical, identicalItems_iff lefts]
  | object lefts => cases right <;> simp [identical, identicalEntries_iff lefts]
  | null | bool | number | string => cases right <;> simp [identical]

theorem identicalItems_iff (lefts rights : List Json) :
    identicalItems lefts rights = true ↔ lefts = rights := by
  cases lefts with
  | nil => cases rights <;> simp [identicalItems]
  | cons left lefts =>
    cases rights <;> simp [identicalItems, identical_iff left, identicalItems_iff lefts]

theorem identicalEntries_iff (lefts rights : List (String × Json)) :
    identicalEntries lefts rights = true ↔ lefts = rights := by
  cases lefts with
  | nil => cases rights <;> simp [identicalEntries]
  | cons left lefts =>
    rcases left with ⟨key, left⟩
    cases rights with
    | nil => simp [identicalEntries]
    | cons right rights =>
      rcases right with ⟨rightKey, right⟩
      simp [identicalEntries, identical_iff left, identicalEntries_iff lefts]

end

instance : DecidableEq Json := fun left right =>
  decidable_of_iff (identical left right = true) (identical_iff left right)

/-- `Value::to_string` on recorded values. -/
def recordedWriter (recorded : List (Json × String)) (value : Json) : String :=
  (recorded.lookup value).getD "null"

end Json

end Philo
