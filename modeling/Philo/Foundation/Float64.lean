import Mathlib.Algebra.Order.Ring.Int
import Mathlib.Data.Nat.Log

/-! IEEE 754 binary64 words, as far as comparing them and converting integers needs. -/

namespace Philo

structure Float64 where
  bits : UInt64
  deriving DecidableEq

namespace Float64

variable (value : Float64)

def fraction : Nat := value.bits.toNat % 2 ^ 52

def exponent : Nat := value.bits.toNat / 2 ^ 52 % 2 ^ 11

def isNegative : Bool := decide (2 ^ 63 ≤ value.bits.toNat)

def isNan : Bool := decide (value.exponent = 2047 ∧ value.fraction ≠ 0)

def isFinite : Bool := decide (value.exponent ≠ 2047)

/-- The distance from zero, in units of the smallest positive number. Of the words that
are no number, the infinities come out above every finite number. -/
def magnitude : Nat :=
  if value.exponent = 0 then value.fraction
  else (2 ^ 52 + value.fraction) * 2 ^ (value.exponent - 1)

def units : Int := if value.isNegative then -(value.magnitude : Int) else value.magnitude

def eq (left right : Float64) : Bool :=
  !left.isNan && !right.isNan && decide (left.units = right.units)

def lt (left right : Float64) : Bool :=
  !left.isNan && !right.isNan && decide (left.units < right.units)

def isWhole : Bool := value.isFinite && decide (value.magnitude % 2 ^ 1074 = 0)

/-- The bits of an integer below `2 ^ 64`, rounded to the nearest number and between two of
them to the even one. -/
def wordOf (value : Nat) : Nat :=
  if value = 0 then 0
  else
    let exponent := Nat.log2 value
    if exponent ≤ 52 then (exponent + 1022) * 2 ^ 52 + value * 2 ^ (52 - exponent)
    else
      let unit := 2 ^ (exponent - 52)
      let whole := value / unit
      let rest := value % unit
      let up := unit < 2 * rest ∨ unit = 2 * rest ∧ whole % 2 = 1
      -- the leading bit of `whole` adds one to the exponent, as a carry out of it does
      (exponent + 1022) * 2 ^ 52 + whole + if up then 1 else 0

def ofUInt64 (value : UInt64) : Float64 := ⟨.ofNat (wordOf value.toNat)⟩

def ofInt64 (value : Int64) : Float64 :=
  if value.toInt < 0 then ⟨.ofNat (2 ^ 63 + wordOf value.toInt.natAbs)⟩
  else ⟨.ofNat (wordOf value.toInt.natAbs)⟩

end Float64

/-- `2 ^ 53 + 1` has no word of its own. -/
example : (Float64.ofUInt64 9007199254740993).eq (Float64.ofUInt64 9007199254740992) = true := by
  decide +kernel

end Philo
