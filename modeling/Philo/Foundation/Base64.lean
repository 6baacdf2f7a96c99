import Mathlib.Data.List.Basic

/-! The standard base64 alphabet with canonical padding: what is documented of an encoding with
it, and one such encoding. -/

namespace Philo.Base64

structure Codec where
  encode : List UInt8 → String
  decode : String → Option (List UInt8)

def alphabet : List Char :=
  "ABCDEFGHIJKLMNOPQRSTUVWXYZabcdefghijklmnopqrstuvwxyz0123456789+/".toList

def value? (character : Char) : Option Nat := alphabet.findIdx? (· == character)

def digit (value : Nat) : Char := alphabet.getD (value % 64) 'A'

private def byte (value : Nat) : UInt8 := UInt8.ofNat value

/-- Groups of four characters. Only the last group may be padded, and the bits that its
padding leaves over are zero. -/
def decodeChars : List Char → Option (List UInt8)
  | [] => some []
  | [first, second, '=', '='] => do
    let high ← value? first
    let low ← value? second
    if low % 16 = 0 then some [byte (high * 4 + low / 16)] else none
  | [first, second, third, '='] => do
    let high ← value? first
    let middle ← value? second
    let low ← value? third
    if low % 4 = 0 then
      some [byte (high * 4 + middle / 16), byte (middle % 16 * 16 + low / 4)]
    else none
  | first :: second :: third :: fourth :: rest => do
    let high ← value? first
    let upper ← value? second
    let lower ← value? third
    let low ← value? fourth
    let decoded ← decodeChars rest
    some (byte (high * 4 + upper / 16) :: byte (upper % 16 * 16 + lower / 4) ::
      byte (lower % 4 * 64 + low) :: decoded)
  | _ => none

def encodeBytes : List UInt8 → List Char
  | [] => []
  | [first] => [digit (first.toNat / 4), digit (first.toNat % 4 * 16), '=', '=']
  | [first, second] =>
    [digit (first.toNat / 4), digit (first.toNat % 4 * 16 + second.toNat / 16),
      digit (second.toNat % 16 * 4), '=']
  | first :: second :: third :: rest =>
    digit (first.toNat / 4) :: digit (first.toNat % 4 * 16 + second.toNat / 16) ::
      digit (second.toNat % 16 * 4 + third.toNat / 64) :: digit (third.toNat % 64) ::
        encodeBytes rest

structure Codec.Laws (codec : Codec) : Prop where
  /-- Every text that is decoded is the canonical one. -/
  canonical : ∀ text bytes, codec.decode text = some bytes ↔ codec.encode bytes = text
  nothing : codec.encode [] = ""
  written : ∀ bytes, ∀ character ∈ (codec.encode bytes).toList,
    character ∈ alphabet ∨ character = '='

namespace Codec.Laws

variable {codec : Codec} (laws : codec.Laws) {bytes : List UInt8}

include laws

theorem not_mem_encode {character : Char} (outside : character ∉ alphabet)
    (notPad : character ≠ '=') : character ∉ (codec.encode bytes).toList := by
  intro written
  exact (laws.written bytes character written).elim outside notPad

theorem encode_ne_empty (notEmpty : bytes ≠ []) : codec.encode bytes ≠ "" := by
  intro isEmpty
  have decoded := (laws.canonical _ _).mpr isEmpty
  rw [(laws.canonical _ _).mpr laws.nothing] at decoded
  exact notEmpty (Option.some.inj decoded).symm

end Codec.Laws

def standard : Codec where
  encode bytes := String.ofList (encodeBytes bytes)
  decode text := decodeChars text.toList

example : standard.decode "aGk=" = some [104, 105] := by decide

example : standard.encode [104, 105] = "aGk=" := by decide

/-! ## Round trip -/

theorem toNat_byte (value : Nat) : (byte value).toNat = value % 256 := UInt8.toNat_ofNat'

theorem value?_digit (value : Nat) : value? (digit value) = some (value % 64) := by
  have each : ∀ value : Fin 64, value? (alphabet.getD value 'A') = some value.val := by
    decide +kernel
  exact each ⟨value % 64, Nat.mod_lt _ (by decide)⟩

theorem value?_eq_some {character : Char} {value : Nat} :
    value? character = some value ↔ value < 64 ∧ digit value = character := by
  constructor
  · intro found
    rcases List.findIdx?_eq_some_iff_getElem.mp found with ⟨bound, isCharacter, _⟩
    have small : value < 64 := bound
    rw [digit, Nat.mod_eq_of_lt small, List.getD_eq_getElem?_getD, List.getElem?_eq_getElem bound]
    exact ⟨small, beq_iff_eq.mp isCharacter⟩
  · rintro ⟨small, rfl⟩
    rw [value?_digit, Nat.mod_eq_of_lt small]

theorem digit_ne_pad (value : Nat) : digit value ≠ '=' := by
  intro isPad
  have decoded := value?_digit value
  rw [isPad] at decoded
  cases decoded

theorem encodeBytes_of_decodeChars {text : List Char} {bytes : List UInt8}
    (decoded : decodeChars text = some bytes) : encodeBytes bytes = text := by
  fun_induction decodeChars text generalizing bytes <;>
    simp only [Option.bind_eq_bind, Option.bind_eq_some_iff, Option.ite_none_right_eq_some,
      Option.some.injEq, value?_eq_some, reduceCtorEq] at decoded
  case case1 =>
    cases decoded
    rfl
  case case2 =>
    rcases decoded with ⟨high, ⟨_, rfl⟩, low, ⟨_, rfl⟩, zero, rfl⟩
    simp only [encodeBytes, toNat_byte]
    congr <;> omega
  case case3 =>
    rcases decoded with ⟨high, ⟨_, rfl⟩, middle, ⟨_, rfl⟩, low, ⟨_, rfl⟩, zero, rfl⟩
    simp only [encodeBytes, toNat_byte]
    congr <;> omega
  case case4 induction =>
    rcases decoded with ⟨high, ⟨_, rfl⟩, upper, ⟨_, rfl⟩, lower, ⟨_, rfl⟩, low, ⟨_, rfl⟩,
      others, isOthers, rfl⟩
    simp only [encodeBytes, toNat_byte, induction isOthers]
    congr <;> omega

theorem decodeChars_encodeBytes (bytes : List UInt8) :
    decodeChars (encodeBytes bytes) = some bytes := by
  have byte_eq : ∀ (original : UInt8) {value : Nat}, value = original.toNat →
      byte value = original := by
    rintro original _ rfl
    exact UInt8.ofNat_toNat
  have small := UInt8.toNat_lt
  fun_induction encodeBytes bytes with
  | case1 => rfl
  | case2 first =>
    simp only [decodeChars, value?_digit, Option.bind_eq_bind, Option.bind_some]
    rw [if_pos (by omega), byte_eq first (by grind)]
  | case3 first second =>
    simp only [decodeChars, digit_ne_pad, imp_self, value?_digit, Option.bind_eq_bind,
      Option.bind_some]
    rw [if_pos (by omega), byte_eq first (by grind), byte_eq second (by grind)]
  | case4 first second third rest induction =>
    simp only [decodeChars, digit_ne_pad, false_implies, implies_true, value?_digit, induction,
      Option.bind_eq_bind, Option.bind_some]
    rw [byte_eq first (by grind), byte_eq second (by grind), byte_eq third (by grind)]

theorem digit_mem (value : Nat) : digit value ∈ alphabet := by
  have each : ∀ value < 64, alphabet.getD value 'A' ∈ alphabet := by decide +kernel
  exact each _ (Nat.mod_lt _ (by decide))

theorem laws_standard : standard.Laws where
  canonical text bytes := by
    constructor
    · intro decoded
      exact (congrArg _ (encodeBytes_of_decodeChars decoded)).trans String.ofList_toList
    · rintro rfl
      exact (congrArg _ String.toList_ofList).trans (decodeChars_encodeBytes bytes)
  nothing := rfl
  written bytes character := by
    rw [standard, String.toList_ofList]
    fun_induction encodeBytes bytes <;> grind [digit_mem]

end Philo.Base64
