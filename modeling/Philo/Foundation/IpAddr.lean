import Mathlib.Data.Nat.Digits.Defs

/-! IP addresses as `std::net` has them: their classes, and the text that `Display`
writes. The text determines the address. -/

namespace Philo

/-! ## Numerals -/

def numeral (base value : Nat) : List Char :=
  if value = 0 then ['0'] else (Nat.digits base value).reverse.map Nat.digitChar

def isNumeralChar (character : Char) : Bool :=
  character.isDigit || "abcdef".toList.contains character

section Numerals

variable {base value other digit : Nat}

theorem digitChar_injective {first second : Nat} (firstLt : first < 16) (secondLt : second < 16)
    (same : Nat.digitChar first = Nat.digitChar second) : first = second := by
  have table : ∀ first < 16, ∀ second < 16,
      Nat.digitChar first = Nat.digitChar second → first = second := by decide
  exact table first firstLt second secondLt same

theorem isNumeralChar_digitChar (lt : digit < 16) :
    isNumeralChar (Nat.digitChar digit) = true := by
  have table : ∀ digit < 16, isNumeralChar (Nat.digitChar digit) = true := by decide
  exact table digit lt

theorem isDigit_digitChar (lt : digit < 10) : (Nat.digitChar digit).isDigit = true := by
  have table : ∀ digit < 10, (Nat.digitChar digit).isDigit = true := by decide
  exact table digit lt

theorem numeral_ne_nil : numeral base value ≠ [] := by
  unfold numeral
  split
  · simp
  · simpa using Nat.digits_ne_nil_iff_ne_zero.mpr ‹_›

theorem mem_numeral (isBase : 1 < base) {character : Char}
    (member : character ∈ numeral base value) :
    ∃ digit, digit < base ∧ Nat.digitChar digit = character := by
  unfold numeral at member
  split at member
  · exact ⟨0, by omega, (List.mem_singleton.mp member).symm⟩
  · rcases List.mem_map.mp member with ⟨digit, inDigits, isDigit⟩
    exact ⟨digit, Nat.digits_lt_base isBase (List.mem_reverse.mp inDigits), isDigit⟩

theorem isNumeralChar_of_mem (isBase : 1 < base) (small : base ≤ 16) {character : Char}
    (member : character ∈ numeral base value) : isNumeralChar character = true := by
  rcases mem_numeral isBase member with ⟨digit, lt, rfl⟩
  exact isNumeralChar_digitChar (by omega)

theorem map_digitChar_injective {first second : List Nat}
    (firstLt : ∀ digit ∈ first, digit < 16) (secondLt : ∀ digit ∈ second, digit < 16)
    (same : first.map Nat.digitChar = second.map Nat.digitChar) : first = second := by
  induction first generalizing second with
  | nil =>
    cases second with
    | nil => rfl
    | cons head rest => simp at same
  | cons head rest induction =>
    cases second with
    | nil => simp at same
    | cons other others =>
      simp only [List.map_cons, List.cons.injEq] at same
      have sameHead := digitChar_injective (firstLt head (by simp)) (secondLt other (by simp))
        same.1
      have sameRest := induction (fun digit member => firstLt digit (by simp [member]))
        (fun digit member => secondLt digit (by simp [member])) same.2
      rw [sameHead, sameRest]

theorem exists_digits_of_numeral (isBase : 1 < base) (value : Nat) :
    ∃ digits : List Nat, numeral base value = digits.map Nat.digitChar ∧
      (∀ digit ∈ digits, digit < base) ∧ Nat.ofDigits base digits.reverse = value := by
  unfold numeral
  split
  case isTrue isZero =>
    refine ⟨[0], rfl, ?_, ?_⟩
    · intro digit member
      have isZeroDigit : digit = 0 := by simpa using member
      omega
    · simp [isZero]
  case isFalse =>
    refine ⟨(Nat.digits base value).reverse, rfl, ?_, ?_⟩
    · intro digit member
      exact Nat.digits_lt_base isBase (List.mem_reverse.mp member)
    · rw [List.reverse_reverse, Nat.ofDigits_digits]

theorem numeral_injective (isBase : 1 < base) (small : base ≤ 16)
    (same : numeral base value = numeral base other) : value = other := by
  rcases exists_digits_of_numeral isBase value with ⟨first, isFirst, firstLt, rfl⟩
  rcases exists_digits_of_numeral isBase other with ⟨second, isSecond, secondLt, rfl⟩
  rw [isFirst, isSecond] at same
  have sameDigits := map_digitChar_injective
    (fun digit member => Nat.lt_of_lt_of_le (firstLt digit member) small)
    (fun digit member => Nat.lt_of_lt_of_le (secondLt digit member) small) same
  rw [sameDigits]

end Numerals

/-! ## IPv4 -/

structure Ipv4Addr where
  a : UInt8
  b : UInt8
  c : UInt8
  d : UInt8
  deriving DecidableEq

namespace Ipv4Addr

def isUnspecified (address : Ipv4Addr) : Bool := address == ⟨0, 0, 0, 0⟩
def isLoopback (address : Ipv4Addr) : Bool := address.a == 127
def isLinkLocal (address : Ipv4Addr) : Bool := address.a == 169 && address.b == 254
def isMulticast (address : Ipv4Addr) : Bool := 224 ≤ address.a && address.a ≤ 239
def broadcast : Ipv4Addr := ⟨255, 255, 255, 255⟩

def isPrivate (address : Ipv4Addr) : Bool :=
  address.a == 10 || (address.a == 172 && 16 ≤ address.b && address.b ≤ 31) ||
    (address.a == 192 && address.b == 168)

def toBits (address : Ipv4Addr) : UInt32 :=
  address.a.toUInt32 <<< 24 ||| address.b.toUInt32 <<< 16 ||| address.c.toUInt32 <<< 8 |||
    address.d.toUInt32

def text (address : Ipv4Addr) : String :=
  String.ofList (['.'].intercalate [numeral 10 address.a.toNat, numeral 10 address.b.toNat,
    numeral 10 address.c.toNat, numeral 10 address.d.toNat])

end Ipv4Addr

/-! ## IPv6 -/

structure Ipv6Addr where
  a : UInt16
  b : UInt16
  c : UInt16
  d : UInt16
  e : UInt16
  f : UInt16
  g : UInt16
  h : UInt16
  deriving DecidableEq

structure Span where
  start : Nat
  len : Nat
  deriving DecidableEq

/-- One step of the search for the longest run: the position, the longest run so
far and the run that ends here. -/
def spanStep : Nat × Span × Span → Bool → Nat × Span × Span
  | (position, longest, current), true =>
    let grown : Span := ⟨if current.len = 0 then position else current.start, current.len + 1⟩
    (position + 1, if longest.len < grown.len then grown else longest, grown)
  | (position, longest, _), false => (position + 1, longest, ⟨0, 0⟩)

def longestSpan (zeroes : List Bool) : Span := (zeroes.foldl spanStep (0, ⟨0, 0⟩, ⟨0, 0⟩)).2.1

namespace Ipv6Addr

def segments (address : Ipv6Addr) : List UInt16 :=
  [address.a, address.b, address.c, address.d, address.e, address.f, address.g, address.h]

def isUnspecified (address : Ipv6Addr) : Bool := address == ⟨0, 0, 0, 0, 0, 0, 0, 0⟩
def isLoopback (address : Ipv6Addr) : Bool := address == ⟨0, 0, 0, 0, 0, 0, 0, 1⟩
def isMulticast (address : Ipv6Addr) : Bool := address.a &&& 0xff00 == 0xff00

def toIpv4Mapped (address : Ipv6Addr) : Option Ipv4Addr :=
  if address.a = 0 ∧ address.b = 0 ∧ address.c = 0 ∧ address.d = 0 ∧ address.e = 0 ∧
      address.f = 0xffff then
    some ⟨(address.g >>> 8).toUInt8, address.g.toUInt8, (address.h >>> 8).toUInt8,
      address.h.toUInt8⟩
  else none

def subslice (chunk : List UInt16) : List Char :=
  [':'].intercalate (chunk.map fun segment => numeral 16 segment.toNat)

def zeroSpan (address : Ipv6Addr) : Span := longestSpan (address.segments.map (· == 0))

/-- `Display` of an address that does not embed an IPv4 address. -/
def plainText (address : Ipv6Addr) : List Char :=
  let zeroes := address.zeroSpan
  if 1 < zeroes.len then
    subslice (address.segments.take zeroes.start) ++ "::".toList ++
      subslice (address.segments.drop (zeroes.start + zeroes.len))
  else subslice address.segments

def text (address : Ipv6Addr) : String :=
  match address.toIpv4Mapped with
  | some mapped => "::ffff:" ++ mapped.text
  | none => String.ofList address.plainText

end Ipv6Addr

inductive IpAddr where
  | v4 (address : Ipv4Addr)
  | v6 (address : Ipv6Addr)
  deriving DecidableEq

namespace IpAddr

def isLoopback : IpAddr → Bool
  | v4 address => address.isLoopback
  | v6 address => address.isLoopback

def isIpv4 : IpAddr → Bool
  | v4 _ => true
  | v6 _ => false

end IpAddr

end Philo
