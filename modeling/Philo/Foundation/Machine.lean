import Mathlib.Algebra.Order.Ring.Int
import Mathlib.Data.List.Defs

/-! Machine integers and text as the Rust standard library has them: checked
addition, byte lengths, and trimming by the Unicode `White_Space` property. -/

namespace Philo

def checkedAddU32 (left right : UInt32) : Option UInt32 :=
  if left.toNat + right.toNat < 2 ^ 32 then some (left + right) else none

def checkedAddU64 (left right : UInt64) : Option UInt64 :=
  if left.toNat + right.toNat < 2 ^ 64 then some (left + right) else none

/-- `checked_add` on a `usize` (of a 64-bit target) or `u64` that only counts.
Such counters are natural numbers; only the sum can leave the range. -/
def checkedAdd (left right : Nat) : Option Nat :=
  if left + right < 2 ^ 64 then some (left + right) else none

def saturatingAdd (left right : Nat) : Nat := min (left + right) (2 ^ 64 - 1)

def saturatingMul (left right : Nat) : Nat := min (left * right) (2 ^ 64 - 1)

theorem checkedAddU32_eq_some {left right sum : UInt32}
    (added : checkedAddU32 left right = some sum) : sum.toNat = left.toNat + right.toNat := by
  unfold checkedAddU32 at added
  split at added
  · next fits =>
      cases added
      rw [UInt32.toNat_add]
      exact Nat.mod_eq_of_lt fits
  · cases added

theorem advanced_ne_zero {next advanced : UInt32}
    (added : checkedAddU32 next 1 = some advanced) : advanced ≠ 0 := by
  rintro rfl
  have sum := checkedAddU32_eq_some added
  simp at sum

theorem checkedAddU64_eq_some {left right sum : UInt64}
    (added : checkedAddU64 left right = some sum) : sum.toNat = left.toNat + right.toNat := by
  unfold checkedAddU64 at added
  split at added
  · next fits =>
      cases added
      rw [UInt64.toNat_add]
      exact Nat.mod_eq_of_lt fits
  · cases added

theorem checkedAdd_eq_some {left right sum : Nat}
    (added : checkedAdd left right = some sum) : sum = left + right := by
  unfold checkedAdd at added
  split at added <;> cases added
  rfl

namespace Text

def len (text : String) : Nat := text.utf8ByteSize

/-- The code points with the Unicode `White_Space` property, as
`char::is_whitespace` tests it. -/
def isWhitespace (character : Char) : Bool :=
  let code := character.toNat
  (0x09 ≤ code && code ≤ 0x0D) || code == 0x20 || code == 0x85 || code == 0xA0 ||
    code == 0x1680 || (0x2000 ≤ code && code ≤ 0x200A) || code == 0x2028 ||
    code == 0x2029 || code == 0x202F || code == 0x205F || code == 0x3000

def trim (text : String) : String :=
  String.ofList
    (((text.toList.dropWhile isWhitespace).reverse.dropWhile isWhitespace).reverse)

/-- `u8::is_ascii_alphanumeric` on every byte, or one of `extra`. A character
outside ASCII has only bytes of 128 and above, so testing characters is the same
as testing bytes. -/
def allAsciiAlphanumericOr (extra : List Char) (text : String) : Bool :=
  text.toList.all fun character => character.isAlphanum || extra.contains character

def toAsciiLowercase (text : String) : String := String.ofList (text.toList.map Char.toLower)

def eqIgnoreAsciiCase (left right : String) : Bool :=
  toAsciiLowercase left == toAsciiLowercase right

def startsWith (text start : String) : Bool := start.toList.isPrefixOf text.toList

def endsWith (text ending : String) : Bool := ending.toList.isSuffixOf text.toList

def contains (text part : String) : Bool :=
  text.toList.tails.any fun rest => part.toList.isPrefixOf rest

def trimEndMatches (text : String) (last : Char) : String :=
  String.ofList ((text.toList.reverse.dropWhile (· == last)).reverse)

def trimMatches (text : String) (outer : Char) : String :=
  trimEndMatches (String.ofList (text.toList.dropWhile (· == outer))) outer

def splitOnce (text : String) (separator : Char) : Option (String × String) :=
  match text.toList.dropWhile (· != separator) with
  | [] => none
  | _ :: after => some (String.ofList (text.toList.takeWhile (· != separator)), String.ofList after)

def stripStart (text start : String) : Option String :=
  if startsWith text start then some (String.ofList (text.toList.drop start.length)) else none

def rsplitOnce (text : String) (separator : Char) : Option (String × String) :=
  let reversed := text.toList.reverse
  match reversed.dropWhile (· != separator) with
  | [] => none
  | _ :: before =>
    some (String.ofList before.reverse, String.ofList (reversed.takeWhile (· != separator)).reverse)

def bytes (text : String) : List UInt8 := text.toUTF8.data.toList

def fromUtf8 (bytes : List UInt8) : Option String := String.fromUTF8? ⟨bytes.toArray⟩

theorem len_of_fromUtf8 {bytes : List UInt8} {text : String}
    (decoded : fromUtf8 bytes = some text) : len text = bytes.length := by
  unfold fromUtf8 String.fromUTF8? at decoded
  split at decoded
  · cases decoded
    exact List.size_toArray ..
  · cases decoded

theorem len_ofList_le {text : String} {last : List Char} (isSuffix : last <:+ text.toList) :
    len (String.ofList last) ≤ len text := by
  rcases isSuffix with ⟨first, split⟩
  have whole : text = String.ofList first ++ String.ofList last := by
    rw [← String.ofList_append, split, String.ofList_toList]
  rw [whole, len, len, String.utf8ByteSize_append]
  exact Nat.le_add_left ..

theorem len_of_splitOnce {text first second : String} {separator : Char}
    (split : splitOnce text separator = some (first, second)) : len second ≤ len text := by
  unfold splitOnce at split
  cases found : text.toList.dropWhile (· != separator) with
  | nil => simp [found] at split
  | cons here after =>
    simp only [found, Option.some.injEq, Prod.mk.injEq] at split
    rw [← split.2]
    refine len_ofList_le ((List.suffix_cons here after).trans ?_)
    exact found ▸ List.dropWhile_suffix _

theorem len_of_stripStart {text start rest : String}
    (stripped : stripStart text start = some rest) : len rest ≤ len text := by
  unfold stripStart at stripped
  split at stripped <;> cases stripped
  exact len_ofList_le (List.drop_suffix ..)

theorem stripStart_eq_some {text start rest : String} :
    stripStart text start = some rest ↔ start ++ rest = text := by
  rw [stripStart, startsWith, Option.ite_none_right_eq_some, List.isPrefixOf_iff_prefix,
    Option.some.injEq]
  constructor
  · rintro ⟨⟨last, split⟩, rfl⟩
    rw [← String.toList_inj, String.toList_append, String.toList_ofList, ← split,
      ← String.length_toList, List.drop_left]
  · rintro rfl
    rw [String.toList_append, ← String.length_toList, List.drop_left, String.ofList_toList]
    exact ⟨List.prefix_append .., rfl⟩

theorem splitOnce_eq_some {text before after : String} {separator : Char} :
    splitOnce text separator = some (before, after) ↔
      separator ∉ before.toList ∧ before ++ String.singleton separator ++ after = text := by
  constructor
  · intro split
    unfold splitOnce at split
    have whole := List.takeWhile_append_dropWhile (p := (· != separator)) (l := text.toList)
    cases found : text.toList.dropWhile (· != separator) with
    | nil => simp [found] at split
    | cons here last =>
      simp only [found, Option.some.injEq, Prod.mk.injEq] at split
      rcases split with ⟨rfl, rfl⟩
      have isHere : here = separator := by
        have stops := List.head_dropWhile_not (· != separator) (l := text.toList) (by simp [found])
        simpa [found] using stops
      rw [found, isHere] at whole
      refine ⟨fun member => ?_, ?_⟩
      · have kept := List.all_eq_true.mp List.all_takeWhile _ (String.toList_ofList ▸ member)
        simp at kept
      · rw [← String.toList_inj]
        simpa using whole
  · rintro ⟨fresh, rfl⟩
    have passes : ∀ character ∈ before.toList, (character != separator) = true := by
      intro character member
      exact bne_iff_ne.mpr fun same => fresh (same ▸ member)
    simp [splitOnce, List.dropWhile_append_of_pos passes, List.takeWhile_append_of_pos passes]

end Text

end Philo
