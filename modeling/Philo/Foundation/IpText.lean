import Mathlib.Data.List.Basic
import Mathlib.Data.List.Induction
import Philo.Foundation.IpAddr

/-! The text of an address determines the address. -/

namespace Philo

open List

/-! ## Separated words -/

variable {separator character : Char} {zeroes : List Bool} {first second : Ipv6Addr}

theorem intercalate_injective {first second : List (List Char)}
    (firstClean : ∀ word ∈ first, separator ∉ word) (firstSome : first ≠ [])
    (secondClean : ∀ word ∈ second, separator ∉ word) (secondSome : second ≠ [])
    (same : [separator].intercalate first = [separator].intercalate second) : first = second := by
  rw [← splitOn_intercalate separator firstClean firstSome, same,
    splitOn_intercalate separator secondClean secondSome]

theorem intercalate_append {first second : List (List Char)}
    (firstSome : first ≠ []) (secondSome : second ≠ []) :
    [separator].intercalate (first ++ second) =
      [separator].intercalate first ++ separator :: [separator].intercalate second := by
  induction first with
  | nil => exact absurd rfl firstSome
  | cons word rest induction =>
    cases rest with
    | nil =>
      cases second with
      | nil => exact absurd rfl secondSome
      | cons next others => simp [intercalate_cons_cons]
    | cons next others =>
      have later := induction (by simp)
      simp only [cons_append, intercalate_cons_cons, append_assoc] at later ⊢
      rw [later]

theorem mem_intercalate {words : List (List Char)}
    (member : character ∈ [separator].intercalate words) :
    character = separator ∨ ∃ word ∈ words, character ∈ word := by
  induction words with
  | nil => simp at member
  | cons word rest induction =>
    cases rest with
    | nil => exact .inr ⟨word, by simp, by simpa using member⟩
    | cons next others =>
      simp only [intercalate_cons_cons, append_assoc, mem_append, mem_singleton] at member
      rcases member with inWord | isSeparator | later
      · exact .inr ⟨word, by simp, inWord⟩
      · exact .inl isSeparator
      · rcases induction later with isSeparator | ⟨found, inRest, inFound⟩
        · exact .inl isSeparator
        · exact .inr ⟨found, mem_cons_of_mem _ inRest, inFound⟩

theorem append_cons_injective {α : Type} {mark : α} {first second rest other : List α}
    (notFirst : mark ∉ first) (notSecond : mark ∉ second)
    (same : first ++ mark :: rest = second ++ mark :: other) : first = second ∧ rest = other := by
  induction first generalizing second with
  | nil =>
    cases second with
    | nil => exact ⟨rfl, by simpa using same⟩
    | cons head tail =>
      simp only [nil_append, cons_append, cons.injEq] at same
      exact absurd (by simp [same.1]) notSecond
  | cons word words induction =>
    cases second with
    | nil =>
      simp only [nil_append, cons_append, cons.injEq] at same
      exact absurd (by simp [same.1]) notFirst
    | cons head tail =>
      simp only [cons_append, cons.injEq] at same
      have later := induction (fun member => notFirst (by simp [member]))
        (fun member => notSecond (by simp [member])) same.2
      exact ⟨by rw [same.1, later.1], later.2⟩

theorem not_mem_numeral {base value : Nat} (isBase : 1 < base) (small : base ≤ 16)
    {character : Char} (foreign : isNumeralChar character = false) :
    character ∉ numeral base value := by
  intro member
  rw [isNumeralChar_of_mem isBase small member] at foreign
  cases foreign

/-! ## IPv4 -/

namespace Ipv4Addr

def words (address : Ipv4Addr) : List (List Char) :=
  [numeral 10 address.a.toNat, numeral 10 address.b.toNat, numeral 10 address.c.toNat,
    numeral 10 address.d.toNat]

theorem toList_text (address : Ipv4Addr) :
    address.text.toList = ['.'].intercalate address.words := by
  simp [text, words]

theorem not_mem_words {address : Ipv4Addr}
    (foreign : isNumeralChar character = false) : ∀ word ∈ address.words, character ∉ word := by
  intro word member
  simp only [words, mem_cons, not_mem_nil, or_false] at member
  rcases member with rfl | rfl | rfl | rfl <;>
    exact not_mem_numeral (by decide) (by decide) foreign

theorem text_injective {first second : Ipv4Addr} (same : first.text = second.text) :
    first = second := by
  have sameText : ['.'].intercalate first.words = ['.'].intercalate second.words := by
    rw [← toList_text, ← toList_text, same]
  have sameWords := intercalate_injective (not_mem_words (by decide)) (by simp [words])
    (not_mem_words (by decide)) (by simp [words]) sameText
  have digits : ∀ left right : UInt8, numeral 10 left.toNat = numeral 10 right.toNat →
      left = right := by
    intro left right sameNumeral
    exact UInt8.toNat_inj.mp (numeral_injective (by decide) (by decide) sameNumeral)
  simp only [words, cons.injEq, and_true] at sameWords
  rcases first with ⟨a, b, c, d⟩
  rcases second with ⟨a', b', c', d'⟩
  simp only [mk.injEq]
  exact ⟨digits _ _ sameWords.1, digits _ _ sameWords.2.1, digits _ _ sameWords.2.2.1,
    digits _ _ sameWords.2.2.2⟩

theorem colon_not_mem_text (address : Ipv4Addr) : ':' ∉ address.text.toList := by
  intro member
  rw [toList_text] at member
  rcases mem_intercalate member with isDot | ⟨word, inWords, inWord⟩
  · exact absurd isDot (by decide)
  · exact not_mem_words (by decide) word inWords inWord

theorem dot_mem_text (address : Ipv4Addr) : '.' ∈ address.text.toList := by
  simp [toList_text, words, intercalate_cons_cons]

end Ipv4Addr

/-! ## Runs of zeros -/

structure Span.Covers (span : Span) (zeroes : List Bool) : Prop where
  within : span.start + span.len ≤ zeroes.length
  zero : ∀ index, span.start ≤ index → index < span.start + span.len →
    zeroes[index]? = some true

theorem Span.Covers.append {span : Span} (covers : span.Covers zeroes)
    (more : List Bool) : span.Covers (zeroes ++ more) where
  within := by
    have within := covers.within
    simp only [length_append]
    omega
  zero index above below := by
    have within := covers.within
    rw [getElem?_append_left (by omega)]
    exact covers.zero index above below

structure SpanFound (zeroes : List Bool) (state : Nat × Span × Span) : Prop where
  position : state.1 = zeroes.length
  longest : state.2.1.Covers zeroes
  current : state.2.2.Covers zeroes
  ends : state.2.2.len ≠ 0 → state.2.2.start + state.2.2.len = zeroes.length

theorem SpanFound.grown {position : Nat} {longest current : Span}
    (found : SpanFound zeroes (position, longest, current)) :
    (Span.mk (if current.len = 0 then position else current.start)
      (current.len + 1)).Covers (zeroes ++ [true]) := by
  have atEnd : position = zeroes.length := found.position
  have last : (zeroes ++ [true])[zeroes.length]? = some true := by simp
  by_cases fresh : current.len = 0
  · rw [if_pos fresh, fresh, atEnd]
    refine ⟨by simp, ?_⟩
    intro index above below
    have isLast : index = zeroes.length := by
      dsimp only at above below
      omega
    rw [isLast]
    exact last
  · have ends : current.start + current.len = zeroes.length := found.ends fresh
    rw [if_neg fresh]
    constructor
    · simp only [length_append, length_singleton]
      omega
    · intro index above below
      dsimp only at above below
      by_cases isLast : index = zeroes.length
      · rw [isLast]
        exact last
      · have covered : current.Covers zeroes := found.current
        exact (covered.append [true]).zero index above (by omega)

theorem SpanFound.step {state : Nat × Span × Span} (found : SpanFound zeroes state) (zero : Bool) :
    SpanFound (zeroes ++ [zero]) (spanStep state zero) := by
  rcases state with ⟨position, longest, current⟩
  have atEnd : position = zeroes.length := found.position
  cases zero with
  | false =>
    refine ⟨?_, found.longest.append _, ?_, ?_⟩
    · simp [spanStep, atEnd]
    · exact ⟨by simp [spanStep], fun index above below => by simp [spanStep] at below⟩
    · simp [spanStep]
  | true =>
    refine ⟨?_, ?_, found.grown, ?_⟩
    · simp [spanStep, atEnd]
    · simp only [spanStep]
      split
      · exact found.grown
      · exact found.longest.append _
    · intro _
      by_cases fresh : current.len = 0
      · simp [spanStep, fresh, atEnd]
      · have ends : current.start + current.len = zeroes.length := found.ends fresh
        simp only [spanStep, if_neg fresh, length_append, length_singleton]
        omega

theorem spanFound_foldl (zeroes : List Bool) :
    SpanFound zeroes (zeroes.foldl spanStep (0, ⟨0, 0⟩, ⟨0, 0⟩)) := by
  induction zeroes using reverseRecOn with
  | nil =>
    have empty : (Span.mk 0 0).Covers [] := ⟨by simp, fun index above below => by simp at below⟩
    exact ⟨rfl, empty, empty, by simp⟩
  | append_singleton processed zero induction =>
    rw [foldl_append]
    exact induction.step zero

theorem longestSpan_covers (zeroes : List Bool) : (longestSpan zeroes).Covers zeroes :=
  (spanFound_foldl zeroes).longest

/-! ## IPv6 -/

namespace Ipv6Addr

def hexadecimal (segment : UInt16) : List Char := numeral 16 segment.toNat

theorem hexadecimal_injective : Function.Injective hexadecimal := by
  intro first second same
  exact UInt16.toNat_inj.mp (numeral_injective (by decide) (by decide) same)

/-- What stands between the colons on one side of the gap. Nothing on that side
still leaves an empty word. -/
def fields (chunk : List UInt16) : List (List Char) :=
  if chunk = [] then [[]] else chunk.map hexadecimal

theorem fields_ne_nil (chunk : List UInt16) : fields chunk ≠ [] := by
  unfold fields
  split
  · simp
  · simpa using ‹_›

theorem nil_not_mem_hexadecimal (chunk : List UInt16) : [] ∉ chunk.map hexadecimal := by
  intro member
  rcases mem_map.mp member with ⟨segment, _, isNil⟩
  exact numeral_ne_nil isNil

theorem fields_injective {first second : List UInt16} (same : fields first = fields second) :
    first = second := by
  unfold fields at same
  split at same <;> split at same
  case isTrue.isTrue firstNil secondNil => rw [firstNil, secondNil]
  case isTrue.isFalse =>
    exact absurd (same ▸ mem_singleton.mpr rfl) (nil_not_mem_hexadecimal second)
  case isFalse.isTrue => exact absurd (same ▸ mem_singleton.mpr rfl) (nil_not_mem_hexadecimal first)
  case isFalse.isFalse => exact map_injective_iff.mpr hexadecimal_injective same

theorem subslice_eq (chunk : List UInt16) :
    subslice chunk = [':'].intercalate (fields chunk) := by
  unfold subslice fields
  split
  case isTrue isNil => simp [isNil]
  case isFalse => rfl

def gapFields (left right : List UInt16) : List (List Char) := fields left ++ [] :: fields right

theorem gapText_eq (left right : List UInt16) :
    subslice left ++ "::".toList ++ subslice right = [':'].intercalate (gapFields left right) := by
  rw [gapFields, intercalate_append (fields_ne_nil left) (by simp), subslice_eq, subslice_eq]
  cases right : fields right with
  | nil => exact absurd right (fields_ne_nil _)
  | cons word rest => simp [intercalate_cons_cons]

theorem gapFields_injective {left right left' right' : List UInt16}
    (same : gapFields left right = gapFields left' right') : left = left' ∧ right = right' := by
  unfold gapFields at same
  cases left with
  | nil =>
    cases left' with
    | nil => exact ⟨rfl, fields_injective (by simpa [fields] using same)⟩
    | cons segment rest =>
      simp only [fields, if_true, reduceCtorEq, if_false, map_cons, cons_append, cons.injEq] at same
      exact absurd same.1.symm numeral_ne_nil
  | cons segment rest =>
    cases left' with
    | nil =>
      simp only [fields, if_true, reduceCtorEq, if_false, map_cons, cons_append, cons.injEq] at same
      exact absurd same.1 numeral_ne_nil
    | cons other others =>
      have split := append_cons_injective (nil_not_mem_hexadecimal (segment :: rest))
        (nil_not_mem_hexadecimal (other :: others)) (by simpa [fields] using same)
      exact ⟨map_injective_iff.mpr hexadecimal_injective split.1, fields_injective split.2⟩

def plainFields (address : Ipv6Addr) : List (List Char) :=
  let zeroes := address.zeroSpan
  if 1 < zeroes.len then
    gapFields (address.segments.take zeroes.start)
      (address.segments.drop (zeroes.start + zeroes.len))
  else address.segments.map hexadecimal

theorem plainText_eq (address : Ipv6Addr) :
    address.plainText = [':'].intercalate address.plainFields := by
  unfold plainText plainFields
  dsimp only
  split
  · exact gapText_eq ..
  · rfl

theorem segments_eq_of_zeroSpan (address : Ipv6Addr) : address.segments =
    address.segments.take address.zeroSpan.start ++
      replicate address.zeroSpan.len 0 ++
      address.segments.drop (address.zeroSpan.start + address.zeroSpan.len) := by
  have covers := longestSpan_covers (address.segments.map (· == 0))
  have within : address.zeroSpan.start + address.zeroSpan.len ≤ address.segments.length := by
    simpa [zeroSpan] using covers.within
  have zeros : (address.segments.drop address.zeroSpan.start).take address.zeroSpan.len =
      replicate address.zeroSpan.len 0 := by
    refine eq_replicate_iff.mpr ⟨?_, ?_⟩
    · simp only [length_take, length_drop]
      omega
    · intro segment member
      rcases mem_iff_getElem?.mp member with ⟨index, found⟩
      rw [getElem?_take] at found
      split at found
      case isFalse => cases found
      case isTrue inSpan =>
        rw [getElem?_drop] at found
        have isZero := covers.zero (address.zeroSpan.start + index) (Nat.le_add_right ..)
          (Nat.add_lt_add_left inSpan _)
        simpa [found] using isZero
  rw [← zeros, append_assoc, ← drop_drop, take_append_drop, take_append_drop]

theorem segments_injective (same : first.segments = second.segments) : first = second := by
  rcases first with ⟨a, b, c, d, e, f, g, h⟩
  rcases second with ⟨a', b', c', d', e', f', g', h'⟩
  simpa [segments] using same

theorem plainFields_injective (same : first.plainFields = second.plainFields) : first = second := by
  apply segments_injective
  unfold plainFields at same
  dsimp only at same
  have nilInGap : ∀ left right, [] ∈ gapFields left right := by simp [gapFields]
  split at same <;> split at same
  · rcases gapFields_injective same with ⟨sameLeft, sameRight⟩
    have firstParts := first.segments_eq_of_zeroSpan
    have secondParts := second.segments_eq_of_zeroSpan
    rw [sameLeft, sameRight] at firstParts
    -- Both have eight segments, so the gaps are equally long.
    have sameGap : first.zeroSpan.len = second.zeroSpan.len := by
      have firstLength := congrArg length firstParts
      have secondLength := congrArg length secondParts
      have eight : first.segments.length = second.segments.length := rfl
      simp only [length_append, length_replicate] at firstLength secondLength
      omega
    rw [sameGap] at firstParts
    exact firstParts.trans secondParts.symm
  · exact absurd (same ▸ nilInGap _ _) (nil_not_mem_hexadecimal _)
  · exact absurd (same.symm ▸ nilInGap _ _) (nil_not_mem_hexadecimal _)
  · exact map_injective_iff.mpr hexadecimal_injective same

theorem plainFields_ne_nil (address : Ipv6Addr) : address.plainFields ≠ [] := by
  unfold plainFields
  dsimp only
  split
  · simp [gapFields]
  · simp [segments]

theorem not_mem_plainFields {address : Ipv6Addr} (foreign : isNumeralChar character = false) :
    ∀ word ∈ address.plainFields, character ∉ word := by
  have clean : ∀ chunk : List UInt16, ∀ word ∈ chunk.map hexadecimal, character ∉ word := by
    intro chunk word member
    rcases mem_map.mp member with ⟨segment, _, rfl⟩
    exact not_mem_numeral (by decide) (by decide) foreign
  have cleanFields : ∀ chunk, ∀ word ∈ fields chunk, character ∉ word := by
    intro chunk word member
    unfold fields at member
    split at member
    · simp [mem_singleton.mp member]
    · exact clean chunk word member
  intro word member
  unfold plainFields at member
  dsimp only at member
  split at member
  · simp only [gapFields, mem_append, mem_cons] at member
    rcases member with inLeft | rfl | inRight
    · exact cleanFields _ word inLeft
    · simp
    · exact cleanFields _ word inRight
  · exact clean _ word member

theorem plainText_injective (same : first.plainText = second.plainText) : first = second := by
  rw [plainText_eq, plainText_eq] at same
  exact plainFields_injective (intercalate_injective (not_mem_plainFields (by decide))
    first.plainFields_ne_nil (not_mem_plainFields (by decide)) second.plainFields_ne_nil same)

theorem dot_not_mem_plainText (address : Ipv6Addr) : '.' ∉ address.plainText := by
  intro member
  rw [plainText_eq] at member
  rcases mem_intercalate member with isColon | ⟨word, inFields, inWord⟩
  · exact absurd isColon (by decide)
  · exact not_mem_plainFields (by decide) word inFields inWord

theorem toIpv4Mapped_injective {mapped : Ipv4Addr}
    (isFirst : first.toIpv4Mapped = some mapped) (isSecond : second.toIpv4Mapped = some mapped) :
    first = second := by
  have halves : ∀ left right : UInt16, (left >>> 8).toUInt8 = (right >>> 8).toUInt8 →
      left.toUInt8 = right.toUInt8 → left = right := by
    intro left right high low
    have highNat := congrArg UInt8.toNat high
    have lowNat := congrArg UInt8.toNat low
    have leftLt := left.toNat_lt
    have rightLt := right.toNat_lt
    simp only [UInt16.toNat_toUInt8, UInt16.toNat_shiftRight, UInt16.toNat_ofNat,
      Nat.shiftRight_eq_div_pow, Nat.reduceMod, Nat.reducePow] at highNat lowNat
    apply UInt16.toNat_inj.mp
    omega
  rcases first with ⟨a, b, c, d, e, f, g, h⟩
  rcases second with ⟨a', b', c', d', e', f', g', h'⟩
  simp only [toIpv4Mapped, Option.ite_none_right_eq_some, Option.some.injEq] at isFirst isSecond
  rcases isFirst with ⟨⟨rfl, rfl, rfl, rfl, rfl, rfl⟩, rfl⟩
  rcases isSecond with ⟨⟨rfl, rfl, rfl, rfl, rfl, rfl⟩, same⟩
  simp only [Ipv4Addr.mk.injEq] at same
  simp only [mk.injEq, true_and]
  exact ⟨(halves _ _ same.1 same.2.1).symm, (halves _ _ same.2.2.1 same.2.2.2).symm⟩

theorem colon_mem_plainText (address : Ipv6Addr) : ':' ∈ address.plainText := by
  unfold plainText
  dsimp only
  split
  · simp
  · simp [subslice, segments, intercalate_cons_cons]

theorem colon_mem_text (address : Ipv6Addr) : ':' ∈ address.text.toList := by
  unfold text
  split
  · simp
  · simpa using address.colon_mem_plainText

theorem text_injective (same : first.text = second.text) : first = second := by
  unfold text at same
  cases firstMapped : first.toIpv4Mapped <;> cases secondMapped : second.toIpv4Mapped <;>
    simp only [firstMapped, secondMapped] at same
  case none.none => exact plainText_injective (String.ofList_injective same)
  case none.some mapped =>
    have dotted : '.' ∈ first.plainText := by
      rw [← String.toList_ofList (l := first.plainText), same]
      simp [mapped.dot_mem_text]
    exact absurd dotted first.dot_not_mem_plainText
  case some.none mapped =>
    have dotted : '.' ∈ second.plainText := by
      rw [← String.toList_ofList (l := second.plainText), ← same]
      simp [mapped.dot_mem_text]
    exact absurd dotted second.dot_not_mem_plainText
  case some.some firstAddress secondAddress =>
    have sameText : firstAddress.text = secondAddress.text := by simpa [String.ext_iff] using same
    rw [← Ipv4Addr.text_injective sameText] at secondMapped
    exact toIpv4Mapped_injective firstMapped secondMapped

end Ipv6Addr

example : (Ipv4Addr.mk 192 168 0 1).text = "192.168.0.1" := by decide
example : (Ipv6Addr.mk 0x2001 0xdb8 0 0 1 0 0 1).text = "2001:db8::1:0:0:1" := by decide
example : (Ipv6Addr.mk 0 0 0 0 0 0xffff 0x7f00 1).text = "::ffff:127.0.0.1" := by decide
example : (Ipv6Addr.mk 0 0 0 0 0 0 0 0).text = "::" := by decide

end Philo
