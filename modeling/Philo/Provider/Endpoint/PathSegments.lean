import Philo.Provider.Endpoint.Config

/-! What the segments of an endpoint template become in the path of a URL. -/

namespace Philo

open Result UrlPath List

/-! ## Encoded values -/

variable {value : String} {segment : PathSegment} {segments : List PathSegment}
  {values : Option EndpointValues}

theorem encodePathByte_of_plain : ∀ code < 256,
    ((Char.ofNat code).isAlphanum || ['-', '_', '~'].contains (Char.ofNat code)) = true →
      Char.ofNat code ≠ '%' ∧
        String.utf8EncodeChar (Char.ofNat code) = [UInt8.ofNat code] ∧
          encodes (Char.ofNat code) = false ∧ isSeparator (Char.ofNat code) = false := by
  decide +kernel

theorem mem_encodePathByte {byte : UInt8} {character : Char}
    (member : character ∈ encodePathByte byte) :
    encodes character = false ∧ isSeparator character = false := by
  unfold encodePathByte at member
  dsimp only at member
  split at member
  · next plain =>
      cases mem_singleton.mp member
      exact (encodePathByte_of_plain byte.toNat byte.toNat_lt plain).2.2
  · rcases encodes_percentEncode byte character member with ⟨plain, notSlash, notBackslash⟩
    exact ⟨plain, by simp [isSeparator, notSlash, notBackslash]⟩

theorem percentDecode_encodePathByte (byte : UInt8) (rest : List Char) :
    percentDecode (encodePathByte byte ++ rest) = byte :: percentDecode rest := by
  unfold encodePathByte
  dsimp only
  split
  · next plain =>
      rcases encodePathByte_of_plain byte.toNat byte.toNat_lt plain with ⟨notPercent, same, _⟩
      rw [singleton_append, percentDecode_cons notPercent, same, UInt8.ofNat_toNat]
      rfl
  · exact percentDecode_percentEncode byte rest

theorem percentDecode_encodePathSegment (value : String) :
    percentDecode (encodePathSegment value).toList = utf8 value.toList := by
  have all : ∀ bytes : List UInt8, percentDecode (bytes.flatMap encodePathByte) = bytes := by
    intro bytes
    induction bytes with
    | nil => rfl
    | cons byte bytes induction => rw [flatMap_cons, percentDecode_encodePathByte, induction]
  rw [encodePathSegment, String.toList_ofList]
  exact all _

theorem mem_encodePathSegment {character : Char}
    (member : character ∈ (encodePathSegment value).toList) :
    encodes character = false ∧ isSeparator character = false := by
  rw [encodePathSegment, String.toList_ofList] at member
  rcases mem_flatMap.mp member with ⟨byte, _, isByte⟩
  exact mem_encodePathByte isByte

/-! ## Template segments -/

namespace PathSegment

/-- What a segment of a template stands for. Setting a path removes tabs and newlines. -/
def text? (values : Option EndpointValues) : PathSegment → Option (List Char)
  | .literal value => some (strip value.toList)
  | .ofVariable name => (values.bind fun values => (values.value name).toOption).map String.toList

def written? (values : Option EndpointValues) : PathSegment → Option (List Char)
  | .literal value => some value.toList
  | .ofVariable name =>
    (values.bind fun values => (values.value name).toOption).map fun value =>
      (encodePathSegment value).toList

def Fills (values : Option EndpointValues) (segment : PathSegment) (filled : List Char) : Prop :=
  ∃ text, segment.text? values = some text ∧ percentDecode filled = utf8 text

structure IsSafe (values : Option EndpointValues) (segment : PathSegment) : Prop where
  oneSegment : ∀ value, segment = .literal value → '\\' ∉ value.toList
  notDots : segment.text? values ≠ some ['.'] ∧ segment.text? values ≠ some ['.', '.']

structure Accepted (segment : PathSegment) : Prop where
  notEmpty : ∀ value, segment = .literal value → value ≠ ""
  characters : ∀ value, segment = .literal value → '/' ∉ value.toList ∧ '%' ∉ value.toList

end PathSegment

open PathSegment

namespace EndpointTemplate

theorem accepted_of_parseSegment {text : String}
    (parsed : parseSegment text = .ok segment) (noSlash : '/' ∉ text.toList) :
    segment.Accepted := by
  simp only [parseSegment, bind_eq_ok, reject_eq_ok, exists_const] at parsed
  rcases parsed with ⟨notUnsafe, parsed⟩
  split at parsed
  iterate 3
    · cases parsed
      constructor <;> simp
  · simp only [bind_eq_ok, reject_eq_ok, exists_const, Except.ok.injEq] at parsed
    rcases parsed with ⟨noMarks, rfl⟩
    constructor
    · rintro value ⟨⟩
      exact fun isEmpty => notUnsafe (.inl isEmpty)
    · rintro value ⟨⟩
      refine ⟨noSlash, fun member => noMarks ?_⟩
      exact any_eq_true.mpr ⟨'%', member, by decide⟩

theorem accepted_of_parseSegments {pieces : List (List Char)}
    (noSlash : ∀ piece ∈ pieces, '/' ∉ piece) (parsed : Forall₂ (fun piece segment =>
      parseSegment (String.ofList piece) = .ok segment) pieces segments) :
    ∀ segment ∈ segments, segment.Accepted := by
  induction parsed with
  | nil => exact nofun
  | cons first _ induction =>
    rw [forall_mem_cons] at noSlash
    refine forall_mem_cons.mpr ⟨accepted_of_parseSegment first ?_, induction noSlash.2⟩
    rw [String.toList_ofList]
    exact noSlash.1

theorem accepted_of_parse {text : String} {template : EndpointTemplate}
    (parsed : parse text = .ok template) :
    template.segments ≠ [] ∧ ∀ segment ∈ template.segments, segment.Accepted := by
  simp only [parse, bind_eq_ok, reject_eq_ok, exists_const, Except.ok.injEq, mapM_eq_ok] at parsed
  rcases parsed with ⟨_, _, _, segments, each, rfl⟩
  constructor
  · rintro rfl
    exact splitOn_ne_nil '/' _ (forall₂_nil_right_iff.mp each)
  · refine accepted_of_parseSegments (fun piece isPiece member => ?_) each
    rw [splitOn_eq_splitOnP] at isPiece
    simpa using (mem_splitOnP isPiece member).2

/-! ## Rendering -/

def pathText (segments : List (List Char)) : String :=
  if segments = [] then "/" else String.ofList (serialize segments)

theorem renderSegment_eq_ok {rendered next : String × List EndpointPathVariable}
    (isNext : renderSegment values rendered segment = .ok next) :
    ∃ written, segment.written? values = some written ∧
      next.1 = (if Text.endsWith rendered.1 "/" then rendered.1 else rendered.1 ++ "/") ++
        String.ofList written := by
  cases segment with
  | literal value =>
    cases isNext
    exact ⟨value.toList, rfl, by simp⟩
  | ofVariable name =>
    simp only [renderSegment, bind_eq_ok, okOr_eq_ok, Except.ok.injEq] at isNext
    rcases isNext with ⟨given, isGiven, value, isValue, rfl⟩
    refine ⟨(encodePathSegment value).toList, ?_, by simp⟩
    simp [written?, isGiven, isValue, Except.toOption]

theorem value_ne_empty {values : EndpointValues} {name : EndpointPathVariable}
    (isValue : values.value name = .ok value) : value ≠ "" := by
  cases name with
  | product => exact Except.ok.inj isValue ▸ values.productId.notEmpty
  | providerModel => exact Except.ok.inj isValue ▸ values.providerModelId.notEmpty
  | deployment =>
    simp only [EndpointValues.value, bind_eq_ok, okOr_eq_ok, Except.ok.injEq] at isValue
    rcases isValue with ⟨id, _, rfl⟩
    exact id.notEmpty

theorem written_variable {name : EndpointPathVariable} {written : List Char}
    (isWritten : (ofVariable name).written? values = some written) :
    ∃ value, value ≠ "" ∧ written = (encodePathSegment value).toList ∧
      (ofVariable name).text? values = some value.toList := by
  simp only [written?, Option.map_eq_some_iff, Option.bind_eq_some_iff] at isWritten
  rcases isWritten with ⟨value, ⟨given, isGiven, isValue⟩, rfl⟩
  have valueOk : given.value name = .ok value := by
    cases result : given.value name with
    | error =>
      rw [result] at isValue
      cases isValue
    | ok =>
      rw [result] at isValue
      cases isValue
      rfl
  refine ⟨value, value_ne_empty valueOk, rfl, ?_⟩
  simp [text?, isGiven, isValue]

structure EndsPlain (segment : List Char) : Prop where
  notEmpty : segment ≠ []
  noSlash : '/' ∉ segment

theorem endsPlain_written {written : List Char} (accepted : segment.Accepted)
    (isWritten : segment.written? values = some written) : EndsPlain written := by
  cases segment with
  | literal value =>
    cases isWritten
    refine ⟨?_, (accepted.characters value rfl).1⟩
    exact fun isEmpty => accepted.notEmpty value rfl (String.toList_eq_nil_iff.mp isEmpty)
  | ofVariable name =>
    rcases written_variable isWritten with ⟨value, notEmpty, rfl, _⟩
    constructor
    · intro isEmpty
      have noBytes := percentDecode_encodePathSegment value
      rw [isEmpty] at noBytes
      have isNil : value.toList = [] := utf8_injective noBytes.symm
      exact notEmpty (String.toList_eq_nil_iff.mp isNil)
    · intro member
      exact absurd (mem_encodePathSegment member).2 (by decide)

theorem extend_pathText {segments : List (List Char)}
    (plain : ∀ last ∈ segments.getLast?, EndsPlain last) (written : List Char) :
    (if Text.endsWith (pathText segments) "/" then pathText segments
      else pathText segments ++ "/") ++ String.ofList written =
        pathText (segments ++ [written]) := by
  rcases eq_nil_or_concat segments with rfl | ⟨front, last, rfl⟩
  · have ends : Text.endsWith (pathText []) "/" = true := by decide
    rw [ends]
    simp [pathText, serialize]
  · have isPlain := plain last (by simp)
    rcases eq_nil_or_concat last with rfl | ⟨start, character, rfl⟩
    · exact absurd rfl isPlain.notEmpty
    · have notSlash : character ≠ '/' := by
        rintro rfl
        exact isPlain.noSlash (by simp)
      have text : pathText (front.concat (start.concat character)) =
          String.ofList (serialize front ++ '/' :: start ++ [character]) := by
        simp [pathText, serialize]
      have ends : Text.endsWith (pathText (front.concat (start.concat character))) "/" = false := by
        rw [text, Text.endsWith, String.toList_ofList, isSuffixOf]
        simp [isPrefixOf, notSlash.symm]
      rw [ends, text]
      simp [pathText, serialize, ← String.toList_inj]

theorem render_eq_ok {start : List (List Char)} {used : List EndpointPathVariable}
    {rendered : String × List EndpointPathVariable}
    (plain : ∀ last ∈ start.getLast?, EndsPlain last)
    (accepted : ∀ segment ∈ segments, segment.Accepted)
    (isRendered : segments.foldlM (renderSegment values) (pathText start, used) =
      .ok rendered) :
    ∃ written, Forall₂ (fun segment text => segment.written? values = some text)
      segments written ∧ rendered.1 = pathText (start ++ written) := by
  induction segments generalizing start used with
  | nil =>
    cases isRendered
    exact ⟨[], .nil, by rw [append_nil]⟩
  | cons segment rest induction =>
    rw [foldlM_cons, bind_eq_ok] at isRendered
    rcases isRendered with ⟨⟨path, used'⟩, isFirst, isRest⟩
    rcases renderSegment_eq_ok isFirst with ⟨text, isText, isPath⟩
    rw [forall_mem_cons] at accepted
    rw [extend_pathText plain text] at isPath
    cases isPath
    have isPlain : ∀ last ∈ (start ++ [text]).getLast?, EndsPlain last := by
      intro last isLast
      rw [getLast?_concat] at isLast
      cases isLast
      exact endsPlain_written accepted.1 isText
    rcases induction isPlain accepted.2 isRest with ⟨written, areWritten, whole⟩
    exact ⟨text :: written, .cons isText areWritten, by rw [whole, append_assoc]; rfl⟩

end EndpointTemplate

/-! ## Safe segments -/

namespace PathSegment

variable {values : Option EndpointValues} {segment : PathSegment} {written filled : List Char}

theorem plain_variable :
    strip (encodePathSegment value).toList = (encodePathSegment value).toList ∧
      encode (encodePathSegment value).toList = (encodePathSegment value).toList := by
  constructor
  · refine filter_eq_self.mpr fun character member => ?_
    rw [isTabOrNewline_of_plain (mem_encodePathSegment member).1]
    rfl
  · exact encode_eq_self fun character member => (mem_encodePathSegment member).1

theorem notDot_of_decodes {text : List Char} (decodes : percentDecode filled = utf8 text)
    (notSingle : text ≠ ['.']) (notDouble : text ≠ ['.', '.']) :
    isSingleDot filled = false ∧ isDoubleDot filled = false := by
  constructor
  · rw [Bool.eq_false_iff]
    intro isSingle
    exact notSingle (utf8_injective (decodes.symm.trans (isSingleDot_iff.mp isSingle)))
  · rw [Bool.eq_false_iff]
    intro isDouble
    exact notDouble (utf8_injective (decodes.symm.trans (isDoubleDot_iff.mp isDouble)))

theorem pieces_of_safe (accepted : segment.Accepted) (safe : segment.IsSafe values)
    (isWritten : segment.written? values = some written) :
    (strip written).splitOnP isSeparator = [strip written] ∧
      segment.Fills values (encode (strip written)) ∧
        isSingleDot (encode (strip written)) = false ∧
          isDoubleDot (encode (strip written)) = false := by
  have whole : ∃ text, segment.text? values = some text ∧
      percentDecode (encode (strip written)) = utf8 text ∧
        ∀ character ∈ strip written, isSeparator character = false := by
    cases segment with
    | literal value =>
      cases isWritten
      rcases accepted.characters value rfl with ⟨noSlash, noPercent⟩
      refine ⟨strip value.toList, rfl, ?_, fun character member => ?_⟩
      · exact percentDecode_encode fun member => noPercent (mem_filter.mp member).1
      · have inValue := (mem_filter.mp member).1
        simp only [isSeparator, Bool.or_eq_false_iff, beq_eq_false_iff_ne]
        constructor
        · rintro rfl
          exact noSlash inValue
        · rintro rfl
          exact safe.oneSegment value rfl inValue
    | ofVariable name =>
      rcases EndpointTemplate.written_variable isWritten with ⟨value, _, rfl, isText⟩
      rcases @plain_variable value with ⟨stripped, encoded⟩
      rw [stripped, encoded]
      exact ⟨value.toList, isText, percentDecode_encodePathSegment value,
        fun character member => (mem_encodePathSegment member).2⟩
  rcases whole with ⟨text, isText, decodes, noSeparator⟩
  refine ⟨splitOnP_eq_singleton noSeparator, ⟨text, isText, decodes⟩, ?_⟩
  refine notDot_of_decodes decodes ?_ ?_
  · rintro rfl
    exact safe.notDots.1 isText
  · rintro rfl
    exact safe.notDots.2 isText

theorem notDots_of_fills (plain : Plain filled) (fills : segment.Fills values filled) :
    segment.text? values ≠ some ['.'] ∧ segment.text? values ≠ some ['.', '.'] := by
  rcases fills with ⟨text, isText, decodes⟩
  rw [isText]
  constructor
  · rintro ⟨⟩
    exact absurd (isSingleDot_iff.mpr decodes) (by simp [plain.notSingle])
  · rintro ⟨⟩
    exact absurd (isDoubleDot_iff.mpr decodes) (by simp [plain.notDouble])

/-! ### Backslashes -/

def isVariable : PathSegment → Bool
  | .literal _ => false
  | .ofVariable _ => true

def hasBackslash (values : Option EndpointValues) (segment : PathSegment) : Bool :=
  (segment.text? values).any fun text => text.contains '\\'

def decodesBackslash (filled : List Char) : Bool := (percentDecode filled).contains 0x5C

theorem decodesBackslash_of_fills (fills : segment.Fills values filled) :
    decodesBackslash filled = segment.hasBackslash values := by
  rcases fills with ⟨text, isText, decodes⟩
  rw [decodesBackslash, hasBackslash, isText, decodes, Option.any_some, Bool.eq_iff_iff,
    contains_iff_mem, contains_iff_mem, mem_utf8_backslash]

theorem count_fills {path : List (List Char)} (fills : Forall₂ (Fills values) segments path) :
    path.countP decodesBackslash = segments.countP (hasBackslash values) := by
  induction fills with
  | nil => rfl
  | cons first _ induction =>
    rw [countP_cons, countP_cons, induction, decodesBackslash_of_fills first]

/-- Only the value of a variable can bring a backslash into a segment. -/
theorem count_pieces (accepted : segment.Accepted)
    (isWritten : segment.written? values = some written) :
    (((strip written).splitOnP isSeparator).map encode).countP decodesBackslash ≤
      if segment.isVariable && segment.hasBackslash values then 1 else 0 := by
  cases segment with
  | literal value =>
    cases isWritten
    refine Nat.le_of_eq (countP_eq_zero.mpr fun filled member => ?_)
    rcases mem_map.mp member with ⟨piece, isPiece, rfl⟩
    have noPercent : '%' ∉ piece := fun isThere =>
      (accepted.characters value rfl).2 (mem_filter.mp (mem_splitOnP isPiece isThere).1).1
    rw [decodesBackslash, percentDecode_encode noPercent, contains_iff_mem, mem_utf8_backslash]
    intro isThere
    exact absurd (mem_splitOnP isPiece isThere).2 (by decide)
  | ofVariable name =>
    rcases EndpointTemplate.written_variable isWritten with ⟨value, _, rfl, isText⟩
    rcases @plain_variable value with ⟨stripped, encoded⟩
    have single : (encodePathSegment value).toList.splitOnP isSeparator =
        [(encodePathSegment value).toList] :=
      splitOnP_eq_singleton fun character member => (mem_encodePathSegment member).2
    rw [stripped, single, map_singleton, encoded, countP_singleton,
      decodesBackslash_of_fills ⟨_, isText, percentDecode_encodePathSegment value⟩]
    exact Nat.le_refl _

theorem count_written {texts : List (List Char)} (accepted : ∀ segment ∈ segments, segment.Accepted)
    (areWritten : Forall₂ (fun segment text => segment.written? values = some text)
      segments texts) :
    ((texts.flatMap fun text => (strip text).splitOnP isSeparator).map encode).countP
        decodesBackslash ≤
      segments.countP fun segment => segment.isVariable && segment.hasBackslash values := by
  induction areWritten with
  | nil => exact Nat.le_refl _
  | cons first _ induction =>
    rw [forall_mem_cons] at accepted
    rw [flatMap_cons, map_append, countP_append, countP_cons, Nat.add_comm]
    exact Nat.add_le_add (induction accepted.2) (count_pieces accepted.1 first)

theorem imp_of_countP_le {α : Type} {weaker stronger : α → Bool} {items : List α}
    (implies : ∀ item, stronger item = true → weaker item = true)
    (atMost : items.countP weaker ≤ items.countP stronger) :
    ∀ item ∈ items, weaker item = true → stronger item = true := by
  induction items with
  | nil => exact nofun
  | cons first rest induction =>
    have restLe : rest.countP stronger ≤ rest.countP weaker :=
      countP_mono_left fun item _ => implies item
    rw [countP_cons, countP_cons] at atMost
    have here := implies first
    refine forall_mem_cons.mpr ⟨fun isWeaker => ?_, induction ?_⟩
    · by_contra notStronger
      simp only [isWeaker, notStronger, if_true, if_false] at atMost
      omega
    · split at atMost
      · split at atMost <;> omega
      · next notWeaker =>
          rw [if_neg fun isStronger => notWeaker (here isStronger)] at atMost
          omega

end PathSegment

end Philo
