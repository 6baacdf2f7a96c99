import Philo.Provider.Endpoint.PathSegments

/-! Which paths a resolved endpoint can have. -/

namespace Philo

open Result UrlPath EndpointTemplate PathSegment List

/-! ## Paths -/

def baseSegments (path : String) : List (List Char) := (split path.toList).rdropWhile isEmpty

/-- The path of an endpoint: the segments of the base path, and one for each segment of the
template. -/
def EndpointTemplate.Follows (template : EndpointTemplate) (values : Option EndpointValues)
    (base path : String) : Prop :=
  ∃ filled, split path.toList = baseSegments base ++ filled ∧
    Forall₂ (Fills values) template.segments filled

section Path

variable {values : Option EndpointValues} {segments : List PathSegment}
  {base texts filled : List (List Char)} (basePlain : ∀ segment ∈ base, Plain segment)
  (accepted : ∀ segment ∈ segments, segment.Accepted)
  (areWritten : Forall₂ (fun segment text => segment.written? values = some text)
    segments texts)

include basePlain in
theorem map_encode_plain : base.map encode = base := by
  conv_rhs => rw [← map_id base]
  exact map_congr_left fun segment member => (basePlain segment member).encode

include basePlain in
theorem segmentsOf_rendered (notEmpty : base ++ texts ≠ []) :
    segmentsOf (serialize (base ++ texts)) =
      place [] (base ++ texts.flatMap fun text => (strip text).splitOnP isSeparator) := by
  rw [segmentsOf_serialize notEmpty, flatMap_append]
  have each : ∀ segment ∈ base, (strip segment).splitOnP isSeparator = [segment] := by
    intro segment member
    have plain := basePlain segment member
    rw [plain.strip]
    exact splitOnP_eq_singleton fun character isThere => (plain.characters character isThere).2
  rw [flatMap_congr each, flatMap_singleton']

include accepted areWritten in
theorem written_of_safe (safe : ∀ segment ∈ segments, segment.IsSafe values) :
    (texts.flatMap fun text => (strip text).splitOnP isSeparator) = texts.map strip ∧
      Forall₂ (Fills values) segments ((texts.map strip).map encode) ∧
        ∀ text ∈ texts.map strip,
          isSingleDot (encode text) = false ∧ isDoubleDot (encode text) = false := by
  induction areWritten with
  | nil => exact ⟨rfl, .nil, nofun⟩
  | cons first _ induction =>
    rw [forall_mem_cons] at accepted safe
    rcases pieces_of_safe accepted.1 safe.1 first with ⟨single, fills, notDot⟩
    rcases induction accepted.2 safe.2 with ⟨others, othersFill, othersNotDot⟩
    refine ⟨?_, .cons fills othersFill, forall_mem_cons.mpr ⟨notDot, othersNotDot⟩⟩
    rw [flatMap_cons, single, others]
    rfl

include basePlain accepted areWritten in
theorem filled_of_safe (safe : ∀ segment ∈ segments, segment.IsSafe values) :
    ∃ filled, place [] (base ++ texts.flatMap fun text => (strip text).splitOnP isSeparator) =
      base ++ filled ∧ Forall₂ (Fills values) segments filled := by
  rcases written_of_safe accepted areWritten safe with ⟨pieces, fills, notDot⟩
  refine ⟨(texts.map strip).map encode, ?_, fills⟩
  rw [pieces, place_of_not_dot, nil_append, map_append, map_encode_plain basePlain]
  · intro segment member
    rcases mem_append.mp member with inBase | inTexts
    · have plain := basePlain segment inBase
      rw [plain.encode]
      exact ⟨plain.notSingle, plain.notDouble⟩
    · exact notDot segment inTexts

theorem notDots_of_filled (fills : Forall₂ (Fills values) segments filled)
    (plain : ∀ segment ∈ filled, Plain segment) : ∀ segment ∈ segments,
      segment.text? values ≠ some ['.'] ∧ segment.text? values ≠ some ['.', '.'] := by
  induction fills with
  | nil => exact nofun
  | cons first _ induction =>
    rw [forall_mem_cons] at plain
    exact forall_mem_cons.mpr
      ⟨notDots_of_fills plain.1 first, induction plain.2⟩

include basePlain accepted areWritten in
theorem safe_of_filled
    (isFilled : place [] (base ++ texts.flatMap fun text => (strip text).splitOnP isSeparator) =
      base ++ filled)
    (fills : Forall₂ (Fills values) segments filled) :
    ∀ segment ∈ segments, segment.IsSafe values := by
  have noSeparators : ∀ segment ∈
      base ++ texts.flatMap fun text => (strip text).splitOnP isSeparator,
        ∀ character ∈ segment, isSeparator character = false := by
    intro segment member character isThere
    rcases mem_append.mp member with inBase | inTexts
    · exact ((basePlain segment inBase).characters character isThere).2
    · rcases mem_flatMap.mp inTexts with ⟨text, _, isPiece⟩
      exact (mem_splitOnP isPiece isThere).2
  have plain : ∀ segment ∈ filled, Plain segment := by
    intro segment member
    refine @plain_place [] _ nofun noSeparators segment ?_
    rw [isFilled]
    exact mem_append_right _ member
  -- a literal with a backslash would have to be filled by the value of a variable
  have atMost : segments.countP (hasBackslash values) ≤
      segments.countP fun segment => segment.isVariable && segment.hasBackslash values := by
    have placed := countP_place decodesBackslash (by decide) []
      (base ++ texts.flatMap fun text => (strip text).splitOnP isSeparator)
    rw [isFilled, map_append, countP_append, countP_append,
      map_encode_plain basePlain, count_fills fills] at placed
    have written := count_written accepted areWritten
    rw [countP_nil] at placed
    omega
  have onlyVariables := imp_of_countP_le
    (fun segment both => (Bool.and_eq_true_iff.mp both).2) atMost
  intro segment member
  refine ⟨?_, notDots_of_filled fills plain segment member⟩
  rintro value rfl backslash
  have isVariable := onlyVariables _ member (by
    have kept : '\\' ∈ strip value.toList := mem_filter.mpr ⟨backslash, by decide⟩
    simpa [hasBackslash, text?] using kept)
  cases isVariable

end Path

/-! ## Endpoints -/

/-- How the `url` crate sets a path, as the URL standard says. -/
structure UrlLibrary.PathLaws (library : UrlLibrary) : Prop where
  setPath : ∀ url text, isSpecialScheme url.scheme = true →
    (library.setPath url text).path = String.ofList (serialize (segmentsOf text.toList))
  setPathScheme : ∀ url text, (library.setPath url text).scheme = url.scheme
  queryPath : ∀ url pairs, (library.withQueryPairs url pairs).path = url.path
  queryScheme : ∀ url pairs, (library.withQueryPairs url pairs).scheme = url.scheme

def Url.PathParsed (url : Url) : Prop :=
  ∃ text, url.path = String.ofList (serialize (segmentsOf text))

def EndpointConfig.Renders (config : EndpointConfig) (values : Option EndpointValues)
    (base : Url) (template : EndpointTemplate) (given : Option EndpointValues) : Prop :=
  match config with
  | .baseAndPath baseUrl endpointPath =>
    baseUrl = base ∧ parse endpointPath = .ok template ∧ given = none
  | .template baseUrl path _ =>
    baseUrl = base ∧ path = template ∧ given = values ∧
      ∃ text, parse text = .ok template
  | .absolute _ => False

section Endpoints

variable {library : UrlLibrary} {config : EndpointConfig} {values given : Option EndpointValues}
  {base url : Url} {template : EndpointTemplate} {diagnostics : EndpointResolutionDiagnostics}

theorem segmentsOf_ne_nil (text : List Char) : segmentsOf text ≠ [] :=
  place_ne_nil (splitOnP_ne_nil _ _)

theorem plain_segmentsOf (text : List Char) : ∀ segment ∈ segmentsOf text, Plain segment :=
  plain_place nofun fun _ isPiece _ member => (mem_splitOnP isPiece member).2

theorem noSlash_of_plain {segment : List Char} (plain : Plain segment) : '/' ∉ segment :=
  fun member => absurd (plain.characters '/' member).2 (by decide)

theorem split_path (text : List Char) : split (serialize (segmentsOf text)) = segmentsOf text :=
  split_serialize (segmentsOf_ne_nil text) fun segment member =>
    noSlash_of_plain (plain_segmentsOf text segment member)

/-- The start of the rendered path is the base path without empty segments at its end. -/
theorem renderStart_parsed (parsed : base.PathParsed) : renderStart base.path =
        pathText (baseSegments base.path) ∧
      (∀ segment ∈ baseSegments base.path, Plain segment) ∧
        ∀ last ∈ (baseSegments base.path).getLast?, EndsPlain last := by
  rcases parsed with ⟨text, isPath⟩
  have plain := plain_segmentsOf text
  have noSlash : ∀ segment ∈ segmentsOf text, '/' ∉ segment := fun segment member =>
    noSlash_of_plain (plain segment member)
  have isBase : baseSegments base.path = (segmentsOf text).rdropWhile isEmpty := by
    rw [baseSegments, isPath, String.toList_ofList, split_path]
  have trimmed : Text.trimEndMatches base.path '/' =
      String.ofList (serialize (baseSegments base.path)) := by
    rw [isBase, ← trimEnd_serialize noSlash, isPath]
    rw [Text.trimEndMatches, String.toList_ofList]
    rfl
  have basePlain : ∀ segment ∈ baseSegments base.path, Plain segment := fun segment member =>
    plain segment (( rdropWhile_prefix ..).subset (isBase ▸ member))
  refine ⟨?_, basePlain, fun last isLast => ?_⟩
  · rw [renderStart, trimmed, pathText]
    cases baseSegments base.path with
    | nil => rfl
    | cons first rest =>
      rw [if_neg (by simp [serialize]), if_pos (by simp [serialize, Text.startsWith]),
        if_neg (by simp)]
  · have member := mem_of_getLast? isLast
    refine ⟨?_, noSlash_of_plain (basePlain last member)⟩
    rintro rfl
    rw [isBase] at isLast
    have notNil : (segmentsOf text).rdropWhile isEmpty ≠ [] := by
      intro isNil
      rw [isNil] at isLast
      cases isLast
    have notLast := rdropWhile_last_not isEmpty (segmentsOf text) notNil
    rw [getLast?_eq_some_getLast notNil, Option.mem_some_iff] at isLast
    rw [isLast] at notLast
    exact notLast rfl

theorem path_of_resolveUrl (laws : library.PathLaws) (renders : config.Renders values base
      template given) (resolved : config.resolveUrl library values = .ok (url, diagnostics))
    (special : isSpecialScheme url.scheme = true) :
    ∃ rendered used, template.render base.path given = .ok (rendered, used) ∧
      url.path = String.ofList (serialize (segmentsOf rendered.toList)) := by
  cases config with
  | absolute => exact renders.elim
  | baseAndPath baseUrl endpointPath =>
    rcases renders with ⟨rfl, isTemplate, rfl⟩
    simp only [EndpointConfig.resolveUrl, bind_eq_ok, reject_eq_ok, exists_const, isTemplate,
      Except.ok.injEq, Prod.exists, Prod.mk.injEq, exists_eq_left'] at resolved
    rcases resolved with ⟨_, rendered, used, isRendered, rfl, _⟩
    rw [laws.setPathScheme] at special
    exact ⟨rendered, used, isRendered, laws.setPath _ _ special⟩
  | template baseUrl path query =>
    rcases renders with ⟨rfl, rfl, rfl, _⟩
    simp only [EndpointConfig.resolveUrl, EndpointQuery.apply, bind_eq_ok, Except.ok.injEq,
      Prod.exists, Prod.mk.injEq] at resolved
    rcases resolved with ⟨rendered, used, isRendered, _, _, ⟨_, _, _, _, _, rfl, rfl⟩, rfl, _⟩
    rw [laws.queryScheme, laws.setPathScheme] at special
    refine ⟨rendered, used, isRendered, ?_⟩
    rw [laws.queryPath, laws.setPath _ _ special]

end Endpoints

/-- The path of a resolved endpoint follows the template if every segment of the template is
safe: no literal has a backslash, and neither a literal, without its tabs and newlines, nor
a value is a dot segment. -/
theorem resolve_follows_iff (library : UrlLibrary) (laws : library.PathLaws)
    (config : EndpointConfig) (mode : EndpointMode) (values given : Option EndpointValues)
    (base : Url) (template : EndpointTemplate) (endpoint : ResolvedEndpoint)
    (renders : config.Renders values base template given) (parsed : base.PathParsed)
    (resolved : config.resolve library mode values = .ok endpoint) :
    template.Follows given base.path endpoint.url.path ↔
      ∀ segment ∈ template.segments, segment.IsSafe given := by
  simp only [EndpointConfig.resolve, bind_eq_ok, Prod.exists] at resolved
  rcases resolved with ⟨url, diagnostics, isUrl, validated⟩
  have special : isSpecialScheme endpoint.url.scheme = true := by
    rcases endpoint.validated with ⟨accepting, accepted⟩
    rcases validate_forMode_eq_ok.mp accepted with ⟨_, host, _, admitted⟩
    exact isSpecialScheme_of_admits admitted
  cases (ResolvedEndpoint.validatedNew_eq_ok validated).1
  have isParsed : ∃ text, parse text = .ok template := by
    cases config with
    | absolute => exact renders.elim
    | baseAndPath => exact ⟨_, renders.2.1⟩
    | template => exact renders.2.2.2
  rcases isParsed with ⟨text, isTemplate⟩
  rcases accepted_of_parse isTemplate with ⟨notEmpty, accepted⟩
  rcases path_of_resolveUrl laws renders isUrl special with ⟨rendered, used, isRendered, isPath⟩
  rcases renderStart_parsed parsed with ⟨start, basePlain, endsPlain⟩
  rw [render, start] at isRendered
  rcases render_eq_ok endsPlain accepted isRendered with
    ⟨written, areWritten, rfl⟩
  have someWritten : baseSegments base.path ++ written ≠ [] := by
    intro isNil
    rw [(append_eq_nil_iff.mp isNil).2] at areWritten
    exact notEmpty (forall₂_nil_right_iff.mp areWritten)
  have segments : split endpoint.url.path.toList =
      place [] (baseSegments base.path ++
        written.flatMap fun text => (strip text).splitOnP isSeparator) := by
    rw [isPath, String.toList_ofList, split_path, pathText, if_neg someWritten,
      String.toList_ofList, segmentsOf_rendered basePlain someWritten]
  rw [Follows, segments]
  constructor
  · rintro ⟨filled, isFilled, fills⟩
    exact safe_of_filled basePlain accepted areWritten isFilled fills
  · intro safe
    exact filled_of_safe basePlain accepted areWritten safe

/-! ## A model named by two dots -/

namespace DotModel

/-- The path is set as the standard says; queries are left alone. -/
def library : UrlLibrary where
  setPath url text := { url with path := String.ofList (serialize (segmentsOf text.toList)) }
  queryPairs _ := []
  withQueryPairs url _ := url

theorem library_laws : library.PathLaws := ⟨fun _ _ _ => rfl, fun _ _ => rfl, fun _ _ => rfl,
  fun _ _ => rfl⟩

def base : Url := .sample

def values (model : ProviderModelId) : Option EndpointValues :=
  some ⟨⟨"acme", by decide, by decide, by decide⟩, model, none⟩

def template : EndpointTemplate :=
  ⟨[.literal "models", .ofVariable .providerModel, .literal "chat"]⟩

theorem base_parsed : base.PathParsed := ⟨"/v1".toList, by decide +kernel⟩

def config : EndpointConfig := .template base template .new

theorem config_renders (values : Option EndpointValues) :
    config.Renders values base template values := by
  refine ⟨rfl, rfl, rfl, "/models/\x7bprovider_model\x7d/chat", ?_⟩
  decide +kernel

def twoDots : ProviderModelId := ⟨"..", by decide, by decide, by decide⟩

def slashed : ProviderModelId := ⟨"gpt/4.1", by decide, by decide, by decide⟩

/-- The dots are taken for a dot segment, and the segment before them is gone, too. -/
theorem twoDots_resolved : ∃ endpoint,
    config.resolve library .production (values twoDots) = .ok endpoint ∧
      endpoint.url.path = "/v1/chat" ∧
        ¬ template.Follows (values twoDots) base.path endpoint.url.path := by
  have given : ((config.resolve library .production (values twoDots)).map fun endpoint =>
      endpoint.url.path).toOption = some "/v1/chat" := by decide +kernel
  rcases exists_ok_of_map given with ⟨endpoint, resolved, isPath⟩
  refine ⟨endpoint, resolved, isPath, ?_⟩
  rintro ⟨filled, isSplit, fills⟩
  rw [isPath] at isSplit
  have lengths := congrArg length isSplit
  rw [length_append, ← fills.length_eq] at lengths
  revert lengths
  decide +kernel

theorem slashed_follows : ∃ endpoint,
    config.resolve library .production (values slashed) = .ok endpoint ∧
      endpoint.url.path = "/v1/models/gpt%2F4%2E1/chat" ∧
        template.Follows (values slashed) base.path endpoint.url.path := by
  have given : ((config.resolve library .production (values slashed)).map fun endpoint =>
      endpoint.url.path).toOption = some "/v1/models/gpt%2F4%2E1/chat" := by decide +kernel
  rcases exists_ok_of_map given with ⟨endpoint, resolved, isPath⟩
  refine ⟨endpoint, resolved, isPath, (resolve_follows_iff library library_laws config .production
    _ _ base template endpoint (config_renders _) base_parsed resolved).mpr ?_⟩
  intro segment member
  simp only [template, mem_cons, not_mem_nil, or_false] at member
  rcases member with rfl | rfl | rfl
  · exact ⟨by rintro value ⟨⟩; decide, by decide⟩
  · exact ⟨nofun, by decide⟩
  · exact ⟨by rintro value ⟨⟩; decide, by decide⟩

end DotModel

end Philo
