import Philo.Domain.Schema.Instances

/-! A keyword more at a node of a schema: which instances are still accepted. -/

namespace Philo

open Result Json

namespace ToolSchema

/-! ## Two schemas -/

mutual

/-- The second schema is the first one with a keyword more at one of its nodes. -/
inductive Narrows (keyword : String) : Json → Json → Prop
  | here {before after : List (String × Json)} {added : Json}
      (isNew : (before ++ after).lookup keyword = none) :
      Narrows keyword (.object (before ++ after)) (.object (before ++ (keyword, added) :: after))
  | inside {before after : List (String × Json)} {key : String} {first second : Json}
      (under : NarrowsUnder keyword key first second) :
      Narrows keyword (.object (before ++ (key, first) :: after))
        (.object (before ++ (key, second) :: after))

inductive NarrowsUnder (keyword : String) : String → Json → Json → Prop
  | items {key : String} {first second : Json} (isItems : key = "items")
      (narrows : Narrows keyword first second) : NarrowsUnder keyword key first second
  | anyOf {key : String} {before after : List Json} {first second : Json}
      (isAnyOf : key = "anyOf") (narrows : Narrows keyword first second) :
      NarrowsUnder keyword key (.array (before ++ first :: after))
        (.array (before ++ second :: after))
  | named {key name : String} {before after : List (String × Json)} {first second : Json}
      (isNamed : key = "properties" ∨ key = "$defs") (narrows : Narrows keyword first second) :
      NarrowsUnder keyword key (.object (before ++ (name, first) :: after))
        (.object (before ++ (name, second) :: after))

end

/-- The node of the first schema that stands for a node of the second one. -/
def Widens (keyword : String) (first second : Json) : Prop :=
  first = second ∨ Narrows keyword first second

section Lookup

variable {keyword key : String} {first second : Json} {entries narrowed : List (String × Json)}

theorem lookup_replaced {before after : List (String × Json)} {place : String} (key : String) :
    (before ++ (place, first) :: after).lookup key =
        (before ++ (place, second) :: after).lookup key ∨
      key = place ∧ (before ++ (place, first) :: after).lookup key = some first ∧
        (before ++ (place, second) :: after).lookup key = some second := by
  simp only [List.lookup_append, List.lookup_cons]
  cases before.lookup key with
  | some => exact .inl rfl
  | none =>
    by_cases same : key = place
    · simp [same]
    · simp [beq_false_of_ne same]

theorem Widens.lookup (widens : Widens keyword (.object entries) (.object narrowed))
    (key : String) :
    entries.lookup key = narrowed.lookup key ∨ key = keyword ∧ entries.lookup key = none ∨
      ∃ first second, entries.lookup key = some first ∧ narrowed.lookup key = some second ∧
        NarrowsUnder keyword key first second := by
  rcases widens with same | narrows
  · cases same
    exact .inl rfl
  · cases narrows with
    | @here before after added isNew =>
      by_cases same : key = keyword
      · subst same
        exact .inr (.inl ⟨rfl, isNew⟩)
      · left
        simp [List.lookup_append, List.lookup_cons, beq_false_of_ne same]
    | @inside before after place first second under =>
      rcases @lookup_replaced first second before after place key with
        same | ⟨rfl, isFirst, isSecond⟩
      · exact .inl same
      · exact .inr (.inr ⟨_, _, isFirst, isSecond, under⟩)

theorem Widens.plain (widens : Widens keyword (.object entries) (.object narrowed))
    (holdsNone : key ∉ ["items", "anyOf", "properties", "$defs"]) :
    entries.lookup key = narrowed.lookup key ∨ key = keyword ∧ entries.lookup key = none := by
  rcases widens.lookup key with same | isNew | ⟨first, second, _, _, under⟩
  · exact .inl same
  · exact .inr isNew
  · refine absurd ?_ holdsNone
    cases under with
    | items isKey | anyOf isKey => simp [isKey]
    | named isNamed => rcases isNamed with rfl | rfl <;> simp

theorem Widens.item (widens : Widens keyword (.object entries) (.object narrowed))
    {schema : Json} (isItems : entries.lookup "items" = some schema) :
    ∃ narrow, narrowed.lookup "items" = some narrow ∧ Widens keyword schema narrow := by
  rcases widens.lookup "items" with same | ⟨_, isNone⟩ | ⟨first, second, isFirst, isSecond, under⟩
  · exact ⟨schema, same.symm.trans isItems, .inl rfl⟩
  · cases isItems.symm.trans isNone
  · cases isItems.symm.trans isFirst
    cases under with
    | items _ narrows => exact ⟨second, isSecond, .inr narrows⟩
    | anyOf isAnyOf => simp at isAnyOf
    | named isNamed => simp at isNamed

theorem Widens.named (widens : Widens keyword (.object entries) (.object narrowed))
    (isNamed : key = "properties" ∨ key = "$defs") (notNew : key ≠ keyword) (name : String) :
    Option.Rel (Widens keyword) ((entries.lookup key).bind (get? name))
      ((narrowed.lookup key).bind (get? name)) := by
  have same : ∀ found : Option Json, Option.Rel (Widens keyword) found found
    | none => .none
    | some _ => .some (.inl rfl)
  rcases widens.lookup key with equal | ⟨isNew, _⟩ | ⟨first, second, isFirst, isSecond, under⟩
  · rw [equal]
    exact same _
  · exact absurd isNew notNew
  · rw [isFirst, isSecond]
    cases under with
    | items isKey | anyOf isKey => simp [isKey] at isNamed
    | @named _ place before after first second _ narrows =>
      simp only [Option.bind_some, get?]
      rcases @lookup_replaced first second before after place name with
        equal | ⟨rfl, isChild, isNarrow⟩
      · rw [equal]
        exact same _
      · rw [isChild, isNarrow]
        exact .some (.inr narrows)

theorem Widens.branch (widens : Widens keyword (.object entries) (.object narrowed))
    {branches : List Json} (isAnyOf : (entries.lookup "anyOf").bind asArray? = some branches) :
    ∃ narrow, (narrowed.lookup "anyOf").bind asArray? = some narrow ∧
      ∀ second ∈ narrow, ∃ first ∈ branches, Widens keyword first second := by
  rcases widens.lookup "anyOf" with same | ⟨_, isNone⟩ | ⟨first, second, isFirst, isSecond, under⟩
  · exact ⟨branches, by rw [← same, isAnyOf], fun branch member => ⟨branch, member, .inl rfl⟩⟩
  · rw [isNone] at isAnyOf
    cases isAnyOf
  · rw [isFirst] at isAnyOf
    cases under with
    | items isItems => simp at isItems
    | @anyOf _ before after first second _ narrows =>
      cases isAnyOf
      refine ⟨_, by rw [isSecond]; rfl, fun branch member => ?_⟩
      simp only [List.mem_append, List.mem_cons] at member ⊢
      rcases member with earlier | rfl | later
      · exact ⟨branch, .inl earlier, .inl rfl⟩
      · exact ⟨first, .inr (.inl rfl), .inr narrows⟩
      · exact ⟨branch, .inr (.inr later), .inl rfl⟩
    | named isNamed => simp at isNamed

end Lookup

/-! ## References -/

/-- The keys lead from node to node, or out of the nodes into what another keyword holds. -/
inductive NodePath : List String → Prop
  | root : NodePath []
  | items {keys : List String} (path : NodePath keys) : NodePath ("items" :: keys)
  | named {key name : String} {keys : List String} (isNamed : key = "properties" ∨ key = "$defs")
      (path : NodePath keys) : NodePath (key :: name :: keys)
  | data {key : String} {keys : List String}
      (isData : key ∉ ["items", "anyOf", "properties", "$defs"]) : NodePath (key :: keys)

/-- The values that a validation can look at as schemas. -/
inductive Reached (root : Json) : Json → Prop
  | root : Reached root root
  | branch {entries : List (String × Json)} {branches : List Json} {branch : Json}
      (parent : Reached root (.object entries))
      (isAnyOf : (entries.lookup "anyOf").bind asArray? = some branches)
      (member : branch ∈ branches) : Reached root branch
  | item {entries : List (String × Json)} {schema : Json}
      (parent : Reached root (.object entries)) (isItems : entries.lookup "items" = some schema) :
      Reached root schema
  | property {entries : List (String × Json)} {key : String} {schema : Json}
      (parent : Reached root (.object entries))
      (isSchema : propertySchema? entries key = some schema) : Reached root schema
  | target {entries : List (String × Json)} {reference : String} {target : Json}
      (parent : Reached root (.object entries))
      (isReference : (entries.lookup "$ref").bind asStr? = some reference)
      (resolved : Pointer.resolveLocalRef root reference = some target) : Reached root target

/-- No reference that a validation can follow ends in a map of nodes, where `const` would
be a name like any other. -/
def NamesNodes (root : Json) : Prop :=
  ∀ entries, Reached root (.object entries) → ∀ reference,
    (entries.lookup "$ref").bind asStr? = some reference → ∃ keys, NodePath keys ∧
      at? keys root ≠ none ∧
        ∀ document, Pointer.resolveLocalRef document reference = at? keys document

section Meaning

variable {keyword : String} {first second : Json}

theorem Widens.objects {key : String} {child : Json} (widens : Widens keyword first second)
    (isChild : first.get? key = some child) :
    ∃ entries narrowed, first = .object entries ∧ second = .object narrowed := by
  rcases widens with rfl | narrows
  · rcases within_get isChild with ⟨entries, rfl, _⟩
    exact ⟨entries, entries, rfl, rfl⟩
  · cases narrows <;> exact ⟨_, _, rfl, rfl⟩

theorem Widens.at {keys : List String} (path : NodePath keys)
    (notNamed : keyword ≠ "properties" ∧ keyword ≠ "$defs") {target : Json}
    (widens : Widens keyword first second) (found : at? keys first = some target) :
    ∃ narrow, at? keys second = some narrow ∧ Widens keyword target narrow := by
  induction path generalizing first second with
  | root =>
    cases found
    exact ⟨second, rfl, widens⟩
  | items _ induction =>
    rcases Option.bind_eq_some_iff.mp found with ⟨child, isChild, below⟩
    rcases widens.objects isChild with ⟨entries, narrowed, rfl, rfl⟩
    rcases widens.item isChild with ⟨narrow, isNarrow, narrows⟩
    rcases induction narrows below with ⟨final, isFinal, finalNarrows⟩
    exact ⟨final, Option.bind_eq_some_iff.mpr ⟨narrow, isNarrow, isFinal⟩, finalNarrows⟩
  | @named key name _ isNamed _ induction =>
    rcases Option.bind_eq_some_iff.mp found with ⟨nodes, isNodes, below⟩
    rcases Option.bind_eq_some_iff.mp below with ⟨child, isChild, below⟩
    rcases widens.objects isNodes with ⟨entries, narrowed, rfl, rfl⟩
    have notNew : key ≠ keyword := by
      rcases isNamed with rfl | rfl
      · exact notNamed.1.symm
      · exact notNamed.2.symm
    have related := widens.named isNamed notNew name
    rw [show (entries.lookup key).bind (get? name) = some child from
      Option.bind_eq_some_iff.mpr ⟨nodes, isNodes, isChild⟩] at related
    generalize isNarrow : (narrowed.lookup key).bind (get? name) = narrow at related
    cases related with
    | some narrows =>
      rcases induction narrows below with ⟨final, isFinal, finalNarrows⟩
      refine ⟨final, ?_, finalNarrows⟩
      rcases Option.bind_eq_some_iff.mp isNarrow with ⟨nodes, areNodes, isNode⟩
      exact Option.bind_eq_some_iff.mpr
        ⟨nodes, areNodes, Option.bind_eq_some_iff.mpr ⟨_, isNode, isFinal⟩⟩
  | @data key keys isData =>
    rcases Option.bind_eq_some_iff.mp found with ⟨child, isChild, below⟩
    rcases widens.objects isChild with ⟨entries, narrowed, rfl, rfl⟩
    have same : entries.lookup key = narrowed.lookup key := by
      apply (widens.plain isData).resolve_right
      rintro ⟨_, isNone⟩
      cases isChild.symm.trans isNone
    have isKept : get? key (.object narrowed) = some child := same.symm.trans isChild
    exact ⟨target, Option.bind_eq_some_iff.mpr ⟨child, isKept, below⟩, .inl rfl⟩

/-- The keywords that constrain an instance, and that no other keyword reads. -/
def constraintKeywords : List String :=
  ["type", "const", "enum", "anyOf", "required", "items", "minLength", "maxLength", "minimum",
    "maximum", "minItems", "maxItems"]

variable {entries narrowed : List (String × Json)} {value : Json}

theorem propertySchema_eq (entries : List (String × Json)) (name : String) :
    propertySchema? entries name = (entries.lookup "properties").bind (get? name) := by
  rw [propertySchema?, Option.bind_assoc]
  congr 1
  funext nodes
  cases nodes <;> rfl

theorem Widens.propertySchema (widens : Widens keyword (.object entries) (.object narrowed))
    (constrains : keyword ∈ constraintKeywords) (name : String) :
    Option.Rel (Widens keyword) (propertySchema? entries name)
      (propertySchema? narrowed name) := by
  rw [propertySchema_eq, propertySchema_eq]
  refine widens.named (.inl rfl) ?_ name
  rintro rfl
  simp [constraintKeywords] at constrains

theorem Widens.meets (widens : Widens keyword (.object entries) (.object narrowed))
    (constrains : keyword ∈ constraintKeywords) (meets : Meets narrowed value) :
    Meets entries value := by
  have plain : ∀ key, key ∉ ["items", "anyOf", "properties", "$defs"] →
      ∀ found ∈ entries.lookup key, found ∈ narrowed.lookup key := by
    intro key holdsNone found isFound
    rcases widens.plain holdsNone with same | ⟨_, isNone⟩
    · rwa [← same]
    · cases isNone.symm.trans isFound
  have bound : ∀ {α : Type} {view : Json → Option α} key,
      key ∉ ["items", "anyOf", "properties", "$defs"] →
        ∀ found ∈ (entries.lookup key).bind view, found ∈ (narrowed.lookup key).bind view := by
    intro α view key holdsNone found isFound
    rcases Option.bind_eq_some_iff.mp isFound with ⟨json, isJson, isView⟩
    exact Option.bind_eq_some_iff.mpr ⟨json, plain key holdsNone json isJson, isView⟩
  exact {
    type := fun type isType => meets.type type (plain _ (by decide) type isType)
    const := fun constant isConst => meets.const constant (plain _ (by decide) constant isConst)
    enum := fun choices isEnum => meets.enum choices (bound _ (by decide) choices isEnum)
    minLength := fun text isText least isLeast =>
      meets.minLength text isText least (bound _ (by decide) least isLeast)
    maxLength := fun text isText most isMost =>
      meets.maxLength text isText most (bound _ (by decide) most isMost)
    minimum := fun number isNumber least isLeast =>
      meets.minimum number isNumber least (bound _ (by decide) least isLeast)
    maximum := fun number isNumber most isMost =>
      meets.maximum number isNumber most (bound _ (by decide) most isMost)
    minItems := fun items isArray least isLeast =>
      meets.minItems items isArray least (bound _ (by decide) least isLeast)
    maxItems := fun items isArray most isMost =>
      meets.maxItems items isArray most (bound _ (by decide) most isMost)
    required := fun map isObject names isNames =>
      meets.required map isObject names (bound _ (by decide) names isNames)
    additional := by
      intro map isObject closed entry member missing
      have sameClosed : entries.lookup "additionalProperties" =
          narrowed.lookup "additionalProperties" := by
        refine (widens.plain (by decide)).resolve_right fun isNew => ?_
        rw [← isNew.1] at constrains
        simp [constraintKeywords] at constrains
      rw [allowsAdditional, sameClosed] at closed
      have related := widens.propertySchema constrains entry.1
      rw [missing] at related
      generalize isNarrow : propertySchema? narrowed entry.1 = narrow at related
      cases related
      exact meets.additional map isObject closed entry member isNarrow }

/-- An instance that satisfies the second schema satisfies the first one, if the references
of the first one name its nodes. -/
theorem Widens.satisfies (schemaWidens : Widens keyword first second)
    (constrains : keyword ∈ constraintKeywords) (named : NamesNodes first) {node narrow : Json}
    (satisfies : Satisfies second narrow value) (widens : Widens keyword node narrow)
    (reached : Reached first node) : Satisfies first node value := by
  have notNamed : keyword ≠ "properties" ∧ keyword ≠ "$defs" := by
    constructor <;> rintro rfl <;> simp [constraintKeywords] at constrains
  have objects : ∀ {node entries}, Widens keyword node (.object entries) →
      ∃ wide, node = .object wide := by
    rintro node entries (rfl | narrows)
    · exact ⟨entries, rfl⟩
    · cases narrows <;> exact ⟨_, rfl⟩
  have sameReference : ∀ {entries narrowed},
      Widens keyword (.object entries) (.object narrowed) →
        entries.lookup "$ref" = narrowed.lookup "$ref" := by
    intro entries narrowed widens
    refine (widens.plain (by decide)).resolve_right fun isNew => ?_
    rw [← isNew.1] at constrains
    simp [constraintKeywords] at constrains
  induction satisfies generalizing node with
  | @reference narrowed value target reference isReference resolved _ induction =>
    rcases objects widens with ⟨entries, rfl⟩
    rw [← sameReference widens] at isReference
    rcases named _ reached reference isReference with ⟨keys, path, found, resolves⟩
    rcases Option.ne_none_iff_exists'.mp found with ⟨wide, isWide⟩
    rcases schemaWidens.at path notNamed isWide with ⟨narrow, isNarrow, targetWidens⟩
    rw [resolves, isNarrow] at resolved
    cases resolved
    have resolvedFirst := (resolves first).trans isWide
    exact .reference isReference resolvedFirst
      (induction targetWidens (.target reached isReference resolvedFirst))
  | @node narrowed value branch noReference meets isBranch _ _ _ onBranch onItems onProperties =>
    rcases objects widens with ⟨entries, rfl⟩
    rw [← sameReference widens] at noReference
    refine (satisfies_node noReference).mpr ⟨?_, widens.meets constrains meets, ?_, ?_⟩
    · intro branches isAnyOf
      rcases widens.branch isAnyOf with ⟨narrow, isNarrow, stands⟩
      rcases stands branch (isBranch narrow isNarrow) with ⟨wide, member, branchWidens⟩
      exact ⟨wide, member, onBranch (by simp [isNarrow]) branchWidens
        (.branch reached isAnyOf member)⟩
    · intro items schema isArray isItems item member
      rcases widens.item isItems with ⟨narrow, isNarrow, itemWidens⟩
      exact onItems items narrow isArray isNarrow item member itemWidens (.item reached isItems)
    · intro map key child schema isObject member isSchema
      have related := widens.propertySchema constrains key
      rw [isSchema] at related
      generalize isNarrow : propertySchema? narrowed key = narrow at related
      cases related with
      | some propertyWidens =>
        exact onProperties map key child _ isObject member isNarrow propertyWidens
          (.property reached isSchema)

end Meaning

/-! ## Instances -/

/-- An instance that is accepted with one constraint more is accepted without it, or the
guard stops the validation. -/
theorem validate_of_narrows (render : Json → String) (first second : ToolSchema)
    (keyword : String) (constrains : keyword ∈ constraintKeywords)
    (narrows : Narrows keyword first.value second.value)
    (named : NamesNodes first.value) (value : Json) (limits : SchemaLimits)
    (accepted : validate render second value limits = .ok ()) :
    validate render first value limits = .ok () ∨ TooDeep (validate render first value limits) := by
  rcases (validate_iff_satisfies render second value limits).mp accepted with
    ⟨preflight, satisfies, _⟩
  have wide : Satisfies first.value first.value value :=
    Widens.satisfies (.inr narrows) constrains named satisfies (.inr narrows) .root
  by_cases affordable : Affordable limits first.value value
  · exact .inl ((validate_iff_satisfies render first value limits).mpr
      ⟨preflight, wide, affordable⟩)
  · right
    rw [validate, validateInstance, preflight]
    exact validation_tooDeep (preflightInstance_eq_ok.mp preflight).2.2 affordable

def nullShared : Json :=
  .object [("$defs", .object [("a", .object [("type", .string "null")])]),
    ("items", .object [("$ref", .string "#/$defs/a")])]

theorem sharedItem_narrows : Narrows "type" sharedItem nullShared :=
  @Narrows.inside _ [] [_] _ _ _
    (@NarrowsUnder.named _ _ _ [] [] _ _ (.inr rfl) (@Narrows.here _ [] [] _ rfl))

theorem Reached.within {root node : Json} (reached : Reached root node) : node.Within root := by
  induction reached with
  | root => exact .self _
  | branch _ isAnyOf member within => exact (within_of_branch isAnyOf member).1.trans within
  | item _ isItems within => exact (within_of_lookup isItems).1.trans within
  | property _ isSchema within => exact (within_of_property isSchema).1.trans within
  | target _ _ resolved => exact within_resolved resolved

theorem namesNodes_of_shared {root : Json} (only : ∀ node ∈ valuesIn root,
      (node.get? "$ref").bind asStr? = none ∨ (node.get? "$ref").bind asStr? = some "#/$defs/a")
    (found : at? ["$defs", "a"] root ≠ none) : NamesNodes root := by
  intro entries reached reference isReference
  rcases only _ (mem_valuesIn reached.within) with none | isOnly
  · cases isReference.symm.trans none
  · cases isReference.symm.trans isOnly
    exact ⟨["$defs", "a"], .named (.inr rfl) .root, found, fun _ => rfl⟩

/-- Two items, which are checked through the definition that the second schema narrows. -/
theorem nullShared_accepts :
    let render := recordedWriter [(.array [.null, .null], "[null,null]")]
    validate render ⟨nullShared, false⟩ (.array [.null, .null]) .official = .ok () ∧
      (validate render ⟨sharedItem, false⟩ (.array [.null, .null]) .official = .ok () ∨
        TooDeep (validate render ⟨sharedItem, false⟩ (.array [.null, .null]) .official)) := by
  have accepted : validate (recordedWriter [(.array [.null, .null], "[null,null]")])
      ⟨nullShared, false⟩ (.array [.null, .null]) .official = .ok () :=
    ok_of_isOk (by decide +kernel)
  exact ⟨accepted, validate_of_narrows _ ⟨sharedItem, false⟩ ⟨nullShared, false⟩ "type"
    (by decide) sharedItem_narrows (namesNodes_of_shared (by decide +kernel) (by decide +kernel)) _
    .official accepted⟩

/-- Both schemas compile, and an instance is accepted by the second one only, whatever the
serializer writes within the size limits. -/
def AcceptsMore (limits : SchemaLimits) (first second value : Json) : Prop :=
  ∀ render, (∀ schema ∈ [first, second], Text.len (render schema) ≤ limits.maxSchemaBytes ) →
    Text.len (render value) ≤ maxToolArgumentsBytes →
      (∀ schema ∈ [first, second], Succeeds (compileSchema render schema limits)) ∧
        validate render ⟨second, false⟩ value limits = .ok () ∧
          validate render ⟨first, false⟩ value limits ≠ .ok ()

theorem acceptsMore_of_runs {limits : SchemaLimits} {first second value : Json}
    (compile : ∀ schema ∈ [first, second], (compileDocument schema limits).toOption = some false)
    (shallow : jsonDepth value ≤ limits.maxSchemaDepth)
    (short : (checkArrayLengths limits value "#").isOk = true)
    (accepts : (validation second value limits).1.isOk = true)
    (rejects : (validation first value limits).1.isOk = false) :
    AcceptsMore limits first second value := by
  intro render fits valueFits
  refine ⟨fun schema member => compiles_of_document (compile schema member) render
    (fits schema member), ?_, fun accepted => ?_⟩
  · simp only [validate, validateInstance, bind_eq_ok, exists_unit]
    exact ⟨preflightInstance_eq_ok.mpr ⟨valueFits, shallow,
      (checkArrayLengths_eq_ok limits value "#").mp (ok_of_isOk short)⟩, ok_of_isOk accepts⟩
  · simp only [validate, validateInstance, bind_eq_ok, exists_unit] at accepted
    rw [accepted.2] at rejects
    cases rejects

/-- The item schema refers to the properties of a property named `$defs`, one of which is
named `const`. -/
def namedConst (const : Json) : Json :=
  .object [("items", .object [("$ref", .string "#/properties/$defs/properties")]),
    ("properties", .object [("$defs", .object [("properties", .object [("const", const)])])])]

/-- A reference makes the validator ignore the other keywords of its node. Any other keyword
can end the search of a branch before the guard does, or change what a reference to a map
of nodes takes for a constant. -/
theorem addedKeyword_acceptsMore :
    (∃ first second value, Narrows "$ref" first second ∧
        AcceptsMore .official first second value) ∧
      (∃ limits first second value, NamesNodes first ∧ Narrows "type" first second ∧
        AcceptsMore limits first second value) ∧
      ∃ first second value, Narrows "type" first second ∧
        AcceptsMore .official first second value := by
  refine ⟨⟨.object [("$defs", .object [("any", .object [])]), ("type", .string "string")],
    .object [("$defs", .object [("any", .object [])]), ("$ref", .string "#/$defs/any"),
      ("type", .string "string")], .null, @Narrows.here _ [_] [_] _ (by decide), ?_⟩,
    ⟨⟨256 * 1024, 5, 65536⟩,
    .object [("$defs", .object [("a", .object [])]),
      ("anyOf", .array [.object [("items", .object [("$ref", .string "#/$defs/a")])],
        .object []])],
    .object [("$defs", .object [("a", .object [])]),
      ("anyOf", .array [.object [("items", .object [("$ref", .string "#/$defs/a")]),
        ("type", .string "null")], .object []])],
    .array (List.replicate 26 .null),
    namesNodes_of_shared (by decide +kernel) (by decide +kernel), ?_, ?_⟩,
    namedConst (.object []), namedConst (.object [("type", .string "string")]),
    .array [.object [("type", .string "string")]], ?_, ?_⟩
  · exact acceptsMore_of_runs (by decide +kernel) (by decide +kernel) (by decide +kernel)
      (by decide +kernel) (by decide +kernel)
  · exact @Narrows.inside _ [_] [] _ _ _
      (@NarrowsUnder.anyOf _ _ [] [_] _ _ rfl (@Narrows.here _ [_] [] _ (by decide)))
  · exact acceptsMore_of_runs (by decide +kernel) (by decide +kernel) (by decide +kernel)
      (by decide +kernel) (by decide +kernel)
  · exact @Narrows.inside _ [_] [] _ _ _ (@NarrowsUnder.named _ _ _ [] [] _ _ (.inl rfl)
      (@Narrows.inside _ [] [] _ _ _ (@NarrowsUnder.named _ _ _ [] [] _ _ (.inl rfl)
        (@Narrows.here _ [] [] _ rfl))))
  · exact acceptsMore_of_runs (by decide +kernel) (by decide +kernel) (by decide +kernel)
      (by decide +kernel) (by decide +kernel)

end ToolSchema

end Philo
