import Philo.Domain.Schema.Visits

/-! Whether a validation takes note of every keyword of the nodes that it visits. -/

namespace Philo

open Result Relation

namespace ToolSchema

/-! ## Nodes -/

def KeywordType (key : String) (value : Json) : Prop :=
  match key with
  | "$ref" => value.asStr?.isSome
  | "type" => value.asStr?.isSome ∨ ∃ kinds, value = .array kinds ∧
      ∀ kind ∈ kinds, kind.asStr?.isSome
  | "required" => ∃ names, value = .array names ∧ ∀ name ∈ names, name.asStr?.isSome
  | "properties" => value.asObject?.isSome
  | "additionalProperties" => value.asBool?.isSome
  | "items" => value.asObject?.isSome
  | "anyOf" | "enum" => value.asArray?.isSome
  | "minLength" | "maxLength" | "minItems" | "maxItems" => value.asU64?.isSome
  | "minimum" | "maximum" => ∃ number ∈ value.asF64?, number.isFinite = true
  | _ => True

structure WellTyped (node : Json) : Prop where
  isObject : node.isObject = true
  allowed : ∀ entries, node = .object entries → ∀ entry ∈ entries, entry.1 ∈ allowedKeywords
  typed : ∀ key value, node.get? key = some value → KeywordType key value

inductive SchemaPosition (root : Json) : Json → Prop
  | root : SchemaPosition root root
  | named {node child : Json} {key name : String} {children : List (String × Json)}
      (parent : SchemaPosition root node) (isKey : key = "properties" ∨ key = "$defs")
      (isChildren : (node.get? key).bind Json.asObject? = some children)
      (member : (name, child) ∈ children) : SchemaPosition root child
  | items {node child : Json} (parent : SchemaPosition root node)
      (isItems : node.get? "items" = some child) : SchemaPosition root child
  | branch {node child : Json} {branches : List Json} (parent : SchemaPosition root node)
      (isAnyOf : (node.get? "anyOf").bind Json.asArray? = some branches)
      (member : child ∈ branches) : SchemaPosition root child

/-- What `compile_schema` does not see to: that an `enum` is an array, and that a definition
is one of the nodes that it checks. -/
structure Covered (root node : Json) : Prop where
  enum : ∀ value, node.get? "enum" = some value → value.asArray?.isSome
  reference : ∀ reference target, node.reference? = some reference →
    Pointer.resolveLocalRef root reference = some target → SchemaPosition root target

/-! ## What compiling checks -/

section Compile

open Std

variable {defs : TreeSet String} {limits : SchemaLimits} {depth : Nat} {node : Json}
  {entries : List (String × Json)} {path : String}

structure CheckedNode (defs : TreeSet String) (limits : SchemaLimits)
    (entries : List (String × Json)) (path : String) : Prop where
  keys : validateKeys entries path = .ok ()
  reference : validateReference entries path defs = .ok ()
  type : validateType entries path = .ok ()
  required : validateRequired entries path = .ok ()
  additional : validateAdditional entries path = .ok ()
  properties : ∃ children, namedNodes entries path "properties" = .ok children
  branches : ∃ children, branchNodes entries path = .ok children
  definitions : ∃ children, namedNodes entries path "$defs" = .ok children
  boundaries : validateBoundaryKeywords entries path limits = .ok ()

theorem validateSchemaNode_eq_ok
    (valid : validateSchemaNode defs limits depth node path = .ok ()) :
    ∃ entries, node = .object entries ∧ CheckedNode defs limits entries path ∧
      ∀ child, (∃ key children place, (key = "properties" ∨ key = "$defs") ∧
          namedNodes entries path key = .ok children ∧ (place, child) ∈ children) ∨
        (∃ place, (place, child) ∈ itemNode entries path) ∨
        (∃ children place, branchNodes entries path = .ok children ∧
          (place, child) ∈ children) →
        ∃ depth path, validateSchemaNode defs limits depth child path = .ok () := by
  cases depth with
  | zero => cases valid
  | succ depth =>
    simp only [validateSchemaNode, validateKeywords, bind_eq_ok, okOr_eq_ok, forM_eq_ok,
      exists_unit] at valid
    rcases valid with ⟨entries, isObject, keywords, properties, isProperties, propertiesOk, itemsOk,
      branches, isBranches, branchesOk, definitions, isDefinitions, definitionsOk, boundaries⟩
    rcases keywords with ⟨keys, reference, type, required, additional⟩
    have isEntries : node = .object entries := by
      cases node <;> cases isObject
      rfl
    refine ⟨entries, isEntries, ⟨keys, reference, type, required, additional,
      ⟨_, isProperties⟩, ⟨_, isBranches⟩, ⟨_, isDefinitions⟩, boundaries⟩, ?_⟩
    rintro child (⟨key, children, place, rfl | rfl, isChildren, member⟩ | ⟨place, member⟩ |
      ⟨children, place, isChildren, member⟩)
    · cases isProperties.symm.trans isChildren
      exact ⟨depth, place, propertiesOk _ member⟩
    · cases isDefinitions.symm.trans isChildren
      exact ⟨depth, place, definitionsOk _ member⟩
    · exact ⟨depth, place, itemsOk _ member⟩
    · cases isBranches.symm.trans isChildren
      exact ⟨depth, place, branchesOk _ member⟩

theorem strings_of_distinctNames {keyword notString notUnique : String}
    {check : String → Except SchemaError Unit} {items : List Json} {index : Nat}
    {seen names : List String}
    (distinct : distinctNames path keyword notString notUnique check items index seen =
      .ok names) : ∀ item ∈ items, item.asStr?.isSome := by
  induction items generalizing index seen with
  | nil => exact List.forall_mem_nil _
  | cons item rest induction =>
    simp only [distinctNames, bind_eq_ok, okOr_eq_ok, reject_eq_ok, exists_const,
      exists_unit] at distinct
    rcases distinct with ⟨name, isName, _, _, others⟩
    rw [List.forall_mem_cons]
    exact ⟨isName ▸ rfl, induction others⟩

theorem typed_boundary {key : String} {value : Json} (found : entries.lookup key = some value)
    (bound : Succeeds (optionalUsizeKeyword entries path key)) : value.asU64?.isSome := by
  rcases bound with ⟨number, isNumber⟩
  simp only [optionalUsizeKeyword, found, bind_eq_ok, okOr_eq_ok] at isNumber
  rcases isNumber with ⟨number, isNumber, _⟩
  exact isNumber ▸ rfl

theorem typed_number {key : String} {value : Json} (found : entries.lookup key = some value)
    (bound : Succeeds (optionalJsonNumber entries path key)) :
    ∃ number ∈ value.asF64?, number.isFinite = true := by
  rcases bound with ⟨number, isNumber⟩
  simp only [optionalJsonNumber, found, bind_eq_ok, okOr_eq_ok] at isNumber
  rcases isNumber with ⟨number, isNumber, _⟩
  rcases Option.filter_eq_some_iff.mp isNumber with ⟨isF64, finite⟩
  exact ⟨number, isF64, finite⟩

theorem boundaries_of_checked (valid : validateBoundaryKeywords entries path limits = .ok ()) :
    (∀ key ∈ ["minLength", "maxLength", "minItems", "maxItems"],
      Succeeds (optionalUsizeKeyword entries path key)) ∧
      ∀ key ∈ ["minimum", "maximum"], Succeeds (optionalJsonNumber entries path key) := by
  simp only [validateBoundaryKeywords, bind_eq_ok, exists_unit] at valid
  rcases valid with ⟨_, minLength, _, maxLength, _, minItems, _, maxItems, _, _, _, _, minimum, _,
    maximum, _⟩
  simp only [List.forall_mem_cons, List.not_mem_nil, false_implies, implies_true, and_true]
  exact ⟨⟨⟨_, minLength⟩, ⟨_, maxLength⟩, ⟨_, minItems⟩, ⟨_, maxItems⟩⟩, ⟨_, minimum⟩, ⟨_, maximum⟩⟩

/-- Every keyword but `enum` and `items` has its type. -/
theorem CheckedNode.typed (checked : CheckedNode defs limits entries path) {key : String}
    {value : Json} (found : entries.lookup key = some value) (notEnum : key ≠ "enum")
    (notItems : key ≠ "items") : KeywordType key value := by
  rcases boundaries_of_checked checked.boundaries with ⟨counts, numbers⟩
  unfold KeywordType
  split
  · have reference := checked.reference
    simp only [validateReference, found, bind_eq_ok, okOr_eq_ok] at reference
    rcases reference with ⟨text, isText, _⟩
    exact isText ▸ rfl
  · have type := checked.type
    simp only [validateType, found] at type
    cases value with
    | string => exact .inl rfl
    | array kinds =>
      simp only [validateTypeKeyword, bind_eq_ok, reject_eq_ok, exists_const] at type
      rcases type with ⟨_, _, distinct, _⟩
      exact .inr ⟨kinds, rfl, strings_of_distinctNames distinct⟩
    | null | bool | number | object => cases type
  · have required := checked.required
    simp only [validateRequired, found, bind_eq_ok, okOr_eq_ok] at required
    rcases required with ⟨names, isArray, _, distinct, _⟩
    cases value <;> cases isArray
    exact ⟨names, rfl, strings_of_distinctNames distinct⟩
  · rcases checked.properties with ⟨children, isChildren⟩
    simp only [namedNodes, found, bind_eq_ok, okOr_eq_ok] at isChildren
    rcases isChildren with ⟨_, isObject, _⟩
    exact isObject ▸ rfl
  · have additional := checked.additional
    simp only [validateAdditional, found, reject_eq_ok] at additional
    exact Option.isSome_iff_ne_none.mpr additional
  · exact absurd rfl notItems
  · rcases checked.branches with ⟨children, isChildren⟩
    simp only [branchNodes, found, bind_eq_ok, okOr_eq_ok] at isChildren
    rcases isChildren with ⟨_, isArray, _⟩
    exact isArray ▸ rfl
  · exact absurd rfl notEnum
  all_goals first
    | exact typed_boundary found (counts _ (by simp))
    | exact typed_number found (numbers _ (by simp))
    | trivial

theorem CheckedNode.allowed (checked : CheckedNode defs limits entries path) :
    ∀ entry ∈ entries, entry.1 ∈ allowedKeywords := by
  intro entry member
  have keys := checked.keys
  rw [validateKeys, forM_eq_ok] at keys
  exact not_not.mp (reject_eq_ok.mp (keys entry member))

variable {root : Json}

theorem validated_position (valid : validateSchemaNode defs limits depth root path = .ok ())
    (position : SchemaPosition root node) :
    ∃ depth path, validateSchemaNode defs limits depth node path = .ok () := by
  induction position with
  | root => exact ⟨depth, path, valid⟩
  | @named node child key name children _ isKey isChildren member induction =>
    rcases induction with ⟨depth, path, valid⟩
    rcases validateSchemaNode_eq_ok valid with ⟨entries, rfl, _, below⟩
    have isNodes : namedNodes entries path key = .ok (children.map fun entry =>
        (path ++ "/" ++ key ++ "/" ++ entry.1, entry.2)) := by
      rcases Option.bind_eq_some_iff.mp isChildren with ⟨value, found, isObject⟩
      simp only [namedNodes, show entries.lookup key = some value from found, isObject, okOr,
        ok_bind]
    exact below child (.inl ⟨key, _, path ++ "/" ++ key ++ "/" ++ name, isKey, isNodes,
      List.mem_map.mpr ⟨(name, child), member, rfl⟩⟩)
  | @items node child _ isItems induction =>
    rcases induction with ⟨depth, path, valid⟩
    rcases validateSchemaNode_eq_ok valid with ⟨entries, rfl, _, below⟩
    refine below child (.inr (.inl ⟨path ++ "/items", ?_⟩))
    simp [itemNode, show entries.lookup "items" = some child from isItems]
  | @branch node child branches _ isAnyOf member induction =>
    rcases induction with ⟨depth, path, valid⟩
    rcases validateSchemaNode_eq_ok valid with ⟨entries, rfl, checked, below⟩
    rcases checked.branches with ⟨nodes, isNodes⟩
    rcases Option.bind_eq_some_iff.mp isAnyOf with ⟨value, found, isArray⟩
    have isBranches := isNodes
    simp only [branchNodes, show entries.lookup "anyOf" = some value from found, isArray, okOr,
      ok_bind, bind_eq_ok, reject_eq_ok, exists_const, Except.ok.injEq] at isBranches
    rcases isBranches with ⟨_, rfl⟩
    rcases List.getElem_of_mem member with ⟨index, bound, rfl⟩
    refine below _ (.inr (.inr ⟨_, _, isNodes, List.mem_map.mpr ⟨(_, index), ?_, rfl⟩⟩))
    exact List.mk_mem_zipIdx_iff_getElem?.mpr (List.getElem?_eq_getElem bound)

/-- A node that is looked at as a schema has keywords of the right type, `enum` apart. -/
theorem wellTyped_position (valid : validateSchemaNode defs limits depth root path = .ok ())
    (position : SchemaPosition root node)
    (enum : ∀ value, node.get? "enum" = some value → value.asArray?.isSome) : WellTyped node := by
  rcases validated_position valid position with ⟨depth, path, validNode⟩
  rcases validateSchemaNode_eq_ok validNode with ⟨entries, rfl, checked, below⟩
  refine ⟨rfl, fun entries same => ?_, fun key value found => ?_⟩
  · cases same
    exact checked.allowed
  · by_cases isEnum : key = "enum"
    · subst isEnum
      exact enum value found
    · by_cases isItems : key = "items"
      · subst isItems
        rcases validated_position valid (.items position found) with ⟨_, _, validItem⟩
        rcases validateSchemaNode_eq_ok validItem with ⟨_, rfl, _⟩
        rfl
      · exact checked.typed found isEnum isItems

end Compile

/-! ## What a validation visits -/

/-- A call on a node that is looked at as a schema makes calls on such nodes. -/
theorem Calls.position {root : Json} {caller called : Visit} (calls : Calls root caller called)
    (position : SchemaPosition root caller.node) (covered : Covered root caller.node) :
    SchemaPosition root called.node := by
  cases calls with
  | reference isReference resolved => exact covered.reference _ _ isReference resolved
  | branch isAnyOf member => exact .branch position isAnyOf member
  | item _ _ isItems => exact .items position isItems
  | property _ _ isProperties isProperty =>
    rcases List.lookup_eq_some_iff.mp isProperty with ⟨before, after, rfl, _⟩
    exact .named position (.inl rfl) isProperties
      (List.mem_append_right _ List.mem_cons_self)

/-- If the nodes that a validation visits are covered, then each of them is an object with
known keywords whose values have the types that the validation needs. -/
theorem visited_wellTyped (render : Json → String) (schema value : Json)
    (limits instanceLimits : SchemaLimits)
    (compiled : Succeeds (compileSchema render schema limits))
    (covered : ∀ visit ∈ (validation schema value instanceLimits).2.visits,
      Covered schema visit.node) :
    ∀ visit ∈ (validation schema value instanceLimits).2.visits, WellTyped visit.node := by
  rcases compiled with ⟨strict, isCompiled⟩
  simp only [compileSchema_eq_ok, compileDocument, bind_eq_ok, exists_unit] at isCompiled
  rcases isCompiled with ⟨_, _, _, defs, _, valid, _, _⟩
  intro visit member
  have position : SchemaPosition schema visit.node := by
    have leads := leads_validation schema value instanceLimits visit member
    induction leads with
    | refl => exact .root
    | tail _ step induction => exact step.2.position (induction step.1) (covered _ step.1)
  exact wellTyped_position valid position (covered visit member).enum

def definedEnum : Json :=
  .object [("$defs", .object [("a", .object [("enum", .array [.string "x"])])]),
    ("$ref", .string "#/$defs/a")]

def definedEnumText : String :=
  "\x7b\"$defs\":\x7b\"a\":\x7b\"enum\":[\"x\"]\x7d\x7d,\"$ref\":\"#/$defs/a\"\x7d"

theorem definedEnum_wellTyped :
    Succeeds (compileSchema (fun _ => definedEnumText) definedEnum .official) ∧
      (validation definedEnum (.string "x") .official).2.visits.length = 2 ∧
        ∀ visit ∈ (validation definedEnum (.string "x") .official).2.visits,
          WellTyped visit.node := by
  have compiled : Succeeds (compileSchema (fun _ => definedEnumText) definedEnum .official) :=
    @compiles_of_document _ _ false (by decide +kernel) _ (by decide +kernel)
  refine ⟨compiled, by decide +kernel,
    visited_wellTyped _ definedEnum (.string "x") .official .official compiled ?_⟩
  have visits : (validation definedEnum (.string "x") .official).2.visits =
      [⟨.object [("enum", .array [.string "x"])], .string "x", ["#/$defs/a"]⟩,
        ⟨definedEnum, .string "x", []⟩] := by decide +kernel
  rw [visits]
  simp only [List.forall_mem_cons, List.not_mem_nil, false_implies, implies_true, and_true]
  refine ⟨⟨?_, ?_⟩, ?_, ?_⟩
  · rintro value ⟨⟩
    rfl
  · rintro reference target ⟨⟩
  · rintro value ⟨⟩
  · intro reference target isReference resolved
    have isDefinition : definedEnum.reference? = some "#/$defs/a" := by decide +kernel
    have isTarget : Pointer.resolveLocalRef definedEnum "#/$defs/a" =
        some (.object [("enum", .array [.string "x"])]) := by decide +kernel
    cases isDefinition.symm.trans isReference
    cases isTarget.symm.trans resolved
    exact .named .root (.inr rfl) rfl (List.mem_singleton_self ("a", _))

def unreadEnum : Json := .object [("enum", .string "a")]

def constDefinition : Json :=
  .object [("$ref", .string "#/const/$defs/a"),
    ("const", .object [("$defs", .object [("a", .object [("minimun", .null)])])])]

theorem unchecked_visited :
    ((∀ render, Text.len (render unreadEnum) ≤ SchemaLimits.official.maxSchemaBytes →
        Succeeds (compileSchema render unreadEnum .official)) ∧
      ∃ visit ∈ (validation unreadEnum .null .official).2.visits, ¬ WellTyped visit.node) ∧
    (∀ render, Text.len (render constDefinition) ≤ SchemaLimits.official.maxSchemaBytes →
        Succeeds (compileSchema render constDefinition .official)) ∧
      ∃ visit ∈ (validation constDefinition .null .official).2.visits,
        ¬ WellTyped visit.node := by
  refine ⟨⟨@compiles_of_document _ _ false (by decide +kernel), ⟨unreadEnum, .null, []⟩,
    by decide +kernel, ?_⟩, @compiles_of_document _ _ false (by decide +kernel),
    ⟨.object [("minimun", .null)], .null, ["#/const/$defs/a"]⟩, by decide +kernel, ?_⟩
  · intro typed
    cases typed.typed "enum" _ rfl
  · intro typed
    have allowed := typed.allowed _ rfl _ (List.mem_singleton_self _)
    simp [allowedKeywords] at allowed

end ToolSchema

end Philo
