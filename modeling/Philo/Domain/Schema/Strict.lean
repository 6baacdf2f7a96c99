import Philo.Domain.Schema.Visits

/-! What `strict_compatible` says about the nodes that a validation visits. -/

namespace Philo

open Result Checked Relation Json

namespace ToolSchema

/-- The node closes its objects: they have no other properties, and none of theirs is
missing. -/
def IsStrict (node : Json) : Prop :=
  node.get? "additionalProperties" = some (.bool false) ∧
    ∃ properties, node.get? "properties" = some (.object properties) ∧
      ∀ entry ∈ properties,
        .string entry.1 ∈ ((node.get? "required").bind asArray?).getD []

/-- The strictness check goes by the type of the node, which is a single name. It does so at
the root, and at nodes without branches. -/
structure OwnType (root node : Json) (kind : String) : Prop where
  type : node.get? "type" = some (.string kind)
  unbranched : node = root ∨ node.get? "anyOf" = none

inductive Foreseen (root : Json) : Visit → Visit → Prop
  | branch {visit : Visit} {branches : List Json} {branch : Json} (notRoot : visit.node ≠ root)
      (isAnyOf : (visit.node.get? "anyOf").bind asArray? = some branches)
      (member : branch ∈ branches) :
      Foreseen root visit ⟨branch, visit.value, visit.activeRefs⟩
  | item {visit : Visit} {items : List Json} {item itemSchema : Json}
      (own : OwnType root visit.node "array")
      (isArray : visit.value = .array items) (member : item ∈ items)
      (isItems : visit.node.get? "items" = some itemSchema) :
      Foreseen root visit ⟨itemSchema, item, visit.activeRefs⟩
  | property {visit : Visit} {map properties : List (String × Json)} {key : String}
      {child schema : Json} (own : OwnType root visit.node "object")
      (isObject : visit.value = .object map) (member : (key, child) ∈ map)
      (isProperties : (visit.node.get? "properties").bind asObject? = some properties)
      (isProperty : properties.lookup key = some schema) :
      Foreseen root visit ⟨schema, child, visit.activeRefs⟩

/-! ## The check -/

section Check

variable {root node : Json} {entries : List (String × Json)} {depth : Nat} {kind : String}

theorem objectIsStrict_eq_true (strict : objectIsStrict depth entries = true) :
    IsStrict (.object entries) ∧ ∃ depth, ∀ properties,
      (entries.lookup "properties").bind asObject? = some properties →
        ∀ entry ∈ properties, nodeIsStrictCompatible depth entry.2 = true := by
  cases depth with
  | zero => cases strict
  | succ depth =>
    unfold objectIsStrict at strict
    split at strict
    · next isClosed =>
        split at strict
        · cases strict
        · next properties isProperties =>
            simp only [Bool.and_eq_true, List.all_eq_true, List.contains_iff_mem,
              List.mem_filterMap] at strict
            rcases Option.bind_eq_some_iff.mp isClosed with ⟨closed, found, isFalse⟩
            rcases Option.bind_eq_some_iff.mp isProperties with ⟨object, isObject, same⟩
            cases closed <;> cases isFalse
            cases object <;> cases same
            refine ⟨⟨found, properties, isObject, fun entry member => ?_⟩, depth, ?_⟩
            · rcases strict.1 entry member with ⟨name, listed, isName⟩
              cases name <;> cases isName
              exact listed
            · intro others isOthers
              cases isProperties.symm.trans isOthers
              exact strict.2
    · cases strict

def Seen (root node : Json) : Prop :=
  isStrictCompatibleRoot root = true ∧
    (node = root ∨ ∃ depth, nodeIsStrictCompatible depth node = true)

theorem Seen.own (seen : Seen root node) (own : OwnType root node kind) :
    ∃ depth entries, node = .object entries ∧
      (kind = "object" → objectIsStrict depth entries = true) ∧
        (kind = "array" → (entries.lookup "items").any (nodeIsStrictCompatible depth) = true) := by
  rcases seen with ⟨rootStrict, isRoot⟩
  have object : ∃ entries, node = .object entries := by
    cases node with
    | object entries => exact ⟨entries, rfl⟩
    | null | bool | number | string | array => cases own.type
  rcases object with ⟨entries, rfl⟩
  have isType : entries.lookup "type" = some (.string kind) := own.type
  by_cases same : .object entries = root
  · subst same
    simp only [isStrictCompatibleRoot, asObject?, isType, Option.bind_some, asStr?,
      Bool.and_eq_true, decide_eq_true_eq, Option.some.injEq] at rootStrict
    rcases rootStrict with ⟨rfl, strict⟩
    exact ⟨_, entries, rfl, fun _ => strict, nofun⟩
  · rcases isRoot.resolve_left same with ⟨_ | depth, strict⟩
    · cases strict
    · have noBranches : entries.lookup "anyOf" = none := own.unbranched.resolve_left same
      refine ⟨depth, entries, rfl, ?_, ?_⟩
      · rintro rfl
        simpa [nodeIsStrictCompatible, asObject?, noBranches, isType] using strict
      · rintro rfl
        simpa [nodeIsStrictCompatible, asObject?, noBranches, isType] using strict

theorem Seen.foreseen {visit next : Visit} (seen : Seen root visit.node)
    (foreseen : Foreseen root visit next) : Seen root next.node := by
  refine ⟨seen.1, .inr ?_⟩
  cases foreseen with
  | @branch branches branch notRoot isAnyOf member =>
    rcases seen.2.resolve_left notRoot with ⟨_ | depth, strict⟩
    · cases strict
    · refine ⟨depth, ?_⟩
      cases isNode : visit.node with
      | object entries =>
        rw [isNode] at strict isAnyOf
        simp only [nodeIsStrictCompatible, asObject?,
          show (entries.lookup "anyOf").bind asArray? = some branches from isAnyOf,
          Bool.and_eq_true, List.all_eq_true] at strict
        exact strict.2 branch member
      | null | bool | number | string | array =>
        rw [isNode] at isAnyOf
        cases isAnyOf
  | item own _ _ isItems =>
    rcases seen.own own with ⟨depth, entries, isNode, _, items⟩
    rw [isNode] at isItems
    rw [show entries.lookup "items" = _ from isItems] at items
    exact ⟨depth, items rfl⟩
  | @property _ properties key _ schema own _ _ isProperties isProperty =>
    rcases seen.own own with ⟨depth, entries, isNode, strict, _⟩
    rw [isNode] at isProperties
    rcases objectIsStrict_eq_true (strict rfl) with ⟨_, depth, children⟩
    rcases List.lookup_eq_some_iff.mp isProperty with ⟨before, after, rfl, _⟩
    exact ⟨depth, children _ isProperties (key, schema) (by simp)⟩

theorem seen_of_visited (strict : isStrictCompatibleRoot root = true) {value : Json}
    {visit : Visit} (visited : ReflTransGen (Foreseen root) ⟨root, value, []⟩ visit) :
    Seen root visit.node := by
  induction visited with
  | refl => exact ⟨strict, .inl rfl⟩
  | tail _ foreseen induction => exact induction.foreseen foreseen

end Check

/-! ## Objects -/

theorem object_of_matches {kind : String} {map : List (String × Json)}
    (matched : matchesBasicType kind (.object map) = true) : kind = "object" := by
  unfold matchesBasicType at matched
  split at matched <;> first | rfl | cases matched

theorem matches_of_accepted {root value : Json} {limits : SchemaLimits} {depth : Nat}
    {entries : List (String × Json)} {path kind : String} {state : Validation}
    (accepted : (validateValue root limits depth (.object entries) value path state).1 = .ok ())
    (noReference : entries.lookup "$ref" = none)
    (isType : entries.lookup "type" = some (.string kind)) :
    matchesBasicType kind value = true := by
  cases depth with
  | zero => cases accepted
  | succ depth =>
    simp only [validateValue, asObject?, noReference, Option.bind_none, andThen,
      Validation.visit] at accepted
    split at accepted
    · next next isNext =>
        simp only [lift] at accepted
        split at accepted
        · next isLocal =>
            simp only [Prod.mk.injEq, validateLocal, bind_eq_ok, reject_eq_ok, exists_const,
              isType, Option.mem_some_iff, exists_eq_left', Bool.not_eq_false] at isLocal
            exact isLocal.1.1
        · cases accepted
    · cases accepted

/-- The nodes that the check foresees a validation to visit, and that accept an object under a
type of their own, are strict. -/
theorem strictCompatible_complete (render : Json → String) (schema value : Json)
    (limits checkLimits : SchemaLimits) (compiled : compileSchema render schema limits = .ok true)
    (visit : Visit) (visited : ReflTransGen (Foreseen schema) ⟨schema, value, []⟩ visit)
    (kind : String) (own : OwnType schema visit.node kind)
    (noReference : kind = "object" ∨ visit.node.get? "$ref" = none) (map : List (String × Json))
    (depth : Nat) (path : String) (state : Validation)
    (accepted : (validateValue schema checkLimits depth visit.node (.object map) path state).1 =
      .ok ()) : IsStrict visit.node := by
  have strict : isStrictCompatibleRoot schema = true := by
    rcases compileSchema_eq_ok.mp compiled with ⟨_, compiled⟩
    simp only [compileDocument, bind_eq_ok, Except.ok.injEq] at compiled
    rcases compiled with ⟨_, _, _, _, _, _, _, _, _, _, strict⟩
    exact strict
  rcases (seen_of_visited strict visited).own own with ⟨_, entries, isNode, isStrict, _⟩
  rw [isNode] at accepted noReference ⊢
  have isType : entries.lookup "type" = some (.string kind) := by
    have type := own.type
    rwa [isNode] at type
  have isObject : kind = "object" := noReference.elim id fun noReference =>
    object_of_matches (matches_of_accepted accepted noReference isType)
  exact (objectIsStrict_eq_true (isStrict isObject)).1

def closedNode : Json :=
  .object [("additionalProperties", .bool false),
    ("properties", .object [("name", .object [("type", .string "string")])]),
    ("required", .array [.string "name"]), ("type", .string "object")]

def halfStrict : Json :=
  .object [("$defs", .object [("open", .object [("type", .string "object")])]),
    ("additionalProperties", .bool false),
    ("properties", .object [
      ("closed", closedNode),
      ("named", .object [("$ref", .string "#/$defs/open"), ("type", .string "string")]),
      ("nullable", .object [("type", .array [.string "null", .string "object"])])]),
    ("required", .array [.string "closed", .string "named", .string "nullable"]),
    ("type", .string "object")]

def closedInstance : List (String × Json) := [("name", .string "a")]

def halfStrictInstance : Json :=
  .object [("closed", .object closedInstance), ("named", .object [("any", .null)]),
    ("nullable", .object [("any", .null)])]

def halfStrictWriter : Json → String := recordedWriter [(halfStrict,
  "\x7b\"$defs\":\x7b\"open\":\x7b\"type\":\"object\"\x7d\x7d," ++
  "\"additionalProperties\":false,\"properties\":\x7b\"closed\":\x7b" ++
  "\"additionalProperties\":false,\"properties\":\x7b\"name\":\x7b" ++
  "\"type\":\"string\"\x7d\x7d,\"required\":[\"name\"],\"type\":\"object\"\x7d," ++
  "\"named\":\x7b\"$ref\":\"#/$defs/open\",\"type\":\"string\"\x7d," ++
  "\"nullable\":\x7b\"type\":[\"null\",\"object\"]\x7d\x7d," ++
  "\"required\":[\"closed\",\"named\",\"nullable\"],\"type\":\"object\"\x7d")]

theorem halfStrict_compiles (render : Json → String)
    (fits : Text.len (render halfStrict) ≤ SchemaLimits.official.maxSchemaBytes) :
    compileSchema render halfStrict .official = .ok true :=
  compileSchema_of_document (by decide +kernel) render fits

theorem halfStrict_closed :
    compileSchema halfStrictWriter halfStrict .official = .ok true ∧ IsStrict closedNode := by
  have compiled := halfStrict_compiles halfStrictWriter (by decide +kernel)
  have visited : Foreseen halfStrict ⟨halfStrict, halfStrictInstance, []⟩
      ⟨closedNode, .object closedInstance, []⟩ := by
    refine .property ⟨rfl, .inl rfl⟩ rfl (List.mem_cons_self ..) rfl ?_
    decide +kernel
  have accepted := ok_of_isOk (show (validateValue halfStrict .official 2 closedNode
    (.object closedInstance) "#" ⟨.new .official, []⟩).1.isOk = true by decide +kernel)
  exact ⟨compiled, strictCompatible_complete _ _ _ _ .official compiled _ (.single visited)
    "object" ⟨rfl, .inr rfl⟩ (.inl rfl) _ 2 "#" ⟨.new .official, []⟩ accepted⟩

/-- The target of a reference and a node with two types are visited, and accept objects that
they do not close. -/
theorem halfStrict_open :
    (∀ render, Text.len (render halfStrict) ≤ SchemaLimits.official.maxSchemaBytes →
      compileSchema render halfStrict .official = .ok true) ∧
      (validation halfStrict halfStrictInstance .official).1.toOption = some () ∧
        ∀ node ∈ [object [("type", .string "object")],
            .object [("type", .array [.string "null", .string "object"])]],
          (∃ visit ∈ (validation halfStrict halfStrictInstance .official).2.visits,
            visit.node = node ∧ visit.value = .object [("any", .null)]) ∧
            node.get? "additionalProperties" = none ∧ node.get? "properties" = none :=
  ⟨halfStrict_compiles, by decide +kernel⟩

end ToolSchema

end Philo
