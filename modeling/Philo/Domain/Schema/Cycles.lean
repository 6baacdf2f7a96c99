import Philo.Domain.Schema.Keywords
import Philo.Domain.Schema.ReferenceGraph

/-! Whether a validation can follow a reference inside itself. -/

namespace Philo

open Result Relation Std Pointer

namespace ToolSchema

/-- What the reference graph does not see to: that a reference names a collected definition,
and that no property named `$defs` is looked at. -/
structure Traced (root : Json) (visit : Visit) : Prop where
  reference : ∀ reference target, visit.node.reference? = some reference →
    resolveLocalRef root reference = some target →
      ∃ defs, collectDefs root = .ok defs ∧ reference ∈ defs
  property : ∀ map properties child, visit.value = .object map → ("$defs", child) ∈ map →
    (visit.node.get? "properties").bind Json.asObject? = some properties →
      properties.lookup "$defs" = none

def EntersFresh (root : Json) (visit : Visit) : Prop :=
  ∀ reference target, visit.node.reference? = some reference →
    resolveLocalRef root reference = some target → reference ∉ visit.activeRefs

/-! ## The references that are being followed -/

/-- The node lies in the definition that was entered last, and that one can be reached from
all that are being followed. -/
structure Nested (root : Json) (defs : TreeSet String) (visit : Visit) : Prop where
  inside : ∃ holder, Semantic visit.node holder ∧
    ∀ last ∈ visit.activeRefs.head?, last ∈ defs ∧
      resolveLocalRef root last = some holder
  reachable : ∀ last ∈ visit.activeRefs.head?, ∀ reference ∈ visit.activeRefs,
    ReflTransGen (Refers root defs) last reference

section Nested

variable {root : Json} {defs : TreeSet String} {visit : Visit}

theorem semantic_get {node child : Json} {key : String} (found : node.get? key = some child)
    (notDefs : key ≠ "$defs") : Semantic child node := by
  cases node with
  | object entries =>
    rcases List.lookup_eq_some_iff.mp found with ⟨before, after, rfl, _⟩
    exact .entry (List.mem_append_right _ List.mem_cons_self) notDefs (.self _)
  | null | bool | number | string | array => cases found

theorem Nested.move (nested : Nested root defs visit) {node value : Json}
    (within : Semantic node visit.node) : Nested root defs ⟨node, value, visit.activeRefs⟩ := by
  rcases nested.inside with ⟨holder, inside, isHolder⟩
  exact ⟨⟨holder, within.trans inside, isHolder⟩, nested.reachable⟩

theorem Nested.refers (nested : Nested root defs visit) {reference last : String}
    (isReference : visit.node.reference? = some reference)
    (isLast : last ∈ visit.activeRefs.head?) : Refers root defs reference last := by
  rcases nested.inside with ⟨holder, inside, isHolder⟩
  rcases isHolder last isLast with ⟨isDef, resolved⟩
  exact ⟨isDef, holder, resolved, visit.node, inside, isReference⟩

theorem Nested.enter (nested : Nested root defs visit) {reference : String} {target value : Json}
    (isReference : visit.node.reference? = some reference)
    (resolved : resolveLocalRef root reference = some target) (isDef : reference ∈ defs) :
    Nested root defs ⟨target, value, reference :: visit.activeRefs⟩ := by
  refine ⟨⟨target, .self _, ?_⟩, ?_⟩
  · rintro last ⟨⟩
    exact ⟨isDef, resolved⟩
  · rintro last ⟨⟩ other member
    rcases List.mem_cons.mp member with rfl | earlier
    · exact .refl
    · cases isActive : visit.activeRefs with
      | nil =>
        rw [isActive] at earlier
        cases earlier
      | cons last rest =>
        have isLast : last ∈ visit.activeRefs.head? := by rw [isActive]; rfl
        exact .head (nested.refers isReference isLast) (nested.reachable last isLast _ earlier)

theorem Calls.nested {called : Visit} (calls : Calls root visit called)
    (collected : collectDefs root = .ok defs) (traced : Traced root visit)
    (nested : Nested root defs visit) : Nested root defs called := by
  cases calls with
  | reference isReference resolved =>
    rcases traced.reference _ _ isReference resolved with ⟨_, isDefs, isDef⟩
    cases collected.symm.trans isDefs
    exact nested.enter isReference resolved isDef
  | branch isAnyOf member =>
    rcases Option.bind_eq_some_iff.mp isAnyOf with ⟨value, found, isArray⟩
    cases value <;> cases isArray
    refine nested.move (Semantic.trans ?_ (semantic_get found (by decide)))
    exact .item member (.self _)
  | item _ _ isItems => exact nested.move (semantic_get isItems (by decide))
  | @property map properties key child schema isObject member isProperties isProperty =>
    have notDefs : key ≠ "$defs" := by
      rintro rfl
      rw [traced.property _ _ _ isObject member isProperties] at isProperty
      cases isProperty
    rcases Option.bind_eq_some_iff.mp isProperties with ⟨value, found, isMap⟩
    cases value <;> cases isMap
    refine nested.move (Semantic.trans ?_ (semantic_get found (by decide)))
    exact semantic_get isProperty notDefs

end Nested

/-! ## No cycle -/

theorem not_transGen_self {α : Type} {related : α → α → Prop} {start : α}
    (accessible : Acc related start) : ¬ TransGen related start start := by
  induction accessible with
  | intro start _ induction =>
    intro cycle
    rcases TransGen.tail'_iff.mp cycle with ⟨last, path, step⟩
    exact induction last step (TransGen.head' step path)

/-- If every call of a validation is traced, then no call enters a reference that is being
followed. -/
theorem validation_entersFresh (render : Json → String) (schema value : Json)
    (limits instanceLimits : SchemaLimits)
    (compiled : Succeeds (compileSchema render schema limits))
    (traced : ∀ visit ∈ (validation schema value instanceLimits).2.visits,
      Traced schema visit) :
    ∀ visit ∈ (validation schema value instanceLimits).2.visits, EntersFresh schema visit := by
  rcases compiled with ⟨strict, isCompiled⟩
  simp only [compileSchema_eq_ok, compileDocument, bind_eq_ok, exists_unit] at isCompiled
  rcases isCompiled with ⟨_, _, _, defs, collected, _, acyclic, _⟩
  intro visit member
  have nested : Nested schema defs visit := by
    have leads := leads_validation schema value instanceLimits visit member
    induction leads with
    | refl => exact ⟨⟨schema, .self _, nofun⟩, nofun⟩
    | tail _ step induction =>
        exact step.2.nested collected (traced _ step.1) (induction step.1)
  intro reference target isReference resolved isActive
  rcases (traced visit member).reference _ _ isReference resolved with ⟨_, isDefs, isDef⟩
  cases collected.symm.trans isDefs
  -- the reference would be reached from itself
  cases activeRefs : visit.activeRefs with
  | nil =>
      rw [activeRefs] at isActive
      cases isActive
  | cons last rest =>
      have isLast : last ∈ visit.activeRefs.head? := by rw [activeRefs]; rfl
      exact not_transGen_self (acc_refers acyclic reference isDef)
        (.head' (nested.refers isReference isLast) (nested.reachable last isLast _ isActive))

def nestedDefinition : Json :=
  .object [("$defs", .object [
      ("a", .object [("properties", .object [("b", .object [("$ref", .string "#/$defs/b")])])]),
      ("b", .object [])]),
    ("$ref", .string "#/$defs/a")]

def nestedValue : Json := .object [("b", .null)]

def nestedDefinitionText : String :=
  "\x7b\"$defs\":\x7b\"a\":\x7b\"properties\":\x7b\"b\":\x7b\"$ref\":\"#/$defs/b\"\x7d\x7d\x7d," ++
    "\"b\":\x7b\x7d\x7d,\"$ref\":\"#/$defs/a\"\x7d"

theorem nestedDefinition_entersFresh :
    Succeeds (compileSchema (fun _ => nestedDefinitionText) nestedDefinition .official) ∧
      ((validation nestedDefinition nestedValue .official).2.visits.map fun visit =>
        visit.activeRefs) = [["#/$defs/b", "#/$defs/a"], ["#/$defs/a"], ["#/$defs/a"], []] ∧
        ∀ visit ∈ (validation nestedDefinition nestedValue .official).2.visits,
          EntersFresh nestedDefinition visit := by
  have compiled :
      Succeeds (compileSchema (fun _ => nestedDefinitionText) nestedDefinition .official) :=
    @compiles_of_document _ _ false (by decide +kernel) _ (by decide +kernel)
  refine ⟨compiled, by decide +kernel, validation_entersFresh _ nestedDefinition nestedValue
    .official .official compiled ?_⟩
  have collected : ((collectDefs nestedDefinition).map fun defs => defs.toList).toOption =
      some ["#/$defs/a", "#/$defs/b"] := by decide +kernel
  rcases exists_ok_of_map collected with ⟨defs, isDefs, listed⟩
  have isDef : ∀ reference ∈ ["#/$defs/a", "#/$defs/b"], reference ∈ defs := by
    intro reference member
    rw [← listed] at member
    exact TreeSet.mem_toList.mp member
  have references : ∀ visit ∈ (validation nestedDefinition nestedValue .official).2.visits,
      ∀ reference ∈ visit.node.reference?, reference ∈ ["#/$defs/a", "#/$defs/b"] := by
    decide +kernel
  have values : ∀ visit ∈ (validation nestedDefinition nestedValue .official).2.visits,
      visit.value = nestedValue ∨ visit.value = .null := by decide +kernel
  intro visit member
  refine ⟨fun reference _ isReference _ => ⟨defs, isDefs, isDef _
    (references visit member reference isReference)⟩, ?_⟩
  intro map _ child isObject isMember
  rcases values visit member with isValue | isNull
  · cases isValue.symm.trans isObject
    simp at isMember
  · cases isNull.symm.trans isObject

/-- A definition with a property named `$defs` that refers back to it. -/
def defsProperty : Json :=
  .object [("$defs", .object [("a",
      .object [("properties", .object [("$defs", .object [("$ref", .string "#/$defs/a")])])])]),
    ("$ref", .string "#/$defs/a")]

def constCycle : Json :=
  .object [("$ref", .string "#/const/$defs/a"),
    ("const", .object [("$defs", .object [("a", .object [("$ref", .string "#/const")])]),
      ("$ref", .string "#/const/$defs/a")])]

theorem active_entered :
    ((∀ render, Text.len (render defsProperty) ≤ SchemaLimits.official.maxSchemaBytes →
        Succeeds (compileSchema render defsProperty .official)) ∧
      ∃ visit ∈ (validation defsProperty (.object [("$defs", .null)]) .official).2.visits,
        ¬ EntersFresh defsProperty visit) ∧
    (∀ render, Text.len (render constCycle) ≤ SchemaLimits.official.maxSchemaBytes →
        Succeeds (compileSchema render constCycle .official)) ∧
      ∃ visit ∈ (validation constCycle .null .official).2.visits,
        ¬ EntersFresh constCycle visit := by
  have again : ∀ {root : Json} {visits : List Visit} {reference : String},
      (∃ visit ∈ visits, visit.node.reference? = some reference ∧
        (resolveLocalRef root reference).isSome ∧ reference ∈ visit.activeRefs) →
        ∃ visit ∈ visits, ¬ EntersFresh root visit := by
    rintro root visits reference ⟨visit, member, isReference, resolved, isActive⟩
    rcases Option.isSome_iff_exists.mp resolved with ⟨target, isTarget⟩
    exact ⟨visit, member, fun fresh => fresh _ _ isReference isTarget isActive⟩
  exact ⟨⟨@compiles_of_document _ _ false (by decide +kernel),
    @again _ _ "#/$defs/a" (by decide +kernel)⟩,
    @compiles_of_document _ _ false (by decide +kernel),
    @again _ _ "#/const/$defs/a" (by decide +kernel)⟩

end ToolSchema

end Philo
