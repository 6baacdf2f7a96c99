import Mathlib.Data.List.Sort
import Philo.Domain.Schema.Budget
import Philo.Domain.Schema.Pointer

/-! The definitions of a schema document, and the check that its references are not
cyclic. -/

namespace Philo

open Result Std

def Json.reference? (value : Json) : Option String :=
  ((value.get? "$ref").bind Json.asStr?).bind Pointer.canonicalizeLocalRef

namespace ToolSchema

/-! ## Definitions -/

mutual

def collectDefsAt : Json → String → TreeSet String → Except SchemaError (TreeSet String)
  | .object entries, path, defs => do
    let defs ← collectDefinitions entries path defs
    collectChildren entries path defs
  | _, _, defs => .ok defs

def collectDefinitions :
    List (String × Json) → String → TreeSet String → Except SchemaError (TreeSet String)
  | [], _, defs => .ok defs
  | (key, definitions) :: rest, path, defs =>
    if key = "$defs" then collectDefinitionMap definitions path defs
    else collectDefinitions rest path defs

def collectDefinitionMap :
    Json → String → TreeSet String → Except SchemaError (TreeSet String)
  | .object definitions, path, defs => collectNamed definitions path defs
  | _, path, _ =>
    .error ⟨"schema.$defs", .invalidKeywordType, some (path ++ "/$defs"),
      "$defs must be an object"⟩

def collectNamed :
    List (String × Json) → String → TreeSet String → Except SchemaError (TreeSet String)
  | [], _, defs => .ok defs
  | (name, definition) :: rest, path, defs => do
    let key := path ++ "/$defs/" ++ Pointer.encodeSegment name
    reject (key ∈ defs) ⟨"schema.$defs", .invalidKeywordType, some key,
      "duplicate local definition name"⟩
    let defs ← collectDefsAt definition key (defs.insert key)
    collectNamed rest path defs

/-- The loop of `collect_defs_at` over the other keys, which it does not encode. -/
def collectChildren :
    List (String × Json) → String → TreeSet String → Except SchemaError (TreeSet String)
  | [], _, defs => .ok defs
  | (key, child) :: rest, path, defs =>
    if key = "$defs" then collectChildren rest path defs
    else do
      let defs ← collectDefsAt child (path ++ "/" ++ key) defs
      collectChildren rest path defs

end

def collectDefs (value : Json) : Except SchemaError (TreeSet String) := collectDefsAt value "#" ∅

/-! ## References -/

def addReference (entries : List (String × Json)) (references : TreeSet String) :
    Except SchemaError (TreeSet String) :=
  match entries.lookup "$ref" with
  | none => .ok references
  | some reference => do
    let reference ← okOr reference.asStr?
      ⟨"schema.$ref", .invalidKeywordType, none, "$ref must be a string"⟩
    let canonical ← okOr (Pointer.canonicalizeLocalRef reference)
      ⟨"schema.$ref", .invalidKeywordType, none,
        "local schema reference contains an invalid JSON Pointer escape"⟩
    .ok (references.insert canonical)

mutual

def collectSemanticReferences :
    Json → TreeSet String → Except SchemaError (TreeSet String)
  | .object entries, references => do
    let references ← addReference entries references
    collectSemanticEntries entries references
  | .array items, references => collectSemanticItems items references
  | _, references => .ok references

def collectSemanticEntries :
    List (String × Json) → TreeSet String → Except SchemaError (TreeSet String)
  | [], references => .ok references
  | (key, child) :: rest, references =>
    if key = "$defs" then collectSemanticEntries rest references
    else do
      let references ← collectSemanticReferences child references
      collectSemanticEntries rest references

def collectSemanticItems :
    List Json → TreeSet String → Except SchemaError (TreeSet String)
  | [], references => .ok references
  | item :: rest, references => do
    let references ← collectSemanticReferences item references
    collectSemanticItems rest references

end

/-! ## The reference graph -/

abbrev ReferenceGraph := List (String × TreeSet String)

def ReferenceGraph.edges (graph : ReferenceGraph) (node : String) : List String :=
  ((graph.lookup node).map TreeSet.toList).getD []

structure GraphWalk where
  visiting : TreeSet String
  visited : TreeSet String
  expansionCount : Nat

def referenceTooDeep : SchemaError :=
  ⟨"schema.$ref", .tooDeep, none,
    "local schema references are cyclic or exceed the expansion budget"⟩

/-- `visit_reference_node`. The first argument is the number of levels that are left,
`max_depth + 1 - depth`. -/
def visitReferenceNode (graph : ReferenceGraph) (maxExpansions : Nat) :
    Nat → String → GraphWalk → Except SchemaError GraphWalk
  | 0, node, walk => if node ∈ walk.visited then .ok walk else .error referenceTooDeep
  | levels + 1, node, walk =>
    if node ∈ walk.visited then .ok walk
    else do
      reject (node ∈ walk.visiting) referenceTooDeep
      let expansionCount := saturatingAdd walk.expansionCount 1
      reject (maxExpansions < expansionCount) referenceTooDeep
      let walk ← (graph.edges node).foldlM
        (fun walk edge => visitReferenceNode graph maxExpansions levels edge walk)
        { walk with visiting := walk.visiting.insert node, expansionCount }
      .ok { walk with
        visiting := walk.visiting.erase node
        visited := walk.visited.insert node }

def nodeSchema (root : Json) (node : String) : Except SchemaError Json :=
  if node = "#" then .ok root
  else okOr (Pointer.resolveLocalRef root node) ⟨"schema.$ref", .unresolvedLocalReference, none,
    "local schema definition could not be resolved"⟩

def nodeReferences (root : Json) (node : String) :
    Except SchemaError (String × TreeSet String) := do
  let schema ← nodeSchema root node
  let references ← collectSemanticReferences schema ∅
  .ok (node, references)

def validateLocalReferenceGraph (root : Json) (defs : TreeSet String) (limits : SchemaLimits) :
    Except SchemaError Unit := do
  let nodes := "#" :: defs.toList
  let graph ← nodes.mapM (nodeReferences root)
  let maxExpansions := saturatingMul (max limits.maxSchemaDepth 1) (max nodes.length 1)
  let _ ← nodes.foldlM
    (fun walk node => visitReferenceNode graph maxExpansions (limits.maxSchemaDepth + 1) node walk)
    ⟨∅, ∅, 0⟩
  .ok ()

/-! ## What the collector finds -/

inductive Semantic : Json → Json → Prop
  | self (value : Json) : Semantic value value
  | item {inner item : Json} {items : List Json} (member : item ∈ items)
      (within : Semantic inner item) : Semantic inner (.array items)
  | entry {inner : Json} {entry : String × Json} {entries : List (String × Json)}
      (member : entry ∈ entries) (notDefs : entry.1 ≠ "$defs")
      (within : Semantic inner entry.2) : Semantic inner (.object entries)

theorem Semantic.trans {inner middle outer : Json} (first : Semantic inner middle)
    (second : Semantic middle outer) : Semantic inner outer := by
  induction second with
  | self => exact first
  | item member _ induction => exact .item member induction
  | entry member notDefs _ induction => exact .entry member notDefs induction

def Mentions (value : Json) (reference : String) : Prop :=
  ∃ node, Semantic node value ∧ node.reference? = some reference

def Collects (mentioned : String → Prop) (references collected : TreeSet String) : Prop :=
  (∀ reference ∈ references, reference ∈ collected) ∧
    ∀ reference, mentioned reference → reference ∈ collected

theorem addReference_collects {entries : List (String × Json)}
    {references collected : TreeSet String}
    (added : addReference entries references = .ok collected) :
    Collects (fun reference => (Json.object entries).reference? = some reference)
      references collected := by
  unfold addReference at added
  split at added
  · next missing =>
      cases added
      refine ⟨fun _ member => member, ?_⟩
      intro reference isReference
      simp [Json.reference?, Json.get?, missing] at isReference
  · next value found =>
      simp only [bind_eq_ok, okOr_eq_ok, Except.ok.injEq] at added
      rcases added with ⟨text, isText, canonical, isCanonical, rfl⟩
      refine ⟨fun _ member => TreeSet.mem_insert.mpr (.inr member), ?_⟩
      intro reference isReference
      simp only [Json.reference?, Json.get?, found, Option.bind_some, isText, isCanonical,
        Option.some.injEq] at isReference
      rw [isReference]
      exact TreeSet.mem_insert_self

mutual

theorem collectSemanticReferences_collects (value : Json) {references collected : TreeSet String}
    (found : collectSemanticReferences value references = .ok collected) :
    Collects (Mentions value) references collected := by
  cases value with
  | object entries =>
    simp only [collectSemanticReferences, bind_eq_ok] at found
    rcases found with ⟨own, added, others⟩
    have first := addReference_collects added
    have second := collectSemanticEntries_collects entries others
    refine ⟨fun reference member => second.1 _ (first.1 _ member), ?_⟩
    rintro reference ⟨node, within, isReference⟩
    cases within with
    | self => exact second.1 _ (first.2 _ isReference)
    | entry member notDefs within =>
      exact second.2 _ ⟨_, member, notDefs, node, within, isReference⟩
  | array items =>
    have inside := collectSemanticItems_collects items found
    refine ⟨inside.1, ?_⟩
    rintro reference ⟨node, within, isReference⟩
    cases within with
    | self => cases isReference
    | item member within => exact inside.2 _ ⟨_, member, node, within, isReference⟩
  | null | bool | number | string =>
    cases found
    refine ⟨fun _ member => member, ?_⟩
    rintro reference ⟨node, ⟨⟩, isReference⟩
    cases isReference

theorem collectSemanticEntries_collects (entries : List (String × Json))
    {references collected : TreeSet String}
    (found : collectSemanticEntries entries references = .ok collected) :
    Collects (fun reference => ∃ entry ∈ entries, entry.1 ≠ "$defs" ∧ Mentions entry.2 reference)
      references collected := by
  cases entries with
  | nil =>
    cases found
    exact ⟨fun _ member => member, fun _ ⟨_, member, _⟩ => nomatch member⟩
  | cons entry rest =>
    rcases entry with ⟨key, child⟩
    simp only [collectSemanticEntries] at found
    split at found
    · next skipped =>
        have others := collectSemanticEntries_collects rest found
        refine ⟨others.1, ?_⟩
        rintro reference ⟨entry, member, notDefs, mentions⟩
        rcases List.mem_cons.mp member with rfl | later
        · exact absurd skipped notDefs
        · exact others.2 _ ⟨entry, later, notDefs, mentions⟩
    · rw [bind_eq_ok] at found
      rcases found with ⟨own, isOwn, others⟩
      have first := collectSemanticReferences_collects child isOwn
      have second := collectSemanticEntries_collects rest others
      refine ⟨fun reference member => second.1 _ (first.1 _ member), ?_⟩
      rintro reference ⟨entry, member, notDefs, mentions⟩
      rcases List.mem_cons.mp member with rfl | later
      · exact second.1 _ (first.2 _ mentions)
      · exact second.2 _ ⟨entry, later, notDefs, mentions⟩

theorem collectSemanticItems_collects (items : List Json) {references collected : TreeSet String}
    (found : collectSemanticItems items references = .ok collected) :
    Collects (fun reference => ∃ item ∈ items, Mentions item reference)
      references collected := by
  cases items with
  | nil =>
    cases found
    exact ⟨fun _ member => member, fun _ ⟨_, member, _⟩ => nomatch member⟩
  | cons item rest =>
    simp only [collectSemanticItems, bind_eq_ok] at found
    rcases found with ⟨own, isOwn, others⟩
    have first := collectSemanticReferences_collects item isOwn
    have second := collectSemanticItems_collects rest others
    refine ⟨fun reference member => second.1 _ (first.1 _ member), ?_⟩
    rintro reference ⟨entry, member, mentions⟩
    rcases List.mem_cons.mp member with rfl | later
    · exact second.1 _ (first.2 _ mentions)
    · exact second.2 _ ⟨entry, later, mentions⟩

end

end ToolSchema

end Philo
