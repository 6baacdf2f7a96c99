import Philo.Domain.Schema.Agreement

/-! How deep a validation goes: the depth that the model allows is never reached. -/

namespace Philo

namespace Json

theorem Within.trans {inner middle outer : Json} (first : Within inner middle)
    (second : Within middle outer) : Within inner outer := by
  induction second with
  | self => exact first
  | item member _ induction => exact .item member induction
  | entry member _ induction => exact .entry member induction

theorem within_get {node child : Json} {key : String} (found : node.get? key = some child) :
    ∃ entries, node = .object entries ∧ (key, child) ∈ entries := by
  cases node with
  | object entries =>
    rcases List.lookup_eq_some_iff.mp found with ⟨before, after, rfl, _⟩
    exact ⟨_, rfl, List.mem_append_right _ List.mem_cons_self⟩
  | null | bool | number | string | array => cases found

theorem within_at {root target : Json} {keys : List String} (found : at? keys root = some target) :
    Within target root := by
  induction keys generalizing root with
  | nil =>
    cases found
    exact .self _
  | cons key keys induction =>
    rcases Option.bind_eq_some_iff.mp found with ⟨child, isChild, below⟩
    rcases within_get isChild with ⟨entries, rfl, member⟩
    exact .entry member (induction below)

end Json

namespace ToolSchema

/-! ## Depths -/

variable {items : List Json} {item inner child : Json} {entries : List (String × Json)}
  {entry : String × Json} {key : String}

theorem jsonDepth_pos (value : Json) : 0 < jsonDepth value := by
  cases value <;> simp only [jsonDepth] <;> omega

theorem jsonDepth_le_maxDepth (member : item ∈ items) : jsonDepth item ≤ maxDepth items := by
  induction items with
  | nil => cases member
  | cons first rest induction =>
    rw [maxDepth]
    rcases List.mem_cons.mp member with rfl | later
    · exact Nat.le_max_left ..
    · exact Nat.le_trans (induction later) (Nat.le_max_right ..)

theorem maxEntryDepth_eq (entries : List (String × Json)) :
    maxEntryDepth entries = maxDepth (entries.map Prod.snd) := by
  induction entries with
  | nil => rfl
  | cons first rest induction => rw [maxEntryDepth, induction, List.map_cons, maxDepth]

theorem jsonDepth_item (member : item ∈ items) : jsonDepth item < jsonDepth (.array items) := by
  have le := jsonDepth_le_maxDepth member
  rw [jsonDepth]
  omega

theorem jsonDepth_entry
    (member : entry ∈ entries) : jsonDepth entry.2 < jsonDepth (.object entries) := by
  have le := jsonDepth_le_maxDepth (List.mem_map_of_mem (f := Prod.snd) member)
  rw [jsonDepth, maxEntryDepth_eq]
  omega

theorem jsonDepth_within {outer : Json} (within : inner.Within outer) :
    jsonDepth inner ≤ jsonDepth outer := by
  induction within with
  | self => exact Nat.le_refl _
  | item member _ induction => exact Nat.le_trans induction (Nat.le_of_lt (jsonDepth_item member))
  | entry member _ induction => exact Nat.le_trans induction (Nat.le_of_lt (jsonDepth_entry member))

/-! ## Values -/

theorem mem_valuesInItems (member : item ∈ items)
    (isInner : inner ∈ valuesIn item) : inner ∈ valuesInItems items := by
  induction items with
  | nil => cases member
  | cons first rest induction =>
    rw [valuesInItems, List.mem_append]
    rcases List.mem_cons.mp member with rfl | later
    · exact .inl isInner
    · exact .inr (induction later)

theorem valuesInEntries_eq (entries : List (String × Json)) :
    valuesInEntries entries = valuesInItems (entries.map Prod.snd) := by
  induction entries with
  | nil => rfl
  | cons first rest induction => rw [valuesInEntries, induction, List.map_cons, valuesInItems]

theorem mem_valuesIn {outer : Json} (within : inner.Within outer) : inner ∈ valuesIn outer := by
  induction within with
  | self => cases inner <;> simp [valuesIn]
  | item member _ induction => exact List.mem_cons_of_mem _ (mem_valuesInItems member induction)
  | entry member _ induction =>
    rw [valuesIn, valuesInEntries_eq]
    exact List.mem_cons_of_mem _ (mem_valuesInItems (List.mem_map_of_mem member) induction)

/-- References that are different and stand in a document are not more than its values. -/
theorem length_le_of_references {root : Json} {active : List String} (distinct : active.Nodup)
    (stand : ∀ reference ∈ active, ∃ node : Json, node.Within root ∧
      node.reference? = some reference) :
    active.length ≤ (valuesIn root).length := by
  have subset : active ⊆ (valuesIn root).filterMap Json.reference? := by
    intro reference member
    rcases stand reference member with ⟨node, within, isReference⟩
    exact List.mem_filterMap.mpr ⟨node, mem_valuesIn within, isReference⟩
  exact Nat.le_trans (List.subperm_of_subset distinct subset).length_le
    (List.length_filterMap_le ..)

/-! ## More depth -/

namespace Evaluation

variable {α : Type} {items : List α} {evaluateItem other : α → Evaluation}
  {first second later secondLater : Evaluation}

def Extends (first later : Evaluation) : Prop := ∀ verdict ∈ first, verdict ∈ later

theorem Extends.after (extends_ : Extends first later) (count : Nat) :
    Extends (first.after count) (later.after count) := by
  intro verdict isVerdict
  rcases Option.map_eq_some_iff.mp isVerdict with ⟨pair, isPair, rfl⟩
  exact Option.map_eq_some_iff.mpr ⟨pair, extends_ pair isPair, rfl⟩

theorem Extends.andThen (firstExtends : Extends first later)
    (secondExtends : Extends second secondLater) :
    Extends (first.andThen second) (later.andThen secondLater) := by
  intro verdict isVerdict
  rcases Option.bind_eq_some_iff.mp isVerdict with ⟨⟨held, count⟩, isFirst, isSecond⟩
  refine Option.bind_eq_some_iff.mpr ⟨(held, count), firstExtends _ isFirst, ?_⟩
  cases held with
  | false => exact isSecond
  | true => exact secondExtends.after count _ isSecond

theorem Extends.orElse (firstExtends : Extends first later)
    (secondExtends : Extends second secondLater) :
    Extends (first.orElse second) (later.orElse secondLater) := by
  intro verdict isVerdict
  rcases Option.bind_eq_some_iff.mp isVerdict with ⟨⟨held, count⟩, isFirst, isSecond⟩
  refine Option.bind_eq_some_iff.mpr ⟨(held, count), firstExtends _ isFirst, ?_⟩
  cases held with
  | false => exact secondExtends.after count _ isSecond
  | true => exact isSecond

theorem extends_refl : Extends first first := fun _ member => member

theorem extends_all (extends_ : ∀ item ∈ items, Extends (evaluateItem item) (other item)) :
    Extends (all evaluateItem items) (all other items) := by
  induction items with
  | nil => exact extends_refl
  | cons item rest induction =>
    rw [List.forall_mem_cons] at extends_
    exact extends_.1.andThen (induction extends_.2)

theorem extends_any (extends_ : ∀ item ∈ items, Extends (evaluateItem item) (other item)) :
    Extends (any evaluateItem items) (any other items) := by
  induction items with
  | nil => exact extends_refl
  | cons item rest induction =>
    rw [List.forall_mem_cons] at extends_
    exact extends_.1.orElse (induction extends_.2)

end Evaluation

open Evaluation

/-- The depth that an evaluation needs at a node. Each reference that is not being followed
yet costs at most one way through the document. -/
def stepsFrom (root : Json) (active : List String) (schema : Json) : Nat :=
  ((valuesIn root).length - active.length) * jsonDepth root + jsonDepth schema

theorem stepsFrom_root (root : Json) : stepsFrom root [] root = steps root := by
  simp [stepsFrom, steps, Nat.succ_mul]

structure InDocument (root : Json) (active : List String) : Prop where
  distinct : active.Nodup
  stand : ∀ reference ∈ active, ∃ node : Json, node.Within root ∧
    node.reference? = some reference

theorem inDocument_nil (root : Json) : InDocument root [] := ⟨List.nodup_nil, nofun⟩

section Deep

variable {root schema value target : Json} {active : List String} {canonical : String}

theorem InDocument.cons (inDocument : InDocument root active) (within : schema.Within root)
    (isReference : schema.reference? = some canonical) (notActive : canonical ∉ active) :
    InDocument root (canonical :: active) := by
  refine ⟨List.nodup_cons.mpr ⟨notActive, inDocument.distinct⟩, fun reference member => ?_⟩
  rcases List.mem_cons.mp member with rfl | earlier
  · exact ⟨schema, within, isReference⟩
  · exact inDocument.stand reference earlier

/-- To follow a reference leaves room for a whole way through the document. -/
theorem stepsFrom_target (inDocument : InDocument root (canonical :: active))
    (within : target.Within root) :
    stepsFrom root (canonical :: active) target < stepsFrom root active schema := by
  have room : active.length + 1 ≤ (valuesIn root).length :=
    length_le_of_references inDocument.distinct inDocument.stand
  have targetDepth := jsonDepth_within within
  have schemaDepth := jsonDepth_pos schema
  have split : (valuesIn root).length - active.length =
      ((valuesIn root).length - (active.length + 1)) + 1 := by omega
  simp only [stepsFrom, List.length_cons, split, Nat.succ_mul]
  omega

theorem stepsFrom_child (smaller : jsonDepth child < jsonDepth schema) :
    stepsFrom root active child < stepsFrom root active schema :=
  Nat.add_lt_add_left smaller _

theorem within_resolved {reference : String}
    (resolved : Pointer.resolveLocalRef root reference = some target) : target.Within root := by
  simp only [Pointer.resolveLocalRef, Option.bind_eq_bind, Option.bind_eq_some_iff] at resolved
  rcases resolved with ⟨_, _, _, _, found⟩
  exact Json.within_at found

theorem within_of_lookup (found : entries.lookup key = some child) :
    child.Within (.object entries) ∧ jsonDepth child < jsonDepth (.object entries) := by
  rcases @Json.within_get (.object entries) child key found with ⟨_, same, member⟩
  cases same
  exact ⟨.entry member (.self _), jsonDepth_entry member⟩

theorem within_of_branch {branches : List Json}
    (found : (entries.lookup key).bind Json.asArray? = some branches) {branch : Json}
    (member : branch ∈ branches) :
    branch.Within (.object entries) ∧ jsonDepth branch < jsonDepth (.object entries) := by
  rcases Option.bind_eq_some_iff.mp found with ⟨child, isChild, isArray⟩
  cases child with
  | array items =>
    cases isArray
    rcases within_of_lookup isChild with ⟨within, smaller⟩
    exact ⟨(Json.Within.item member (.self _)).trans within,
      Nat.lt_trans (jsonDepth_item member) smaller⟩
  | null | bool | number | string | object => cases isArray

theorem within_of_property (found : propertySchema? entries key = some child) :
    child.Within (.object entries) ∧ jsonDepth child < jsonDepth (.object entries) := by
  rcases Option.bind_eq_some_iff.mp found with ⟨properties, isProperties, isChild⟩
  rcases Option.bind_eq_some_iff.mp isProperties with ⟨map, isMap, isObject⟩
  cases map with
  | object inner =>
    cases isObject
    rcases within_of_lookup isMap with ⟨within, smaller⟩
    rcases within_of_lookup isChild with ⟨childWithin, childSmaller⟩
    exact ⟨childWithin.trans within, Nat.lt_trans childSmaller smaller⟩
  | null | bool | number | string | array => cases isObject

/-- The depth of the model is enough: no other depth comes to another verdict. -/
theorem evaluate_extends (limits : SchemaLimits) (other : Nat) {depth : Nat}
    (inDocument : InDocument root active) (within : schema.Within root)
    (enough : stepsFrom root active schema ≤ depth) :
    Extends (evaluate root limits other active schema value)
      (evaluate root limits depth active schema value) := by
  induction other generalizing active schema value depth with
  | zero => exact fun _ none => nomatch none
  | succ other induction =>
    obtain ⟨depth, rfl⟩ : ∃ less, depth = less + 1 := by
      refine Nat.exists_eq_add_one.mpr (Nat.lt_of_lt_of_le ?_ enough)
      exact Nat.lt_of_lt_of_le (jsonDepth_pos schema) (Nat.le_add_left ..)
    unfold evaluate
    cases schema with
    | object entries =>
      simp only [Json.asObject?]
      have below : ∀ {child value : Json}, child.Within (.object entries) ∧
          jsonDepth child < jsonDepth (.object entries) →
            Extends (evaluate root limits other active child value)
              (evaluate root limits depth active child value) := fun inside =>
        induction inDocument (inside.1.trans within)
          (Nat.le_of_lt_succ (Nat.lt_of_lt_of_le (stepsFrom_child inside.2) enough))
      cases isReference : (entries.lookup "$ref").bind Json.asStr? with
      | some reference =>
        simp only [evaluateReferenced]
        cases isCanonical : Pointer.canonicalizeLocalRef reference with
        | none => exact extends_refl
        | some canonical =>
          simp only
          cases resolved : Pointer.resolveLocalRef root canonical with
          | none => exact extends_refl
          | some target =>
            simp only
            split
            · exact extends_refl
            · rename_i notActive
              have next : InDocument root (canonical :: active) := by
                refine inDocument.cons within ?_ notActive
                simp [Json.reference?, Json.get?, isReference, isCanonical]
              have targetWithin := within_resolved resolved
              refine Extends.after (induction next targetWithin ?_) 1
              exact Nat.le_of_lt_succ
                (Nat.lt_of_lt_of_le (stepsFrom_target next targetWithin) enough)
      | none =>
        refine Extends.andThen ?_ (extends_refl.andThen ?_)
        · unfold evaluateAnyOf
          cases found : (entries.lookup "anyOf").bind Json.asArray? with
          | none => exact extends_refl
          | some branches =>
            exact extends_any fun branch member => below (within_of_branch found member)
        · unfold evaluateChildren
          cases value with
          | array items =>
            cases found : entries.lookup "items" with
            | none => exact extends_refl
            | some itemSchema => exact extends_all fun item _ => below (within_of_lookup found)
          | object map =>
            refine extends_all fun entry _ => ?_
            cases found : propertySchema? entries entry.1 with
            | none => simp only [found]; exact extends_refl
            | some child =>
              simp only [found]
              exact below (within_of_property found)
          | null | bool | number | string => exact extends_refl
    | null | bool | number | string | array => exact extends_refl

end Deep

end ToolSchema

end Philo
