import Philo.Domain.Schema.Validate

/-! Which nodes of a schema a validation visits, and through which references. -/

namespace Philo

open Result Checked Relation

namespace ToolSchema

/-! ## Calls -/

inductive Calls (root : Json) : Visit → Visit → Prop
  | reference {visit : Visit} {reference : String} {target : Json}
      (isReference : visit.node.reference? = some reference)
      (resolved : Pointer.resolveLocalRef root reference = some target) :
      Calls root visit ⟨target, visit.value, reference :: visit.activeRefs⟩
  | branch {visit : Visit} {branches : List Json} {branch : Json}
      (isAnyOf : (visit.node.get? "anyOf").bind Json.asArray? = some branches)
      (member : branch ∈ branches) :
      Calls root visit ⟨branch, visit.value, visit.activeRefs⟩
  | item {visit : Visit} {items : List Json} {item itemSchema : Json}
      (isArray : visit.value = .array items) (member : item ∈ items)
      (isItems : visit.node.get? "items" = some itemSchema) :
      Calls root visit ⟨itemSchema, item, visit.activeRefs⟩
  | property {visit : Visit} {map properties : List (String × Json)} {key : String}
      {child schema : Json} (isObject : visit.value = .object map) (member : (key, child) ∈ map)
      (isProperties : (visit.node.get? "properties").bind Json.asObject? = some properties)
      (isProperty : properties.lookup key = some schema) :
      Calls root visit ⟨schema, child, visit.activeRefs⟩

/-- The calls that a call leads to, each of them through calls that were made. -/
def Leads (root : Json) (start : Visit) (visits : List Visit) : Prop :=
  ∀ visit ∈ visits, ReflTransGen
    (fun caller called => caller ∈ visits ∧ Calls root caller called) start visit

def LeadsBelow (root : Json) (start : Visit) (visits : List Visit) : Prop :=
  ∀ visit ∈ visits, ReflTransGen
    (fun caller called => caller ∈ start :: visits ∧ Calls root caller called) start visit

section Leads

variable {root : Json} {start : Visit}

theorem leadsBelow_nil : LeadsBelow root start [] := fun _ member => nomatch member

theorem leadsBelow_append (earlier later : List Visit)
    (earlierLeads : LeadsBelow root start earlier) (laterLeads : LeadsBelow root start later) :
    LeadsBelow root start (later ++ earlier) := by
  intro visit member
  rcases List.mem_append.mp member with isLater | isEarlier
  · refine (laterLeads visit isLater).lift id fun caller called step => ⟨?_, step.2⟩
    exact List.cons_subset_cons _ (List.subset_append_left ..) step.1
  · refine (earlierLeads visit isEarlier).lift id fun caller called step => ⟨?_, step.2⟩
    exact List.cons_subset_cons _ (List.subset_append_right ..) step.1

/-- What a call leads to is below the call that makes it. -/
theorem Leads.below {called : Visit} (calls : Calls root start called) {visits : List Visit}
    (leads : Leads root called visits) : LeadsBelow root start visits := by
  intro visit member
  refine .head ⟨List.mem_cons_self, calls⟩ ?_
  exact (leads visit member).lift id fun _ _ step => ⟨List.mem_cons_of_mem _ step.1, step.2⟩

theorem LeadsBelow.leads {visits : List Visit} (below : LeadsBelow root start visits) :
    Leads root start (visits ++ [start]) := by
  have known : ∀ visit ∈ start :: visits, visit ∈ visits ++ [start] := by
    intro visit member
    rw [List.mem_append, List.mem_singleton]
    exact (List.mem_cons.mp member).symm
  intro visit member
  rcases List.mem_append.mp member with isBelow | isStart
  · exact (below visit isBelow).lift id fun _ _ step => ⟨known _ step.1, step.2⟩
  · rw [List.mem_singleton.mp isStart]

end Leads

/-! ## Runs -/

def Following (active : List String) (state : Validation) : Prop := state.guard.activeRefs = active

section Runs

variable {root node value : Json} {path : String} {active : List String}
  {entries : List (String × Json)}

theorem logs_referenced {reference : String} {validate : Json → Validator}
    (isReference : (entries.lookup "$ref").bind Json.asStr? = some reference)
    (inner : ∀ target active, Logs Validation.visits (Following active)
      (Leads root ⟨target, value, active⟩) (validate target)) :
    Logs Validation.visits (Following active) (LeadsBelow root ⟨.object entries, value, active⟩)
      (validateReferenced root reference path validate) := by
  unfold validateReferenced
  split
  · exact logs_lift leadsBelow_nil (.error _)
  · next canonical isCanonical =>
      split
      · exact logs_lift leadsBelow_nil (.error _)
      · next target resolved =>
          have calls : Calls root ⟨.object entries, value, active⟩
              ⟨target, value, canonical :: active⟩ := by
            refine .reference ?_ resolved
            simp [Json.reference?, Json.get?, isReference, isCanonical]
          rintro ⟨guard, visits⟩ rfl
          simp only [Checked.andThen, Validation.enter, ReferenceGuard.enter]
          split
          · next refused =>
              split at refused
              · cases refused
              · cases refused
                rcases inner target _ ⟨_, visits⟩ rfl with ⟨kept, new, isNew, leads⟩
                refine ⟨?_, new, isNew, leads.below calls⟩
                simp only [Following, Checked.ending, Validation.leave, ReferenceGuard.leave]
                rw [show _ = _ from kept, List.erase_cons_head]
          · next refused =>
              split at refused <;> cases refused
              exact ⟨rfl, [], rfl, leadsBelow_nil⟩

theorem logs_anyOf {validate : Json → Validator}
    (inner : ∀ branch, Logs Validation.visits (Following active)
      (Leads root ⟨branch, value, active⟩) (validate branch)) :
    Logs Validation.visits (Following active) (LeadsBelow root ⟨.object entries, value, active⟩)
      (validateAnyOf entries path validate) := by
  unfold validateAnyOf
  split
  · exact logs_pass leadsBelow_nil
  · next branches isAnyOf =>
      refine logs_firstOf leadsBelow_nil leadsBelow_append ?_
      intro branch member
      have calls : Calls root ⟨.object entries, value, active⟩ ⟨branch, value, active⟩ :=
        .branch isAnyOf member
      exact (inner branch).imp fun _ leads => leads.below calls

theorem logs_children {validate : Json → Json → String → Validator}
    (inner : ∀ node value path, Logs Validation.visits (Following active)
      (Leads root ⟨node, value, active⟩) (validate node value path)) :
    Logs Validation.visits (Following active) (LeadsBelow root ⟨.object entries, value, active⟩)
      (validateChildren entries value path validate) := by
  unfold validateChildren
  split
  · next items =>
      split
      · exact logs_pass leadsBelow_nil
      · next itemSchema isItems =>
          refine logs_each leadsBelow_nil leadsBelow_append ?_
          rintro ⟨item, index⟩ member
          have calls : Calls root ⟨.object entries, .array items, active⟩
              ⟨itemSchema, item, active⟩ :=
            .item rfl (List.fst_mem_of_mem_zipIdx member) isItems
          exact (inner _ _ _).imp fun _ leads => leads.below calls
  · next map =>
      refine logs_each leadsBelow_nil leadsBelow_append ?_
      rintro ⟨key, child⟩ member
      dsimp only
      split
      · next schema isSchema =>
          rcases Option.bind_eq_some_iff.mp isSchema with ⟨properties, isProperties, found⟩
          have calls : Calls root ⟨.object entries, .object map, active⟩
              ⟨schema, child, active⟩ := .property rfl member isProperties found
          exact (inner _ _ _).imp fun _ leads => leads.below calls
      · exact logs_failIf leadsBelow_nil _ _
  · exact logs_pass leadsBelow_nil

theorem logs_visit {node value : Json} {body : Validator}
    (below : Logs Validation.visits (Following active)
      (LeadsBelow root ⟨node, value, active⟩) body) :
    Logs Validation.visits (Following active) (Leads root ⟨node, value, active⟩)
      ((Validation.visit node value).andThen body) := by
  rintro ⟨guard, visits⟩ rfl
  rcases below ⟨guard, ⟨node, value, guard.activeRefs⟩ :: visits⟩ rfl with
    ⟨kept, new, isNew, leads⟩
  refine ⟨kept, new ++ [⟨node, value, guard.activeRefs⟩], ?_, leads.leads⟩
  rw [List.append_assoc]
  exact isNew

theorem logs_validateValue (limits : SchemaLimits) (depth : Nat) (node value : Json)
    (path : String) (active : List String) :
    Logs Validation.visits (Following active) (Leads root ⟨node, value, active⟩)
      (validateValue root limits depth node value path) := by
  induction depth generalizing node value path active with
  | zero => exact logs_lift (by simp [Leads]) (.error _)
  | succ depth induction =>
    refine logs_visit ?_
    cases node with
    | object entries =>
      dsimp only [Json.asObject?]
      split
      · next reference isReference =>
          exact logs_referenced isReference fun target active => induction target value path active
      · exact (logs_anyOf fun branch => induction branch value path active).andThen
          leadsBelow_append ((logs_lift leadsBelow_nil _).andThen leadsBelow_append
            (logs_children fun node value path => induction node value path active))
    | null | bool | number | string | array => exact logs_lift leadsBelow_nil (.error _)

end Runs

theorem leads_validation (schema value : Json) (limits : SchemaLimits) :
    Leads schema ⟨schema, value, []⟩ (validation schema value limits).2.visits := by
  rcases logs_validateValue limits (steps schema) schema value "#" []
    ⟨.new limits, []⟩ rfl with ⟨_, new, isNew, leads⟩
  rw [List.append_nil] at isNew
  rw [validation, isNew]
  exact leads

end ToolSchema

end Philo
