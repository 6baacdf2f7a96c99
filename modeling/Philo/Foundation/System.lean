import Mathlib.Data.List.Basic

/-! Transition systems whose step is a partial function: finite runs, infinite
executions, and the rules that carry a fact from one step to all of them. -/

namespace Philo

/-- A system takes one action at a time; `none` means that the action is not
possible in that state. -/
structure System (State Action : Type _) where
  step : State → Action → Option State

namespace System

variable {State Action : Type _} (system : System State Action)

def run (state : State) : List Action → Option State
  | [] => some state
  | action :: rest => (system.step state action).bind fun next => run next rest

def Visits (initial : State) (actions : List Action) (state : State) : Prop :=
  ∃ first later, actions = first ++ later ∧ system.run initial first = some state

def Takes (initial : State) (actions : List Action) (state : State) (action : Action) :
    Prop :=
  ∃ first later, actions = first ++ action :: later ∧ system.run initial first = some state

variable {system} {initial state : State} {action : Action} {rest : List Action}

theorem run_append (first later : List Action) : system.run initial (first ++ later) =
    (system.run initial first).bind fun middle => system.run middle later := by
  induction first generalizing initial with
  | nil => rfl
  | cons action rest induction =>
    simp only [List.cons_append, run, Option.bind_assoc]
    congr 1
    funext next
    exact induction

theorem visits_nil : system.Visits initial [] state ↔ state = initial := by
  constructor
  · rintro ⟨first, later, split, reached⟩
    rcases List.append_eq_nil_iff.mp split.symm with ⟨rfl, rfl⟩
    exact (Option.some.inj reached).symm
  · rintro rfl
    exact ⟨[], [], rfl, rfl⟩

theorem visits_cons : system.Visits initial (action :: rest) state ↔ state = initial ∨
      ∃ next, system.step initial action = some next ∧ system.Visits next rest state := by
  constructor
  · rintro ⟨first, later, split, reached⟩
    cases first with
    | nil => exact .inl (Option.some.inj reached).symm
    | cons head tail =>
      cases split
      rcases Option.bind_eq_some_iff.mp reached with ⟨next, stepped, arrived⟩
      exact .inr ⟨next, stepped, tail, later, rfl, arrived⟩
  · rintro (rfl | ⟨next, stepped, first, later, rfl, arrived⟩)
    · exact ⟨[], action :: rest, rfl, rfl⟩
    · exact ⟨action :: first, later, rfl, by simp [run, stepped, arrived]⟩

theorem takes_nil : ¬ system.Takes initial [] state action := by
  rintro ⟨first, later, split, _⟩
  simp at split

theorem takes_cons {head : Action} : system.Takes initial (head :: rest) state action ↔
    (state = initial ∧ action = head) ∨
      ∃ next, system.step initial head = some next ∧
        system.Takes next rest state action := by
  constructor
  · rintro ⟨first, later, split, reached⟩
    cases first with
    | nil =>
      cases split
      exact .inl ⟨(Option.some.inj reached).symm, rfl⟩
    | cons other tail =>
      cases split
      rcases Option.bind_eq_some_iff.mp reached with ⟨next, stepped, arrived⟩
      exact .inr ⟨next, stepped, tail, later, rfl, arrived⟩
  · rintro (⟨rfl, rfl⟩ | ⟨next, stepped, first, later, rfl, arrived⟩)
    · exact ⟨[], rest, rfl, rfl⟩
    · exact ⟨head :: first, later, rfl, by simp [run, stepped, arrived]⟩

theorem takes_forall {actions : List Action} (property : State → Action → Prop)
    (during : ∀ time, time < actions.length → ∀ taken ∈ actions[time]?,
      ∀ state ∈ system.run initial (actions.take time), property state taken)
    (state : State) (action : Action) (takes : system.Takes initial actions state action) :
    property state action := by
  rcases takes with ⟨first, later, rfl, reached⟩
  exact during first.length (by simp) action (by simp) state (by simpa using reached)

section Rules

variable (allowed : State → Action → Prop) (invariant : State → Prop)
  {property : State → Prop}

/-- What every allowed step keeps holds in every state of a run that only takes
allowed steps. -/
theorem visits_invariant (keeps : ∀ state action next, invariant state → allowed state action →
      system.step state action = some next → invariant next)
    {initial state : State} {actions : List Action} (holds : invariant initial)
    (onlyAllowed : ∀ state action, system.Takes initial actions state action →
      allowed state action)
    (visits : system.Visits initial actions state) : invariant state := by
  induction actions generalizing initial with
  | nil =>
    cases visits_nil.mp visits
    exact holds
  | cons action rest induction =>
    rcases visits_cons.mp visits with rfl | ⟨next, stepped, later⟩
    · exact holds
    · have first := onlyAllowed initial action (takes_cons.mpr (.inl ⟨rfl, rfl⟩))
      refine induction (keeps initial action next holds first stepped) ?_ later
      intro state action takes
      exact onlyAllowed state action (takes_cons.mpr (.inr ⟨next, stepped, takes⟩))

/-- The exact form: where a step that is not allowed breaks the property, the
property holds along a run if and only if all its steps are allowed. -/
theorem visits_iff_takes (keeps : ∀ state action next, invariant state → allowed state action →
      system.step state action = some next → invariant next)
    (implies : ∀ state, invariant state → property state)
    (breaks : ∀ state action next, invariant state → ¬ allowed state action →
      system.step state action = some next → ¬ property next)
    {initial final : State} {actions : List Action} (holds : invariant initial)
    (ran : system.run initial actions = some final) :
    (∀ state, system.Visits initial actions state → property state) ↔
      ∀ state action, system.Takes initial actions state action →
        allowed state action := by
  constructor
  · intro always
    induction actions generalizing initial with
    | nil => exact fun _ _ takes => (takes_nil takes).elim
    | cons head rest induction =>
      rcases Option.bind_eq_some_iff.mp ran with ⟨next, stepped, later⟩
      have arrived : system.Visits next rest next := ⟨[], rest, rfl, rfl⟩
      have nextHolds := always next (visits_cons.mpr (.inr ⟨next, stepped, arrived⟩))
      have first : allowed initial head := by
        by_contra notAllowed
        exact breaks initial head next holds notAllowed stepped nextHolds
      intro state action takes
      rcases takes_cons.mp takes with ⟨rfl, rfl⟩ | ⟨other, otherStep, takesLater⟩
      · exact first
      · cases stepped.symm.trans otherStep
        refine induction (keeps _ _ _ holds first stepped) later ?_ state action takesLater
        intro state visits
        exact always state (visits_cons.mpr (.inr ⟨next, stepped, visits⟩))
  · intro onlyAllowed state visits
    exact implies state (visits_invariant allowed invariant keeps holds onlyAllowed visits)

end Rules

/-! ## Infinite executions -/

/-- An infinite sequence of states. At each time one action is taken, or nothing
happens. -/
structure Execution (system : System State Action) (initial : State) where
  state : Nat → State
  action : Nat → Option Action
  starts : state 0 = initial
  idles : ∀ time, action time = none → state (time + 1) = state time
  steps : ∀ time taken, action time = some taken →
    system.step (state time) taken = some (state (time + 1))

namespace Execution

variable (execution : Execution system initial)

theorem invariant (allowed : State → Action → Prop) {invariant : State → Prop}
    (keeps : ∀ state action next, invariant state → allowed state action →
      system.step state action = some next → invariant next)
    (holds : invariant initial) (onlyAllowed : ∀ time taken, execution.action time = some taken →
      allowed (execution.state time) taken) (time : Nat) :
    invariant (execution.state time) := by
  induction time with
  | zero =>
    rw [execution.starts]
    exact holds
  | succ time induction =>
    cases taken : execution.action time with
    | none =>
      rw [execution.idles time taken]
      exact induction
    | some action =>
      exact keeps _ _ _ induction (onlyAllowed time action taken)
        (execution.steps time action taken)

/-- Where every step of some kind lowers a measure that nothing raises, steps of
that kind come to an end. -/
theorem eventually_none {effective : Action → Prop} (measure : State → Nat)
    (lowers : ∀ time taken, execution.action time = some taken → effective taken →
      measure (execution.state (time + 1)) < measure (execution.state time))
    (keeps : ∀ time, (∀ taken, execution.action time = some taken → ¬ effective taken) →
      measure (execution.state (time + 1)) ≤ measure (execution.state time)) :
    ∃ quiet, ∀ time, quiet ≤ time → ∀ taken, execution.action time = some taken →
      ¬ effective taken := by
  have antitone : ∀ time, measure (execution.state (time + 1)) ≤
      measure (execution.state time) := by
    intro time
    by_cases lowered : ∃ taken, execution.action time = some taken ∧ effective taken
    · rcases lowered with ⟨taken, isTaken, isEffective⟩
      exact Nat.le_of_lt (lowers time taken isTaken isEffective)
    · exact keeps time fun taken isTaken isEffective => lowered ⟨taken, isTaken, isEffective⟩
  have bounded : ∀ start elapsed, measure (execution.state (start + elapsed)) ≤
      measure (execution.state start) := by
    intro start elapsed
    induction elapsed with
    | zero => exact Nat.le_refl _
    | succ elapsed induction => exact Nat.le_trans (antitone _) induction
  -- Strong induction on the measure: if an effective step follows, restart after it.
  have fromMeasure : ∀ value start, measure (execution.state start) = value →
      ∃ quiet, ∀ time, quiet ≤ time → ∀ taken, execution.action time = some taken →
        ¬ effective taken := by
    intro value
    induction value using Nat.strongRecOn with
    | ind value induction =>
      intro start atStart
      by_cases later : ∃ time taken, start ≤ time ∧ execution.action time = some taken ∧
          effective taken
      · rcases later with ⟨time, taken, after, isTaken, isEffective⟩
        have lowered := lowers time taken isTaken isEffective
        have stillBelow := bounded start (time - start)
        rw [Nat.add_sub_cancel' after, atStart] at stillBelow
        exact induction _ (Nat.lt_of_lt_of_le lowered stillBelow) (time + 1) rfl
      · exact ⟨start, fun time after taken isTaken isEffective =>
          later ⟨time, taken, after, isTaken, isEffective⟩⟩
  exact fromMeasure _ 0 rfl

def ofRun (actions : List Action) {final : State}
    (ran : system.run initial actions = some final) : Execution system initial where
  state time := (system.run initial (actions.take time)).getD initial
  action time := actions[time]?
  starts := rfl
  idles time isOver := by
    have ended : actions.length ≤ time := List.getElem?_eq_none_iff.mp isOver
    rw [List.take_of_length_le ended, List.take_of_length_le (Nat.le_succ_of_le ended)]
  steps time taken isTaken := by
    have split : actions = actions.take time ++ taken :: actions.drop (time + 1) := by
      rcases List.getElem?_eq_some_iff.mp isTaken with ⟨within, rfl⟩
      rw [List.getElem_cons_drop, List.take_append_drop]
    rw [split, run_append] at ran
    rcases Option.bind_eq_some_iff.mp ran with ⟨state, before, later⟩
    rcases Option.bind_eq_some_iff.mp later with ⟨next, stepped, _⟩
    have after : system.run initial (actions.take (time + 1)) = some next := by
      rw [List.take_add_one, isTaken, run_append, before]
      simp [run, stepped]
    rw [before, after]
    exact stepped

variable {actions : List Action} {final : State}

theorem ofRun_state_of_le (ran : system.run initial actions = some final) {time : Nat}
    (ended : actions.length ≤ time) : (ofRun actions ran).state time = final := by
  change (system.run initial (actions.take time)).getD initial = final
  rw [List.take_of_length_le ended, ran]
  rfl

/-- What holds at each point of the run holds at all times. -/
theorem ofRun_forall (ran : system.run initial actions = some final) (property : State → Prop)
    (during : ∀ time, time ≤ actions.length →
      property ((system.run initial (actions.take time)).getD initial)) (time : Nat) :
    property ((ofRun actions ran).state time) := by
  by_cases within : time ≤ actions.length
  · exact during time within
  · have last := during actions.length (Nat.le_refl _)
    rw [ofRun_state_of_le ran (Nat.le_of_not_le within)]
    simpa [ran] using last

theorem ofRun_action_mem {ran : system.run initial actions = some final} {time : Nat}
    {taken : Action} (isTaken : (ofRun actions ran).action time = some taken) : taken ∈ actions :=
  List.mem_of_getElem? isTaken

theorem ofRun_forall_actions (ran : system.run initial actions = some final)
    (property : State → Action → Prop)
    (during : ∀ time, time < actions.length → ∀ taken ∈ actions[time]?,
      property ((system.run initial (actions.take time)).getD initial) taken) (time : Nat)
    (taken : Action) (isTaken : (ofRun actions ran).action time = some taken) :
    property ((ofRun actions ran).state time) taken := by
  rcases List.getElem?_eq_some_iff.mp isTaken with ⟨within, _⟩
  exact during time within taken isTaken

end Execution

end System

end Philo
