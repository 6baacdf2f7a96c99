import Philo.Foundation.Result

/-! Checks that can fail, and that change a state whether they fail or not. -/

namespace Philo

abbrev Checked (σ ε : Type) := σ → Except ε Unit × σ

namespace Checked

variable {σ ε α β : Type}

def pass : Checked σ ε := fun state => (.ok (), state)

def fail (error : ε) : Checked σ ε := fun state => (.error error, state)

def failIf (condition : Prop) [Decidable condition] (error : ε) : Checked σ ε :=
  if condition then fail error else pass

def lift (result : Except ε Unit) : Checked σ ε := fun state => (result, state)

def andThen (first second : Checked σ ε) : Checked σ ε := fun state =>
  match first state with
  | (.ok _, next) => second next
  | (.error error, next) => (.error error, next)

def ending (check : Checked σ ε) (change : σ → σ) : Checked σ ε := fun state =>
  ((check state).1, change (check state).2)

def each (check : α → Checked σ ε) : List α → Checked σ ε
  | [] => pass
  | item :: rest => (check item).andThen (each check rest)

/-- A loop that ends at the first success, or at an error that is fatal. -/
def firstOf (fatal : ε → Bool) (otherwise : ε) (check : α → Checked σ ε) :
    List α → Checked σ ε
  | [] => fail otherwise
  | item :: rest => fun state =>
    match check item state with
    | (.ok _, next) => (.ok (), next)
    | (.error error, next) =>
      if fatal error then (.error error, next) else firstOf fatal otherwise check rest next

/-! ## Logs -/

/-- What a check adds to a log in the state, and that it keeps an invariant. -/
def Logs (log : σ → List β) (Inv : σ → Prop) (Holds : List β → Prop) (check : Checked σ ε) :
    Prop :=
  ∀ state, Inv state → Inv (check state).2 ∧
    ∃ new, log (check state).2 = new ++ log state ∧ Holds new

section Logs

variable {log : σ → List β} {Inv : σ → Prop} {Holds : List β → Prop}
  {check first second : Checked σ ε} {items : List α} {checkItem : α → Checked σ ε}

theorem logs_pass (nothing : Holds []) : Logs log Inv Holds (pass : Checked σ ε) :=
  fun _ kept => ⟨kept, [], rfl, nothing⟩

theorem logs_lift (nothing : Holds []) (result : Except ε Unit) :
    Logs log Inv Holds (lift result : Checked σ ε) :=
  fun _ kept => ⟨kept, [], rfl, nothing⟩

theorem logs_failIf (nothing : Holds []) (condition : Prop) [Decidable condition] (error : ε) :
    Logs log Inv Holds (failIf condition error : Checked σ ε) := by
  unfold failIf
  split
  · exact logs_lift nothing (.error error)
  · exact logs_pass nothing

theorem Logs.imp {Weaker : List β → Prop} (weaker : ∀ new, Holds new → Weaker new)
    (logs : Logs log Inv Holds check) : Logs log Inv Weaker check := by
  intro state kept
  rcases logs state kept with ⟨still, new, isNew, holds⟩
  exact ⟨still, new, isNew, weaker new holds⟩

theorem Logs.andThen
    (append : ∀ earlier later, Holds earlier → Holds later → Holds (later ++ earlier))
    (firstLogs : Logs log Inv Holds first) (secondLogs : Logs log Inv Holds second) :
    Logs log Inv Holds (first.andThen second) := by
  intro state kept
  rcases firstLogs state kept with ⟨still, earlier, isEarlier, holdsEarlier⟩
  unfold Checked.andThen
  split
  · next next result =>
      rw [result] at isEarlier still
      rcases secondLogs next still with ⟨end', later, isLater, holdsLater⟩
      refine ⟨end', later ++ earlier, ?_, append earlier later holdsEarlier holdsLater⟩
      rw [isLater, isEarlier, List.append_assoc]
  · next result =>
      rw [result] at isEarlier still
      exact ⟨still, earlier, isEarlier, holdsEarlier⟩

theorem logs_each (nothing : Holds [])
    (append : ∀ earlier later, Holds earlier → Holds later → Holds (later ++ earlier))
    (itemLogs : ∀ item ∈ items, Logs log Inv Holds (checkItem item)) :
    Logs log Inv Holds (each checkItem items) := by
  induction items with
  | nil => exact logs_pass nothing
  | cons item rest induction =>
    rw [List.forall_mem_cons] at itemLogs
    exact itemLogs.1.andThen append (induction itemLogs.2)

theorem logs_firstOf {fatal : ε → Bool} {otherwise : ε} (nothing : Holds [])
    (append : ∀ earlier later, Holds earlier → Holds later → Holds (later ++ earlier))
    (itemLogs : ∀ item ∈ items, Logs log Inv Holds (checkItem item)) :
    Logs log Inv Holds (firstOf fatal otherwise checkItem items) := by
  induction items with
  | nil => exact logs_lift nothing (.error otherwise)
  | cons item rest induction =>
    rw [List.forall_mem_cons] at itemLogs
    intro state kept
    rcases itemLogs.1 state kept with ⟨still, earlier, isEarlier, holdsEarlier⟩
    unfold firstOf
    split
    · next result =>
        rw [result] at isEarlier still
        exact ⟨still, earlier, isEarlier, holdsEarlier⟩
    · next next result =>
        rw [result] at isEarlier still
        split
        · exact ⟨still, earlier, isEarlier, holdsEarlier⟩
        · rcases induction itemLogs.2 next still with ⟨end', later, isLater, holdsLater⟩
          refine ⟨end', later ++ earlier, ?_, append earlier later holdsEarlier holdsLater⟩
          rw [isLater, isEarlier, List.append_assoc]

end Logs

/-! ## Costs -/

/-- A check does no more work than its bound and what it takes in credit allow, and keeps an
invariant. -/
def Costs (work credit : σ → Nat) (Inv : σ → Prop) (bound : Nat) (check : Checked σ ε) : Prop :=
  ∀ state, Inv state → Inv (check state).2 ∧
    work (check state).2 + credit state ≤ work state + bound + credit (check state).2

section Costs

variable {work credit : σ → Nat} {Inv : σ → Prop} {bound first second : Nat}
  {check firstCheck secondCheck : Checked σ ε} {items : List α} {checkItem : α → Checked σ ε}
  {cost : α → Nat}

theorem costs_lift (result : Except ε Unit) : Costs work credit Inv 0 (lift result) :=
  fun _ kept => ⟨kept, Nat.le_refl _⟩

theorem costs_pass : Costs work credit Inv 0 (pass : Checked σ ε) := costs_lift (.ok ())

theorem costs_failIf (condition : Prop) [Decidable condition] (error : ε) :
    Costs work credit Inv 0 (failIf condition error) := by
  unfold failIf
  split
  · exact costs_lift (.error error)
  · exact costs_pass

theorem Costs.mono (costs : Costs work credit Inv first check) (le : first ≤ second) :
    Costs work credit Inv second check := by
  intro state kept
  have done := (costs state kept).2
  exact ⟨(costs state kept).1, by omega⟩

theorem Costs.andThen (firstCosts : Costs work credit Inv first firstCheck)
    (secondCosts : Costs work credit Inv second secondCheck) :
    Costs work credit Inv (first + second) (firstCheck.andThen secondCheck) := by
  intro state kept
  rcases firstCosts state kept with ⟨still, done⟩
  unfold Checked.andThen
  split
  · next next result =>
      rw [result] at still done
      rcases secondCosts next still with ⟨end', later⟩
      exact ⟨end', by dsimp only at done; omega⟩
  · next result =>
      rw [result] at still done
      exact ⟨still, by dsimp only at done ⊢; omega⟩

theorem costs_each
    (itemCosts : ∀ item ∈ items, Costs work credit Inv (cost item) (checkItem item)) :
    Costs work credit Inv (items.map cost).sum (each checkItem items) := by
  induction items with
  | nil => exact costs_pass
  | cons item rest induction =>
    rw [List.forall_mem_cons] at itemCosts
    exact itemCosts.1.andThen (induction itemCosts.2)

theorem costs_firstOf {fatal : ε → Bool} {otherwise : ε}
    (itemCosts : ∀ item ∈ items, Costs work credit Inv (cost item) (checkItem item)) :
    Costs work credit Inv (items.map cost).sum (firstOf fatal otherwise checkItem items) := by
  induction items with
  | nil => exact costs_lift (.error otherwise)
  | cons item rest induction =>
    rw [List.forall_mem_cons] at itemCosts
    intro state kept
    rcases itemCosts.1 state kept with ⟨still, done⟩
    rw [List.map_cons, List.sum_cons]
    unfold firstOf
    split
    · next result =>
        rw [result] at still done
        exact ⟨still, by dsimp only at done ⊢; omega⟩
    · next next result =>
        rw [result] at still done
        split
        · exact ⟨still, by dsimp only at done ⊢; omega⟩
        · rcases induction itemCosts.2 next still with ⟨end', later⟩
          exact ⟨end', by dsimp only at done; omega⟩

end Costs

/-! ## Checks that do the same -/

def SameOn (Inv : σ → Prop) (check other : Checked σ ε) : Prop :=
  ∀ state, Inv state → check state = other state ∧ Inv (check state).2

section SameOn

variable {Inv : σ → Prop} {first firstOther second secondOther : Checked σ ε} {items : List α}
  {checkItem otherItem : α → Checked σ ε}

theorem sameOn_lift (result : Except ε Unit) : SameOn Inv (lift result) (lift result) :=
  fun _ kept => ⟨rfl, kept⟩

theorem SameOn.andThen (firstSame : SameOn Inv first firstOther)
    (secondSame : SameOn Inv second secondOther) :
    SameOn Inv (first.andThen second) (firstOther.andThen secondOther) := by
  intro state kept
  rcases firstSame state kept with ⟨same, still⟩
  unfold Checked.andThen
  rw [← same]
  split
  · next next result =>
      rw [result] at still
      exact secondSame next still
  · next result =>
      rw [result] at still
      exact ⟨rfl, still⟩

theorem sameOn_each (itemSame : ∀ item ∈ items, SameOn Inv (checkItem item) (otherItem item)) :
    SameOn Inv (each checkItem items) (each otherItem items) := by
  induction items with
  | nil => exact sameOn_lift (.ok ())
  | cons item rest induction =>
    rw [List.forall_mem_cons] at itemSame
    exact itemSame.1.andThen (induction itemSame.2)

theorem sameOn_firstOf {fatal : ε → Bool} {otherwise : ε}
    (itemSame : ∀ item ∈ items, SameOn Inv (checkItem item) (otherItem item)) :
    SameOn Inv (firstOf fatal otherwise checkItem items)
      (firstOf fatal otherwise otherItem items) := by
  induction items with
  | nil => exact sameOn_lift (.error otherwise)
  | cons item rest induction =>
    rw [List.forall_mem_cons] at itemSame
    intro state kept
    rcases itemSame.1 state kept with ⟨same, still⟩
    unfold firstOf
    rw [← same]
    split
    · next result =>
        rw [result] at still
        exact ⟨rfl, still⟩
    · next next result =>
        rw [result] at still
        split
        · exact ⟨rfl, still⟩
        · exact induction itemSame.2 next still

end SameOn

end Checked

end Philo
