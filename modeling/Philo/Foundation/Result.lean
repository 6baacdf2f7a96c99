import Mathlib.Algebra.Order.Ring.Int
import Mathlib.Data.List.Forall2

/-! Fallible computations. Every modelled function that can fail returns an
`Except`; the lemmas below take a successful run of such a function apart into
the successful runs of its parts, so that later proofs never unfold the monad. -/

namespace Philo.Result

variable {ε α β : Type _}

def reject (condition : Prop) [Decidable condition] (error : ε) : Except ε Unit :=
  if condition then .error error else .ok ()

def okOr (value : Option α) (error : ε) : Except ε α :=
  match value with
  | some found => .ok found
  | none => .error error

def mapError {ε' : Type _} (convert : ε → ε') : Except ε α → Except ε' α
  | .ok value => .ok value
  | .error error => .error (convert error)

@[simp] theorem bind_eq_ok {result : Except ε α} {next : α → Except ε β} {value : β} :
    (result >>= next) = .ok value ↔
      ∃ first, result = .ok first ∧ next first = .ok value := by
  cases result <;> simp [bind, Except.bind]

@[simp] theorem pure_eq_ok {first value : α} :
    (pure first : Except ε α) = .ok value ↔ first = value := by
  simp [pure, Except.pure]

@[simp] theorem reject_eq_ok {condition : Prop} [Decidable condition] {error : ε}
    {value : Unit} : reject condition error = .ok value ↔ ¬ condition := by
  by_cases holds : condition <;> simp [reject, holds]

@[simp] theorem okOr_eq_ok {option : Option α} {error : ε} {value : α} :
    okOr option error = .ok value ↔ option = some value := by
  cases option <;> simp [okOr]

@[simp] theorem mapError_eq_ok {ε' : Type _} {convert : ε → ε'} {result : Except ε α}
    {value : α} : mapError convert result = .ok value ↔ result = .ok value := by
  cases result <;> simp [mapError]

theorem bind_eq_error {result : Except ε α} {next : α → Except ε β} {error : ε} :
    result >>= next = .error error ↔
      result = .error error ∨ ∃ value, result = .ok value ∧ next value = .error error := by
  cases result <;> simp [bind, Except.bind]

theorem okOr_eq_error {option : Option α} {error raised : ε} :
    okOr option error = .error raised ↔ option = none ∧ error = raised := by
  cases option <;> simp [okOr]

@[simp] theorem ok_bind (first : α) (next : α → Except ε β) :
    ((.ok first : Except ε α) >>= next) = next first := rfl

@[simp] theorem error_bind (error : ε) (next : α → Except ε β) :
    ((.error error : Except ε α) >>= next) = .error error := rfl

theorem exists_unit {Holds : Unit → Prop} : (∃ only, Holds only) ↔ Holds () :=
  ⟨fun ⟨_, holds⟩ => holds, fun holds => ⟨(), holds⟩⟩

@[simp] theorem forM_eq_ok {items : List α} {check : α → Except ε Unit} {value : Unit} :
    items.forM check = .ok value ↔ ∀ item ∈ items, check item = .ok () := by
  induction items with
  | nil => exact iff_of_true rfl fun _ member => nomatch member
  | cons item rest induction =>
    rw [show (item :: rest).forM check = (check item >>= fun _ => rest.forM check) from rfl,
      bind_eq_ok, List.forall_mem_cons, induction, exists_unit]

def Succeeds (result : Except ε α) : Prop := ∃ value, result = .ok value

@[simp] theorem succeeds_ok (value : α) : Succeeds (.ok value : Except ε α) := ⟨value, rfl⟩

/-! ## Kinds of errors -/

section FailsWith

variable {Kind Other : ε → Prop} {result : Except ε α}

/-- Every error that the result can carry is of a kind. -/
def FailsWith (Kind : ε → Prop) (result : Except ε α) : Prop :=
  ∀ error, result = .error error → Kind error

theorem failsWith_ok (value : α) : FailsWith Kind (.ok value) := nofun

theorem failsWith_error {error : ε} (kind : Kind error) :
    FailsWith Kind (.error error : Except ε α) := by
  rintro _ ⟨⟩
  exact kind

theorem failsWith_reject {condition : Prop} [Decidable condition] {error : ε}
    (kind : Kind error) : FailsWith Kind (reject condition error) := by
  unfold reject
  split
  · exact failsWith_error kind
  · exact failsWith_ok ()

theorem failsWith_okOr {option : Option α} {error : ε} (kind : Kind error) :
    FailsWith Kind (okOr option error) := by
  cases option with
  | none => exact failsWith_error kind
  | some value => exact failsWith_ok value

theorem FailsWith.bind {next : α → Except ε β} (first : FailsWith Kind result)
    (second : ∀ value, FailsWith Kind (next value)) : FailsWith Kind (result >>= next) := by
  intro error isError
  rcases bind_eq_error.mp isError with isFirst | ⟨value, _, isSecond⟩
  · exact first error isFirst
  · exact second value error isSecond

theorem FailsWith.imp (fails : FailsWith Kind result)
    (implies : ∀ error, Kind error → Other error) : FailsWith Other result :=
  fun error isError => implies error (fails error isError)

theorem failsWith_mapError {ε' : Type _} {convert : ε' → ε} {inner : Except ε' α}
    (kind : ∀ error, Kind (convert error)) : FailsWith Kind (mapError convert inner) := by
  cases inner with
  | ok value => exact failsWith_ok value
  | error error => exact failsWith_error (kind error)

end FailsWith

theorem mapM_eq_ok {items : List α} {convert : α → Except ε β} {results : List β} :
    items.mapM convert = .ok results ↔
      List.Forall₂ (fun item result => convert item = .ok result) items results := by
  induction items generalizing results with
  | nil => rw [List.mapM_nil, pure_eq_ok, List.forall₂_nil_left_iff, eq_comm]
  | cons item rest induction =>
    rw [List.mapM_cons, bind_eq_ok]
    simp only [bind_eq_ok, pure_eq_ok, induction]
    constructor
    · rintro ⟨first, isFirst, others, areOthers, rfl⟩
      exact .cons isFirst areOthers
    · intro converted
      cases converted with
      | cons isFirst areOthers => exact ⟨_, isFirst, _, areOthers, rfl⟩

theorem ok_of_isOk {ε : Type} {result : Except ε Unit} (isOk : result.isOk = true) :
    result = .ok () := by
  cases result with
  | error => cases isOk
  | ok => rfl

theorem exists_ok_of_map {result : Except ε α} {summary : α → β} {known : β}
    (summarized : (result.map summary).toOption = some known) :
    ∃ value, result = .ok value ∧ summary value = known := by
  cases result with
  | error => cases summarized
  | ok value => exact ⟨value, rfl, Option.some.inj summarized⟩

end Philo.Result
