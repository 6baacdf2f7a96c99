import Mathlib.Data.List.Induction
import Philo.Foundation.Pipeline

/-! Properties of a list that say, of each element, how it follows what came before it,
and consumers that accept exactly the lists with such a property. -/

namespace Philo

open Result

variable {ω : Type _}

/-- `Follows` holds of every element and what came before it. -/
def Everywhere (Follows : List ω → ω → Prop) (outputs : List ω) : Prop :=
  ∀ before output after, outputs = before ++ output :: after → Follows before output

theorem everywhere_nil (Follows : List ω → ω → Prop) : Everywhere Follows [] := by
  intro before output after split
  simp at split

theorem Everywhere.of_append {Follows : List ω → ω → Prop} {first second : List ω}
    (everywhere : Everywhere Follows (first ++ second)) : Everywhere Follows first := by
  rintro before output after rfl
  exact everywhere before output (after ++ second) (by simp)

theorem everywhere_snoc {Follows : List ω → ω → Prop} {seen : List ω} {output : ω} :
    Everywhere Follows (seen ++ [output]) ↔ Everywhere Follows seen ∧ Follows seen output := by
  constructor
  · intro all
    exact ⟨all.of_append, all seen output [] rfl⟩
  · rintro ⟨earlier, last⟩ before found after split
    rcases List.eq_nil_or_concat after with rfl | ⟨rest, final, rfl⟩
    · rcases List.append_inj' split rfl with ⟨rfl, sameLast⟩
      cases sameLast
      exact last
    · have same : seen ++ [output] = (before ++ found :: rest) ++ [final] := by
        rw [split]
        simp
      exact earlier before found rest (List.append_inj' same rfl).1

/-- What holds of the empty list and is kept by each element that follows what came before
it holds of every list whose elements all do. -/
@[elab_as_elim]
theorem Everywhere.induction {Follows : List ω → ω → Prop} {Holds : List ω → Prop}
    {outputs : List ω} (everywhere : Everywhere Follows outputs) (none : Holds [])
    (next : ∀ seen output, Everywhere Follows seen → Follows seen output → Holds seen →
      Holds (seen ++ [output])) : Holds outputs := by
  induction outputs using List.reverseRecOn with
  | nil => exact none
  | append_singleton seen output induction =>
    rcases everywhere_snoc.mp everywhere with ⟨earlier, follows⟩
    exact next seen output earlier follows (induction earlier)

namespace Consumer

variable {κ μ ε : Type _} {consumer : Consumer κ ω μ ε}

/-- A state stands for what was accepted so far, and the consumer accepts an element in
it only when the element follows, and always as long as there are not too many. -/
structure Accepts (consumer : Consumer κ ω μ ε) (Describes : List ω → κ → Prop)
    (Follows : List ω → ω → Prop) (limit : Nat) : Prop where
  sound : ∀ {seen state output next}, Everywhere Follows seen → Describes seen state →
    consumer.accept state output = .ok next →
      Follows seen output ∧ Describes (seen ++ [output]) next
  complete : ∀ {seen state output}, seen.length < limit → Everywhere Follows seen →
    Describes seen state → Follows seen output → Succeeds (consumer.accept state output)

namespace Accepts

variable {Describes : List ω → κ → Prop} {Follows : List ω → ω → Prop} {limit : Nat}
  {seen outputs : List ω} {state final : κ}

theorem acceptAll_sound (accepts : consumer.Accepts Describes Follows limit)
    (everywhere : Everywhere Follows seen) (describes : Describes seen state)
    (accepted : consumer.acceptAll state outputs = .ok final) :
    Everywhere Follows (seen ++ outputs) ∧ Describes (seen ++ outputs) final := by
  induction outputs generalizing seen state with
  | nil =>
    cases accepted
    rw [List.append_nil]
    exact ⟨everywhere, describes⟩
  | cons output rest induction =>
    rw [acceptAll_cons, bind_eq_ok] at accepted
    rcases accepted with ⟨next, first, later⟩
    rcases accepts.sound everywhere describes first with ⟨follows, described⟩
    have whole := induction (everywhere_snoc.mpr ⟨everywhere, follows⟩) described later
    simpa using whole

theorem acceptAll_complete (accepts : consumer.Accepts Describes Follows limit)
    (short : seen.length + outputs.length ≤ limit) (describes : Describes seen state)
    (everywhere : Everywhere Follows (seen ++ outputs)) :
    Succeeds (consumer.acceptAll state outputs) := by
  induction outputs generalizing seen state with
  | nil => exact ⟨state, rfl⟩
  | cons output rest induction =>
    have room : seen.length < limit := by
      rw [List.length_cons] at short
      omega
    rcases accepts.complete room everywhere.of_append describes
      (everywhere seen output rest rfl) with ⟨next, first⟩
    have shorter : (seen ++ [output]).length + rest.length ≤ limit := by
      simp only [List.length_append, List.length_cons, List.length_nil] at short ⊢
      omega
    have described := (accepts.sound everywhere.of_append describes first).2
    rcases induction shorter described (by simpa using everywhere) with ⟨final, later⟩
    refine ⟨final, ?_⟩
    rw [acceptAll_cons, first, ok_bind, later]

end Accepts

end Consumer

end Philo
