import Mathlib.Logic.Relation

/-! Graphs whose nodes list their successors in an order, and the path to a node that a
depth-first search finds: at each node it takes the first edge that leads there. -/

namespace Philo

namespace Paths

open Relation

variable {α : Type}

abbrev Reaches (edges : α → List α) : α → α → Prop :=
  ReflTransGen fun source target => target ∈ edges source

def ReachedFrom (edges : α → List α) (starts : List α) (target : α) : Prop :=
  ∃ start ∈ starts, Reaches edges start target

def OnCycle (edges : α → List α) (node : α) : Prop := ReachedFrom edges (edges node) node

inductive Path (edges : α → List α) (target : α) : α → Nat → Prop
  | here : Path edges target target 0
  | step {node next : α} {count : Nat} (edge : next ∈ edges node)
      (rest : Path edges target next count) : Path edges target node (count + 1)

/-- The path that starts at the first of several nodes that leads to the target, and takes
the first edge that leads there until it is there, with its number of edges. -/
inductive FirstFrom (edges : α → List α) (target : α) : List α → Nat → Prop
  | here (rest : List α) : FirstFrom edges target (target :: rest) 0
  | into {start : α} {rest : List α} {count : Nat} (notThere : start ≠ target)
      (found : FirstFrom edges target (edges start) count) :
      FirstFrom edges target (start :: rest) (count + 1)
  | skip {start : α} {rest : List α} {count : Nat} (apart : ¬ Reaches edges start target)
      (found : FirstFrom edges target rest count) : FirstFrom edges target (start :: rest) count

section

variable {edges : α → List α} {node target start : α} {starts : List α} {count : Nat}

theorem reachedFrom_cons : ReachedFrom edges (start :: starts) target ↔
      Reaches edges start target ∨ ReachedFrom edges starts target := by
  simp [ReachedFrom]

theorem reachedFrom_singleton :
    ReachedFrom edges [start] target ↔ Reaches edges start target := by
  simp [ReachedFrom]

theorem reaches_iff :
    Reaches edges node target ↔ node = target ∨ ReachedFrom edges (edges node) target := by
  constructor
  · intro reaches
    rcases reaches.cases_head with same | ⟨next, edge, rest⟩
    · exact .inl same
    · exact .inr ⟨next, edge, rest⟩
  · rintro (rfl | ⟨next, edge, rest⟩)
    · exact .refl
    · exact .head edge rest

theorem FirstFrom.reached (found : FirstFrom edges target starts count) :
    ReachedFrom edges starts target := by
  induction found with
  | here => exact reachedFrom_cons.mpr (.inl .refl)
  | into _ _ induction => exact reachedFrom_cons.mpr (.inl (reaches_iff.mpr (.inr induction)))
  | skip _ _ induction => exact reachedFrom_cons.mpr (.inr induction)

theorem firstFrom_of_reaches (reaches : Reaches edges start target) :
    FirstFrom edges target (start :: starts) count ↔ FirstFrom edges target [start] count := by
  constructor
  all_goals
    intro found
    cases found with
    | here => exact .here _
    | into notThere found => exact .into notThere found
    | skip apart => exact absurd reaches apart

theorem firstFrom_of_not_reaches (apart : ¬ Reaches edges start target) :
    FirstFrom edges target (start :: starts) count ↔ FirstFrom edges target starts count := by
  refine ⟨fun found => ?_, .skip apart⟩
  cases found with
  | here => exact absurd .refl apart
  | into _ found => exact absurd (reaches_iff.mpr (.inr found.reached)) apart
  | skip _ found => exact found

theorem firstFrom_into (notThere : start ≠ target) : FirstFrom edges target [start] count ↔
      ∃ less, count = less + 1 ∧ FirstFrom edges target (edges start) less := by
  constructor
  · intro found
    cases found with
    | here => exact absurd rfl notThere
    | into _ found => exact ⟨_, rfl, found⟩
    | skip _ found => cases found
  · rintro ⟨less, rfl, found⟩
    exact .into notThere found

theorem path_of_reaches (reaches : Reaches edges node target) :
    ∃ count, Path edges target node count := by
  induction reaches using ReflTransGen.head_induction_on with
  | refl => exact ⟨0, .here⟩
  | head edge _ induction =>
    rcases induction with ⟨count, path⟩
    exact ⟨count + 1, .step edge path⟩

theorem exists_firstFrom {most : Nat} (reached : ReachedFrom edges starts target)
    (short : ∀ start ∈ starts, ∀ count, Path edges target start count → count ≤ most) :
    ∃ count ≤ most, FirstFrom edges target starts count := by
  induction most using Nat.strongRecOn generalizing starts with
  | ind most deeper =>
  induction starts with
  | nil =>
    rcases reached with ⟨_, member, _⟩
    cases member
  | cons start rest induction =>
    rw [List.forall_mem_cons] at short
    by_cases reaches : Reaches edges start target
    · by_cases there : start = target
      · subst there
        exact ⟨0, Nat.zero_le _, .here rest⟩
      · have later := (reaches_iff.mp reaches).resolve_left there
        rcases later with ⟨next, edge, nextReaches⟩
        rcases path_of_reaches nextReaches with ⟨length, path⟩
        have room := short.1 _ (.step edge path)
        rcases deeper (most - 1) (by omega) ⟨next, edge, nextReaches⟩ fun next edge count path =>
            Nat.le_sub_one_of_lt (short.1 _ (.step edge path)) with ⟨count, atMost, found⟩
        exact ⟨count + 1, by omega, .into there found⟩
    · rcases induction ((reachedFrom_cons.mp reached).resolve_left reaches) short.2 with
        ⟨count, atMost, found⟩
      exact ⟨count, atMost, .skip reaches found⟩

end

end Paths

end Philo
