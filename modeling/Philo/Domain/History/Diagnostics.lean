import Mathlib.Data.List.Sort
import Philo.Domain.Message
import Philo.Domain.Policy

/-! What normalization reports about a history, and the slice of policies it reads. -/

namespace Philo

open Std

inductive DiagnosticCode where
  | convertedDeveloperToSystem
  | droppedThinkingOpaque
  | sanitizedToolCallId
  | removedEmptyAssistant
  | synthesizedMissingToolResult
  | droppedUnsupportedImage
  | mergedAdjacentMessages
  deriving DecidableEq, Repr

instance : Ord DiagnosticCode := ⟨compareOn DiagnosticCode.ctorIdx⟩

instance : TransOrd DiagnosticCode := inferInstanceAs (TransCmp (compareOn DiagnosticCode.ctorIdx))

instance : LawfulEqOrd DiagnosticCode where
  eq_of_compare {first second} compared := by
    cases first <;> cases second <;> first | rfl | cases compared

structure IdMapping where
  original : ToolCallId
  normalized : ToolCallId
  deriving DecidableEq

structure NormalizationDiagnostic where
  code : DiagnosticCode
  count : UInt32
  deriving DecidableEq

structure NormalizedContext where
  messages : List Message
  idMappings : List IdMapping
  diagnostics : List NormalizationDiagnostic

structure DiagnosticCounter where
  counts : TreeMap DiagnosticCode UInt32

namespace DiagnosticCounter

def fresh : DiagnosticCounter := ⟨∅⟩

def increment (counter : DiagnosticCounter) (code : DiagnosticCode) : DiagnosticCounter :=
  ⟨counter.counts.insert code (counter.counts.getD code 0 + 1)⟩

def intoVec (counter : DiagnosticCounter) : List NormalizationDiagnostic :=
  counter.counts.toList.map fun (code, count) => ⟨code, count⟩

theorem intoVec_fresh : fresh.intoVec = [] := by rfl

def count (counter : DiagnosticCounter) (code : DiagnosticCode) : UInt32 :=
  counter.counts.getD code 0

@[simp] theorem count_fresh (code : DiagnosticCode) : fresh.count code = 0 := TreeMap.getD_emptyc

@[simp] theorem count_increment (counter : DiagnosticCounter) (code other : DiagnosticCode) :
    (counter.increment code).count other =
      counter.count other + UInt32.ofNat (if code = other then 1 else 0) := by
  by_cases same : code = other
  · subst same
    simp [count, increment]
  · have differ : compare code other ≠ .eq := fun compared =>
      same (LawfulEqOrd.eq_of_compare compared)
    simp [count, increment, TreeMap.getD_insert, differ, same]

end DiagnosticCounter

def NormalizedContext.count (context : NormalizedContext) (code : DiagnosticCode) : UInt32 :=
  ((context.diagnostics.find? fun diagnostic => diagnostic.code = code).map
    NormalizationDiagnostic.count).getD 0

theorem DiagnosticCounter.count_intoVec (counter : DiagnosticCounter) (messages : List Message)
    (idMappings : List IdMapping) (code : DiagnosticCode) :
    (NormalizedContext.mk messages idMappings counter.intoVec).count code =
      counter.count code := by
  have sameTest : (fun entry : DiagnosticCode × UInt32 => decide (entry.1 = code)) =
      fun entry => compare entry.1 code == .eq := by
    funext entry
    rw [Bool.eq_iff_iff, decide_eq_true_iff, beq_iff_eq]
    exact Std.compare_eq_iff_eq.symm
  have found : (counter.counts.toList.find? fun entry => compare entry.1 code == .eq).map
      Prod.snd = counter.counts[code]? := by
    refine Option.ext fun count => ?_
    rw [Option.map_eq_some_iff]
    constructor
    · rintro ⟨⟨key, _⟩, isFound, rfl⟩
      exact (TreeMap.find?_toList_eq_some_iff_getKey?_eq_some_and_getElem?_eq_some.mp isFound).2
    · intro isCount
      refine ⟨(code, count),
        TreeMap.find?_toList_eq_some_iff_getKey?_eq_some_and_getElem?_eq_some.mpr
          ⟨?_, isCount⟩, rfl⟩
      exact TreeMap.getKey?_eq_some (TreeMap.mem_iff_isSome_getElem?.mpr (by rw [isCount]; rfl))
  simp only [NormalizedContext.count, intoVec, List.find?_map, Option.map_map]
  rw [count, TreeMap.getD_eq_getD_getElem?, ← found, ← sameTest]
  rfl

structure HistoryCapabilities where
  developerRole : CapabilityStatus
  visionInput : CapabilityStatus
  deriving DecidableEq

structure DialectPolicy where
  toolCallId : ToolCallIdPolicy
  deriving DecidableEq

end Philo
