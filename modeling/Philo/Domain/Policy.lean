import Mathlib.Logic.Basic

/-! Capability declarations and the typed policies of a dialect. Fields that only the
encoders read follow with them. -/

namespace Philo

inductive CapabilityStatus where
  | supported
  | unsupported
  | unknown
  deriving DecidableEq, Repr

inductive ReasoningEffort where
  | none | minimal | low | medium | high | xHigh | max
  deriving DecidableEq, Repr

inductive ReasoningEffortSupport where
  | unsupported
  | unknown
  | supported (efforts : List ReasoningEffort)
  deriving DecidableEq, Repr

/-! ## History -/

inductive MissingToolResultPolicy where
  | reject
  deriving DecidableEq, Repr

inductive UnsupportedContentPolicy where
  | reject
  | dropWithDiagnostic
  deriving DecidableEq, Repr

inductive ThinkingReplayPolicy where
  | sameSourceOnly
  | dropAll
  deriving DecidableEq, Repr

structure HistoryPolicy where
  missingToolResult : MissingToolResultPolicy
  unsupportedContent : UnsupportedContentPolicy
  thinkingReplay : ThinkingReplayPolicy
  deriving DecidableEq, Repr

inductive ToolResultNamePolicy where
  | omit
  | include
  | require
  deriving DecidableEq, Repr

inductive ToolCallIdPolicy where
  | preserve
  | openAi
  deriving DecidableEq, Repr

/-! ## Streaming -/

inductive StreamUsagePolicy where
  | includeUsage
  | unsupported
  | anthropicSnapshots
  deriving DecidableEq, Repr

end Philo
