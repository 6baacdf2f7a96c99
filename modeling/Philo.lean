import Philo.Domain.Cost
import Philo.Domain.History.Reports
import Philo.Domain.History.TextBudget
import Philo.Domain.History.WellFormed
import Philo.Domain.Schema.Cycles
import Philo.Domain.Schema.Narrowing
import Philo.Domain.Schema.Strict
import Philo.Domain.Schema.Work
import Philo.Domain.UsageMerge
import Philo.Protocol.AnswerLimits
import Philo.Protocol.AnthropicMessages.Budget
import Philo.Protocol.AnthropicMessages.UsageFold
import Philo.Protocol.OpenAiChat.Accumulator
import Philo.Protocol.OpenAiChat.Order
import Philo.Protocol.RawExtension
import Philo.Protocol.ResponseStream
import Philo.Protocol.StructuredSize
import Philo.Provider.Auth.CacheReturns
import Philo.Provider.Endpoint.PathSafety
import Philo.Provider.Endpoint.QueryPlan
import Philo.Transport.Redirects
import Philo.Transport.SecureDns
import Philo.Transport.SseBounds
import Philo.Transport.SseReference
import Philo.Execution.BoundedAttempt
import Philo.Execution.HttpDate
import Philo.Client.LifecycleRuns
import Philo.Provider.Definition
