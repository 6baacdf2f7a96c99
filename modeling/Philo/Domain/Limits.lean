import Philo.Domain.Error
import Philo.Foundation.Result

/-! Resource ceilings of requests and responses. -/

namespace Philo

open Result

structure ResourceLimits where
  maxRequestBodyBytes : Nat
  maxMessages : Nat
  maxTotalTextBytes : Nat
  maxTools : Nat
  maxToolDescriptionBytes : Nat
  maxSchemaBytes : Nat
  maxSchemaDepth : Nat
  maxToolCalls : Nat
  maxToolArgumentsBytes : Nat
  maxAllToolArgumentsBytes : Nat
  maxJsonArrayItems : Nat
  maxImages : Nat
  maxInlineImageBytes : Nat
  maxImageUrlBytes : Nat
  maxStructuredOutputBytes : Nat
  deriving DecidableEq

namespace ResourceLimits

def official : ResourceLimits where
  maxRequestBodyBytes := 64 * 1024 * 1024
  maxMessages := 1024
  maxTotalTextBytes := 16 * 1024 * 1024
  maxTools := 128
  maxToolDescriptionBytes := 1024
  maxSchemaBytes := 256 * 1024
  maxSchemaDepth := 32
  maxToolCalls := 64
  maxToolArgumentsBytes := 1024 * 1024
  maxAllToolArgumentsBytes := 4 * 1024 * 1024
  maxJsonArrayItems := 65536
  maxImages := 128
  maxInlineImageBytes := 20 * 1024 * 1024
  maxImageUrlBytes := 8192
  maxStructuredOutputBytes := 16 * 1024 * 1024

end ResourceLimits

end Philo
