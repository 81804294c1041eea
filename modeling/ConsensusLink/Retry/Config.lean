import ConsensusLink.Failure
import ConsensusLink.Retry.Policy
/-!
# How often remote calls are repeated

The part of the configuration that governs repeated remote calls. Only transient failures are
worth another attempt.
-/

namespace ConsensusLink

/-- How often and how fast remote calls are repeated. -/
structure RetryConfig where
  /-- How often a call is repeated. -/
  maxRetries : UInt16 := 4
  /-- The delay before the first repetition, in milliseconds. -/
  baseDelayMs : UInt64 := 100
  /-- The growth of the delay in percent; two hundred doubles it. -/
  multiplierPct : UInt64 := 200
  /-- The longest delay, in milliseconds. -/
  maxDelayMs : UInt64 := 5000
deriving DecidableEq, Inhabited, Repr

namespace RetryConfig

/-- The growth of the delays. -/
def backoff (c : RetryConfig) : Backoff :=
  ⟨c.baseDelayMs, c.multiplierPct, 100, c.maxDelayMs, by decide⟩

/-- The policy: transient failures are tried again. -/
def policy (c : RetryConfig) : Retry.Policy Failure :=
  ⟨c.maxRetries, c.backoff, Failure.isTransient⟩

end RetryConfig

end ConsensusLink
