/-
The numbers of `config.ts` that the payment pipeline and the webhook deliveries read, and the stream of ids `ulid()` draws
from.
-/
import Mathlib.Logic.Function.Basic
import Mathlib.Data.List.Basic

namespace PaymentsProcessor

/-- `config`: retries and backoff, bank timeout, circuit breaker, reaper deadline. -/
structure Config where
  maxRetries : Nat := 5
  baseBackoffMs : Nat := 1000
  capBackoffMs : Nat := 30000
  bankTimeoutMs : Nat := 2000
  breakerThreshold : Nat := 5
  breakerOpenMs : Nat := 10000
  reaperDeadlineMs : Nat := 60000
  breakerThreshold_pos : 1 ≤ breakerThreshold := by decide

/-- `config.webhooks`: attempts and reaper deadline. -/
structure WebhookConfig where
  maxAttempts : Nat := 5
  reaperDeadlineMs : Nat := 60000
  maxAttempts_pos : 1 ≤ maxAttempts := by decide

instance : Inhabited Config := ⟨{}⟩

instance : Inhabited WebhookConfig := ⟨{}⟩

/-- The ids `ulid()` returns, in the order of its calls in the whole system: pairwise distinct and
free of the `:` that job ids are built with. -/
structure UlidSource where
  ulid : Nat → String
  injective : Function.Injective ulid
  plain : ∀ n, ':' ∉ (ulid n).toList

/-- Ids counted in zeros: `0`, `00`, `000`, …. -/
def UlidSource.zeros : UlidSource where
  ulid n := String.ofList (List.replicate (n + 1) '0')
  injective a b h := by
    have hlen := congrArg (fun s : String => s.toList.length) h
    simpa using hlen
  plain n := by simp

end PaymentsProcessor
