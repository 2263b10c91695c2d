/-
`BankPort` and its types. A port is given by its state, what one `authorize` call does to it once
its latency has passed, and how it is reconfigured; nothing else is assumed of it, so a port may
answer anything or reject.
-/
import Mathlib.Logic.Function.Basic

namespace PaymentsProcessor

structure BankAuthorizeRequest where
  paymentId : String
  amountCents : Nat
  currency : String
  idempotencyKey : String
  deriving DecidableEq

inductive BankOutcome
  | authorized (bankRef : String)
  | declined (reason : String)
  | error (retryable : Bool) (reason : String)
  deriving DecidableEq

/-- How a promise of `authorize` settles: a rejection with a `BankTimeoutError` of the port's own is caught
like one of `withTimeout`, any other is rethrown. -/
inductive BankReply
  | resolved (outcome : BankOutcome)
  | rejected (message : String)
  | timeoutError
  deriving DecidableEq

/-- An implementation of `BankPort` with states `β` and configurations `κ`. -/
structure BankPort (β κ : Type) where
  init : β
  latencyMs : β → Nat
  authorize : BankAuthorizeRequest → β → BankReply × β
  setConfig : κ → β → β

end PaymentsProcessor
