/-
The payment lifecycle of `packages/shared`: the five statuses, the transition map and the check
`canTransition` that the worker makes before it moves a payment.
-/
import Mathlib.Data.List.Basic

namespace PaymentsProcessor

/-- `PAYMENT_STATUS`. -/
inductive PaymentStatus
  | PENDING | PROCESSING | COMPLETED | FAILED | RETRYING
  deriving DecidableEq, Repr

namespace PaymentStatus

/-- `transitionMap`: the statuses a payment may move to from each status. -/
def transitionMap : PaymentStatus → List PaymentStatus
  | PENDING => [PROCESSING]
  | PROCESSING => [COMPLETED, FAILED, RETRYING]
  | RETRYING => [PROCESSING]
  | COMPLETED => []
  | FAILED => []

/-- The statuses no payment leaves. -/
def terminal (s : PaymentStatus) : Bool := s.transitionMap.isEmpty

end PaymentStatus

open PaymentStatus

/-- `canTransition`. -/
def canTransition (src dst : PaymentStatus) : Bool := src.transitionMap.contains dst

theorem terminal_iff (s : PaymentStatus) : s.terminal = true ↔ s = COMPLETED ∨ s = FAILED := by
  cases s <;> decide

/-- No transition leaves a terminal status. -/
theorem not_canTransition_of_terminal {s t : PaymentStatus} (h : s.terminal = true) :
    canTransition s t = false := by
  rcases (terminal_iff s).1 h with rfl | rfl <;> rfl

/-- A payment can be claimed exactly from PENDING and RETRYING. -/
theorem canTransition_processing (s : PaymentStatus) :
    canTransition s PROCESSING = true ↔ s = PENDING ∨ s = RETRYING := by
  cases s <;> decide

/-- No payment returns to PENDING. -/
theorem not_canTransition_pending (s : PaymentStatus) : canTransition s PENDING = false := by
  cases s <;> rfl

/-- No transition keeps the status. -/
theorem not_canTransition_self (s : PaymentStatus) : canTransition s s = false := by
  cases s <;> rfl

end PaymentsProcessor
