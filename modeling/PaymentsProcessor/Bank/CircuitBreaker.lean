/-
`CircuitBreaker`: three states, a failure counter and the time it opened. `allow` asks before a
bank call, `record` reports after it.
-/
import PaymentsProcessor.Config

namespace PaymentsProcessor

/-- `CircuitState`. -/
inductive CircuitState
  | CLOSED | OPEN | HALF_OPEN
  deriving DecidableEq

structure CircuitBreaker where
  state : CircuitState := .CLOSED
  openedAt : Nat
  failures : Nat := 0
  deriving DecidableEq

namespace CircuitBreaker

/-- `allow` at time `now`: the answer and the breaker afterwards. -/
def allow (cfg : Config) (now : Nat) (b : CircuitBreaker) : Bool × CircuitBreaker :=
  match b.state with
  | .CLOSED => (true, b)
  | .OPEN => if b.openedAt + cfg.breakerOpenMs ≤ now then (true, { b with state := .HALF_OPEN }) else (false, b)
  | .HALF_OPEN => (false, b)

/-- `record` at time `now`. -/
def record (cfg : Config) (now : Nat) (success : Bool) (b : CircuitBreaker) : CircuitBreaker :=
  if success then { b with state := .CLOSED, failures := 0 }
  else
    let b := { b with failures := b.failures + 1 }
    if b.state = .HALF_OPEN then { b with state := .OPEN, openedAt := now }
    else if cfg.breakerThreshold ≤ b.failures then { b with state := .OPEN, openedAt := now }
    else b

/-! ## Laws -/

/-- `record` never leaves a breaker HALF-OPEN. -/
theorem record_state (cfg : Config) (now : Nat) (success : Bool) (b : CircuitBreaker) :
    (b.record cfg now success).state ≠ .HALF_OPEN := by
  unfold record
  cases success
  · simp only [Bool.false_eq_true, if_false]
    split
    · simp
    · rename_i hne
      split
      · simp
      · exact hne
  · simp

/-- `allow` makes a breaker HALF-OPEN only when it admits. -/
theorem allow_state {cfg : Config} {now : Nat} {b : CircuitBreaker}
    (h : (b.allow cfg now).2.state = .HALF_OPEN) : b.state = .HALF_OPEN ∨ (b.allow cfg now).1 = true := by
  unfold allow at h ⊢
  cases hb : b.state with
  | CLOSED => simp
  | HALF_OPEN => simp
  | OPEN =>
    simp only [hb] at h ⊢
    split at h
    · simp [*]
    · simp [hb] at h

end CircuitBreaker

end PaymentsProcessor
