/-
The life of one payment, apart from the processes that drive it: an account with its status, its
version, its attempts, the trail of its statuses and what was announced of it, and the five moves it
makes after it is opened. Every account keeps its books: the trail runs along the transition map, and
version, attempts and announcements can be read off it. The retry budget bounds the attempts as long as
no reap exceeds it.
-/
import PaymentsProcessor.Base.Trail
import PaymentsProcessor.Shared.Status

namespace PaymentsProcessor

open PaymentStatus Trail

/-- The account of a payment. -/
structure Account where
  status : PaymentStatus
  version : Nat
  attempts : Nat
  /-- from and to of its transitions -/
  trail : List (Option PaymentStatus × PaymentStatus)
  /-- its retries were exhausted -/
  exhausted : Bool
  /-- the types of its terminal events -/
  announced : List String
  deriving DecidableEq

namespace Account

/-- The account of a payment just submitted. -/
def opened : Account := ⟨PENDING, 0, 0, [(none, PENDING)], false, []⟩

/-- Go to a status: one entry in the trail, one version more. -/
def advance (x : Account) (t : PaymentStatus) : Account :=
  { x with status := t, version := x.version + 1, trail := x.trail ++ [(some x.status, t)] }

/-- The announcement a status calls for. -/
def announcement : PaymentStatus → List String
  | COMPLETED => ["payment.completed"]
  | FAILED => ["payment.failed"]
  | _ => []

/-! ## Moves -/

/-- What can happen to an account. -/
inductive Move
  | claim | retry | exhaust | settle (target : PaymentStatus) | reap
  deriving DecidableEq

/-- A move under a retry budget. A reap asks for no budget, an exhaustion announces nothing. -/
inductive Moves (budget : Nat) (x : Account) : Move → Account → Prop
  | claim (h : canTransition x.status PROCESSING = true) : Moves budget x .claim (x.advance PROCESSING)
  | retry (h : x.status = PROCESSING) (hleft : x.attempts + 1 ≤ budget) :
      Moves budget x .retry { x.advance RETRYING with attempts := x.attempts + 1 }
  | exhaust (h : x.status = PROCESSING) (hspent : x.attempts + 1 > budget) :
      Moves budget x .exhaust { x.advance FAILED with attempts := x.attempts + 1, exhausted := true }
  | settle {target : PaymentStatus} (h : x.status = PROCESSING) (htarget : target = COMPLETED ∨ target = FAILED) :
      Moves budget x (.settle target) { x.advance target with announced := x.announced ++ announcement target }
  | reap (h : x.status = PROCESSING) :
      Moves budget x .reap { x.advance RETRYING with attempts := x.attempts + 1 }

variable {budget : Nat} {x y : Account} {m : Move}

/-- Every move follows the transition map. -/
theorem Moves.canTransition (h : Moves budget x m y) : canTransition x.status y.status = true := by
  cases h with
  | claim h => exact h
  | retry h => rw [h]; rfl
  | exhaust h => rw [h]; rfl
  | settle h htarget => rw [h]; rcases htarget with rfl | rfl <;> rfl
  | reap h => rw [h]; rfl

/-- Every move adds its step to the trail and one to the version. -/
theorem Moves.advance (h : Moves budget x m y) :
    y.trail = x.trail ++ [(some x.status, y.status)] ∧ y.version = x.version + 1 := by
  cases h <;> exact ⟨rfl, rfl⟩

/-- Only a payment that was not yet final moves. -/
theorem Moves.not_terminal (h : Moves budget x m y) : x.status.terminal = false := by
  cases hx : x.status.terminal
  · rfl
  · have hno := not_canTransition_of_terminal (t := y.status) hx
    rw [h.canTransition] at hno
    cases hno

/-- Every move but a claim leaves PROCESSING. -/
theorem Moves.leaves_processing (h : Moves budget x m y) (hm : m ≠ .claim) :
    x.status = PROCESSING ∧ y.status ≠ PROCESSING := by
  cases h with
  | claim => exact absurd rfl hm
  | retry h | exhaust h | reap h => exact ⟨h, by rintro ⟨⟩⟩
  | settle h htarget => exact ⟨h, by rcases htarget with rfl | rfl <;> rintro ⟨⟩⟩

/-- Attempts are only counted up. -/
theorem Moves.attempts_le (h : Moves budget x m y) : x.attempts ≤ y.attempts := by
  cases h <;> simp [Account.advance]

theorem Moves.attempts_retry (h : Moves budget x .retry y) : y.attempts = x.attempts + 1 := by
  cases h
  rfl

/-- An account fails by an exhaustion or a failing settlement, from PROCESSING. -/
theorem Moves.fails (h : Moves budget x m y) (hy : y.status = FAILED) :
    x.status = PROCESSING ∧ (m = .exhaust ∨ m = .settle FAILED) := by
  cases h with
  | exhaust h => exact ⟨h, Or.inl rfl⟩
  | settle h htarget => exact ⟨h, Or.inr (congrArg Move.settle hy)⟩
  | claim | retry | reap => cases hy

/-! ## The books -/

/-- The edges of the transition map. -/
def Edge (s t : PaymentStatus) : Prop := canTransition s t = true

/-- The books of an account agree. -/
structure WF (x : Account) : Prop where
  trail : IsTrail Edge PENDING x.trail x.status
  version : x.trail.length = x.version + 1
  attempts : x.attempts = entries (· == RETRYING) x.trail + if x.exhausted then 1 else 0
  exhausted : x.exhausted = true → x.status = FAILED
  announced : x.announced = if x.exhausted then [] else announcement x.status

theorem opened_wf : WF opened := ⟨.start, rfl, rfl, by rintro ⟨⟩, rfl⟩

/-- An account that moves was not exhausted. -/
theorem WF.not_exhausted (hx : WF x) (h : Moves budget x m y) : x.exhausted = false := by
  cases he : x.exhausted
  · rfl
  · have hno := h.not_terminal
    rw [hx.exhausted he] at hno
    cases hno

theorem announcement_of_not_terminal {s : PaymentStatus} (h : s.terminal = false) : announcement s = [] := by
  cases s <;> first | rfl | cases h

/-- Every move keeps the books. -/
theorem WF.moves (hx : WF x) (h : Moves budget x m y) : WF y := by
  have he := hx.not_exhausted h
  have hann : x.announced = [] := by
    rw [hx.announced, he, announcement_of_not_terminal h.not_terminal]; rfl
  have hattempts : x.attempts = entries (· == RETRYING) x.trail := by
    rw [hx.attempts, he]; rfl
  refine ⟨?_, ?_, ?_, ?_, ?_⟩
  · rw [h.advance.1]; exact hx.trail.step h.canTransition
  · rw [h.advance.1, h.advance.2, List.length_append, hx.version]; rfl
  · rw [h.advance.1, entries_snoc, ← hattempts]
    cases h with
    | claim => simp [Account.advance, he]
    | settle h htarget => rcases htarget with rfl | rfl <;> simp [Account.advance, he]
    | retry | reap => simp [Account.advance, he]
    | exhaust => simp [Account.advance]
  · cases h with
    | exhaust => exact fun _ => rfl
    | claim | retry | settle | reap => exact fun hc => absurd (he.symm.trans hc) Bool.false_ne_true
  · cases h with
    | exhaust => exact hann
    | claim | retry | settle | reap => simp [Account.advance, he, hann, announcement]

/-! ## The budget -/

/-- The attempts are within the budget, the exhausting one apart. -/
def Within (budget : Nat) (x : Account) : Prop := x.attempts ≤ budget + if x.exhausted then 1 else 0

theorem opened_within (budget : Nat) : Within budget opened := Nat.zero_le _

/-- A move stays within the budget unless it is a reap with none left. -/
theorem Within.moves (hw : Within budget x) (hx : WF x) (h : Moves budget x m y)
    (hreap : m = .reap → x.attempts < budget) : Within budget y := by
  have he := hx.not_exhausted h
  unfold Within at hw ⊢
  cases h with
  | claim => exact hw
  | settle => exact hw
  | retry h hleft => exact Nat.le_trans hleft (Nat.le_add_right _ _)
  | exhaust =>
    rw [he] at hw
    exact Nat.succ_le_succ hw
  | reap h => exact Nat.le_trans (hreap rfl) (Nat.le_add_right _ _)

/-- A reap that stays within the budget found some of it left. -/
theorem Moves.reap_lt (hx : WF x) (h : Moves budget x .reap y) (hw : Within budget y) : x.attempts < budget := by
  have he := hx.not_exhausted h
  cases h
  unfold Within at hw
  simp only [Account.advance, he] at hw
  exact hw

/-- A payment is claimed once from PENDING and once for each retry, except that it waits for the next
claim in these two. -/
theorem WF.claims (hx : WF x) : entries (· == PROCESSING) x.trail +
    (if x.status = PENDING ∨ x.status = RETRYING then 1 else 0) = entries (· == RETRYING) x.trail + 1 := by
  have hcount := hx.trail.entries_eq (p := fun s => s == PENDING || s == RETRYING) (q := (· == PROCESSING))
    (fun s t hst => by cases t <;> cases s <;> first | decide | cases hst) (fun s => by cases s <;> decide) rfl
  have hfirst := hx.trail.entries_start (p := (· == PENDING)) rfl
    (fun s t hst => by cases t <;> first | rfl | (cases s <;> cases hst))
  rw [entries_or (by intro s; cases s <;> decide), hfirst] at hcount
  simp only [Bool.or_eq_true, beq_iff_eq] at hcount
  omega

/-- An account within its budget was claimed at most once more often than the budget, and retried at
most as often. -/
theorem Within.bounds (hw : Within budget x) (hx : WF x) :
    entries (· == PROCESSING) x.trail ≤ budget + 1 ∧ entries (· == RETRYING) x.trail ≤ budget := by
  have hclaims := hx.claims
  have hattempts := hx.attempts
  unfold Within at hw
  omega

/-- An account whose attempts are within the budget before it is final, and that was claimed at most once
more often, is within the budget. -/
theorem within_of_bounds (hx : WF x) (hopen : x.status ≠ COMPLETED → x.status ≠ FAILED → x.attempts ≤ budget)
    (hclaims : entries (· == PROCESSING) x.trail ≤ budget + 1) : Within budget x := by
  have hcount := hx.claims
  have hattempts := hx.attempts
  unfold Within
  by_cases hwait : x.status = PENDING ∨ x.status = RETRYING
  · have hle : x.attempts ≤ budget := by
      rcases hwait with h | h <;> exact hopen (by rw [h]; decide) (by rw [h]; decide)
    omega
  · rw [if_neg hwait] at hcount
    omega

end Account

end PaymentsProcessor
