/-
The announcement of terminal transitions. Txn 2 writes the terminal outbox row with the status; the
branch of the RETRY transaction that fails a payment does not. So a run announces every terminal payment
exactly as long as it exhausts no payment's retries.
-/
import PaymentsProcessor.Ledger.Refinement

namespace PaymentsProcessor

open PaymentStatus Transition Pipeline Account

variable {β κ : Type} {port : BankPort β κ} {env : Env} {s s' : State β} {a : Action κ}

/-- Every payment in COMPLETED has one terminal outbox row, a `payment.completed`, every payment in
FAILED one, a `payment.failed`, every other payment none. -/
def Announced (s : State β) : Prop := ∀ pid p, s.db.payments pid = some p →
  (s.db.terminalOf pid).map (fun row => row.event.type) = announcement p.status

/-- No RETRY transaction is about to find its payment PROCESSING with its retries spent. -/
def KeepsRetrying (env : Env) (s : State β) (a : Action κ) : Prop := ∀ pid, ¬ Moved env s a pid .exhaust

/-- With agreeing books, everything is announced as long as no account is exhausted. -/
theorem announced_iff_not_exhausted (hI : LedgerInv s) :
    Announced s ↔ ∀ pid x, s.db.account pid = some x → x.exhausted = false := by
  constructor
  · intro hall pid x hx
    obtain ⟨p, hp, hst, -, -, -, -, hann⟩ := Db.account_eq_some hx
    have hbooks := (hI.wf hx).announced
    cases he : x.exhausted
    · rfl
    · have hfailed := (hI.wf hx).exhausted he
      rw [he, hann, hall pid p hp, ← hst, hfailed] at hbooks
      cases hbooks
  · intro hall pid p hp
    obtain ⟨x, hx, -⟩ := account_of_payment hp
    obtain ⟨p', hp', hst, -, -, -, -, hann⟩ := Db.account_eq_some hx
    cases hp.symm.trans hp'
    rw [← hann, (hI.wf hx).announced, hall pid x hx, ← hst]
    rfl

/-- A step that exhausts no account keeps everything announced, and conversely. -/
theorem announced_step (hr : Reach (system port env) Free s) (hP : Announced s)
    (hs : Pipeline.step port env s a = some s') : Announced s' ↔ KeepsRetrying env s a := by
  have hI := ledgerInv hr
  have hI' := ledgerInv (.step hr trivial hs)
  have hrule := step_sound hs
  rw [announced_iff_not_exhausted hI] at hP
  rw [announced_iff_not_exhausted hI']
  have hstep := fun pid => hrule.account (lockInv hr) (pcInv hr) hI.owned pid
  constructor
  · intro hall pid hm
    have hstep := hstep pid
    generalize hx : s.db.account pid = x, hy : s'.db.account pid = y at hstep
    cases hstep with
    | same hno => exact hno _ hm
    | opened hno => exact hno _ hm
    | moved hm' hmove =>
      cases hm.unique hm'
      have hfine := hall pid _ hy
      cases hmove
      cases hfine
  · intro hC pid y hy
    have hstep := hstep pid
    rw [hy] at hstep
    generalize hx : s.db.account pid = x at hstep
    cases hstep with
    | same => exact hP pid y hx
    | opened => rfl
    | moved hm hmove =>
      have hfine := hP pid _ hx
      cases hmove with
      | exhaust => exact absurd hm (hC pid)
      | claim | retry | settle | reap => exact hfine

/-- In every run, every terminal payment is announced exactly once in every state if and only if no
RETRY transaction of the run exhausts the retries of its payment. -/
theorem announced_iff_keepsRetrying {l : List (State β × Action κ)} (h : Transition.Run (system port env) l s) :
    (∀ t ∈ states l s, Announced t) ↔ ∀ x ∈ l, KeepsRetrying env x.1 x.2 :=
  h.forall_iff (fun pid p hp => by cases hp) fun _ _ _ hr hP hs => announced_step hr.free hP hs

/-- A run that completes a payment. -/
theorem announced_iff_keepsRetrying_completed : ∃ l s,
    Transition.Run (system SimulatedBankAdapter.port standard) l s ∧ (s.db.terminalOf "0").length = 1 ∧
    ((∀ t ∈ states l s, Announced t) ↔ ∀ x ∈ l, KeepsRetrying standard x.1 x.2) := by
  obtain ⟨l, s, hl, hp⟩ := exists_run_of_exec (show (exec (system SimulatedBankAdapter.port standard)
    (system SimulatedBankAdapter.port standard).init
      (accept order 0 "00" ++ claim 0 0 "00" ++ call 0 200 ++ settle 0)).any
      (fun s => (s.db.terminalOf "0").length = 1) = true by decide)
  exact ⟨l, s, hl, of_decide_eq_true hp, announced_iff_keepsRetrying hl⟩

/-- A payment whose bank errs six times, in the default configuration: FAILED, and nothing announces
it. -/
theorem exhausted_not_announced : ∃ s, Reach (system SimulatedBankAdapter.port standard) Free s ∧ ¬ Announced s := by
  obtain ⟨s, hs, hp⟩ := exists_reach_of_exec (show (exec (system SimulatedBankAdapter.port standard)
    (system SimulatedBankAdapter.port standard).init
      (accept order 0 "00" ++ [.setConfig { mode := some .alwaysError }] ++
        claim 0 0 "00" ++ call 0 200 ++ retry 0 1000 ++
        claim 1 0 "0:retry:1" ++ call 1 200 ++ retry 1 2000 ++
        claim 2 0 "0:retry:2" ++ call 2 200 ++ retry 2 4000 ++
        claim 3 0 "0:retry:3" ++ call 3 200 ++ retry 3 8000 ++
        claim 4 0 "0:retry:4" ++ call 4 200 ++ retry 4 16000 ++
        claim 5 0 "0:retry:5" ++ call 5 200 ++ [.settleBegin 5, .readClock 5, .retryUpdate 5])).any
      (fun s => (s.db.payments "0").any (fun p => p.status = FAILED) ∧ s.db.terminalOf "0" = []) = true by decide)
  obtain ⟨hst, hnone⟩ := of_decide_eq_true hp
  obtain ⟨p, hp, hst⟩ := (Option.any_eq_true _ _).1 hst
  refine ⟨s, hs, fun hall => ?_⟩
  have hann := hall "0" p hp
  rw [hnone, of_decide_eq_true hst] at hann
  cases hann

end PaymentsProcessor
