/-
The retry budget. The RETRY transaction compares the attempts with it, the reaper counts an attempt
without comparing. So a run keeps every payment within the budget exactly as long as no tick reaps a
PROCESSING payment whose budget is spent.
-/
import PaymentsProcessor.Ledger.Audit

namespace PaymentsProcessor

open PaymentStatus Transition Pipeline Account Trail

variable {β κ : Type} {port : BankPort β κ} {env : Env} {s s' : State β} {a : Action κ}

/-- A payment keeps to its retry budget: while it is not final its attempts are within it, it went to
PROCESSING at most once more, and once the budget was spent it left PROCESSING only for good. -/
structure WithinBudget (maxRetries : Nat) (events : List PaymentEvent) (p : Payment) : Prop where
  attempts : p.status ≠ COMPLETED → p.status ≠ FAILED → p.attemptCount ≤ maxRetries
  claims : events.countP (fun e => e.toStatus = PROCESSING) ≤ maxRetries + 1
  spent : ∀ {pre e post}, events = pre ++ e :: post → e.fromStatus = some PROCESSING →
    maxRetries ≤ pre.countP (fun e => e.toStatus = RETRYING) → e.toStatus = COMPLETED ∨ e.toStatus = FAILED

/-- Every payment keeps to its retry budget. -/
def BudgetKept (env : Env) (s : State β) : Prop := ∀ pid p, s.db.payments pid = some p →
  WithinBudget env.cfg.maxRetries (s.db.eventsOf pid) p

/-- No tick is about to reap a PROCESSING payment whose budget is spent. -/
def ReapsInBudget (env : Env) (s : State β) (a : Action κ) : Prop := ∀ pid p, Moved env s a pid .reap →
  s.db.payments pid = some p → p.attemptCount < env.cfg.maxRetries

/-- A payment keeps to its budget exactly if its account does. -/
theorem withinBudget_iff {budget : Nat} {db : Db} {pid : String} {p : Payment} {x : Account} (hwf : x.WF)
    (hx : db.account pid = some x) (hp : db.payments pid = some p) :
    WithinBudget budget (db.eventsOf pid) p ↔ x.Within budget := by
  have hmirror := hwf.mirrors hx hp
  obtain ⟨p', hp', hst, hv, hat, htrail, -⟩ := Db.account_eq_some hx
  cases hp.symm.trans hp'
  have hentries : ∀ t, entries (· == t) x.trail = (db.eventsOf pid).countP fun e => e.toStatus = t := by
    intro t
    rw [htrail, entries, List.countP_map]
    rfl
  constructor
  · intro h
    refine within_of_bounds hwf ?_ ?_
    · rw [hst, hat]; exact h.attempts
    · rw [hentries]; exact h.claims
  · intro hw
    obtain ⟨hclaims, hretries⟩ := hw.bounds hwf
    rw [hentries] at hclaims hretries
    refine ⟨fun _ hf => ?_, hclaims, fun {pre e post} hevents hfrom hspent => ?_⟩
    · have hnot : x.exhausted = false := by
        cases he : x.exhausted
        · rfl
        · exact absurd (hst.symm.trans (hwf.exhausted he)) hf
      rw [Within, hnot, hat] at hw
      exact hw
    · obtain ⟨src, hsrc, hedge⟩ := hmirror.enters hevents (by simp [hfrom])
      cases hfrom.symm.trans hsrc
      rw [hevents, List.countP_append, List.countP_cons] at hretries
      by_cases hc : e.toStatus = RETRYING
      · simp only [hc, decide_true, if_true] at hretries
        omega
      · cases ht : e.toStatus <;> rw [ht] at hedge hc <;> simp [transitionMap] at hedge hc ⊢

/-- A step that reaps no payment whose budget is spent keeps the budget, and conversely. -/
theorem budgetKept_step (hr : Reach (system port env) Free s) (hP : BudgetKept env s)
    (hs : Pipeline.step port env s a = some s') : BudgetKept env s' ↔ ReapsInBudget env s a := by
  have hI := ledgerInv hr
  have hI' := ledgerInv (.step hr trivial hs)
  have hstep := fun pid => (step_sound hs).account (lockInv hr) (pcInv hr) hI.owned pid
  constructor
  · intro hall pid p hm hp
    obtain ⟨x, hx, -, -, hat⟩ := account_of_payment hp
    have hstep := hstep pid
    rw [hx] at hstep
    generalize hy : s'.db.account pid = y at hstep
    cases hstep with
    | same hno => exact absurd hm (hno _)
    | moved hm' hmove =>
      cases hm.unique hm'
      obtain ⟨q, hq, -⟩ := Db.account_eq_some hy
      rw [← hat]
      exact hmove.reap_lt (hI.wf hx) ((withinBudget_iff (hI'.wf hy) hy hq).1 (hall pid q hq))
  · intro hC pid q hq
    obtain ⟨y, hy, -⟩ := account_of_payment hq
    rw [withinBudget_iff (hI'.wf hy) hy hq]
    have hstep := hstep pid
    rw [hy] at hstep
    generalize hx : s.db.account pid = x at hstep
    cases hstep with
    | same =>
      obtain ⟨p, hp, -⟩ := Db.account_eq_some hx
      exact (withinBudget_iff (hI.wf hx) hx hp).1 (hP pid p hp)
    | opened => exact opened_within _
    | moved hm hmove =>
      obtain ⟨p, hp, -, -, hat, -⟩ := Db.account_eq_some hx
      have hw := (withinBudget_iff (hI.wf hx) hx hp).1 (hP pid p hp)
      refine hw.moves (hI.wf hx) hmove fun hreap => ?_
      subst hreap
      rw [hat]
      exact hC pid p hm hp

/-- In every run, every payment keeps to its retry budget in every state if and only if no tick of the
run reaps a PROCESSING payment whose budget is spent. -/
theorem budgetKept_iff_reapsInBudget {l : List (State β × Action κ)} (h : Transition.Run (system port env) l s) :
    (∀ t ∈ states l s, BudgetKept env t) ↔ ∀ x ∈ l, ReapsInBudget env x.1 x.2 :=
  h.forall_iff (fun pid p hp => by cases hp) fun _ _ _ hr hP hs => budgetKept_step hr.free hP hs

/-- A run that reaps a payment once and then completes it. -/
theorem budgetKept_iff_reapsInBudget_reaped : ∃ l s,
    Transition.Run (system SimulatedBankAdapter.port standard) l s ∧
    (s.db.payments "0").any (fun p => p.status = COMPLETED ∧ p.attemptCount = 1) = true ∧
    ((∀ t ∈ states l s, BudgetKept standard t) ↔ ∀ x ∈ l, ReapsInBudget standard x.1 x.2) := by
  obtain ⟨l, s, hl, hp⟩ := exists_run_of_exec (show (exec (system SimulatedBankAdapter.port standard)
    (system SimulatedBankAdapter.port standard).init
      (accept order 0 "00" ++ claim 0 0 "00" ++ [.crash 0] ++ reap 0 60001 "0" ++
        claim 1 0 "0:reap:60001" ++ call 1 200 ++ settle 1)).any
      (fun s => (s.db.payments "0").any fun p => p.status = COMPLETED ∧ p.attemptCount = 1) = true by decide)
  exact ⟨l, s, hl, hp, budgetKept_iff_reapsInBudget hl⟩

/-- A payment whose worker crashes after every claim: the sixth reap takes it past a budget of five. -/
theorem poison_exceeds_budget : ∃ s, Reach (system SimulatedBankAdapter.port standard) Free s ∧
    ¬ BudgetKept standard s := by
  obtain ⟨s, hs, hp⟩ := exists_reach_of_exec (show (exec (system SimulatedBankAdapter.port standard)
    (system SimulatedBankAdapter.port standard).init
      (accept order 0 "00" ++ claim 0 0 "00" ++ [.crash 0] ++ reap 0 60001 "0" ++
        claim 1 0 "0:reap:60001" ++ [.crash 0] ++ reap 0 60001 "0" ++
        claim 2 0 "0:reap:120002" ++ [.crash 0] ++ reap 0 60001 "0" ++
        claim 3 0 "0:reap:180003" ++ [.crash 0] ++ reap 0 60001 "0" ++
        claim 4 0 "0:reap:240004" ++ [.crash 0] ++ reap 0 60001 "0" ++
        claim 5 0 "0:reap:300005" ++ [.crash 0] ++ reap 0 60001 "0")).any
      (fun s => (s.db.payments "0").any fun p => p.status = RETRYING ∧ p.attemptCount = 6) = true by decide)
  obtain ⟨p, hp, hst⟩ := (Option.any_eq_true _ _).1 hp
  obtain ⟨hst, hat⟩ := of_decide_eq_true hst
  refine ⟨s, hs, fun hall => ?_⟩
  have hle := (hall "0" p hp).attempts (by rw [hst]; decide) (by rw [hst]; decide)
  rw [hat] at hle
  exact absurd hle (by decide)

end PaymentsProcessor
