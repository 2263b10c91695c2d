/-
Failure against the bank, over the simulated bank. A payment can be failed while a call of it is still
out, or after an authorisation whose run never committed, and a late job of a FAILED payment still calls
the bank. Where neither happens, no FAILED payment has a charge.
-/
import PaymentsProcessor.Ledger.History
import PaymentsProcessor.Pipeline.Calls

namespace PaymentsProcessor.Pipeline

open PaymentStatus Worker Reaper Transition PartialMap SimulatedBankAdapter

variable {env : Env} {s s' : State SimulatedBankAdapter} {a : Action BankConfigPatch}

/-! ## Bank and ledger agree on failure -/

/-- The bank has no authorisation under the key of a FAILED payment. -/
def FailedUncharged (s : State SimulatedBankAdapter) : Prop := ∀ pid p, s.db.payments pid = some p →
  p.status = FAILED → ∀ ref, s.bank.store.lookup pid ≠ some (.authorized ref)

/-- The run got this outcome from the bank, and its transition out of PROCESSING is committed. -/
def settledBy (s : State SimulatedBankAdapter) (r : Nat) (pid : String) (outcome : BankOutcome) : Bool :=
  (s.history.any fun e => match e with
    | .received r' (.resolved outcome') => r' = r ∧ outcome' = outcome
    | _ => false) &&
  s.history.any fun e => match e with
    | .moved (.worker r') pid' (some PROCESSING) _ _ => r' = r ∧ pid' = pid
    | _ => false

/-- Every bank call made for the payment is over: it is answered, and an authorisation reached its run and
was settled by it. -/
def callsOver (s : State SimulatedBankAdapter) (pid : String) : Bool := s.history.all fun e =>
  match e with
  | .called r req => req.paymentId ≠ pid || (s.calls r).any fun call =>
      match call.reply with
      | none => false
      | some (.resolved (.authorized ref)) => settledBy s r pid (.authorized ref)
      | some _ => true
  | _ => true

/-- The bank is not called for a FAILED payment, and a PROCESSING one is only failed when its calls are
over. -/
def failsOver (env : Env) (s : State SimulatedBankAdapter) : Action BankConfigPatch → Bool
  | .authorize r => (s.runs r).all fun run =>
      !((s.breakers run.worker).allow env.cfg s.now).1 ||
        (s.db.payments run.data.paymentId).all fun p => p.status ≠ FAILED
  | .retryUpdate r => (s.runs r).all fun run => (s.db.payments run.data.paymentId).all fun p =>
      p.status ≠ PROCESSING || p.attemptCount + 1 ≤ env.cfg.maxRetries || callsOver s run.data.paymentId
  | .finalUpdate r => (s.runs r).all fun run => (s.db.payments run.data.paymentId).all fun p =>
      match run.pc with
      | .settleBegun _ (.fail _) _ => p.status ≠ PROCESSING || callsOver s run.data.paymentId
      | _ => true
  | _ => true

/-- A step about to fail a payment finds its calls over. -/
theorem callsOver_of_moved {pid : String} (hover : failsOver env s a = true)
    (hm : Moved env s a pid .exhaust ∨ Moved env s a pid (.settle FAILED)) : callsOver s pid = true := by
  rcases hm with hm | hm
  · cases hm with
    | exhaust hr hpc hp hst hspent =>
      simpa [failsOver, hr, hp, hst, Nat.not_lt.2 (Nat.le_of_lt_succ hspent)] using hover
  · cases hm with
    | @settle r run began clock dis target p hr hpc htarget hp hst =>
      cases dis with
      | fail reason => simpa [failsOver, hr, hp, hst, hpc] using hover
      | complete ref | retry reason => cases htarget

/-! ## The invariants -/

/-- What the bank has authorised it has answered some call with. -/
def AnsweredInv (s : State SimulatedBankAdapter) : Prop := ∀ pid ref, s.bank.store.lookup pid = some (.authorized ref) →
  ∃ r call, s.calls r = some call ∧ call.req.paymentId = pid ∧ call.reply = some (.resolved (.authorized ref))

theorem answeredInv {C : State SimulatedBankAdapter → Action BankConfigPatch → Prop}
    (h : Reach (system SimulatedBankAdapter.port env) C s) : AnsweredInv s := by
  refine h.invariant (I := AnsweredInv) (fun _ _ hstored => by cases hstored) fun t a t' hr hI _ hs => ?_
  intro pid ref hstored
  have hcalls := callInv hr
  have hrule := step_sound hs
  have hkeep : t.bank.store.lookup pid = some (.authorized ref) →
      ∃ r call, t'.calls r = some call ∧ call.req.paymentId = pid ∧
        call.reply = some (.resolved (.authorized ref)) := by
    intro hold
    obtain ⟨r, call, hcall, hpid, hreply⟩ := hI pid ref hold
    obtain ⟨call', hcall', hreq, hsame⟩ := hrule.call_persists hcalls hcall
    exact ⟨r, call', hcall', by rw [hreq]; exact hpid, hsame _ hreply⟩
  cases hrule with
  | setConfig c => exact hkeep (setConfig_store c t.bank ▸ hstored)
  | answer r call hcall hreply =>
    obtain ⟨-, run, -, hreq, -⟩ := hcalls hcall
    have hkey : call.req.idempotencyKey = call.req.paymentId := by rw [hreq]; rfl
    rcases authorize_cases call.req t.bank with ⟨o, -, he⟩ | ⟨-, hanswer, hstore, -⟩ | ⟨-, -, hstore, -⟩
    · rw [show (SimulatedBankAdapter.port.authorize call.req t.bank).2 = t.bank from congrArg Prod.snd he] at hstored
      exact hkeep hstored
    · rw [show (SimulatedBankAdapter.port.authorize call.req t.bank).2.store = _ from hstore] at hstored
      by_cases hpid : pid = call.req.idempotencyKey
      · subst hpid
        rw [AList.lookup_insert] at hstored
        refine ⟨r, _, Function.update_self .., hkey.symm, ?_⟩
        rw [← Option.some.inj hstored]
        exact congrArg some hanswer
      · rw [AList.lookup_insert_ne hpid] at hstored
        exact hkeep hstored
    · rw [show (SimulatedBankAdapter.port.authorize call.req t.bank).2.store = _ from hstore] at hstored
      exact hkeep hstored
  | _ => exact hkeep hstored

/-- No call of a FAILED payment is out, and none was answered with an authorisation. -/
def FailedInv (s : State SimulatedBankAdapter) : Prop := ∀ pid p, s.db.payments pid = some p → p.status = FAILED →
  ∀ r call, s.calls r = some call → call.req.paymentId = pid →
    ∃ reply, call.reply = some reply ∧ ∀ ref, reply ≠ .resolved (.authorized ref)

/-- Where the calls of a PROCESSING payment are over, none of them was answered with an authorisation: its
run would have completed the payment. -/
theorem callsOver_unauthorized {C : State SimulatedBankAdapter → Action BankConfigPatch → Prop}
    (hr : Reach (system SimulatedBankAdapter.port env) C s) {pid : String} {p : Payment}
    (hp : s.db.payments pid = some p) (hst : p.status = PROCESSING) (hover : callsOver s pid = true) {r : Nat}
    {call : Call} (hcall : s.calls r = some call) (hpid : call.req.paymentId = pid) :
    ∃ reply, call.reply = some reply ∧ ∀ ref, reply ≠ .resolved (.authorized ref) := by
  have hcalled := (callInv hr hcall :).1
  have hone := List.all_eq_true.1 hover _ hcalled
  simp only [hpid, ne_eq, not_true_eq_false, decide_false, Bool.false_or, hcall, Option.any_some] at hone
  cases hreply : call.reply with
  | none => rw [hreply] at hone; cases hone
  | some reply =>
    refine ⟨reply, rfl, ?_⟩
    rintro ref rfl
    rw [hreply] at hone
    obtain ⟨hreceived, hmoved⟩ := Bool.and_eq_true_iff.1 hone
    obtain ⟨e, he, hreceived⟩ := List.any_eq_true.1 hreceived
    obtain ⟨e', he', hmoved⟩ := List.any_eq_true.1 hmoved
    split at hreceived
    · split at hmoved
      · obtain ⟨rfl, rfl⟩ := of_decide_eq_true hreceived
        obtain ⟨rfl, rfl⟩ := of_decide_eq_true hmoved
        have hends := settlesInv hr _ _ _ _ _ he he'
        rcases hends with htarget | ⟨hretry, -⟩
        · cases htarget
          obtain ⟨q, hq, hqst⟩ := status_of_moved (ledgerInv hr) (historyInv hr) he' rfl
          cases hp.symm.trans hq
          rw [hst] at hqst
          cases hqst
        · cases hretry
      · cases hmoved
    · cases hreceived

theorem FailedInv.step (h : FailedInv s) (hr : Reach (system SimulatedBankAdapter.port env) Free s)
    (hover : failsOver env s a = true) (hs : Step SimulatedBankAdapter.port env s a s') : FailedInv s' := by
  intro pid q hq hqst r call hcall hpid
  obtain ⟨y, hy, hyst, -⟩ := account_of_payment hq
  have hstep := hs.account (lockInv hr) (pcInv hr) (ledgerInv hr).owned pid
  rw [hy] at hstep
  generalize hx : s.db.account pid = x at hstep
  cases hstep with
  | same =>
    -- it was FAILED before: nothing of it was out, and it is not called now
    obtain ⟨p, hp, hpst, -⟩ := Db.account_eq_some hx
    have hfailed : p.status = FAILED := by rw [← hpst, hyst, hqst]
    rcases hs.calls_inv hcall with hold | ⟨rfl, run, hrun, hallow, hreq⟩ | ⟨-, old, hold, hreply, hreq⟩
    · exact h pid p hp hfailed r call hold hpid
    · rw [hreq] at hpid
      have hpid : run.data.paymentId = pid := hpid
      simp [failsOver, hrun, hallow, hpid, hp, hfailed] at hover
    · rw [hreq] at hpid
      obtain ⟨reply, hsome, -⟩ := h pid p hp hfailed r old hold hpid
      rw [hreply] at hsome
      cases hsome
  | opened => exact absurd (hyst.trans hqst) (by decide)
  | moved hm hmove =>
    have hfails := hmove.fails (hyst.trans hqst)
    obtain ⟨p, hp, hpst, -⟩ := Db.account_eq_some hx
    have hpst : p.status = PROCESSING := hpst.symm.trans hfails.1
    have hm : Moved env s a pid .exhaust ∨ Moved env s a pid (.settle FAILED) := by
      rcases hfails.2 with rfl | rfl
      · exact Or.inl hm
      · exact Or.inr hm
    have hquiet : (∀ r, a ≠ .authorize r) ∧ ∀ r, a ≠ .answer r := by
      rcases hm with hm | hm <;> cases hm <;> exact ⟨by simp, by simp⟩
    have hold := ((hs.calls_inv hcall).resolve_right fun hc => by
      rcases hc with ⟨ha, -⟩ | ⟨ha, -⟩
      · exact hquiet.1 r ha
      · exact hquiet.2 r ha)
    exact callsOver_unauthorized hr hp hpst (callsOver_of_moved hover hm) hold hpid

/-- In every run of the pipeline in which the bank is not called for FAILED payments and payments are only
failed when their calls are over, the bank has no authorisation for a FAILED payment. -/
theorem failed_uncharged (h : Reach (system SimulatedBankAdapter.port env) (fun s a => failsOver env s a = true) s) :
    FailedUncharged s := by
  have hfailed : FailedInv s :=
    h.invariant (I := FailedInv) (fun _ _ hp => by cases hp) fun t a t' hr hI hover hs =>
      hI.step hr.free hover (step_sound hs)
  intro pid p hp hst ref hstored
  obtain ⟨r, call, hcall, hpid, hreply⟩ := answeredInv h pid ref hstored
  obtain ⟨reply, hreply', hne⟩ := hfailed pid p hp hst r call hcall hpid
  cases hreply.symm.trans hreply'
  exact hne ref rfl

/-- A call is answered with an error after its run gave up; the retry is declined. -/
theorem failed_uncharged_declined : ∃ s,
    Reach (system SimulatedBankAdapter.port standard) (fun s a => failsOver standard s a = true) s ∧
    (s.db.payments "0").any (fun p => p.status = FAILED) = true ∧ FailedUncharged s := by
  obtain ⟨s, hs, hp⟩ := exists_reach_of_execIf (show (execIf (system SimulatedBankAdapter.port standard)
    (fun s a => failsOver standard s a = true) (system SimulatedBankAdapter.port standard).init
      (accept order 0 "00" ++ [.setConfig { mode := some .alwaysError }] ++ claim 0 0 "00" ++
        [.authorize 0, .tick 2000, .timeout 0, .answer 0] ++ retry 0 1000 ++
        [.setConfig { mode := some .alwaysDecline }] ++ claim 1 0 "0:retry:1" ++ call 1 200 ++ settle 1)).any
      (fun s => (s.db.payments "0").any fun p => p.status = FAILED) = true by decide)
  exact ⟨s, hs, hp, failed_uncharged hs⟩

/-- A payment is declined and FAILED; its worker crashes before its job is completed; the job is redelivered,
its second run calls the bank all the same, and the bank now charges. -/
theorem failed_payment_charged : ∃ s, Reach (system SimulatedBankAdapter.port standard) Free s ∧
    ¬ FailedUncharged s := by
  obtain ⟨s, hs, hp⟩ := exists_reach_of_exec (show (exec (system SimulatedBankAdapter.port standard)
    (system SimulatedBankAdapter.port standard).init
      (accept order 0 "00" ++ [.setConfig { mode := some .alwaysDecline }] ++ claim 0 0 "00" ++ call 0 200 ++
        [.settleBegin 0, .readClock 0, .finalUpdate 0, .crash 0, .stall "00", .setConfig { mode := some .alwaysAuthorize },
          .dequeue 1 1 "00", .claimBegin 1, .claimSelect 1] ++ call 1 200)).any (fun s =>
      (s.db.payments "0").any (fun p => p.status = FAILED) &&
        s.bank.store.lookup "0" = some (.authorized "bank_0")) = true by decide)
  obtain ⟨hfailed, hstored⟩ := Bool.and_eq_true_iff.1 hp
  obtain ⟨p, hp, hst⟩ := (Option.any_eq_true _ _).1 hfailed
  exact ⟨s, hs, fun hall => hall "0" p hp (of_decide_eq_true hst) _ (of_decide_eq_true hstored)⟩

end PaymentsProcessor.Pipeline
