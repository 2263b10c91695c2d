/-
Who finalises which claim. The finalising transactions test the status, not the version, so a run that
was reaped can finalise a later run's claim. Where no claim is made while another winner of the payment is
still in flight, every winner finalises the version its own claim wrote.
-/
import PaymentsProcessor.Base.History
import PaymentsProcessor.Ledger.History
import PaymentsProcessor.Pipeline.Runs

namespace PaymentsProcessor.Pipeline

open PaymentStatus Worker Reaper Transition PartialMap History

variable {β κ : Type} {port : BankPort β κ} {env : Env} {s s' : State β} {a : Action κ}

/-! ## No stale finalisation -/

/-- A run that won its claim and later moves the payment out of PROCESSING finalises the version its
claim wrote: no transition of the payment lies between. -/
def Fenced (s : State β) : Prop := ∀ {pre mid post r pid src dst v v'},
  s.history = pre ++ .moved (.worker r) pid (some src) PROCESSING v :: mid ++
    .moved (.worker r) pid (some PROCESSING) dst v' :: post →
  v' = v + 1 ∧ ∀ e ∈ mid, moveOf pid e = none

/-- No run that won a claim of the payment is still in flight. -/
def unclaimed (s : State β) (pid : String) : Bool := s.history.all fun e =>
  match e with
  | .moved (.worker r) pid' (some _) PROCESSING _ => pid' ≠ pid || (s.runs r).all fun run => !Pc.inFlight run.pc
  | _ => true

/-- The compare-and-swap of txn 1, if this step is one and it will win, finds no other winner of its
payment still in flight. -/
def claimsAlone (s : State β) : Action κ → Bool
  | .claimUpdate r => (s.runs r).all fun run =>
      match run.pc with
      | .claimRead _ status _ =>
        !((s.db.payments run.data.paymentId).any fun p => p.status = status) || unclaimed s run.data.paymentId
      | _ => true
  | _ => true

theorem claimsAlone_moved {pid : String} (halone : claimsAlone s a = true) (hm : Moved env s a pid .claim) {r : Nat}
    {src : PaymentStatus} {v : Nat} (hwon : .moved (.worker r) pid (some src) PROCESSING v ∈ s.history) {run : Run}
    (hr : s.runs r = some run) : Pc.inFlight run.pc = false := by
  cases hm with
  | claim hr' hpc hp =>
    simp only [claimsAlone, hr', Option.all_some, hpc, hp, Option.any_some, decide_true, Bool.not_true,
      Bool.false_or] at halone
    have hfree := List.all_eq_true.1 halone _ hwon
    simpa [hr] using hfree

/-- While the winner of a claim is in flight, its payment is in PROCESSING at the version of the claim, or
past that version and out of PROCESSING. -/
def FenceInv (s : State β) : Prop := ∀ r pid src v, .moved (.worker r) pid (some src) PROCESSING v ∈ s.history →
  ∀ run, s.runs r = some run → Pc.inFlight run.pc = true →
    ∃ p, s.db.payments pid = some p ∧ (p.version = v ∧ p.status = PROCESSING ∨ v < p.version ∧ p.status ≠ PROCESSING)

theorem FenceInv.step (h : FenceInv s) (hr : Reach (system port env) Free s) (halone : claimsAlone s a = true)
    (hs : Step port env s a s') : FenceInv s' := by
  intro r pid src v hwon run' hr' hflight
  rcases hs.moved_inv hwon with hold | ⟨run, pc, hrun, -, hrun', hmove, q, hq, hst, hv⟩
  · obtain ⟨run, hrun, -, hrank⟩ := claimInv hr r pid (some src) PROCESSING v hold
    obtain ⟨pc, hrun', hpc⟩ := hs.run_persists hrun
    cases hr'.symm.trans hrun'
    have hbefore : Pc.inFlight run.pc = true := by
      rcases hpc with rfl | hlt
      · exact hflight
      · simp only [Pc.inFlight, Bool.and_eq_true, decide_eq_true_eq] at hflight ⊢
        omega
    obtain ⟨p, hp, hfence⟩ := h r pid src v hold run hrun hbefore
    obtain ⟨x, hx, hxst, hxv, -⟩ := account_of_payment hp
    have hstep := hs.account (lockInv hr) (pcInv hr) (ledgerInv hr).owned pid
    rw [hx] at hstep
    generalize hy : s'.db.account pid = y at hstep
    cases hstep with
    | same =>
      obtain ⟨q, hq, hqst, hqv, -⟩ := Db.account_eq_some hy
      refine ⟨q, hq, ?_⟩
      rwa [← hqst, ← hqv, hxst, hxv]
    | moved hm hmove =>
      obtain ⟨q, hq, hqst, hqv, -⟩ := Db.account_eq_some hy
      refine ⟨q, hq, Or.inr ?_⟩
      -- not a claim: that would have found this winner in flight
      obtain ⟨hxpro, hypro⟩ := hmove.leaves_processing fun hclaim => by
        subst hclaim
        rw [claimsAlone_moved halone hm hold hrun] at hbefore
        cases hbefore
      have hfence := hfence.resolve_right fun hc => hc.2 (hxst.symm.trans hxpro)
      rw [← hqst, ← hqv, hmove.advance.2, hxv]
      exact ⟨by omega, hypro⟩
  · cases hr'.symm.trans hrun'
    cases hmove with
    | claim => exact ⟨q, hq, Or.inl ⟨hv, hst⟩⟩
    | settle _ _ hrank =>
      simp only [Pc.inFlight, Bool.and_eq_true, decide_eq_true_eq] at hflight
      omega

/-- A transition of a run out of PROCESSING is of the version its claim wrote. -/
def FinalisesOwn (pre : List (Effect β)) : Effect β → Prop
  | .moved (.worker r) pid (some PROCESSING) _ v' =>
    ∀ src v, .moved (.worker r) pid (some src) PROCESSING v ∈ pre → v' = v + 1
  | _ => True

theorem finalisesOwn_step (h : Justified FinalisesOwn s.history) (hfence : FenceInv s) (hpcs : PcInv s)
    (hs : Step port env s a s') : Justified FinalisesOwn s'.history := by
  have hfinal : ∀ {r : Nat} {run : Run} {began clock : Nat} {dis : Disposition} {p : Payment} {dst : PaymentStatus},
      s.runs r = some run → run.pc = .settleBegun began dis (some clock) → s.db.payments run.data.paymentId = some p →
      p.status = PROCESSING → FinalisesOwn s.history
        (.moved (.worker r) run.data.paymentId (some PROCESSING) dst (p.version + 1)) := by
    intro r run began clock dis p dst hr hpc hp hst src v hwon
    obtain ⟨q, hq, hfence⟩ := hfence r _ src v hwon run hr (by rw [hpc]; rfl)
    cases hp.symm.trans hq
    rw [(hfence.resolve_right fun hc => hc.2 hst).1]
  cases hs with
  | claim r run began clock p hr hpc =>
    have hcan : Pc.WF run.pc := hpcs hr
    rw [hpc, Pc.WF, canTransition_processing] at hcan
    rcases hcan with hst | hst
    all_goals
      rw [hst]
      exact h.snoc trivial
  | exhaust r run began clock reason p hr hpc hp hst => exact h.snoc (hfinal hr hpc hp hst)
  | retry r run began clock reason p hr hpc hp hst => exact h.snoc (hfinal hr hpc hp hst)
  | final r run began clock dis target p hr hpc htarget hp hst => exact h.snoc (hfinal hr hpc hp hst)
  | reapUpdate k began time clock stuck hk =>
    refine (h.append fun pre e he => ?_).append fun pre e he => ?_
    all_goals
      obtain ⟨x, -, rfl⟩ := List.mem_map.1 he
      trivial
  | accepted | receive | timeout =>
    refine h.append fun pre e he => ?_
    simp only [List.mem_cons, List.not_mem_nil, or_false] at he
    rcases he with rfl | rfl <;> trivial
  | inject | pollAdd | retryAdd | reapAdd | answer | rethrow | call | refuse => exact h.snoc trivial
  | _ => exact h

/-- In every run of the pipeline in which no claim is made while another winner of its payment is in
flight, every winner that leaves PROCESSING finalises the version its own claim wrote, with no
transition of the payment in between. -/
theorem finalisations_fenced (h : Reach (system port env) (fun s a => claimsAlone s a = true) s) : Fenced s := by
  have hI : FenceInv s ∧ Justified FinalisesOwn s.history := by
    refine h.invariant (I := fun s => FenceInv s ∧ Justified FinalisesOwn s.history)
      ⟨fun _ _ _ _ hm => absurd hm List.not_mem_nil, justified_nil⟩ fun t a t' hr hI halone hs => ?_
    exact ⟨hI.1.step hr.free halone (step_sound hs), finalisesOwn_step hI.2 hI.1 (pcInv hr) (step_sound hs)⟩
  intro pre mid post r pid src dst v v' hh
  have hv : v' = v + 1 := hI.2 hh src v (by simp)
  refine ⟨hv, fun e he => ?_⟩
  cases hm : moveOf pid e with
  | none => rfl
  | some m =>
    -- its version would lie between those of the claim and of the finalisation
    obtain ⟨mid1, mid2, rfl⟩ := List.append_of_mem he
    have hH := historyInv h
    have hafter : s.history = pre ++ .moved (.worker r) pid (some src) PROCESSING v :: mid1 ++ e ::
        (mid2 ++ .moved (.worker r) pid (some PROCESSING) dst v' :: post) := by rw [hh]; simp
    have hbefore : s.history = (pre ++ .moved (.worker r) pid (some src) PROCESSING v :: mid1) ++ e :: mid2 ++
        .moved (.worker r) pid (some PROCESSING) dst v' :: post := by rw [hh]; simp
    have h1 := versions_increase hH hafter moveOf_self hm
    have h2 := versions_increase hH hbefore hm moveOf_self
    omega

/-- A run that is retried and then completes; no claim meets another winner in flight. -/
theorem finalisations_fenced_retried : ∃ s,
    Reach (system SimulatedBankAdapter.port standard) (fun s a => claimsAlone s a = true) s ∧
    (s.db.payments "0").any (fun p => p.status = COMPLETED ∧ p.version = 4) = true ∧ Fenced s := by
  obtain ⟨s, hs, hp⟩ := exists_reach_of_execIf (show (execIf (system SimulatedBankAdapter.port standard)
    (fun s a => claimsAlone s a = true) (system SimulatedBankAdapter.port standard).init
      (accept order 0 "00" ++ [.setConfig { mode := some .alwaysError }] ++ claim 0 0 "00" ++ call 0 200 ++
        retry 0 1000 ++ [.setConfig { mode := some .alwaysAuthorize }] ++ claim 1 0 "0:retry:1" ++ call 1 200 ++
        settle 1)).any
      (fun s => (s.db.payments "0").any fun p => p.status = COMPLETED ∧ p.version = 4) = true by decide)
  exact ⟨s, hs, hp, finalisations_fenced hs⟩

/-- A run pauses after its claim; the payment is reaped and claimed again by a second run; the first run
goes on and completes the second one's claim. -/
theorem stale_run_finalises : ∃ s, Reach (system SimulatedBankAdapter.port standard) Free s ∧ ¬ Fenced s := by
  obtain ⟨s, hs, hp⟩ := exists_reach_of_exec (show (exec (system SimulatedBankAdapter.port standard)
    (system SimulatedBankAdapter.port standard).init
      (accept order 0 "00" ++ claim 0 0 "00" ++ reap 0 60001 "0" ++ claim 1 1 "0:reap:60001" ++ call 0 200 ++
        [.settleBegin 0, .readClock 0, .finalUpdate 0])).any (fun s =>
      s.history.dropLast.any (fun e => moveBy 0 e = some ("0", some PENDING, PROCESSING, 1)) &&
      s.history.getLast?.any fun e => moveBy 0 e = some ("0", some PROCESSING, COMPLETED, 4)) = true by decide)
  rw [Bool.and_eq_true] at hp
  obtain ⟨pre, x, mid, y, hh, hx, hy⟩ := exists_split_last hp.1 hp.2
  rw [moveBy_eq_some.1 (of_decide_eq_true hx), moveBy_eq_some.1 (of_decide_eq_true hy)] at hh
  refine ⟨s, hs, fun hfenced => ?_⟩
  have hv := (hfenced hh).1
  omega

end PaymentsProcessor.Pipeline
