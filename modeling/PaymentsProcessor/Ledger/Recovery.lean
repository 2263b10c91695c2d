/-
What can still become of a payment. Whatever has failed so far, a payment that has left PENDING and has not ended can
be ended by a tick of the reaper and one worker: the reaper makes a job under an id never used, and each job that comes to
nothing spends an attempt.
-/
import PaymentsProcessor.Ledger.RetryIds
import PaymentsProcessor.Ledger.RetryLoop
import PaymentsProcessor.Pipeline.Polls

namespace PaymentsProcessor.Pipeline

open Transition PartialMap PaymentStatus Worker Reaper Account

variable {β κ : Type} {port : BankPort β κ} {env : Env} {s s' t : State β} {a : Action κ} {pid : String} {x : Account}
variable {C : State β → Action κ → Prop}

/-! ## Room for more -/

/-- Runs, jobs and polls are finitely many. -/
structure Bounded (s : State β) : Prop where
  runs : FinitelyMany s.runs
  queue : FinitelyMany s.queue
  polls : FinitelyMany s.polls

theorem finitelyMany_add {q : Queue} (h : FinitelyMany q) (jobId name : String) (data : JobData) (state : JobState) :
    FinitelyMany (q.add jobId name data state) := by
  unfold Queue.add
  split
  · exact h
  · exact h.update _ _

theorem finitelyMany_closeJob {q : Queue} (h : FinitelyMany q) (jobId : String) (r : Nat) (state : JobState) :
    FinitelyMany (closeJob q jobId r state) := by
  unfold closeJob
  split
  · exact h.update _ _
  · exact h

theorem Bounded.step (h : Bounded s) (hs : Step port env s a s') : Bounded s' := by
  obtain ⟨hruns, hqueue, hpolls⟩ := h
  cases hs with
  | inject | reapAdd => exact ⟨hruns, finitelyMany_add hqueue _ _ _ _, hpolls⟩
  | pollSelect | pollCommit | pollAbort => exact ⟨hruns, hqueue, hpolls.update _ _⟩
  | pollAdd => exact ⟨hruns, finitelyMany_add hqueue _ _ _ _, hpolls.update _ _⟩
  | dequeue => exact ⟨hruns.update _ _, hqueue.update _ _, hpolls⟩
  | stall => exact ⟨hruns, hqueue.update _ _, hpolls⟩
  | retryAdd => exact ⟨hruns.update _ _, finitelyMany_add hqueue _ _ _ _, hpolls⟩
  | finish => exact ⟨hruns.update _ _, finitelyMany_closeJob hqueue _ _ _, hpolls⟩
  | crash => exact ⟨hruns.map _, hqueue, hpolls⟩
  | walk | claim | call | refuse | receive | rethrow | timeout | exhaust | retry | final =>
    exact ⟨hruns.update _ _, hqueue, hpolls⟩
  | _ => exact ⟨hruns, hqueue, hpolls⟩

theorem bounded (h : Reach (system port env) C s) : Bounded s :=
  h.invariant (I := Bounded) ⟨finitelyMany_empty, finitelyMany_empty, finitelyMany_empty⟩
    fun _ _ _ _ hI _ hs => hI.step (step_sound hs)

theorem Bounded.exists_run (h : Bounded s) : ∃ r, s.runs r = none := by
  obtain ⟨r, -, hr⟩ := h.runs.exists_free (g := id) Function.injective_id 0
  exact ⟨r, hr⟩

theorem reapJobId_injective (pid : String) : Function.Injective (reapJobId pid) := fun _ _ h =>
  Nat.repr_injective ((String.append_right_inj _).1 h)

/-! ## Continuations -/

/-- No client and no foreign job. -/
def unattended : Action κ → Bool
  | .submit _ _ _ _ | .inject _ _ _ => false
  | _ => true

theorem foreign_of_unattended (h : unattended a = true) : foreign a = false := by
  cases a <;> first | rfl | cases h

theorem unattended_of_quiet (h : quiet a = true) : unattended a = true := by
  cases a <;> first | rfl | cases h

theorem unattended_of_alone {r : Nat} (h : alone r a = true) : unattended a = true := by
  cases a <;> first | rfl | cases h

theorem path_mono {p p' : Action κ → Bool} (h : Path port env p s t) (hpp : ∀ a, p a = true → p' a = true) :
    Path port env p' s t :=
  h.lift id fun _ _ ⟨a, ha, hs⟩ => ⟨a, hpp a ha, hs⟩

theorem own_path (hr : Reach (system port env) (fun _ a => foreign a = false) s) (h : Path port env unattended s t) :
    Reach (system port env) (fun _ a => foreign a = false) t := by
  induction h with
  | refl => exact hr
  | tail _ hlast ih =>
    obtain ⟨a, ha, hs⟩ := hlast
    exact .step ih (foreign_of_unattended ha) hs

theorem JobRun.unattended {dis : Disposition} (h : JobRun port env pid dis s s') : Path port env unattended s s' := by
  obtain ⟨r, w, jobId, job, run, taken, begun, decided, ended, hwait, -, -, htake, hask, -, -, hend, hfinish⟩ := h
  refine (path_mono hwait fun _ => unattended_of_quiet).trans ?_
  refine (Path.single _ rfl htake).trans ((path_mono hask fun _ => unattended_of_alone).trans ?_)
  exact (path_mono hend fun _ => unattended_of_alone).trans (Path.single _ rfl hfinish)

/-! ## A re-drive -/

/-- The payment is in RETRYING, with a job of its own that waits, a worker that may call the bank, and nothing in the
way. -/
structure Redriven (port : BankPort β κ) (env : Env) (s t : State β) (pid : String) (p : Payment) (bank : β) : Prop where
  path : Path port env unattended s t
  bank : t.bank = bank
  breaker : ((t.breakers 0).allow env.cfg (t.now + 0)).1 = true
  unlocked : t.rowLocks pid = none
  job : ∃ jobId job, t.queue jobId = some job ∧ job.state = .waiting ∧
    requestOf job.data = ⟨pid, p.amountCents, p.currency, pid⟩
  payment : ∃ q, t.db.payments pid = some q ∧ q.status = RETRYING ∧ p.attemptCount ≤ q.attemptCount

variable (port env) in
/-- The tick that holds the payment ends, the worker is restarted, and time passes. -/
theorem exists_quiet (s : State β) (pid : String) (d : Nat) : ∃ t k, Path port env unattended s t ∧ t.db = s.db ∧
    t.queue = s.queue ∧ t.bank = s.bank ∧ t.now = s.now + d ∧ t.reaps k = none ∧ t.rowLocks pid = none ∧
    (t.breakers 0).state = .CLOSED := by
  refine ⟨{ s with
    reaps := Function.update s.reaps ((s.rowLocks pid).getD 0) none
    rowLocks := unlock s.rowLocks ((s.rowLocks pid).getD 0)
    runs := fun r => (s.runs r).map fun run => if run.worker = 0 then { run with pc := .gone } else run
    breakers := Function.update s.breakers 0 { openedAt := s.now }
    now := s.now + d }, (s.rowLocks pid).getD 0, ?_, rfl, rfl, rfl, rfl, Function.update_self .., ?_, ?_⟩
  · refine (Path.single (.reapEnd ((s.rowLocks pid).getD 0)) rfl rfl).trans ?_
    exact (Path.single (.crash 0) rfl rfl).trans (Path.single (.tick d) rfl rfl)
  · exact unlock_holder _ _
  · dsimp only
    rw [Function.update_self]

variable (port env) in
/-- A stuck payment is reaped: it comes to RETRYING, with a job under an id made now. -/
theorem exists_reaped {p : Payment} {k : Nat} (hk : s.reaps k = none) (hp : s.db.payments pid = some p)
    (hst : p.status = PROCESSING ∨ p.status = RETRYING) (hlate : p.updatedAt + env.cfg.reaperDeadlineMs < s.now)
    (hlock : s.rowLocks pid = none) (hfresh : s.queue (reapJobId pid s.now) = none) :
    ∃ t q, Path port env unattended s t ∧ t.bank = s.bank ∧ t.breakers = s.breakers ∧ t.rowLocks pid = none ∧
      t.queue (reapJobId pid s.now) = some ⟨"payment_reap", reapData ⟨pid, p.status, p.amountCents, p.currency⟩, .waiting⟩ ∧
      t.db.payments pid = some q ∧ q.status = RETRYING ∧ p.attemptCount ≤ q.attemptCount := by
  obtain ⟨s0, h0, hk0, hsame0⟩ : ∃ s0, step port env s (.reapBegin k) = some s0 ∧
      s0.reaps k = some (.begun s.now none) ∧ s0.db = s.db ∧ s0.bank = s.bank ∧ s0.breakers = s.breakers ∧
      s0.rowLocks = s.rowLocks ∧ s0.queue = s.queue ∧ s0.now = s.now := by
    apply Exists.intro
    constructor
    · simp [step, reapBegin, hk]
      rfl
    · exact ⟨Function.update_self .., rfl, rfl, rfl, rfl, rfl, rfl⟩
  obtain ⟨s1, h1, hk1, hsame1⟩ : ∃ s1, step port env s0 (.reapClock k) = some s1 ∧
      s1.reaps k = some (.begun s.now (some s.now)) ∧ s1.db = s.db ∧ s1.bank = s.bank ∧ s1.breakers = s.breakers ∧
      s1.rowLocks = s.rowLocks ∧ s1.queue = s.queue ∧ s1.now = s.now := by
    obtain ⟨hdb0, hbank0, hbreakers0, hlocks0, hqueue0, hnow0⟩ := hsame0
    apply Exists.intro
    constructor
    · simp only [step, reapClock, hk0]
      rfl
    · exact ⟨by rw [← hnow0]; exact Function.update_self .., hdb0, hbank0, hbreakers0, hlocks0, hqueue0, hnow0⟩
  obtain ⟨hdb1, hbank1, hbreakers1, hlocks1, hqueue1, hnow1⟩ := hsame1
  have hrow : stuckRow env s.now s1 pid = some ⟨pid, p.status, p.amountCents, p.currency⟩ := by
    unfold stuckRow
    rw [hdb1, hp, hlocks1]
    exact if_pos ⟨hst, hlate, hlock⟩
  obtain ⟨s2, h2, hk2, hsame2⟩ : ∃ s2, step port env s1 (.reapSelect k [pid]) = some s2 ∧
      s2.reaps k = some (.selected s.now s.now [⟨pid, p.status, p.amountCents, p.currency⟩] none) ∧ s2.db = s.db ∧
      s2.bank = s.bank ∧ s2.breakers = s.breakers ∧ s2.rowLocks pid = some k ∧ s2.queue = s.queue ∧ s2.now = s.now := by
    apply Exists.intro
    constructor
    · simp [step, reapSelect, hk1, hrow]
      rfl
    · exact ⟨by rw [← hnow1]; exact Function.update_self .., hdb1, hbank1, hbreakers1, if_pos rfl, hqueue1, hnow1⟩
  obtain ⟨hdb2, hbank2, hbreakers2, hlock2, hqueue2, hnow2⟩ := hsame2
  obtain ⟨s2', h2', hk2', hsame2'⟩ : ∃ s2', step port env s2 (.reapClock k) = some s2' ∧
      s2'.reaps k = some (.selected s.now s.now [⟨pid, p.status, p.amountCents, p.currency⟩] (some s.now)) ∧ s2'.db = s.db ∧
      s2'.bank = s.bank ∧ s2'.breakers = s.breakers ∧ s2'.rowLocks pid = some k ∧ s2'.queue = s.queue ∧ s2'.now = s.now := by
    apply Exists.intro
    constructor
    · simp only [step, reapClock, hk2]
      rfl
    · exact ⟨by rw [← hnow2]; exact Function.update_self .., hdb2, hbank2, hbreakers2, hlock2, hqueue2, hnow2⟩
  obtain ⟨hdb2', hbank2', hbreakers2', hlock2', hqueue2', hnow2'⟩ := hsame2'
  obtain ⟨s3, h3, hk3, hpay3, hsame3⟩ : ∃ s3, step port env s2' (.reapUpdate k) = some s3 ∧
      s3.reaps k = some (.committed [⟨pid, p.status, p.amountCents, p.currency⟩]) ∧
      (∃ q, s3.db.payments pid = some q ∧ q.status = RETRYING ∧ p.attemptCount ≤ q.attemptCount) ∧
      s3.bank = s.bank ∧ s3.breakers = s.breakers ∧ s3.rowLocks pid = none ∧ s3.queue = s.queue ∧ s3.now = s.now := by
    apply Exists.intro
    constructor
    · simp only [step, reapUpdate, hk2']
      rfl
    · refine ⟨Function.update_self .., ?_, hbank2', hbreakers2', ?_, hqueue2', hnow2'⟩
      · -- a payment in PROCESSING is moved, one in RETRYING stays
        rcases hst with hst | hst
        · refine ⟨reapSet s.now p, ?_, rfl, Nat.le_succ _⟩
          simp [processingIds, hst, hdb2', hp]
        · refine ⟨p, ?_, hst, Nat.le_refl _⟩
          simp [processingIds, hst, hdb2', hp]
      · simp [unlock, hlock2']
  obtain ⟨hbank3, hbreakers3, hlock3, hqueue3, hnow3⟩ := hsame3
  obtain ⟨s4, h4, hk4, hsame4⟩ : ∃ s4, step port env s3 (.reapStamp k) = some s4 ∧
      s4.reaps k = some (.adding s.now [⟨pid, p.status, p.amountCents, p.currency⟩]) ∧ s4.db = s3.db ∧
      s4.bank = s.bank ∧ s4.breakers = s.breakers ∧ s4.rowLocks pid = none ∧ s4.queue = s.queue := by
    apply Exists.intro
    constructor
    · simp only [step, reapStamp, hk3]
      rfl
    · exact ⟨by rw [← hnow3]; exact Function.update_self .., rfl, hbank3, hbreakers3, hlock3, hqueue3⟩
  obtain ⟨hdb4, hbank4, hbreakers4, hlock4, hqueue4⟩ := hsame4
  obtain ⟨s5, h5, hdb5, hsame5⟩ : ∃ s5, step port env s4 (.reapAdd k pid) = some s5 ∧ s5.db = s3.db ∧
      s5.bank = s.bank ∧ s5.breakers = s.breakers ∧ s5.rowLocks pid = none ∧
      s5.queue = s.queue.add (reapJobId pid s.now) "payment_reap"
        (reapData ⟨pid, p.status, p.amountCents, p.currency⟩) .waiting := by
    apply Exists.intro
    constructor
    · simp [step, reapAdd, hk4]
      rfl
    · exact ⟨hdb4, hbank4, hbreakers4, hlock4, by rw [← hqueue4]; rfl⟩
  obtain ⟨hbank5, hbreakers5, hlock5, hqueue5⟩ := hsame5
  obtain ⟨q, hq, hretrying, hattempts⟩ := hpay3
  refine ⟨s5, q, ?_, hbank5, hbreakers5, hlock5, ?_, by rw [hdb5]; exact hq, hretrying, hattempts⟩
  · refine (Path.single _ rfl h0).trans ((Path.single _ rfl h1).trans ((Path.single _ rfl h2).trans ?_))
    refine (Path.single _ rfl h2').trans ((Path.single _ rfl h3).trans ?_)
    exact (Path.single _ rfl h4).trans (Path.single _ rfl h5)
  · rw [hqueue5, Queue.add_apply, if_pos ⟨rfl, hfresh⟩]

/-- From any reached state, a payment in PROCESSING or RETRYING can be re-driven. -/
theorem exists_redriven {p : Payment} (h : Reach (system port env) C s) (hp : s.db.payments pid = some p)
    (hst : p.status = PROCESSING ∨ p.status = RETRYING) : ∃ t, Redriven port env s t pid p s.bank := by
  -- a time past the deadline whose job id is free
  obtain ⟨time, hlate, hfresh⟩ := (bounded h).queue.exists_free (reapJobId_injective pid)
    (s.now + p.updatedAt + env.cfg.reaperDeadlineMs + 1)
  obtain ⟨u, k, hquiet, hdb, hqueue, hbank, hnow, hk, hlock, hclosed⟩ := exists_quiet port env s pid (time - s.now)
  have htime : u.now = time := by omega
  rw [← hdb] at hp
  rw [← hqueue, ← htime] at hfresh
  obtain ⟨t, q, hreap, hbank', hbreakers, hlock', hjob, hq, hretrying, hattempts⟩ :=
    exists_reaped port env hk hp hst (by omega) hlock hfresh
  refine ⟨t, hquiet.trans hreap, hbank'.trans hbank, ?_, hlock', ⟨_, _, hjob, rfl, rfl⟩, q, hq, hretrying, hattempts⟩
  rw [hbreakers, CircuitBreaker.allow, hclosed]

/-! ## A job of a re-driven payment -/

theorem resting_of_reach (h : Reach (system port env) (fun _ a => foreign a = false) s) (hx : s.db.account pid = some x)
    (hlock : s.rowLocks pid = none) : Resting port env pid x s := by
  refine ⟨h.free, hx, hlock, fun m hm => ?_⟩
  obtain ⟨p, hp, -⟩ := Db.account_eq_some hx
  cases hjob : s.queue (retryJobId pid m) with
  | none => rfl
  | some job =>
    -- a retry job there is has an attempt that was counted
    obtain ⟨y, hy, hle⟩ := (retryInv h fun _ _ => id).added (payment_plain h (by rw [hp]; rfl)) (by rw [hjob]; rfl)
    cases hx.symm.trans hy
    omega

/-- A job run to its end settles the account. -/
theorem JobRun.account {dis : Disposition} (h : JobRun port env pid dis s s') (hr : Reach (system port env) Free s)
    (hx : s.db.account pid = some x) (hcan : canTransition x.status PROCESSING = true) :
    s'.db.account pid = some ((x.advance PROCESSING).settled env.cfg.maxRetries dis) := by
  obtain ⟨r, w, id, job, run, taken, begun, decided, ended, hwait, hjob, hpid, htake, hask, hrun, hdecided, hend, hfinish⟩ := h
  obtain ⟨hdb, -, -, -⟩ := quiet_path hwait
  have hreach := hr.path hwait
  have hreach' : Reach (system port env) Free begun := .step (a := .dequeue r w id) hreach trivial htake
  cases step_sound htake with
  | dequeue _ _ _ job' hfree hjob' hready =>
    cases hjob.symm.trans hjob'
    have hstage : Stage env.cfg.maxRetries (taken.queue.setState id (.active r)) x pid
        { taken with
          queue := taken.queue.setState id (.active r)
          runs := Function.update taken.runs r (some ⟨id, job.data, w, .start⟩) }
        ⟨id, job.data, w, .start⟩ none := ⟨rfl, rfl, by rw [hdb, hx]⟩
    obtain ⟨run1, d1, hrun1, hjob1, hdata1, hstage1, -, -⟩ := hstage.path hreach' hcan (Function.update_self ..) hpid hask
    cases hrun.symm.trans hrun1
    have hd1 : d1 = some dis := (hstage1.at_pc hdecided).1
    obtain ⟨run2, d2, hrun2, -, -, hstage2, hd2, -⟩ :=
      hstage1.path (hreach'.path hask) hcan hrun (by rw [hdata1]; exact hpid) hend
    rw [hd2 dis hd1] at hstage2
    cases step_sound hfinish with
    | finish _ run3 state hrun3 hpc =>
      cases hrun2.symm.trans hrun3
      rcases hpc with ⟨hpc, rfl⟩ | ⟨hpc, -⟩
      · obtain ⟨dis', hdis, hx', -⟩ := hstage2.at_pc hpc
        cases hdis
        exact hx'
      · have hno := hstage2.at_pc hpc
        cases hno
    | walk _ _ _ _ _ hwalk => cases hwalk
  | walk _ _ _ _ _ hwalk => cases hwalk

/-- A re-driven payment comes to whatever the bank offers. -/
theorem Redriven.settled {p : Payment} {dis : Disposition} {bank : β} (h : Redriven port env s t pid p bank)
    (hr : Reach (system port env) (fun _ a => foreign a = false) s)
    (hoffer : Offers port env { t with now := t.now + 0 } 0 ⟨pid, p.amountCents, p.currency, pid⟩ dis) :
    ∃ u q, Path port env unattended s u ∧ u.db.payments pid = some q ∧ ∃ x : Account, p.attemptCount ≤ x.attempts ∧
      x.status = RETRYING ∧ q.status = ((x.advance PROCESSING).settled env.cfg.maxRetries dis).status ∧
      q.attemptCount = ((x.advance PROCESSING).settled env.cfg.maxRetries dis).attempts := by
  obtain ⟨jobId, job, hjob, hwaiting, hreq⟩ := h.job
  obtain ⟨q, hq, hst, hattempts⟩ := h.payment
  have hreach := own_path hr h.path
  obtain ⟨x, hx, hxst, -, hxat⟩ := account_of_payment hq
  have hcan : canTransition x.status PROCESSING = true := by rw [hxst, hst]; rfl
  obtain ⟨r, hfree⟩ := (bounded hreach).exists_run
  obtain ⟨u, hrun⟩ := exists_jobRun (resting_of_reach hreach hx h.unlocked) hjob
    (congrArg BankAuthorizeRequest.paymentId hreq) hcan hfree (by rw [hwaiting]; rfl) (by rw [hreq]; exact hoffer)
  have hx' := hrun.account hreach.free hx hcan
  obtain ⟨q', hq', hst', -, hat', -⟩ := Db.account_eq_some hx'
  exact ⟨u, q', h.path.trans hrun.unattended, hq', x, by rw [hxat]; exact hattempts, hxst.trans hst, hst'.symm, hat'.symm⟩

/-- Whatever the bank does, a payment in PROCESSING or RETRYING can come to an end. -/
theorem exists_ended {n : Nat} : ∀ {s : State β} {p : Payment}, Reach (system port env) (fun _ a => foreign a = false) s →
    s.db.payments pid = some p → p.status = PROCESSING ∨ p.status = RETRYING → env.cfg.maxRetries + 1 ≤ p.attemptCount + n →
    ∃ t q, Path port env unattended s t ∧ t.db.payments pid = some q ∧ q.status.terminal = true := by
  -- by induction on the attempts that are left: with the bank silent, each re-drive spends one
  induction n with
  | zero =>
    intro s p hr hp hst hleft
    obtain ⟨t, ht⟩ := exists_redriven hr hp hst
    obtain ⟨u, q, hpath, hq, x, hle, -, hqst, -⟩ := ht.settled hr (.timedOut ht.breaker)
    refine ⟨u, q, hpath, hq, ?_⟩
    rw [hqst, Account.settled, if_neg (by show ¬ x.attempts + 1 ≤ _; omega)]
    rfl
  | succ n ih =>
    intro s p hr hp hst hleft
    obtain ⟨t, ht⟩ := exists_redriven hr hp hst
    obtain ⟨u, q, hpath, hq, x, hle, -, hqst, hqat⟩ := ht.settled hr (.timedOut ht.breaker)
    by_cases hspent : x.attempts + 1 ≤ env.cfg.maxRetries
    · rw [Account.settled, if_pos (show (x.advance PROCESSING).attempts + 1 ≤ _ from hspent)] at hqst hqat
      obtain ⟨v, q', hpath', hq', hend⟩ := ih (own_path hr hpath) hq (Or.inr hqst) (by
        rw [hqat]
        show _ ≤ x.attempts + 1 + n
        omega)
      exact ⟨v, q', hpath.trans hpath', hq', hend⟩
    · refine ⟨u, q, hpath, hq, ?_⟩
      rw [hqst, Account.settled, if_neg (show ¬ (x.advance PROCESSING).attempts + 1 ≤ _ from hspent)]
      rfl

/-- The bank is reconfigured. -/
theorem Redriven.configured {p : Payment} {bank : β} (h : Redriven port env s t pid p bank) (c : κ) :
    Redriven port env s { t with bank := port.setConfig c t.bank } pid p (port.setConfig c bank) where
  path := h.path.trans (Path.single (.setConfig c) rfl rfl)
  bank := congrArg (port.setConfig c) h.bank
  breaker := h.breaker
  unlocked := h.unlocked
  job := h.job
  payment := h.payment

/-- If the bank can be configured to authorise it, a payment in PROCESSING or RETRYING can be completed. -/
theorem exists_completed {p : Payment} {c : κ} {bankRef : String}
    (h : Reach (system port env) (fun _ a => foreign a = false) s) (hp : s.db.payments pid = some p)
    (hst : p.status = PROCESSING ∨ p.status = RETRYING)
    (hbank : (port.authorize ⟨pid, p.amountCents, p.currency, pid⟩ (port.setConfig c s.bank)).1 =
      .resolved (.authorized bankRef)) :
    ∃ t q, Path port env unattended s t ∧ t.db.payments pid = some q ∧ q.status = COMPLETED := by
  obtain ⟨t, ht⟩ := exists_redriven h hp hst
  have hready := ht.configured c
  have hoffer : Offers port env { t with bank := port.setConfig c t.bank, now := t.now + 0 } 0
      ⟨pid, p.amountCents, p.currency, pid⟩ (dispositionOf (.authorized bankRef)) := by
    refine .answered _ hready.breaker ?_
    show (port.authorize _ (port.setConfig c t.bank)).1 = _
    rw [ht.bank]
    exact hbank
  obtain ⟨u, q, hpath, hq, x, -, -, hqst, -⟩ := hready.settled h hoffer
  exact ⟨u, q, hpath, hq, hqst⟩

/-- In every reached state of the pipeline on its own jobs, a payment in PROCESSING or RETRYING can come to an end without
any client, whatever the bank does, and to COMPLETED if the bank can be configured to authorise it. -/
theorem stuck_recoverable {p : Payment} (h : Reach (system port env) (fun _ a => foreign a = false) s)
    (hp : s.db.payments pid = some p) (hst : p.status = PROCESSING ∨ p.status = RETRYING) :
    (∃ t q, Path port env unattended s t ∧ t.db.payments pid = some q ∧ q.status.terminal = true) ∧
    ∀ c bankRef, (port.authorize ⟨pid, p.amountCents, p.currency, pid⟩ (port.setConfig c s.bank)).1 =
        .resolved (.authorized bankRef) →
      ∃ t q, Path port env unattended s t ∧ t.db.payments pid = some q ∧ q.status = COMPLETED :=
  ⟨exists_ended (n := env.cfg.maxRetries + 1) h hp hst (Nat.le_add_left _ _), fun _ _ => exists_completed h hp hst⟩

/-- A worker crashes after the claim. -/
theorem stuck_recoverable_crashed : ∃ s p, Reach (system SimulatedBankAdapter.port standard) (fun _ a => foreign a = false) s ∧
    s.db.payments "0" = some p ∧ p.status = PROCESSING ∧
    (∃ t q, Path SimulatedBankAdapter.port standard unattended s t ∧ t.db.payments "0" = some q ∧ q.status.terminal = true) ∧
    ∀ c bankRef, (SimulatedBankAdapter.port.authorize ⟨"0", p.amountCents, p.currency, "0"⟩
        (SimulatedBankAdapter.port.setConfig c s.bank)).1 = .resolved (.authorized bankRef) →
      ∃ t q, Path SimulatedBankAdapter.port standard unattended s t ∧ t.db.payments "0" = some q ∧ q.status = COMPLETED := by
  obtain ⟨s, hs, hp⟩ := exists_reach_of_execIf (show (execIf (system SimulatedBankAdapter.port standard)
    (fun _ a => foreign a = false) (system SimulatedBankAdapter.port standard).init
      (accept order 0 "00" ++ claim 0 0 "00" ++ [.authorize 0, .crash 0])).any
      (fun s => (s.db.payments "0").any fun p => p.status = PROCESSING) = true by decide)
  obtain ⟨p, hp, hst⟩ := (Option.any_eq_true _ _).1 hp
  have hst := of_decide_eq_true hst
  exact ⟨s, p, hs, hp, hst, stuck_recoverable hs hp (Or.inl hst)⟩

end PaymentsProcessor.Pipeline
