/-
The retry loop: a payment's submitted job is run to its end, then each retry job in turn, with the clock and the bank
going on. Whatever the bank step of each run comes to, the account after so many runs is the one a fold over these
outcomes gives, and the loop stops where the fold does.
-/
import PaymentsProcessor.Base.Rounds
import PaymentsProcessor.Ledger.Audit
import Std.Data.String.ToNat

namespace PaymentsProcessor

open PaymentStatus

/-! ## The specification -/

namespace Account

/-- What a finalising transaction makes of an account in PROCESSING. -/
def settled (budget : Nat) (dis : Disposition) (x : Account) : Account :=
  match dis with
  | .complete _ => { x.advance COMPLETED with announced := x.announced ++ announcement COMPLETED }
  | .fail _ => { x.advance FAILED with announced := x.announced ++ announcement FAILED }
  | .retry _ =>
    if x.attempts + 1 ≤ budget then { x.advance RETRYING with attempts := x.attempts + 1 }
    else { x.advance FAILED with attempts := x.attempts + 1, exhausted := true }

/-- The account after `n` runs. -/
def after (budget : Nat) (d : ℕ → Disposition) : ℕ → Account
  | 0 => opened
  | n + 1 => ((after budget d n).advance PROCESSING).settled budget (d n)

/-- A run leaves a job for the next one. -/
def retries (budget : Nat) (dis : Disposition) (x : Account) : Bool := dis.isRetry && x.attempts + 1 ≤ budget

end Account

/-- `k` is the first index with a final disposition, `none` if there is none. -/
def FirstFinal (d : ℕ → Disposition) : Option ℕ → Prop
  | some k => (∀ i < k, (d i).isRetry = true) ∧ (d k).isRetry = false
  | none => ∀ i, (d i).isRetry = true

/-- The index of the last run: `min(k, budget)`. -/
def lastRun (budget : ℕ) : Option ℕ → ℕ
  | some k => min k budget
  | none => budget

/-- The transitions up to the claim of the run after `m` scheduled retries. -/
def claimedTrail (m : ℕ) : List (Option PaymentStatus × PaymentStatus) :=
  [(none, PENDING), (some PENDING, PROCESSING)] ++
    (List.replicate m [(some PROCESSING, RETRYING), (some RETRYING, PROCESSING)]).flatten

namespace Pipeline

open Transition PartialMap Worker Account

variable {β κ : Type} (port : BankPort β κ) (env : Env)

/-! ## Running one job after the other -/

/-- The clock and the bank. -/
def quiet : Action κ → Bool
  | .tick _ | .setConfig _ | .answer _ => true
  | _ => false

/-- The steps of a run, the clock and the bank. -/
def alone (r : Nat) : Action κ → Bool
  | .tick _ | .setConfig _ | .answer _ => true
  | .claimBegin r' | .claimSelect r' | .readClock r' | .claimUpdate r' | .authorize r' | .receive r' | .timeout r'
  | .settleBegin r' | .retryUpdate r' | .finalUpdate r' | .retryAdd r' _ => r' = r
  | _ => false

/-- Steps that all pass the test. -/
abbrev Path (p : Action κ → Bool) : State β → State β → Prop :=
  Relation.ReflTransGen fun s s' => ∃ a, p a = true ∧ step port env s a = some s'

/-- A job of the payment is taken and run to its end; its bank step comes to `dis`. -/
inductive JobRun (pid : String) (dis : Disposition) (s s' : State β) : Prop
  | mk (r w : Nat) (jobId : String) (job : Job) (run : Run) (taken begun decided ended : State β)
      (hwait : Path port env quiet s taken) (hjob : taken.queue jobId = some job) (hpid : job.data.paymentId = pid)
      (htake : step port env taken (.dequeue r w jobId) = some begun) (hask : Path port env (alone r) begun decided)
      (hrun : decided.runs r = some run) (hdecided : run.pc = .decided dis) (hend : Path port env (alone r) decided ended)
      (hfinish : step port env ended (.finish r) = some s')

/-- So many jobs of the payment have been run from a state, one after the other. -/
inductive Loop (pid : String) (d : ℕ → Disposition) (s : State β) : ℕ → State β → Prop
  | start : Loop pid d s 0 s
  | next {n : ℕ} {t t' : State β} : Loop pid d s n t → JobRun port env pid (d n) t t' → Loop pid d s (n + 1) t'

/-- The payment has one job left to run. -/
def OneJob (s : State β) (pid jobId : String) : Prop :=
  (∃ job, s.queue jobId = some job ∧ job.data.paymentId = pid ∧
      (job.state = .waiting ∨ ∃ readyAt, job.state = .delayed readyAt)) ∧
    ∀ id job, s.queue id = some job → job.data.paymentId = pid → job.state.live = true → id = jobId

/-- The payment has no job left. -/
def NoJob (s : State β) (pid : String) : Prop :=
  ∀ id job, s.queue id = some job → job.data.paymentId = pid → job.state.live = false

/-- What the bank step of worker `w` may come to, asked in a state: the breaker refuses, the timer fires, or the bank
answers. -/
inductive Offers (s : State β) (w : Nat) (req : BankAuthorizeRequest) : Disposition → Prop
  | refused (h : ((s.breakers w).allow env.cfg s.now).1 = false) : Offers s w req (.retry "circuit_open")
  | timedOut (h : ((s.breakers w).allow env.cfg s.now).1 = true) : Offers s w req (.retry "bank_timeout")
  | answered (outcome : BankOutcome) (h : ((s.breakers w).allow env.cfg s.now).1 = true)
      (hanswer : (port.authorize req s.bank).1 = .resolved outcome) : Offers s w req (dispositionOf outcome)

/-! ## One run -/

variable {port env} {s s' : State β} {a : Action κ} {pid : String} {x : Account} {r : Nat} {q : Queue}

/-- Where a run of a claimable account is, and the disposition of its bank step once there is one. -/
def Stage (budget : Nat) (q : Queue) (x : Account) (pid : String) (s : State β) (run : Run) (dis : Option Disposition) : Prop :=
  match run.pc with
  | .start | .claimBegun _ => dis = none ∧ s.queue = q ∧ s.db.account pid = some x
  | .claimRead _ status _ => dis = none ∧ s.queue = q ∧ s.db.account pid = some x ∧ status = x.status
  | .claimDone | .calling _ => dis = none ∧ s.queue = q ∧ s.db.account pid = some (x.advance PROCESSING)
  | .decided dis' | .settleBegun _ dis' _ =>
    dis = some dis' ∧ s.queue = q ∧ s.db.account pid = some (x.advance PROCESSING)
  | .retryAdd attempt => ∃ dis', dis = some dis' ∧ s.queue = q ∧ retries budget dis' x = true ∧ attempt = x.attempts + 1 ∧
      s.db.account pid = some ((x.advance PROCESSING).settled budget dis')
  | .returned => ∃ dis', dis = some dis' ∧ s.db.account pid = some ((x.advance PROCESSING).settled budget dis') ∧
      if retries budget dis' x then
        ∃ readyAt, s.queue = q.add (retryJobId pid (x.attempts + 1)) "payment_retry" run.data (.delayed readyAt)
      else s.queue = q
  | .threw | .gone => dis = none

theorem status_of_account {p : Payment} (hx : s.db.account pid = some x) (hp : s.db.payments pid = some p) :
    x.status = p.status := by
  obtain ⟨p', hp', hst, -⟩ := Db.account_eq_some hx
  rw [hp] at hp'
  cases hp'
  exact hst

/-- A stage, with the place of the run filled in. -/
theorem Stage.at_pc {budget : Nat} {run : Run} {pc : Pc} {dis : Option Disposition} (h : Stage budget q x pid s run dis)
    (hpc : run.pc = pc) : Stage budget q x pid s { run with pc := pc } dis := by
  subst hpc
  exact h

theorem eq_of_run {r' : Nat} {run run' : Run} (h : r' = r) (hrun : s.runs r = some run) (hr' : s.runs r' = some run') :
    r' = r ∧ run' = run := by
  subst h
  exact ⟨rfl, Option.some.inj (hr'.symm.trans hrun)⟩

/-- A statement that writes nothing takes a run of a claimable account to the next stage: none finds the payment taken. -/
theorem Stage.walk {run : Run} {pc : Pc} {dis : Option Disposition}
    (h : Stage env.cfg.maxRetries q x run.data.paymentId s run dis)
    (hcan : canTransition x.status PROCESSING = true) (hwalk : Walk s r run a pc) (hne : a ≠ .fail r) :
    Stage env.cfg.maxRetries q x run.data.paymentId s { run with pc := pc } dis := by
  cases hwalk with
  | claimBegin hpc =>
    have hstage := h.at_pc hpc
    exact hstage
  | claimNone hpc hp =>
    obtain ⟨-, -, hx⟩ := h.at_pc hpc
    rw [Db.account_eq_none.2 hp] at hx
    cases hx
  | claimIllegal hpc hp hst =>
    obtain ⟨-, -, hx⟩ := h.at_pc hpc
    rw [← status_of_account hx hp, hcan] at hst
    cases hst
  | claimRead hpc hp hst =>
    obtain ⟨hdis, hq, hx⟩ := h.at_pc hpc
    exact ⟨hdis, hq, hx, (status_of_account hx hp).symm⟩
  | claimClock hpc =>
    have hstage := h.at_pc hpc
    exact hstage
  | claimLost hpc hp =>
    -- nothing else moves the payment, so the compare-and-swaps find the status they were told
    obtain ⟨-, -, hx, hst⟩ := h.at_pc hpc
    obtain ⟨p, hpay, hstatus, -⟩ := Db.account_eq_some hx
    exact absurd (hstatus.symm.trans hst.symm) (hp p hpay)
  | settleBegin hpc =>
    have hstage := h.at_pc hpc
    exact hstage
  | settleClock hpc =>
    have hstage := h.at_pc hpc
    exact hstage
  | retryLost hpc hp =>
    obtain ⟨-, -, hx⟩ := h.at_pc hpc
    obtain ⟨p, hpay, hstatus, -⟩ := Db.account_eq_some hx
    exact absurd hstatus.symm (hp p hpay)
  | finalLost hpc htarget hp =>
    obtain ⟨-, -, hx⟩ := h.at_pc hpc
    obtain ⟨p, hpay, hstatus, -⟩ := Db.account_eq_some hx
    exact absurd hstatus.symm (hp p hpay)
  | retryInvalid hpc hlt =>
    obtain ⟨_, -, -, -, hattempt, -⟩ := h.at_pc hpc
    omega
  | fail hpc => exact absurd rfl hne

/-- An alone step of a run takes it to the next stage, and leaves the disposition as it is once there is one. -/
theorem Stage.step {run : Run} {dis : Option Disposition} (h : Stage env.cfg.maxRetries q x pid s run dis)
    (hr : Reach (system port env) Free s) (hcan : canTransition x.status PROCESSING = true)
    (hrun : s.runs r = some run) (hpid : run.data.paymentId = pid) (ha : alone r a = true) (hs : step port env s a = some s') :
    ∃ run' dis', s'.runs r = some run' ∧ run'.jobId = run.jobId ∧ run'.data = run.data ∧
      Stage env.cfg.maxRetries q x pid s' run' dis' ∧ (∀ d, dis = some d → dis' = some d) ∧ s'.rowLocks = s.rowLocks := by
  subst hpid
  have hrule := step_sound hs
  cases hrule with
  | tick ms => exact ⟨run, dis, hrun, rfl, rfl, h, fun _ hd => hd, rfl⟩
  | setConfig c => exact ⟨run, dis, hrun, rfl, rfl, h, fun _ hd => hd, rfl⟩
  | answer r' call hcall hreply hready => exact ⟨run, dis, hrun, rfl, rfl, h, fun _ hd => hd, rfl⟩
  | walk _ r' run' pc hr' hwalk =>
    have hsame : r' = r ∧ a ≠ .fail r' := by cases hwalk <;> first | exact ⟨of_decide_eq_true ha, by simp⟩ | cases ha
    obtain ⟨rfl, hne⟩ := hsame
    cases hrun.symm.trans hr'
    exact ⟨{ run with pc := pc }, dis, Function.update_self .., rfl, rfl, h.walk hcan hwalk hne, fun _ hd => hd, rfl⟩
  | claim r' run' began clock p hr' hpc hp hlock =>
    obtain ⟨rfl, rfl⟩ := eq_of_run (of_decide_eq_true ha) hrun hr'
    obtain ⟨hdis, hq, hx, -⟩ := h.at_pc hpc
    obtain ⟨y, hy, hmove⟩ := moves_of_moved hr hs (.claim hr' hpc hp) hx
    cases hmove
    exact ⟨_, dis, Function.update_self .., rfl, rfl, ⟨hdis, hq, hy⟩, fun _ hd => hd, rfl⟩
  | call r' run' hr' hpc hallow =>
    obtain ⟨rfl, rfl⟩ := eq_of_run (of_decide_eq_true ha) hrun hr'
    exact ⟨_, dis, Function.update_self .., rfl, rfl, h.at_pc hpc, fun _ hd => hd, rfl⟩
  | refuse r' run' hr' hpc hallow =>
    obtain ⟨rfl, rfl⟩ := eq_of_run (of_decide_eq_true ha) hrun hr'
    obtain ⟨rfl, hq, hx⟩ := h.at_pc hpc
    exact ⟨_, _, Function.update_self .., rfl, rfl, ⟨rfl, hq, hx⟩, by simp, rfl⟩
  | receive r' run' call since outcome hr' hpc hcall hreply =>
    obtain ⟨rfl, rfl⟩ := eq_of_run (of_decide_eq_true ha) hrun hr'
    obtain ⟨rfl, hq, hx⟩ := h.at_pc hpc
    exact ⟨_, _, Function.update_self .., rfl, rfl, ⟨rfl, hq, hx⟩, by simp, rfl⟩
  | rethrow r' run' call since message hr' hpc hcall hreply =>
    obtain ⟨rfl, rfl⟩ := eq_of_run (of_decide_eq_true ha) hrun hr'
    exact ⟨_, dis, Function.update_self .., rfl, rfl, (h.at_pc hpc).1, fun _ hd => hd, rfl⟩
  | timeout r' run' since hr' hpc hlate =>
    obtain ⟨rfl, rfl⟩ := eq_of_run (of_decide_eq_true ha) hrun hr'
    obtain ⟨rfl, hq, hx⟩ := h.at_pc hpc
    exact ⟨_, _, Function.update_self .., rfl, rfl, ⟨rfl, hq, hx⟩, by simp, rfl⟩
  | exhaust r' run' began clock reason p hr' hpc hp hst hlock hspent =>
    obtain ⟨rfl, rfl⟩ := eq_of_run (of_decide_eq_true ha) hrun hr'
    obtain ⟨hdis, hq, hx⟩ := h.at_pc hpc
    obtain ⟨y, hy, hmove⟩ := moves_of_moved hr hs (.exhaust hr' hpc hp hst hspent) hx
    cases hmove with
    | exhaust hstatus hspent' =>
      have hno : ¬ (x.advance PROCESSING).attempts + 1 ≤ env.cfg.maxRetries := Nat.not_le.2 hspent'
      refine ⟨_, dis, Function.update_self .., rfl, rfl, ⟨_, hdis, ?_, ?_⟩, fun _ hd => hd, rfl⟩
      · rw [hy, settled, if_neg hno]
      · rw [if_neg (by simpa [retries, Disposition.isRetry, Account.advance] using hno)]
        exact hq
  | retry r' run' began clock reason p hr' hpc hp hst hlock hleft =>
    obtain ⟨rfl, rfl⟩ := eq_of_run (of_decide_eq_true ha) hrun hr'
    obtain ⟨hdis, hq, hx⟩ := h.at_pc hpc
    obtain ⟨y, hy, hmove⟩ := moves_of_moved hr hs (.retry hr' hpc hp hst hleft) hx
    obtain ⟨p', hp', -, -, hattempts, -⟩ := Db.account_eq_some hx
    cases hp.symm.trans hp'
    cases hmove with
    | retry hstatus hleft' =>
      refine ⟨_, dis, Function.update_self .., rfl, rfl, ⟨_, hdis, hq, ?_, ?_, ?_⟩, fun _ hd => hd, rfl⟩
      · simpa [retries, Disposition.isRetry, Account.advance] using hleft'
      · exact congrArg (· + 1) hattempts.symm
      · rw [hy, settled, if_pos hleft']
  | final r' run' began clock dis' target p hr' hpc htarget hp hst hlock =>
    obtain ⟨rfl, rfl⟩ := eq_of_run (of_decide_eq_true ha) hrun hr'
    obtain ⟨hdis, hq, hx⟩ := h.at_pc hpc
    obtain ⟨y, hy, hmove⟩ := moves_of_moved hr hs (.settle hr' hpc htarget hp hst) hx
    cases hmove with
    | settle hstatus hfinal =>
      refine ⟨_, dis, Function.update_self .., rfl, rfl, ⟨_, hdis, ?_, ?_⟩, fun _ hd => hd, rfl⟩
      · rw [hy]
        cases dis' <;> cases htarget <;> rfl
      · rw [if_neg (by cases dis' <;> cases htarget <;> simp [retries, Disposition.isRetry])]
        exact hq
  | retryAdd r' delay run' attempt hr' hpc hpos =>
    obtain ⟨rfl, rfl⟩ := eq_of_run (of_decide_eq_true ha) hrun hr'
    obtain ⟨dis', hdis, hq, hretries, hattempt, hx⟩ := h.at_pc hpc
    refine ⟨_, dis, Function.update_self .., rfl, rfl, ⟨dis', hdis, hx, ?_⟩, fun _ hd => hd, rfl⟩
    rw [if_pos hretries]
    refine ⟨s.now + delay, ?_⟩
    rw [← hattempt, ← hq]
    rfl
  | _ => cases ha

/-! ## Paths -/

variable {t t' : State β} {p : Action κ → Bool} {dis : Disposition}

/-- The clock and the bank leave tables, jobs, runs and locks as they are. -/
theorem quiet_path (h : Path port env quiet s t) :
    t.db = s.db ∧ t.queue = s.queue ∧ t.runs = s.runs ∧ t.rowLocks = s.rowLocks := by
  induction h with
  | refl => exact ⟨rfl, rfl, rfl, rfl⟩
  | tail _ hstep ih =>
    obtain ⟨a, ha, hs⟩ := hstep
    cases step_sound hs with
    | tick ms => exact ih
    | setConfig c => exact ih
    | answer r' call hcall hreply hready => exact ih
    | walk _ r' run' pc hr' hwalk => cases hwalk <;> cases ha
    | _ => cases ha

/-- A run goes through its stages. -/
theorem Stage.path {run : Run} {d : Option Disposition} (h : Stage env.cfg.maxRetries q x pid s run d)
    (hr : Reach (system port env) Free s) (hcan : canTransition x.status PROCESSING = true)
    (hrun : s.runs r = some run) (hpid : run.data.paymentId = pid) (hpath : Path port env (alone r) s t) :
    ∃ run' d', t.runs r = some run' ∧ run'.jobId = run.jobId ∧ run'.data = run.data ∧
      Stage env.cfg.maxRetries q x pid t run' d' ∧ (∀ dis, d = some dis → d' = some dis) ∧ t.rowLocks = s.rowLocks := by
  refine Transition.Path.invariant (S := system port env) (I := fun u => ∃ run' d', u.runs r = some run' ∧
    run'.jobId = run.jobId ∧ run'.data = run.data ∧ Stage env.cfg.maxRetries q x pid u run' d' ∧
    (∀ dis, d = some dis → d' = some dis) ∧ u.rowLocks = s.rowLocks) hr hpath ⟨run, d, hrun, rfl, rfl, h, fun _ hd => hd, rfl⟩ ?_
  rintro u a u' hreach ⟨run1, d1, hrun1, hjob1, hdata1, hstage1, hd1, hlocks1⟩ ha hs
  obtain ⟨run2, d2, hrun2, hjob2, hdata2, hstage2, hd2, hlocks2⟩ :=
    hstage1.step hreach hcan hrun1 (by rw [hdata1, hpid]) ha hs
  exact ⟨run2, d2, hrun2, hjob2.trans hjob1, hdata2.trans hdata1, hstage2, fun dis hd => hd2 dis (hd1 dis hd),
    hlocks2.trans hlocks1⟩

/-! ## The queue -/

/-- The retry jobs of a payment have different ids. -/
theorem retryJobId_injective {m m' : Nat} (h : retryJobId pid m = retryJobId pid m') : m = m' :=
  Nat.repr_injective ((String.append_right_inj _).1 h)

/-- The queue after a job was taken and completed. -/
theorem closeJob_taken {jobId : String} {job : Job} (hjob : q jobId = some job) (i : String) :
    closeJob (q.setState jobId (.active r)) jobId r .completed i =
      if i = jobId then some { job with state := .completed } else q i := by
  unfold closeJob
  rw [if_pos (by simp [Queue.setState_apply, hjob]), Queue.setState_apply, Queue.setState_apply]
  split
  · rename_i hi
    rw [hi, hjob]
    rfl
  · rfl

/-- The same with a new job added meanwhile. -/
theorem closeJob_added {jobId id : String} {job : Job} (r : Nat) (name : String) (data : JobData) (state : JobState)
    (hjob : q jobId = some job) (hid : q id = none) (i : String) :
    closeJob ((q.setState jobId (.active r)).add id name data state) jobId r .completed i =
      if i = jobId then some { job with state := .completed } else if i = id then some ⟨name, data, state⟩ else q i := by
  have hne : jobId ≠ id := by
    rintro rfl
    rw [hid] at hjob
    cases hjob
  unfold closeJob
  rw [if_pos (by simp [Queue.add_apply, Queue.setState_apply, hjob, hne]), Queue.setState_apply, Queue.add_apply,
    Queue.setState_apply]
  by_cases hi : i = jobId
  · subst hi
    simp [Queue.setState_apply, hne, hjob]
  · by_cases hid' : i = id
    · subst hid'
      simp [hi, hid]
    · simp [Queue.setState_apply, hi, hid']

/-- The one job has been completed. -/
theorem OneJob.completed {jobId : String} {job : Job} (h : OneJob s pid jobId)
    (hq : ∀ i, s'.queue i = if i = jobId then some { job with state := .completed } else s.queue i) : NoJob s' pid := by
  intro id job' hjob' hpid
  rw [hq] at hjob'
  split at hjob'
  · cases hjob'
    rfl
  · rename_i hne
    exact Bool.eq_false_iff.2 fun hlive => hne (h.2 id job' hjob' hpid hlive)

/-- The one job has been completed, and another one added. -/
theorem OneJob.replaced {jobId id name : String} {job : Job} {data : JobData} {readyAt : Nat} (h : OneJob s pid jobId)
    (hne : id ≠ jobId) (hdata : data.paymentId = pid)
    (hq : ∀ i, s'.queue i = if i = jobId then some { job with state := .completed }
      else if i = id then some ⟨name, data, .delayed readyAt⟩ else s.queue i) : OneJob s' pid id := by
  refine ⟨⟨⟨name, data, .delayed readyAt⟩, ?_, hdata, Or.inr ⟨readyAt, rfl⟩⟩, fun id' job' hjob' hpid hlive => ?_⟩
  · rw [hq, if_neg hne, if_pos rfl]
  · rw [hq] at hjob'
    split at hjob'
    · cases hjob'
      cases hlive
    · rename_i hother
      split at hjob'
      · rename_i hid
        exact hid
      · exact absurd (h.2 id' job' hjob' hpid hlive) hother

/-! ## What a run comes to -/

/-- At rest: no lock on the payment, and no job under a retry id to come. -/
structure Resting (port : BankPort β κ) (env : Env) (pid : String) (x : Account) (s : State β) : Prop where
  reach : Reach (system port env) Free s
  account : s.db.account pid = some x
  unlocked : s.rowLocks pid = none
  unused : ∀ m, x.attempts < m → s.queue (retryJobId pid m) = none

theorem attempts_settled (budget : Nat) (dis : Disposition) (x : Account) :
    ((x.advance PROCESSING).settled budget dis).attempts = x.attempts + if dis.isRetry then 1 else 0 := by
  unfold settled
  cases dis with
  | complete => rfl
  | fail => rfl
  | retry =>
    dsimp only
    split <;> rfl

/-- A run of the one job of a claimable payment settles the account, and leaves one job, the next retry, if it is to be
retried, and none otherwise. -/
theorem JobRun.result {jobId : String} (h : JobRun port env pid dis s s') (hs : Resting port env pid x s)
    (hone : OneJob s pid jobId) (hcan : canTransition x.status PROCESSING = true) :
    Resting port env pid ((x.advance PROCESSING).settled env.cfg.maxRetries dis) s' ∧
      if retries env.cfg.maxRetries dis x then OneJob s' pid (retryJobId pid (x.attempts + 1)) else NoJob s' pid := by
  obtain ⟨r, w, id, job, run, taken, begun, decided, ended, hwait, hjob, hpid, htake, hask, hrun, hdecided, hend, hfinish⟩ := h
  obtain ⟨hdb, hqueue, -, hlocks⟩ := quiet_path hwait
  have hreach := hs.reach.path hwait
  have hreach' : Reach (system port env) Free begun := .step (a := .dequeue r w id) hreach trivial htake
  rw [hqueue] at hjob
  cases step_sound htake with
  | dequeue _ _ _ job' hfree hjob' hready =>
    rw [hqueue] at hjob'
    cases hjob.symm.trans hjob'
    have hlive : job.state.live = true := by
      cases hst : job.state <;> rw [hst] at hready <;> first | rfl | cases hready
    obtain rfl := hone.2 _ _ hjob hpid hlive
    -- the stages up to the disposition, and from it to the end
    have hstage : Stage env.cfg.maxRetries (s.queue.setState id (.active r)) x pid
        { taken with
          queue := taken.queue.setState id (.active r)
          runs := Function.update taken.runs r (some ⟨id, job.data, w, .start⟩) }
        ⟨id, job.data, w, .start⟩ none := ⟨rfl, by rw [hqueue], by rw [hdb, hs.account]⟩
    obtain ⟨run1, d1, hrun1, hjob1, hdata1, hstage1, -, hlocks1⟩ :=
      hstage.path hreach' hcan (Function.update_self ..) hpid hask
    cases hrun.symm.trans hrun1
    have hd1 : d1 = some dis := (hstage1.at_pc hdecided).1
    obtain ⟨run2, d2, hrun2, hjob2, hdata2, hstage2, hd2, hlocks2⟩ :=
      hstage1.path (hreach'.path hask) hcan hrun (by rw [hdata1]; exact hpid) hend
    rw [hd2 dis hd1] at hstage2
    have hended := (hreach'.path hask).path hend
    have hfinal : Reach (system port env) Free s' := .step (a := .finish r) hended trivial hfinish
    cases step_sound hfinish with
    | finish _ run3 state hrun3 hpc =>
      cases hrun2.symm.trans hrun3
      rcases hpc with ⟨hpc, rfl⟩ | ⟨hpc, -⟩
      · obtain ⟨dis', hdis, hx, hq⟩ := hstage2.at_pc hpc
        cases hdis
        have hjobId : run2.jobId = id := hjob2.trans hjob1
        have hdata : run2.data = job.data := hdata2.trans hdata1
        have hunlocked : ended.rowLocks pid = none := by
          rw [hlocks2, hlocks1]
          exact hlocks ▸ hs.unlocked
        have htaken : ∀ m, s.queue (retryJobId pid m) = none → retryJobId pid m ≠ id := by
          intro m hnone hc
          rw [hc, hjob] at hnone
          cases hnone
        rw [hjobId] at hfinal ⊢
        by_cases hretries : retries env.cfg.maxRetries dis x = true
        · rw [if_pos hretries] at hq ⊢
          obtain ⟨readyAt, hq⟩ := hq
          have hfresh := hs.unused (x.attempts + 1) (Nat.lt_succ_self _)
          have hafter := fun i => closeJob_added r "payment_retry" run2.data (.delayed readyAt) hjob hfresh i
          rw [← hq] at hafter
          have hretry : dis.isRetry = true := (Bool.and_eq_true_iff.1 hretries).1
          refine ⟨⟨hfinal, hx, hunlocked, fun m hm => ?_⟩, hone.replaced (htaken _ hfresh) (by rw [hdata]; exact hpid) hafter⟩
          rw [attempts_settled, if_pos hretry] at hm
          have hunused := hs.unused m (by omega)
          -- the ids to come are those of higher attempts
          have hne : retryJobId pid m ≠ retryJobId pid (x.attempts + 1) := fun hc => by
            have hm' := retryJobId_injective hc
            omega
          exact (hafter _).trans ((if_neg (htaken m hunused)).trans ((if_neg hne).trans hunused))
        · rw [if_neg hretries] at hq ⊢
          have hafter := fun i => closeJob_taken (r := r) hjob i
          rw [← hq] at hafter
          refine ⟨⟨hfinal, hx, hunlocked, fun m hm => ?_⟩, hone.completed hafter⟩
          rw [attempts_settled] at hm
          have hunused := hs.unused m (by omega)
          exact (hafter _).trans ((if_neg (htaken m hunused)).trans hunused)
      · cases hstage2.at_pc hpc
    | walk _ _ _ _ _ hwalk => cases hwalk
  | walk _ _ _ _ _ hwalk => cases hwalk

/-! ## A run can be made -/

theorem Path.single {p : Action κ → Bool} (a : Action κ) (ha : p a = true) (hs : step port env s a = some s') :
    Path port env p s s' := Transition.Path.single (S := system port env) a ha hs

variable (port env) in
/-- A run of a claimable payment claims it. -/
theorem exists_claimed {run : Run} (hrun : s.runs r = some run) (hpc : run.pc = .start) (hpid : run.data.paymentId = pid)
    (hx : s.db.account pid = some x) (hcan : canTransition x.status PROCESSING = true) (hunlocked : s.rowLocks pid = none) :
    ∃ t, Path port env (alone r) s t ∧ t.runs r = some { run with pc := .claimDone } ∧ t.now = s.now ∧ t.bank = s.bank ∧
      t.breakers = s.breakers := by
  subst hpid
  obtain ⟨p, hp, hst, -⟩ := Db.account_eq_some hx
  rw [hst] at hcan
  have hbegin : step port env s (.claimBegin r) = some (s.setPc r run (.claimBegun s.now)) := by
    simp [step, claimBegin, hrun, hpc]
  have hselect : step port env (s.setPc r run (.claimBegun s.now)) (.claimSelect r) =
      some (s.setPc r run (.claimRead s.now p.status none)) := by
    simp [step, claimSelect, State.setPc, hp, hcan]
  have hclock : step port env (s.setPc r run (.claimRead s.now p.status none)) (.readClock r) =
      some (s.setPc r run (.claimRead s.now p.status (some s.now))) := by
    simp [step, readClock, State.setPc]
  obtain ⟨t, hupdate, hrun', hframe⟩ : ∃ t, step port env (s.setPc r run (.claimRead s.now p.status (some s.now)))
      (.claimUpdate r) = some t ∧ t.runs r = some { run with pc := .claimDone } ∧
      t.now = s.now ∧ t.bank = s.bank ∧ t.breakers = s.breakers := by
    apply Exists.intro
    constructor
    · simp [step, claimUpdate, State.setPc, Db.updateWhere, hp, hunlocked]
      rfl
    · exact ⟨Function.update_self .., rfl, rfl, rfl⟩
  refine ⟨t, ?_, hrun', hframe⟩
  exact (((Path.single _ (by simp [alone]) hbegin).trans (Path.single _ (by simp [alone]) hselect)).trans
    (Path.single _ (by simp [alone]) hclock)).trans (Path.single _ (by simp [alone]) hupdate)

/-- The bank step comes to whatever is offered. -/
theorem exists_decided {run : Run} (hrun : s.runs r = some run) (hpc : run.pc = .claimDone)
    (hoffer : Offers port env s run.worker (requestOf run.data) dis) :
    ∃ t, Path port env (alone r) s t ∧ t.runs r = some { run with pc := .decided dis } := by
  cases hoffer with
  | refused hallow =>
    obtain ⟨t, hask, hrun1⟩ : ∃ t, step port env s (.authorize r) = some t ∧
        t.runs r = some { run with pc := .decided (.retry "circuit_open") } := by
      apply Exists.intro
      constructor
      · simp [step, authorize, hrun, hpc, hallow]
        rfl
      · exact Function.update_self ..
    exact ⟨t, Path.single _ (by simp [alone]) hask, hrun1⟩
  | timedOut hallow =>
    -- the timer fires with the bank still silent
    obtain ⟨t, hask, hrun1, hnow⟩ : ∃ t, step port env s (.authorize r) = some t ∧
        t.runs r = some { run with pc := .calling s.now } ∧ t.now = s.now := by
      apply Exists.intro
      constructor
      · simp [step, authorize, hrun, hpc, hallow]
        rfl
      · exact ⟨Function.update_self .., rfl⟩
    obtain ⟨u, hlate, hrun2⟩ : ∃ u, step port env { t with now := t.now + env.cfg.bankTimeoutMs } (.timeout r) = some u ∧
        u.runs r = some { run with pc := .decided (.retry "bank_timeout") } := by
      apply Exists.intro
      constructor
      · simp [step, timeout, hrun1, hnow]
        rfl
      · exact Function.update_self ..
    exact ⟨u, ((Path.single _ (by simp [alone]) hask).trans (Path.single (.tick env.cfg.bankTimeoutMs) rfl rfl)).trans
      (Path.single _ (by simp [alone]) hlate), hrun2⟩
  | answered outcome hallow hanswer =>
    -- the bank answers when its latency has passed, in the state it was called in
    obtain ⟨t, hask, hrun1, hcall, hnow, hbank⟩ : ∃ t, step port env s (.authorize r) = some t ∧
        t.runs r = some { run with pc := .calling s.now } ∧
        t.calls r = some ⟨requestOf run.data, s.now + port.latencyMs s.bank, none⟩ ∧ t.now = s.now ∧ t.bank = s.bank := by
      apply Exists.intro
      constructor
      · simp [step, authorize, hrun, hpc, hallow]
        rfl
      · exact ⟨Function.update_self .., Function.update_self .., rfl, rfl⟩
    obtain ⟨u, hreply, hrun2, hcall2⟩ : ∃ u, step port env { t with now := t.now + port.latencyMs s.bank } (.answer r) = some u ∧
        u.runs r = some { run with pc := .calling s.now } ∧
        u.calls r = some ⟨requestOf run.data, s.now + port.latencyMs s.bank, some (.resolved outcome)⟩ := by
      apply Exists.intro
      constructor
      · simp [step, answer, hcall, hnow]
        rfl
      · exact ⟨hrun1, by simp [hbank, hanswer]⟩
    obtain ⟨v, hreceive, hrun3⟩ : ∃ v, step port env u (.receive r) = some v ∧
        v.runs r = some { run with pc := .decided (dispositionOf outcome) } := by
      apply Exists.intro
      constructor
      · simp [step, receive, hrun2, hcall2]
        rfl
      · exact Function.update_self ..
    exact ⟨v, (((Path.single _ (by simp [alone]) hask).trans (Path.single (.tick (port.latencyMs s.bank)) rfl rfl)).trans
      (Path.single (.answer r) rfl hreply)).trans (Path.single _ (by simp [alone]) hreceive), hrun3⟩

variable (port env) in
/-- A run that has decided comes to its end. -/
theorem exists_returned {run : Run} (hrun : s.runs r = some run) (hpc : run.pc = .decided dis)
    (hpid : run.data.paymentId = pid) (hx : s.db.account pid = some (x.advance PROCESSING)) (hunlocked : s.rowLocks pid = none) :
    ∃ t, Path port env (alone r) s t ∧ t.runs r = some { run with pc := .returned } := by
  subst hpid
  obtain ⟨p, hp, hst, -⟩ := Db.account_eq_some hx
  have hbegin : step port env s (.settleBegin r) = some (s.setPc r run (.settleBegun s.now dis none)) := by
    cases dis <;> simp [step, settleBegin, hrun, hpc, Disposition.target, canTransition, transitionMap]
  have hclock : step port env (s.setPc r run (.settleBegun s.now dis none)) (.readClock r) =
      some (s.setPc r run (.settleBegun s.now dis (some s.now))) := by
    simp [step, readClock, State.setPc]
  have hbegun := (Path.single (p := alone r) _ (by simp [alone]) hbegin).trans (Path.single _ (by simp [alone]) hclock)
  cases hdis : dis.target with
  | some target =>
    obtain ⟨t, hupdate, hrun1⟩ : ∃ t, step port env (s.setPc r run (.settleBegun s.now dis (some s.now)))
        (.finalUpdate r) = some t ∧ t.runs r = some { run with pc := .returned } := by
      apply Exists.intro
      constructor
      · simp [step, finalUpdate, State.setPc, Db.updateWhere, hp, ← hst, hunlocked, hdis, Account.advance]
        rfl
      · exact Function.update_self ..
    exact ⟨t, hbegun.trans (Path.single _ (by simp [alone]) hupdate), hrun1⟩
  | none =>
    cases dis with
    | complete => cases hdis
    | fail => cases hdis
    | retry reason =>
      by_cases hspent : p.attemptCount + 1 > env.cfg.maxRetries
      · obtain ⟨t, hupdate, hrun1⟩ : ∃ t, step port env (s.setPc r run (.settleBegun s.now (.retry reason) (some s.now)))
            (.retryUpdate r) = some t ∧ t.runs r = some { run with pc := .returned } := by
          apply Exists.intro
          constructor
          · simp [step, retryUpdate, State.setPc, Db.updateWhere, hp, ← hst, hunlocked, Account.advance, canTransition,
              transitionMap, retrySet_spent hspent]
            rfl
          · exact Function.update_self ..
        exact ⟨t, hbegun.trans (Path.single _ (by simp [alone]) hupdate), hrun1⟩
      · obtain ⟨t, hupdate, hrun1⟩ : ∃ t, step port env (s.setPc r run (.settleBegun s.now (.retry reason) (some s.now)))
            (.retryUpdate r) = some t ∧ t.runs r = some { run with pc := .retryAdd (p.attemptCount + 1) } := by
          apply Exists.intro
          constructor
          · simp [step, retryUpdate, State.setPc, Db.updateWhere, hp, ← hst, hunlocked, Account.advance, canTransition,
              transitionMap, retrySet_left (Nat.le_of_not_lt hspent)]
            rfl
          · exact Function.update_self ..
        obtain ⟨u, hadd, hrun2⟩ : ∃ u, step port env t (.retryAdd r (backoffCap env.cfg (p.attemptCount + 1))) = some u ∧
            u.runs r = some { run with pc := .returned } := by
          apply Exists.intro
          constructor
          · simp [step, retryAdd, hrun1, Nat.div_le_self]
            rfl
          · exact Function.update_self ..
        exact ⟨u, (hbegun.trans (Path.single _ (by simp [alone]) hupdate)).trans (Path.single _ (by simp [alone]) hadd), hrun2⟩

/-- The one job of a claimable payment can be run to its end, whatever the bank step comes to. -/
theorem exists_jobRun {jobId : String} {job : Job} {ms w : Nat} (hs : Resting port env pid x s)
    (hjob : s.queue jobId = some job) (hpid : job.data.paymentId = pid) (hcan : canTransition x.status PROCESSING = true)
    (hfree : s.runs r = none) (hready : ready (s.now + ms) job.state = true)
    (hoffer : Offers port env { s with now := s.now + ms } w (requestOf job.data) dis) : ∃ s', JobRun port env pid dis s s' := by
  have hwait : Path port env quiet s { s with now := s.now + ms } := Path.single (.tick ms) rfl rfl
  obtain ⟨begun, htake, hrun, hdb, hunlocked, hframe⟩ : ∃ t,
      step port env { s with now := s.now + ms } (.dequeue r w jobId) = some t ∧
      t.runs r = some ⟨jobId, job.data, w, .start⟩ ∧ t.db = s.db ∧ t.rowLocks = s.rowLocks ∧ t.now = s.now + ms ∧
      t.bank = s.bank ∧ t.breakers = s.breakers ∧ t.queue = s.queue.setState jobId (.active r) := by
    apply Exists.intro
    constructor
    · simp [step, dequeue, hfree, hjob, hready]
      rfl
    · exact ⟨Function.update_self .., rfl, rfl, rfl, rfl, rfl, rfl⟩
  obtain ⟨hnow, hbank, hbreakers, hqueue⟩ := hframe
  have hreach : Reach (system port env) Free begun :=
    .step (a := .dequeue r w jobId) (hs.reach.path hwait) trivial htake
  have hx : begun.db.account pid = some x := by rw [hdb, hs.account]
  obtain ⟨claimed, hclaim, hrun1, hnow1, hbank1, hbreakers1⟩ :=
    exists_claimed port env hrun rfl hpid hx hcan (by rw [hunlocked]; exact hs.unlocked)
  have hoffer' : Offers port env claimed w (requestOf job.data) dis := by
    have hsame : (claimed.breakers w).allow env.cfg claimed.now = (s.breakers w).allow env.cfg (s.now + ms) := by
      rw [hnow1, hbreakers1, hnow, hbreakers]
    cases hoffer with
    | refused h => exact .refused (hsame ▸ h)
    | timedOut h => exact .timedOut (hsame ▸ h)
    | answered outcome h hanswer => exact .answered outcome (hsame ▸ h) (by rw [hbank1, hbank]; exact hanswer)
  obtain ⟨decided, hask, hrun2⟩ := exists_decided hrun1 rfl hoffer'
  -- the account and the locks where the run has decided
  have hstage : Stage env.cfg.maxRetries (s.queue.setState jobId (.active r)) x pid begun ⟨jobId, job.data, w, .start⟩ none :=
    ⟨rfl, hqueue, hx⟩
  obtain ⟨run, d, hrun2', -, -, hstage2, -, hlocks2⟩ := hstage.path hreach hcan hrun hpid (hclaim.trans hask)
  cases hrun2.symm.trans hrun2'
  obtain ⟨ended, hend, hrun3⟩ := exists_returned port env hrun2 rfl hpid hstage2.2.2
    (by rw [hlocks2, hunlocked]; exact hs.unlocked)
  obtain ⟨s', hfinish⟩ : ∃ s', step port env ended (.finish r) = some s' := by
    simp [step, finish, hrun3]
  exact ⟨s', .mk r w jobId job _ _ begun decided ended hwait hjob hpid htake (hclaim.trans hask) hrun2 rfl hend hfinish⟩

/-- A run needs a job. -/
theorem JobRun.live (h : JobRun port env pid dis s s') :
    ∃ id job, s.queue id = some job ∧ job.data.paymentId = pid ∧ job.state.live = true := by
  obtain ⟨r, w, id, job, run, taken, begun, decided, ended, hwait, hjob, hpid, htake, -⟩ := h
  rw [(quiet_path hwait).2.1] at hjob
  refine ⟨id, job, hjob, hpid, ?_⟩
  cases step_sound htake with
  | dequeue _ _ _ job' hfree hjob' hready =>
    rw [(quiet_path hwait).2.1] at hjob'
    cases hjob.symm.trans hjob'
    cases hst : job.state <;> rw [hst] at hready <;> first | rfl | cases hready
  | walk _ _ _ _ _ hwalk => cases hwalk

/-! ## The loop -/

variable {budget n : ℕ} {d : ℕ → Disposition} {k : Option ℕ}

/-- After `n` retries the payment can be claimed again, with that many attempts. -/
theorem after_claimed (hretry : ∀ i < n, (d i).isRetry = true) (hn : n ≤ budget) :
    (Account.after budget d n).attempts = n ∧ canTransition (Account.after budget d n).status PROCESSING = true ∧
      ((Account.after budget d n).advance PROCESSING).trail = claimedTrail n := by
  induction n with
  | zero => exact ⟨rfl, rfl, rfl⟩
  | succ n ih =>
    obtain ⟨hattempts, -, htrail⟩ := ih (fun i hi => hretry i (by omega)) (by omega)
    have hd := hretry n (by omega)
    cases hdis : d n with
    | complete => rw [hdis] at hd; cases hd
    | fail => rw [hdis] at hd; cases hd
    | retry reason =>
      have hleft : ((Account.after budget d n).advance PROCESSING).attempts + 1 ≤ budget := by
        change (Account.after budget d n).attempts + 1 ≤ budget
        omega
      have hafter : Account.after budget d (n + 1) =
          { ((Account.after budget d n).advance PROCESSING).advance RETRYING with
            attempts := ((Account.after budget d n).advance PROCESSING).attempts + 1 } := by
        change ((Account.after budget d n).advance PROCESSING).settled budget (d n) = _
        rw [hdis, settled, if_pos hleft]
      rw [hafter]
      refine ⟨congrArg (· + 1) hattempts, rfl, ?_⟩
      change (((Account.after budget d n).advance PROCESSING).trail ++ [(some PROCESSING, RETRYING)]) ++
        [(some RETRYING, PROCESSING)] = claimedTrail (n + 1)
      rw [htrail]
      unfold claimedTrail
      rw [List.replicate_succ', List.flatten_append]
      simp

theorem le_budget (hn : n ≤ lastRun budget k) : n ≤ budget := by
  cases k with
  | none => exact hn
  | some k => exact le_trans hn (min_le_right _ _)

theorem retry_before (hk : FirstFinal d k) (hn : n ≤ lastRun budget k) : ∀ i < n, (d i).isRetry = true := by
  intro i hi
  cases k with
  | none => exact hk i
  | some k =>
    have hle := le_trans hn (min_le_left k budget)
    exact hk.1 i (by omega)

/-- The loop goes on exactly before its last run. -/
theorem retries_iff (hk : FirstFinal d k) (hn : n ≤ lastRun budget k) (hattempts : (Account.after budget d n).attempts = n) :
    retries budget (d n) (Account.after budget d n) = true ↔ n < lastRun budget k := by
  unfold retries
  rw [hattempts, Bool.and_eq_true, decide_eq_true_eq]
  cases k with
  | none => exact and_iff_right (hk n)
  | some k =>
    obtain ⟨hbefore, hfinal⟩ := hk
    have hmin : n ≤ min k budget := hn
    change _ ↔ n < min k budget
    rw [lt_min_iff]
    constructor
    · rintro ⟨hretry, hleft⟩
      have hne : n ≠ k := by
        rintro rfl
        rw [hfinal] at hretry
        cases hretry
      omega
    · rintro ⟨hlt, hleft⟩
      exact ⟨hbefore n hlt, hleft⟩

/-- What is left after `n` runs. -/
structure LoopInv (port : BankPort β κ) (env : Env) (pid : String) (d : ℕ → Disposition) (k : Option ℕ) (n : ℕ)
    (t : State β) : Prop where
  bounded : n ≤ lastRun env.cfg.maxRetries k + 1
  resting : Resting port env pid (Account.after env.cfg.maxRetries d n) t
  proceeds : n ≤ lastRun env.cfg.maxRetries k → ∃ jobId, OneJob t pid jobId
  stops : n = lastRun env.cfg.maxRetries k + 1 → NoJob t pid

theorem Loop.inv (hk : FirstFinal d k) (hs : LoopInv port env pid d k 0 s) (h : Loop port env pid d s n t) :
    LoopInv port env pid d k n t := by
  induction h with
  | start => exact hs
  | @next n t t' _ hrun ih =>
    by_cases hn : n ≤ lastRun env.cfg.maxRetries k
    · obtain ⟨hattempts, hcan, -⟩ := after_claimed (retry_before hk hn) (le_budget hn)
      obtain ⟨jobId, hone⟩ := ih.proceeds hn
      obtain ⟨hresting, hjobs⟩ := hrun.result ih.resting hone hcan
      have hiff := retries_iff hk hn hattempts
      refine ⟨by omega, hresting, fun hle => ?_, fun heq => ?_⟩
      · rw [if_pos (hiff.2 (by omega))] at hjobs
        exact ⟨_, hjobs⟩
      · rwa [if_neg (mt hiff.1 (by omega))] at hjobs
    · have hstop : n = lastRun env.cfg.maxRetries k + 1 := by
        have hbounded := ih.bounded
        omega
      obtain ⟨id, job, hjob, hpid, hlive⟩ := hrun.live
      rw [ih.stops hstop id job hjob hpid] at hlive
      cases hlive

/-- The loop from a state on: it makes `min(k, MAX_RETRIES) + 1` runs, each of which can be made whatever its bank step
comes to, and leaves the payment as the last disposition says. -/
structure LoopLaw (port : BankPort β κ) (env : Env) (pid : String) (d : ℕ → Disposition) (k : Option ℕ) (s : State β) : Prop where
  bounded : ∀ n t, Loop port env pid d s n t → n ≤ lastRun env.cfg.maxRetries k + 1
  proceeds : ∀ n t, Loop port env pid d s n t → n ≤ lastRun env.cfg.maxRetries k → ∃ jobId job, OneJob t pid jobId ∧
    t.queue jobId = some job ∧ ∀ r w ms dis, t.runs r = none → ready (t.now + ms) job.state = true →
      Offers port env { t with now := t.now + ms } w (requestOf job.data) dis → ∃ t', JobRun port env pid dis t t'
  stops : ∀ t, Loop port env pid d s (lastRun env.cfg.maxRetries k + 1) t → NoJob t pid ∧ ∃ p, t.db.payments pid = some p ∧
    (∀ m, k = some m → m ≤ env.cfg.maxRetries → (d m).target = some p.status ∧ p.attemptCount = m) ∧
    ((∀ m, k = some m → env.cfg.maxRetries < m) → p.status = FAILED ∧ p.attemptCount = env.cfg.maxRetries + 1) ∧
    (t.db.eventsOf pid).map (fun e => (e.fromStatus, e.toStatus)) =
      claimedTrail (lastRun env.cfg.maxRetries k) ++ [(some PROCESSING, p.status)]

/-- The account after the last run. -/
theorem settled_last (hk : FirstFinal d k) {x : Account} (hx : x = Account.after budget d (lastRun budget k + 1)) :
    (∀ m, k = some m → m ≤ budget → (d m).target = some x.status ∧ x.attempts = m) ∧
    ((∀ m, k = some m → budget < m) → x.status = FAILED ∧ x.attempts = budget + 1) ∧
    x.trail = claimedTrail (lastRun budget k) ++ [(some PROCESSING, x.status)] := by
  obtain ⟨hattempts, -, htrail⟩ := after_claimed (retry_before hk (le_refl (lastRun budget k))) (le_budget (le_refl _))
  have hmore := mt (retries_iff hk (le_refl _) hattempts).1 (lt_irrefl _)
  have hclaimed : ((Account.after budget d (lastRun budget k)).advance PROCESSING).attempts = lastRun budget k := hattempts
  change x = ((Account.after budget d (lastRun budget k)).advance PROCESSING).settled budget (d (lastRun budget k)) at hx
  cases hd : d (lastRun budget k) with
  | retry reason =>
    -- the budget is spent
    have hspent : ¬ lastRun budget k + 1 ≤ budget := by
      intro hle
      apply hmore
      unfold retries
      rw [hd, hattempts]
      exact Bool.and_eq_true_iff.2 ⟨rfl, decide_eq_true hle⟩
    rw [hd, settled, if_neg (by rwa [hclaimed])] at hx
    have hlast : lastRun budget k = budget := le_antisymm (le_budget (le_refl _)) (by omega)
    refine ⟨fun m hm hle => ?_, fun _ => ?_, ?_⟩
    · subst hm
      have hfinal := hk.2
      rw [show lastRun budget (some m) = m from min_eq_left hle] at hd
      rw [hd] at hfinal
      cases hfinal
    · rw [hx]
      refine ⟨rfl, ?_⟩
      change ((Account.after budget d (lastRun budget k)).advance PROCESSING).attempts + 1 = budget + 1
      rw [hclaimed, hlast]
    · rw [hx, ← htrail]
      rfl
  | complete bankRef | fail reason =>
    have hfirst : k = some (lastRun budget k) := by
      cases k with
      | none =>
        have hretry := hk (lastRun budget none)
        rw [hd] at hretry
        cases hretry
      | some k =>
        have hle : k ≤ lastRun budget (some k) := by
          by_contra hlt
          have hretry := hk.1 _ (Nat.lt_of_not_le hlt)
          rw [hd] at hretry
          cases hretry
        exact congrArg some (le_antisymm hle (min_le_left _ _))
    rw [hd, settled] at hx
    refine ⟨fun m hm hle => ?_, fun hlate => ?_, ?_⟩
    · rw [hfirst] at hm
      cases hm
      rw [hx, hd]
      exact ⟨rfl, hclaimed⟩
    · have hlt := hlate _ hfirst
      have hle := le_budget (le_refl (lastRun budget k))
      omega
    · rw [hx, ← htrail]
      rfl

/-- A payment that is pending has its submission's account. -/
theorem eq_opened_of_pending (h : x.WF) (hst : x.status = PENDING) : x = opened := by
  obtain ⟨htrail, hversion, hattempts, hexhausted, hannounced⟩ := h
  cases x with
  | mk status version attempts trail exhausted announced =>
    dsimp only at *
    subst hst
    have hopen : trail = [(none, PENDING)] := by
      cases htrail with
      | start => rfl
      | step _ hedge =>
        unfold Edge at hedge
        rw [not_canTransition_pending] at hedge
        cases hedge
    have hnot : exhausted = false := Bool.eq_false_iff.2 fun hc => by cases hexhausted hc
    subst hopen hnot
    have hzero : version = 0 := by simpa using hversion.symm
    have hnone : attempts = 0 := hattempts
    have hnil : announced = [] := hannounced
    rw [hzero, hnone, hnil]
    rfl

/-- A pending payment with its one submitted job: with no crash, no reaper and no other job of the payment, each job run
to its end before the next, the loop obeys its law. -/
theorem retry_loop {jobId : String} {p : Payment} (hr : Reach (system port env) Free s) (hp : s.db.payments pid = some p)
    (hpending : p.status = PENDING) (hone : OneJob s pid jobId) (hunlocked : s.rowLocks pid = none)
    (hunused : ∀ m, 0 < m → s.queue (retryJobId pid m) = none) (hk : FirstFinal d k) : LoopLaw port env pid d k s := by
  obtain ⟨x, hx, hst, -⟩ := account_of_payment hp
  have hopened := eq_opened_of_pending ((ledgerInv hr).wf hx) (hst.trans hpending)
  subst hopened
  have hs : LoopInv port env pid d k 0 s := ⟨by omega, ⟨hr, hx, hunlocked, hunused⟩, fun _ => ⟨jobId, hone⟩, fun h => by omega⟩
  refine ⟨fun n t h => (h.inv hk hs).bounded, fun n t h hn => ?_, fun t h => ?_⟩
  · have hI := h.inv hk hs
    obtain ⟨-, hcan, -⟩ := after_claimed (retry_before hk hn) (le_budget hn)
    obtain ⟨id, hone'⟩ := hI.proceeds hn
    obtain ⟨job, hjob, hpid, -⟩ := hone'.1
    exact ⟨id, job, hone', hjob, fun r w ms dis hfree hready hoffer =>
      exists_jobRun hI.resting hjob hpid hcan hfree hready hoffer⟩
  · have hI := h.inv hk hs
    obtain ⟨p', hp', hst', -, hattempts', htrail', -⟩ := Db.account_eq_some hI.resting.account
    obtain ⟨hfinal, hexhausted, htrail⟩ := settled_last hk rfl
    rw [hst', hattempts'] at hfinal
    rw [hst', hattempts'] at hexhausted
    rw [htrail', hst'] at htrail
    exact ⟨hI.stops rfl, p', hp', hfinal, hexhausted, htrail⟩

/-- Submitted, published, and now retried once and then completed, in two runs. -/
theorem retry_loop_completed : ∃ s, Reach (system SimulatedBankAdapter.port standard) Free s ∧
    LoopLaw SimulatedBankAdapter.port standard "0" (fun i => if i = 0 then .retry "bank_timeout" else .complete "ref")
      (some 1) s := by
  have hpublished : (exec (system SimulatedBankAdapter.port standard) (system SimulatedBankAdapter.port standard).init
      (accept order 0 "00")).isSome = true := by decide
  refine ⟨Option.get _ hpublished, Reach.init.exec (Option.some_get _).symm, ?_⟩
  have hreach := Reach.init.exec (Option.some_get hpublished).symm
  have hpayment : ∃ p, (Option.get _ hpublished).db.payments "0" = some p ∧ p.status = PENDING ∧
      (Option.get _ hpublished).rowLocks "0" = none := ⟨_, rfl, rfl, rfl⟩
  have hqueue : ∃ data : JobData, (Option.get _ hpublished).queue =
      Queue.add (fun _ => none) "00" "payment.submitted" data .waiting ∧ data.paymentId = "0" := ⟨_, rfl, rfl⟩
  generalize Option.get _ hpublished = s at *
  obtain ⟨p, hp, hpending, hunlocked⟩ := hpayment
  obtain ⟨data, hqueue, hpid⟩ := hqueue
  have hjobs : ∀ id, s.queue id = if id = "00" then some ⟨"payment.submitted", data, .waiting⟩ else none := by
    intro id
    rw [hqueue, Queue.add_apply]
    simp
  have hone : OneJob s "0" "00" := by
    refine ⟨⟨_, (hjobs "00").trans (if_pos rfl), hpid, Or.inl rfl⟩, fun id job hjob _ _ => ?_⟩
    rw [hjobs] at hjob
    split at hjob
    · rename_i hid
      exact hid
    · cases hjob
  refine retry_loop hreach hp hpending hone hunlocked (fun m _ => ?_) ⟨fun i hi => ?_, rfl⟩
  · rw [hjobs, if_neg]
    intro hc
    have hlen := congrArg String.length hc
    unfold retryJobId at hlen
    simp only [String.length_append] at hlen
    have hprefix : "0".length + ":retry:".length = 8 := by decide
    have hshort : "00".length = 2 := by decide
    omega
  · obtain rfl := Nat.lt_one_iff.1 hi
    rfl

end Pipeline

end PaymentsProcessor
