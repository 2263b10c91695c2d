/-
The workers come to rest. Every step of a worker uses up work that is left: of its run, of a job that waits, or of the retries
a payment has left. So left alone, without clients, polls, re-drives and redeliveries, the workers make only so many steps;
and as long as a job waits or a run is on its way, one of them can go on.
-/
import PaymentsProcessor.Base.Totals
import PaymentsProcessor.Ledger.Recovery

namespace PaymentsProcessor.Pipeline

open Transition PartialMap PaymentStatus Worker Relay Reaper

variable {β κ : Type} {port : BankPort β κ} {env : Env} {s s' t : State β} {a : Action κ}
variable {C : State β → Action κ → Prop}

/-! ## The steps -/

/-- The steps of the workers. -/
def works : Action κ → Bool
  | .dequeue _ _ _ | .claimBegin _ | .claimSelect _ | .readClock _ | .claimUpdate _ | .authorize _ | .receive _ | .timeout _
  | .settleBegin _ | .retryUpdate _ | .finalUpdate _ | .retryAdd _ _ | .fail _ | .finish _ => true
  | _ => false

/-- The workers, the clock, the bank and its configuration, and the end of a reaper's tick. -/
def serving : Action κ → Bool
  | .tick _ | .answer _ | .setConfig _ | .reapEnd _ => true
  | a => works a

/-! ## The work that is left -/

/-- The work that is left of a run: its steps, and the retry job it is about to add. -/
def runLeft (run : Run) : ℕ :=
  match run.pc with
  | .start => 11
  | .claimBegun _ => 10
  | .claimRead _ _ none => 9
  | .claimRead _ _ (some _) => 8
  | .claimDone => 7
  | .calling _ => 6
  | .decided _ => 5
  | .settleBegun _ _ none => 4
  | .settleBegun _ _ (some _) => 3
  | .retryAdd _ => 14
  | .returned | .threw => 1
  | .gone => 0

/-- The work that is left of a job: to be taken and run. -/
def jobLeft (job : Job) : ℕ :=
  match job.state with
  | .waiting | .delayed _ => 12
  | .active _ | .completed | .failed => 0

/-- The work that is left of a payment: its retries. -/
def retriesLeft (cfg : Config) (p : Payment) : ℕ := 12 * (cfg.maxRetries - p.attemptCount)

/-- The work that is left. -/
noncomputable def work (cfg : Config) (s : State β) : ℕ :=
  total s.runs runLeft + total s.queue jobLeft + total s.db.payments (retriesLeft cfg)

theorem finitelyMany_payments (h : Reach (system port env) C s) : FinitelyMany s.db.payments := by
  refine h.invariant (I := fun s => FinitelyMany s.db.payments) finitelyMany_empty fun s a s' _ hI _ hs => ?_
  cases step_sound hs with
  | accepted | claim | exhaust | retry | final => exact hI.update _ _
  | reapUpdate k began time clock stuck =>
    refine hI.mono fun pid hpid => ?_
    rw [Db.insertEvents_payments, Db.updateIn_payments] at hpid
    cases hp : s.db.payments pid with
    | none => rw [hp] at hpid; split at hpid <;> cases hpid
    | some p => rfl
  | _ => exact hI

/-! ## A step of a run -/

/-- A run that moves on exchanges its work. -/
theorem total_runs {runs : ℕ → Option Run} {r : ℕ} {run : Run} (h : FinitelyMany runs) (hr : runs r = some run) (pc : Pc) :
    total (Function.update runs r (some { run with pc := pc })) runLeft + runLeft run =
      total runs runLeft + runLeft { run with pc := pc } := by
  have hexchange := total_update (w := runLeft) h r (some { run with pc := pc })
  rwa [hr] at hexchange

theorem Walk.left_lt {r : Nat} {run : Run} {pc : Pc} (h : Walk s r run a pc) : runLeft { run with pc := pc } < runLeft run := by
  cases h with
  | fail hpc =>
    unfold runLeft
    revert hpc
    dsimp only
    split <;> simp [*, Pc.mayFail]
  | claimBegin hpc | claimNone hpc | claimIllegal hpc | claimRead hpc | claimClock hpc | claimLost hpc | settleBegin hpc
  | settleClock hpc | retryLost hpc | finalLost hpc | retryInvalid hpc =>
    unfold runLeft
    rw [hpc]
    simp

/-- An add costs at most one job. -/
theorem total_add {q : Queue} (h : FinitelyMany q) (jobId name : String) (data : JobData) (state : JobState) :
    total (q.add jobId name data state) jobLeft ≤ total q jobLeft + 12 := by
  unfold Queue.add
  split
  · omega
  · rename_i hfree
    have hexchange := total_update (w := jobLeft) h jobId (some ⟨name, data, state⟩)
    rw [Option.not_isSome_iff_eq_none.1 hfree, weight_none, weight_some] at hexchange
    have hjob : jobLeft ⟨name, data, state⟩ ≤ 12 := by
      unfold jobLeft
      cases state <;> simp
    omega

/-- To close a job costs nothing. -/
theorem total_closeJob {q : Queue} (h : FinitelyMany q) (jobId : String) (r : Nat) {state : JobState}
    (hdone : state = .completed ∨ state = .failed) : total (closeJob q jobId r state) jobLeft ≤ total q jobLeft := by
  unfold closeJob
  split
  · unfold Queue.setState
    have hexchange := total_update (w := jobLeft) h jobId ((q jobId).map fun job => { job with state := state })
    have hnone : weight jobLeft ((q jobId).map fun job => { job with state := state }) = 0 := by
      cases q jobId with
      | none => rfl
      | some job => rcases hdone with rfl | rfl <;> rfl
    omega
  · exact Nat.le_refl _

/-- A payment that is written without an attempt keeps its retries. -/
theorem total_payments (cfg : Config) {payments : String → Option Payment} {pid : String} {p q : Payment}
    (h : FinitelyMany payments) (hp : payments pid = some p) :
    total (Function.update payments pid (some q)) (retriesLeft cfg) + 12 * (cfg.maxRetries - p.attemptCount) =
      total payments (retriesLeft cfg) + 12 * (cfg.maxRetries - q.attemptCount) := by
  have hexchange := total_update (w := retriesLeft cfg) h pid (some q)
  rwa [hp] at hexchange

/-- Every step of a worker uses up work, and no other step of these makes any. -/
theorem work_step (hr : Reach (system port env) Free s) (ha : serving a = true) (hs : Step port env s a s') :
    work env.cfg s' + (if works a then 1 else 0) ≤ work env.cfg s := by
  obtain ⟨hruns, hqueue, -⟩ := bounded hr
  have hpayments := finitelyMany_payments hr
  have hone : (if works a then 1 else 0) ≤ 1 := by split <;> omega
  -- a run that moves on, with the payments and the jobs as they are
  have hmoved : ∀ {r : Nat} {run : Run} (pc : Pc), s.runs r = some run → runLeft { run with pc := pc } < runLeft run →
      total (Function.update s.runs r (some { run with pc := pc })) runLeft < total s.runs runLeft := by
    intro r run pc hrun hlt
    have hexchange := total_runs hruns hrun pc
    omega
  unfold work
  cases hs with
  | tick | answer | setConfig | reapEnd => exact Nat.le_refl _
  | dequeue r w jobId job hfree hjob hready =>
    have hrun := total_update (w := runLeft) hruns r (some ⟨jobId, job.data, w, .start⟩)
    have htaken := total_update (w := jobLeft) hqueue jobId (some { job with state := .active r })
    rw [hfree, weight_none, weight_some] at hrun
    rw [hjob, weight_some, weight_some] at htaken
    have hstart : runLeft ⟨jobId, job.data, w, .start⟩ = 11 := rfl
    have hactive : jobLeft { job with state := .active r } = 0 := rfl
    have hwaits : jobLeft job = 12 := by
      unfold jobLeft
      cases hstate : job.state <;> rw [hstate] at hready <;> first | rfl | cases hready
    have hqueue' : s.queue.setState jobId (.active r) = Function.update s.queue jobId (some { job with state := .active r }) := by
      unfold Queue.setState
      rw [hjob]
      rfl
    rw [hqueue']
    dsimp only
    omega
  | walk a r run pc hrun hwalk =>
    have hlt := hmoved pc hrun hwalk.left_lt
    have hsame : (s.setPc r run pc).runs = Function.update s.runs r (some { run with pc := pc }) := rfl
    have hsame' : (s.setPc r run pc).queue = s.queue ∧ (s.setPc r run pc).db = s.db := ⟨rfl, rfl⟩
    rw [hsame, hsame'.1, hsame'.2]
    omega
  | claim r run began clock p hrun hpc hp =>
    have hlt := hmoved .claimDone hrun (by unfold runLeft; rw [hpc]; simp)
    have hsame := total_payments env.cfg (q := claimSet clock p) hpayments hp
    have hattempts : (claimSet clock p).attemptCount = p.attemptCount := rfl
    rw [hattempts] at hsame
    rw [Db.insertEvents_payments, Db.setPayment_payments]
    dsimp only
    omega
  | call r run hrun hpc =>
    have hlt := hmoved (.calling s.now) hrun (by unfold runLeft; rw [hpc]; simp)
    dsimp only
    omega
  | refuse r run hrun hpc =>
    have hlt := hmoved (.decided (.retry "circuit_open")) hrun (by unfold runLeft; rw [hpc]; simp)
    dsimp only
    omega
  | receive r run call since outcome hrun hpc =>
    have hlt := hmoved (.decided (dispositionOf outcome)) hrun (by unfold runLeft; rw [hpc]; simp)
    dsimp only
    omega
  | rethrow r run call since message hrun hpc =>
    have hlt := hmoved .threw hrun (by unfold runLeft; rw [hpc]; simp)
    dsimp only
    omega
  | timeout r run since hrun hpc =>
    have hlt := hmoved (.decided (.retry "bank_timeout")) hrun (by unfold runLeft; rw [hpc]; simp)
    dsimp only
    omega
  | exhaust r run began clock reason p hrun hpc hp hst hlock hspent =>
    have hlt := hmoved .returned hrun (by unfold runLeft; rw [hpc]; simp)
    have hsame := total_payments env.cfg (q := retrySet env.cfg clock reason p) hpayments hp
    have hattempts : (retrySet env.cfg clock reason p).attemptCount = p.attemptCount + 1 := rfl
    rw [hattempts] at hsame
    rw [Db.insertEvents_payments, Db.setPayment_payments]
    dsimp only
    omega
  | retry r run began clock reason p hrun hpc hp hst hlock hleft =>
    -- the retry that is counted pays for its job
    have hexchange := total_runs hruns hrun (.retryAdd (p.attemptCount + 1))
    have hbefore : runLeft run = 3 := by unfold runLeft; rw [hpc]
    have hafter : runLeft { run with pc := .retryAdd (p.attemptCount + 1) } = 14 := rfl
    have hsame := total_payments env.cfg (q := retrySet env.cfg clock reason p) hpayments hp
    have hattempts : (retrySet env.cfg clock reason p).attemptCount = p.attemptCount + 1 := rfl
    rw [hattempts] at hsame
    rw [Db.insertEvents_payments, Db.setPayment_payments]
    dsimp only
    omega
  | final r run began clock dis target p hrun hpc htarget hp =>
    have hlt := hmoved .returned hrun (by unfold runLeft; rw [hpc]; simp)
    have hsame := total_payments env.cfg (q := settleSet clock target p) hpayments hp
    have hattempts : (settleSet clock target p).attemptCount = p.attemptCount := rfl
    rw [hattempts] at hsame
    rw [Db.insertOutbox_payments, Db.insertEvents_payments, Db.setPayment_payments]
    dsimp only
    omega
  | retryAdd r delay run attempt hrun hpc hpos =>
    have hexchange := total_runs hruns hrun .returned
    have hbefore : runLeft run = 14 := by unfold runLeft; rw [hpc]
    have hafter : runLeft { run with pc := .returned } = 1 := rfl
    have hadd := total_add hqueue (retryJobId run.data.paymentId attempt) "payment_retry" run.data (.delayed (s.now + delay))
    have hsame : ∀ u : State β, (u.setPc r run .returned).runs = Function.update u.runs r (some { run with pc := .returned }) ∧
        (u.setPc r run .returned).queue = u.queue ∧ (u.setPc r run .returned).db = u.db := fun _ => ⟨rfl, rfl, rfl⟩
    rw [(hsame _).1, (hsame _).2.1, (hsame _).2.2]
    show total (Function.update s.runs r _) _ + total (s.queue.add _ _ _ _) _ + total s.db.payments _ + _ ≤ _
    omega
  | finish r run state hrun hpc =>
    have hlt := hmoved .gone hrun (by unfold runLeft; rcases hpc with ⟨hpc, -⟩ | ⟨hpc, -⟩ <;> rw [hpc] <;> simp)
    have hdone : state = .completed ∨ state = .failed := hpc.imp And.right And.right
    have hclose := total_closeJob hqueue run.jobId r hdone
    show total (Function.update s.runs r _) _ + total (closeJob s.queue _ _ _) _ + total s.db.payments _ + _ ≤ _
    omega
  | _ => cases ha

/-! ## A worker can go on -/

/-- No job waits, and no run is on its way. -/
def AtRest (s : State β) : Prop :=
  (∀ r run, s.runs r = some run → run.pc = .gone) ∧ ∀ jobId job, s.queue jobId = some job → jobLeft job = 0

variable (port env) in
/-- A run can go on once its payment is not locked and its call has had its time. -/
theorem exists_enabled {r : Nat} {run : Run} (hrun : s.runs r = some run) (hpc : run.pc ≠ .gone)
    (hunlocked : s.rowLocks run.data.paymentId = none)
    (hlate : ∀ since, run.pc = .calling since → since + env.cfg.bankTimeoutMs ≤ s.now) :
    ∃ a : Action κ, works a = true ∧ (step port env s a).isSome = true := by
  cases h : run.pc with
  | start => exact ⟨.claimBegin r, rfl, by simp [step, claimBegin, hrun, h]⟩
  | claimBegun began =>
    refine ⟨.claimSelect r, rfl, ?_⟩
    simp only [step, claimSelect, hrun, h]
    split
    · rfl
    · split <;> rfl
  | claimRead began status clock =>
    cases clock with
    | none => exact ⟨.readClock r, rfl, by simp [step, readClock, hrun, h]⟩
    | some clock =>
      refine ⟨.claimUpdate r, rfl, ?_⟩
      simp only [step, claimUpdate, hrun, h, hunlocked]
      split <;> rfl
  | claimDone =>
    refine ⟨.authorize r, rfl, ?_⟩
    simp only [step, authorize, hrun, h]
    split <;> rfl
  | calling since => exact ⟨.timeout r, rfl, by simp [step, timeout, hrun, h, hlate since h]⟩
  | decided dis =>
    refine ⟨.settleBegin r, rfl, ?_⟩
    simp only [step, settleBegin, hrun, h]
    split <;> rfl
  | settleBegun began dis clock =>
    cases clock with
    | none => exact ⟨.readClock r, rfl, by simp [step, readClock, hrun, h]⟩
    | some clock =>
      cases dis with
      | retry reason =>
        refine ⟨.retryUpdate r, rfl, ?_⟩
        simp only [step, retryUpdate, hrun, h, hunlocked]
        split
        · rfl
        · split
          · rfl
          · split
            · contradiction
            · split <;> rfl
      | complete bankRef | fail reason =>
        refine ⟨.finalUpdate r, rfl, ?_⟩
        simp only [step, finalUpdate, hrun, h, hunlocked, Disposition.target]
        split <;> rfl
  | retryAdd attempt =>
    refine ⟨.retryAdd r (backoffCap env.cfg attempt), rfl, ?_⟩
    simp only [step, retryAdd, hrun, h, Nat.div_le_self, Nat.le_refl, true_and, if_true]
    split <;> rfl
  | returned | threw => exact ⟨.finish r, rfl, by simp [step, finish, hrun, h]⟩
  | gone => exact absurd h hpc

/-- As long as the workers are not at rest, one of them can go on, after the tick that locks its payment has ended and the
time it waits for has passed. -/
theorem exists_work (hr : Reach (system port env) Free s) (hrest : ¬ AtRest s) :
    ∃ as t, (∀ a ∈ as, serving a = true) ∧ exec (system port env) s as = some t ∧ 0 < as.countP works := by
  by_cases hruns : ∀ r run, s.runs r = some run → run.pc = .gone
  · -- a job waits, and no run takes it
    obtain ⟨jobId, job, hjob, hleft⟩ : ∃ jobId job, s.queue jobId = some job ∧ jobLeft job ≠ 0 := by
      by_contra hnone
      exact hrest ⟨hruns, fun jobId job hjob => by_contra fun hleft => hnone ⟨jobId, job, hjob, hleft⟩⟩
    obtain ⟨ms, hready⟩ : ∃ ms, ready (s.now + ms) job.state = true := by
      unfold jobLeft at hleft
      cases hstate : job.state with
      | waiting => exact ⟨0, rfl⟩
      | delayed readyAt => exact ⟨readyAt, decide_eq_true (Nat.le_add_left _ _)⟩
      | active | completed | failed => rw [hstate] at hleft; exact absurd rfl hleft
    obtain ⟨r, hfree⟩ := (bounded hr).exists_run
    refine ⟨[.tick ms, .dequeue r 0 jobId], { s with
      now := s.now + ms
      queue := s.queue.setState jobId (.active r)
      runs := Function.update s.runs r (some ⟨jobId, job.data, 0, .start⟩) }, ?_, ?_, ?_⟩
    · simp [serving, works]
    · simp [exec, system, step, dequeue, hfree, hjob, hready]
    · simp [works]
  · obtain ⟨r, run, hrun, hpc⟩ : ∃ r run, s.runs r = some run ∧ run.pc ≠ .gone := by
      by_contra hnone
      exact hruns fun r run hrun => by_contra fun hpc => hnone ⟨r, run, hrun, hpc⟩
    obtain ⟨ms, hms⟩ : ∃ ms, ∀ since, run.pc = .calling since → since + env.cfg.bankTimeoutMs ≤ s.now + ms := by
      cases run.pc with
      | calling since =>
        refine ⟨since + env.cfg.bankTimeoutMs, fun since' hsince => ?_⟩
        cases hsince
        omega
      | _ => exact ⟨0, fun _ hsince => by cases hsince⟩
    let k := (s.rowLocks run.data.paymentId).getD 0
    let ready : State β := { s with
      reaps := Function.update s.reaps k none, rowLocks := unlock s.rowLocks k, now := s.now + ms }
    obtain ⟨a, ha, henabled⟩ := exists_enabled port env (s := ready) hrun hpc (unlock_holder _ _) hms
    obtain ⟨t, ht⟩ := Option.isSome_iff_exists.1 henabled
    have hserves : serving a = true := by cases a <;> first | rfl | cases ha
    refine ⟨[.reapEnd k, .tick ms, a], t, ?_, ?_, ?_⟩
    · intro b hb
      simp only [List.mem_cons, List.not_mem_nil, or_false] at hb
      rcases hb with rfl | rfl | rfl
      · rfl
      · rfl
      · exact hserves
    · show (step port env ready a).bind some = some t
      rw [ht]
      rfl
    · simp [ha]

theorem reach_work (hr : Reach (system port env) Free s) (ha : serving a = true)
    (hs : (system port env).step s a = some t) :
    Reach (system port env) Free t ∧ work env.cfg t + (if works a then 1 else 0) ≤ work env.cfg s :=
  ⟨.step hr trivial hs, work_step hr ha (step_sound hs)⟩

/-- In every reached state, left to the workers, the bank and the clock, the workers make no more steps than there is work
left, and wherever that has led them they can come to rest. -/
theorem workers_quiesce (hr : Reach (system port env) Free s) :
    (∀ as t, exec (system port env) s as = some t → (∀ a ∈ as, serving a = true) → as.countP works ≤ work env.cfg s) ∧
      ∀ u, Path port env serving s u → ∃ t, Path port env serving u t ∧ AtRest t := by
  refine ⟨fun as t h hserving => ?_, fun u hu => ?_⟩
  · have hle := countP_le_measure (fun _ _ _ => reach_work) hr hserving h
    omega
  · refine exists_path_of_measure (S := system port env) (work env.cfg) (fun v hv hrest => ?_) (hr.path hu)
    obtain ⟨as, t, hserving, h, hworks⟩ := exists_work hv hrest
    have hle := countP_le_measure (fun _ _ _ => reach_work) hv hserving h
    exact ⟨t, Transition.Path.of_exec hserving h, hv.exec h, by omega⟩

/-- A payment has been accepted and its job added. -/
theorem workers_quiesce_submitted : ∃ s : State SimulatedBankAdapter,
    Reach (system SimulatedBankAdapter.port standard) Free s ∧ (s.queue "00").any (fun job => jobLeft job = 12) = true ∧
    (∀ as t, exec (system SimulatedBankAdapter.port standard) s as = some t → (∀ a ∈ as, serving a = true) →
      as.countP works ≤ work standard.cfg s) ∧
    ∀ u, Path SimulatedBankAdapter.port standard serving s u →
      ∃ t, Path SimulatedBankAdapter.port standard serving u t ∧ AtRest t := by
  obtain ⟨s, hs, hjob⟩ := exists_reach_of_exec (show (exec (system SimulatedBankAdapter.port standard)
    (system SimulatedBankAdapter.port standard).init (accept order 0 "00")).any
      (fun s => (s.queue "00").any fun job => jobLeft job = 12) = true by decide)
  exact ⟨s, hs, hjob, workers_quiesce hs⟩

end PaymentsProcessor.Pipeline
