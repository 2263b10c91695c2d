/-
The ids of retry jobs. The RETRY transaction returns the attempt it counted and the id is made of it after the commit,
while other runs and the reaper go on counting. No attempt is returned twice, so the queue, which keeps finished jobs,
drops no retry job as a duplicate.
-/
import PaymentsProcessor.Base.History
import PaymentsProcessor.Ledger.Refinement
import PaymentsProcessor.Pipeline.Publishing
import PaymentsProcessor.Queue.JobIds

namespace PaymentsProcessor.Pipeline

open PaymentStatus Transition PartialMap History Worker Relay Reaper

variable {β κ : Type} {port : BankPort β κ} {env : Env} {s s' : State β} {a : Action κ} {C : State β → Action κ → Prop}
  {r : Nat} {pid : String} {n : Nat}

/-! ## Attempts -/

/-- `scheduledAttempt` of a run that has committed a retry and not yet added its job. -/
def Scheduled (s : State β) (r : Nat) (pid : String) (n : Nat) : Prop :=
  ∃ run, s.runs r = some run ∧ run.data.paymentId = pid ∧ run.pc = .retryAdd n

/-- The payment has counted so many attempts. -/
def Counted (db : Db) (pid : String) (n : Nat) : Prop := ∃ x, db.account pid = some x ∧ n ≤ x.attempts

theorem Counted.step (hr : Reach (system port env) C s) (hs : Pipeline.step port env s a = some s') (h : Counted s.db pid n) :
    Counted s'.db pid n := by
  obtain ⟨x, hx, hle⟩ := h
  have hstep := (step_sound hs).account (lockInv hr) (pcInv hr) (ledgerInv hr).owned pid
  rw [hx] at hstep
  generalize hy : s'.db.account pid = y at hstep
  cases hstep with
  | same => exact ⟨x, hy, hle⟩
  | moved hm hmove => exact ⟨_, hy, hle.trans hmove.attempts_le⟩

theorem scheduled_update {r₀ : Nat} {run : Run} (hruns : s'.runs = Function.update s.runs r₀ (some run))
    (h : Scheduled s' r pid n) : r = r₀ ∧ run.data.paymentId = pid ∧ run.pc = .retryAdd n ∨ Scheduled s r pid n := by
  obtain ⟨run', hrun', hpid, hpc⟩ := h
  rw [hruns] at hrun'
  by_cases hc : r = r₀
  · subst hc
    rw [Function.update_self] at hrun'
    cases hrun'
    exact Or.inl ⟨rfl, hpid, hpc⟩
  · rw [Function.update_of_ne hc] at hrun'
    exact Or.inr ⟨run', hrun', hpid, hpc⟩

/-- An attempt is scheduled by the RETRY transaction that counts it. -/
theorem Step.scheduled (h : Step port env s a s') (hsched : Scheduled s' r pid n) : Scheduled s r pid n ∨
    a = .retryUpdate r ∧ Moved env s a pid .retry ∧ ∃ x, s.db.account pid = some x ∧ n = x.attempts + 1 := by
  cases h with
  | walk _ r₀ run pc hr hw =>
    rcases scheduled_update rfl hsched with ⟨-, -, hpc⟩ | hold
    · cases hw <;> cases hpc
    · exact Or.inl hold
  | retry r₀ run began clock reason p hr hpc hp hst hlock hleft =>
    rcases scheduled_update rfl hsched with ⟨rfl, rfl, hpc'⟩ | hold
    · cases hpc'
      have hmoved : Moved env s (.retryUpdate r : Action κ) run.data.paymentId .retry := .retry hr hpc hp hst hleft
      obtain ⟨x, hx, -, -, hat⟩ := account_of_payment hp
      exact Or.inr ⟨rfl, hmoved, x, hx, by rw [hat]⟩
    · exact Or.inl hold
  | crash w =>
    obtain ⟨run', hrun', hpid, hpc⟩ := hsched
    obtain ⟨run, hrun, rfl⟩ := Option.map_eq_some_iff.1 hrun'
    by_cases hw : run.worker = w
    · rw [if_pos hw] at hpc
      cases hpc
    · rw [if_neg hw] at hpid hpc
      exact Or.inl ⟨run, hrun, hpid, hpc⟩
  | dequeue | claim | call | refuse | receive | rethrow | timeout | exhaust | final | retryAdd | finish =>
    rcases scheduled_update rfl hsched with ⟨-, -, hpc⟩ | hold
    · cases hpc
    · exact Or.inl hold
  | _ => exact Or.inl hsched

/-! ## New jobs -/

/-- Where a new job comes from. -/
inductive NewJob (s s' : State β) : String → Prop
  | row {k : Nat} {poll : Poll} {row : OutboxRow} (hk : s.polls k = some poll) (hrow : row ∈ poll.rows) : NewJob s s' row.id
  | retry {r : Nat} {pid : String} {n : Nat} (h : Scheduled s r pid n) (hgone : ¬ Scheduled s' r pid n) :
      NewJob s s' (retryJobId pid n)
  | reap {k stamp : Nat} {stuck : List StuckRow} {row : StuckRow} (hk : s.reaps k = some (.adding stamp stuck))
      (hrow : row ∈ stuck) : NewJob s s' (reapJobId row.id stamp)

theorem add_inv {q : Queue} {jobId name i : String} {data : JobData} {state : JobState}
    (h : (q.add jobId name data state i).isSome = true) : (q i).isSome = true ∨ i = jobId := by
  rw [Queue.add_apply] at h
  by_cases hi : i = jobId
  · exact Or.inr hi
  · rw [if_neg fun hc => hi hc.1] at h
    exact Or.inl h

theorem Step.job_inv (h : Step port env s a s') (hown : foreign a = false) {id : String} (hjob : (s'.queue id).isSome = true) :
    (s.queue id).isSome = true ∨ NewJob s s' id := by
  cases h with
  | inject => cases hown
  | pollAdd k poll row data hk hrow =>
    rcases add_inv hjob with hold | rfl
    · exact Or.inl hold
    · exact Or.inr (.row hk hrow)
  | retryAdd r delay run attempt hr hpc =>
    rcases add_inv hjob with hold | rfl
    · exact Or.inl hold
    · refine Or.inr (.retry ⟨run, hr, rfl, hpc⟩ ?_)
      rintro ⟨run', hrun', -, hpc'⟩
      simp only [State.setPc, Function.update_self, Option.some.injEq] at hrun'
      subst hrun'
      cases hpc'
  | reapAdd k stamp stuck row hk hrow =>
    rcases add_inv hjob with hold | rfl
    · exact Or.inl hold
    · exact Or.inr (.reap hk hrow)
  | dequeue | stall => exact Or.inl (by rwa [setState_isSome] at hjob)
  | finish => exact Or.inl (by rwa [closeJob_isSome] at hjob)
  | _ => exact Or.inl hjob

/-! ## Ids -/

/-- The ids of payments are drawn. -/
theorem payment_plain (h : Reach (system port env) C s) (hp : (s.db.payments pid).isSome = true) : ':' ∉ pid.toList := by
  refine h.invariant (I := fun s => ∀ pid, (s.db.payments pid).isSome = true → ':' ∉ pid.toList)
    (fun _ hp => by cases hp) (fun t a t' _ hI _ hs pid hp => ?_) pid hp
  rcases (step_sound hs).payment_inv hp with hold | ⟨-, -, -, -, -, -, -, -, n, rfl⟩
  · exact hI pid hold
  · exact env.u.plain n

theorem Agrees.isSome {db : Db} {amountCents : Nat} {currency : String} (h : Agrees db pid amountCents currency) :
    (db.payments pid).isSome = true := by
  obtain ⟨p, hp, -⟩ := h
  rw [hp]
  rfl

theorem retryJobId_inj {pid' : String} {n' : Nat} (h : retryJobId pid n = retryJobId pid' n') (hpid : ':' ∉ pid.toList)
    (hpid' : ':' ∉ pid'.toList) : pid = pid' ∧ n = n' :=
  JobId.same_tag_inj (show ":retry:".toList = ':' :: "retry:".toList from rfl) hpid hpid' h

/-- A re-drive id is not a retry id. -/
theorem reapJobId_ne {pid' : String} {stamp : Nat} (hpid : ':' ∉ pid.toList) (hpid' : ':' ∉ pid'.toList) :
    reapJobId pid' stamp ≠ retryJobId pid n := by
  intro h
  obtain ⟨-, hrest⟩ := JobId.tagged_inj (show ":reap:".toList = ':' :: "reap:".toList from rfl)
    (show ":retry:".toList = ':' :: "retry:".toList from rfl) hpid' hpid h
  simp at hrest

/-- The new job of a retry id is the one its run adds. -/
theorem NewJob.scheduled (hr : Reach (system port env) C s) (hown : ∀ s a, C s a → foreign a = false) {id : String}
    (h : NewJob s s' id) (hid : id = retryJobId pid n) (hpid : ':' ∉ pid.toList) :
    ∃ r, Scheduled s r pid n ∧ ¬ Scheduled s' r pid n := by
  have hagree := agreeInv hr hown
  cases h with
  | row hk hrow =>
    obtain ⟨row', hrow', hsame, -⟩ := ((jobInv hr hown).polls hk).1 _ hrow
    have hplain := (idsInv hr).plain hrow'
    rw [hsame, hid] at hplain
    exact absurd (by simp [retryJobId]) hplain
  | @retry r pid' n' hsched hgone =>
    obtain ⟨run, hrun, hpid', -⟩ := id hsched
    have hplain := payment_plain hr (hagree.runs hrun).isSome
    rw [hpid'] at hplain
    obtain ⟨rfl, rfl⟩ := retryJobId_inj hid hplain hpid
    exact ⟨r, hsched, hgone⟩
  | reap hk hrow => exact absurd hid (reapJobId_ne hpid (payment_plain hr (hagree.reaps hk _ hrow).isSome))

/-! ## No attempt twice -/

/-- Attempts are scheduled once, after they were counted, and a scheduled one has no job yet; the retry jobs there are have
attempts that were counted. -/
structure RetryInv (s : State β) : Prop where
  counted : ∀ {r pid n}, Scheduled s r pid n → Counted s.db pid n
  free : ∀ {r pid n}, Scheduled s r pid n → s.queue (retryJobId pid n) = none
  once : ∀ {r r' pid n}, Scheduled s r pid n → Scheduled s r' pid n → r = r'
  added : ∀ {pid n}, ':' ∉ pid.toList → (s.queue (retryJobId pid n)).isSome = true → Counted s.db pid n

/-- The attempt counted next has not been counted. -/
theorem not_counted {x : Account} (hx : s.db.account pid = some x) : ¬ Counted s.db pid (x.attempts + 1) := by
  rintro ⟨y, hy, hle⟩
  cases hx.symm.trans hy
  omega

theorem Scheduled.plain (hr : Reach (system port env) C s) (hown : ∀ s a, C s a → foreign a = false)
    (h : Scheduled s r pid n) : ':' ∉ pid.toList := by
  obtain ⟨run, hrun, rfl, -⟩ := h
  exact payment_plain hr ((agreeInv hr hown).runs hrun).isSome

theorem RetryInv.step (h : RetryInv s) (hr : Reach (system port env) C s) (hown : ∀ s a, C s a → foreign a = false)
    (hC : C s a) (hs : Pipeline.step port env s a = some s') : RetryInv s' := by
  have hr' : Reach (system port env) C s' := .step hr hC hs
  have hrule := step_sound hs
  constructor
  · intro r pid n hsched
    rcases hrule.scheduled hsched with hold | ⟨-, hmoved, x, hx, rfl⟩
    · exact (h.counted hold).step hr hs
    · obtain ⟨y, hy, hmove⟩ := moves_of_moved hr.free hs hmoved hx
      exact ⟨y, hy, hmove.attempts_retry.ge⟩
  · intro r pid n hsched
    rw [Option.eq_none_iff_forall_ne_some]
    intro job hjob
    have hplain := hsched.plain hr' hown
    rcases hrule.job_inv (hown s a hC) (by rw [hjob]; rfl) with hold | hnew
    · rcases hrule.scheduled hsched with hsched | ⟨-, -, x, hx, rfl⟩
      · rw [h.free hsched] at hold
        cases hold
      · exact not_counted hx (h.added hplain hold)
    · -- the run that adds the job is done with its attempt
      obtain ⟨r', hsched', hgone⟩ := hnew.scheduled hr hown rfl hplain
      rcases hrule.scheduled hsched with hold | ⟨-, -, x, hx, rfl⟩
      · rw [← h.once hold hsched'] at hgone
        exact hgone hsched
      · exact not_counted hx (h.counted hsched')
  · intro r r' pid n hsched hsched'
    rcases hrule.scheduled hsched with hold | ⟨ha, -, x, hx, rfl⟩
    · rcases hrule.scheduled hsched' with hold' | ⟨-, -, x, hx, rfl⟩
      · exact h.once hold hold'
      · exact absurd (h.counted hold) (not_counted hx)
    · rcases hrule.scheduled hsched' with hold' | ⟨ha', -⟩
      · exact absurd (h.counted hold') (not_counted hx)
      · cases ha.symm.trans ha'
        rfl
  · intro pid n hplain hjob
    rcases hrule.job_inv (hown s a hC) hjob with hold | hnew
    · exact (h.added hplain hold).step hr hs
    · obtain ⟨r, hsched, -⟩ := hnew.scheduled hr hown rfl hplain
      exact (h.counted hsched).step hr hs

theorem retryInv (h : Reach (system port env) C s) (hown : ∀ s a, C s a → foreign a = false) : RetryInv s := by
  have hnone : ∀ {r pid n}, ¬ Scheduled (State.initial port.init) r pid n := by
    rintro r pid n ⟨run, hrun, -⟩
    cases hrun
  refine h.invariant (I := RetryInv) ⟨fun hs => absurd hs hnone, fun hs => absurd hs hnone, fun hs => absurd hs hnone,
    fun _ hjob => by cases hjob⟩ fun t a t' hr hI hC hs => hI.step hr hown hC hs

/-! ## The adds in the history -/

/-- The queue keeps every job that was added. -/
def KeptInv (s : State β) : Prop := ∀ jobId name data fresh, .added jobId name data fresh ∈ s.history →
  (s.queue jobId).isSome = true

theorem keptInv (h : Reach (system port env) C s) : KeptInv s := by
  refine h.invariant (I := KeptInv) (fun _ _ _ _ hm => absurd hm List.not_mem_nil) fun t a t' _ hI _ hs => ?_
  intro jobId name data fresh hm
  have hrule := step_sound hs
  have hkeep : .added jobId name data fresh ∈ t.history → (t'.queue jobId).isSome = true := by
    intro hold
    obtain ⟨job, hjob⟩ := Option.isSome_iff_exists.1 (hI _ _ _ _ hold)
    obtain ⟨job', hjob', -⟩ := hrule.job_persists hjob
    rw [hjob']
    rfl
  cases hrule with
  | inject | pollAdd | retryAdd | reapAdd =>
    rcases List.mem_append.1 hm with hold | hnew
    · exact hkeep hold
    · cases List.mem_singleton.1 hnew
      exact Queue.add_isSome ..
  | _ => exact hkeep (by first | exact hm | exact (List.mem_append.1 hm).resolve_right (by simp) | simpa using hm)

/-- An add of a retry job is made under an id of the job's payment and an attempt, under which nothing was added before,
and creates the job. -/
def RetryFresh (pre : List (Effect β)) : Effect β → Prop
  | .added jobId name data fresh => name = "payment_retry" → (∃ n, jobId = retryJobId data.paymentId n) ∧
      (∀ name' data' fresh', .added jobId name' data' fresh' ∉ pre) ∧ fresh = true
  | _ => True

/-- In every run of the pipeline in which no job comes from elsewhere, every retry job is added under an id that no earlier
add has used. -/
theorem retries_fresh (h : Reach (system port env) (fun _ a => foreign a = false) s) : Justified RetryFresh s.history := by
  refine h.invariant (I := fun s => Justified RetryFresh s.history) justified_nil fun t a t' hr hI hown hs => ?_
  cases step_sound hs with
  | inject => cases hown
  | pollAdd | reapAdd => exact hI.snoc fun hname => absurd hname (by decide)
  | retryAdd r delay run attempt hrun hpc =>
    have hfree := (retryInv hr fun _ _ => id).free ⟨run, hrun, rfl, hpc⟩
    refine hI.snoc fun _ => ⟨⟨attempt, rfl⟩, fun name data fresh hm => ?_, by rw [hfree]; rfl⟩
    -- what was added before would still be there
    have hkept := keptInv hr _ _ _ _ hm
    rw [hfree] at hkept
    cases hkept
  | accepted | claim | call | refuse | answer | receive | rethrow | timeout | exhaust | retry | final =>
    exact hI.append (by simp [RetryFresh])
  | reapUpdate k began time clock stuck =>
    refine (hI.append ?_).append ?_
    all_goals
      intro pre e he
      obtain ⟨x, -, rfl⟩ := List.mem_map.1 he
      trivial
  | _ => exact hI

/-- A worker crashes with a retry committed and its job not added; the reaper re-drives the payment, and the bank errs
again. -/
theorem retries_fresh_crashed : ∃ s, Reach (system SimulatedBankAdapter.port standard) (fun _ a => foreign a = false) s ∧
    (s.queue "0:retry:1" = none ∧ (s.queue "0:retry:2").isSome = true) ∧ Justified RetryFresh s.history := by
  obtain ⟨s, hs, hp⟩ := exists_reach_of_execIf (show (execIf (system SimulatedBankAdapter.port standard)
    (fun _ a => foreign a = false) (system SimulatedBankAdapter.port standard).init
      (accept order 0 "00" ++ [.setConfig { mode := some .alwaysError }] ++ claim 0 0 "00" ++ call 0 200 ++
        [.settleBegin 0, .readClock 0, .retryUpdate 0, .crash 0] ++ reap 0 60001 "0" ++ claim 1 0 "0:reap:60201" ++ call 1 200 ++
        retry 1 2000)).any (fun s => s.queue "0:retry:1" = none ∧ (s.queue "0:retry:2").isSome = true) = true by decide)
  exact ⟨s, hs, of_decide_eq_true hp, retries_fresh hs⟩

end PaymentsProcessor.Pipeline
