/-
Which PENDING payments are lost. The reaper passes them over, so that only the submitted row, a job made from it or a
run of that job can move one on; where none of these is left the payment stays PENDING for good, and anywhere else it can
still be claimed.
-/
import PaymentsProcessor.Ledger.Recovery

namespace PaymentsProcessor.Pipeline

open Transition PartialMap PaymentStatus Worker Relay Reaper Account

variable {β κ : Type} {port : BankPort β κ} {env : Env} {s s' t : State β} {a : Action κ} {pid : String}
variable {C : State β → Action κ → Prop}

/-! ## What may still drive a payment -/

/-- A run here may still claim a PENDING payment. -/
def Pc.mayClaim : Pc → Bool
  | .start | .claimBegun _ => true
  | .claimRead _ status _ => status = PENDING
  | _ => false

/-- The payment's submission has not become a job, a job of the payment will run or is running, or a run of one may still
claim it. -/
def Drivable (s : State β) (pid : String) : Prop :=
  (∃ row ∈ s.db.outbox, row.aggregateId = pid ∧ row.submitted?.isSome = true ∧ s.queue row.id = none) ∨
  (∃ jobId job, s.queue jobId = some job ∧ job.data.paymentId = pid ∧ job.state.live = true) ∨
  ∃ r run, s.runs r = some run ∧ run.data.paymentId = pid ∧ Pc.mayClaim run.pc = true

/-! ## Invariants -/

/-- A submission is of the payment its row belongs to. -/
def OriginInv (s : State β) : Prop := ∀ row ∈ s.db.outbox, ∀ data, row.submitted? = some data →
  data.paymentId = row.aggregateId

theorem originInv (h : Reach (system port env) C s) : OriginInv s := by
  refine h.invariant (I := OriginInv) (fun _ hrow => absurd hrow List.not_mem_nil) fun t a t' _ hI _ hs => ?_
  intro row hrow data hdata
  cases step_sound hs with
  | accepted =>
    rcases List.mem_append.1 hrow with hold | hnew
    · exact hI row hold data hdata
    · cases List.mem_singleton.1 hnew
      cases hdata
      rfl
  | final =>
    rcases List.mem_append.1 hrow with hold | hnew
    · exact hI row hold data hdata
    · cases List.mem_singleton.1 hnew
      rw [(terminalRow_event ..).1] at hdata
      cases hdata
  | pollCommit =>
    obtain ⟨old, hold, rfl⟩ := List.mem_map.1 hrow
    split at hdata
    · exact (hI old hold data hdata).trans (by split <;> rfl)
    · exact (hI old hold data hdata).trans (by split <;> rfl)
  | _ => exact hI row hrow data hdata

/-- What a tick has selected has left PENDING. -/
def SelectedInv (s : State β) : Prop := All s.reaps fun _ reap => ∀ row ∈ Reap.rows reap, Begun s.db row.id

theorem selectedInv (h : Reach (system port env) C s) : SelectedInv s := by
  refine h.invariant (I := SelectedInv) all_empty fun t a t' _ hI _ hs => ?_
  have hrule := step_sound hs
  have hK : All t.reaps fun _ reap => ∀ row ∈ Reap.rows reap, Begun t'.db row.id :=
    hI.mono fun _ _ hreap row hmem => hrule.begun (hreap row hmem)
  cases hrule with
  | reapBegin k hk => exact AllBut.set (All.but hK) fun _ h => by cases h
  | deadlineClock k began hk => exact AllBut.set (All.but hK) fun _ h => by cases h
  | batchClock k began time stuck hk => exact AllBut.set (All.but hK) (hK hk :)
  | reapSelect k pids began clock stuck hk hnodup hstuck =>
    refine AllBut.set (All.but hK) fun row hmem => ?_
    obtain ⟨-, -, p, hp, hst, -⟩ := stuckRow_eq_some ((mapM_stuckRow hstuck).2 row hmem)
    exact ⟨p, hp, by rcases hst with hst | hst <;> rw [hst] <;> rintro ⟨⟩⟩
  | reapUpdate k began time clock stuck hk => exact AllBut.set (All.but hK) (hK hk :)
  | reapStamp k stuck hk => exact AllBut.set (All.but hK) (hK hk :)
  | reapAdd k stamp stuck row hk =>
    exact AllBut.set (All.but hK) fun other hother => (hK hk :) other (List.mem_of_mem_filter hother)
  | reapEnd k => exact AllBut.erase (All.but hK)
  | _ => exact hK

theorem pastInv (h : Reach (system port env) (fun _ a => foreign a = false) s) : PastInv s :=
  h.invariant (I := PastInv) all_empty fun _ _ _ hr hI _ hs => hI.step (agreeInv hr fun _ _ => id) (step_sound hs)

/-! ## Lost payments stay lost -/

/-- The payment is PENDING, and nothing drives it. -/
structure Lost (s : State β) (pid : String) : Prop where
  pending : ∃ p, s.db.payments pid = some p ∧ p.status = PENDING
  undriven : ¬ Drivable s pid

theorem not_begun {p : Payment} (hp : s.db.payments pid = some p) (hst : p.status = PENDING) : ¬ Begun s.db pid := by
  rintro ⟨q, hq, hne⟩
  cases hp.symm.trans hq
  exact hne hst

/-- A row without a job is one that was there, without a job. -/
theorem Step.undriven_row (h : Step port env s a s') (hpay : (s.db.payments pid).isSome = true) {row : OutboxRow}
    (hrow : row ∈ s'.db.outbox) (haggregate : row.aggregateId = pid) (hsub : row.submitted?.isSome = true)
    (hnone : s'.queue row.id = none) : Drivable s pid := by
  have hbefore : s.queue row.id = none := by
    cases hjob : s.queue row.id with
    | none => rfl
    | some job =>
      obtain ⟨job', hjob', -⟩ := h.job_persists hjob
      rw [hjob'] at hnone
      cases hnone
  refine Or.inl ?_
  cases h with
  | accepted dto key hash correlationId amountCents new hvalid hamount hnew hfresh =>
    rcases List.mem_append.1 hrow with hold | hin
    · exact ⟨row, hold, haggregate, hsub, hbefore⟩
    · cases List.mem_singleton.1 hin
      rw [← haggregate, show (submittedRow new (env.u.ulid (s.ulids + 1)) correlationId s.now).aggregateId = new.id from rfl,
        hfresh] at hpay
      cases hpay
  | final =>
    rcases List.mem_append.1 hrow with hold | hin
    · exact ⟨row, hold, haggregate, hsub, hbefore⟩
    · cases List.mem_singleton.1 hin
      rw [(terminalRow_event ..).1] at hsub
      cases hsub
  | pollCommit =>
    obtain ⟨old, hold, rfl⟩ := List.mem_map.1 hrow
    split at haggregate <;> rename_i hid
    · rw [if_pos hid] at hsub hbefore
      exact ⟨old, hold, haggregate, hsub, hbefore⟩
    · rw [if_neg hid] at hsub hbefore
      exact ⟨old, hold, haggregate, hsub, hbefore⟩
  | _ => exact ⟨row, hrow, haggregate, hsub, hbefore⟩

theorem live_of_ready {now : Nat} {state : JobState} (h : ready now state = true) : state.live = true := by
  cases state <;> first | rfl | cases h

/-- A live job of a payment that is not lost already, or of a submission that was driven. -/
theorem Step.undriven_job (h : Step port env s a s') (hown : foreign a = false) (hjobs : JobInv s)
    (horigin : OriginInv s) (hpast : PastInv s) (hselected : SelectedInv s) (hpid : ¬ Begun s.db pid) :
    All s'.queue fun _ job => job.data.paymentId = pid → job.state.live = true → Drivable s pid := by
  have hP : All s.queue fun _ job => job.data.paymentId = pid → job.state.live = true → Drivable s pid :=
    fun jobId job hjob hdata hlive => Or.inr (Or.inl ⟨jobId, job, hjob, hdata, hlive⟩)
  cases h with
  | inject => cases hown
  | pollAdd k poll row data hk hrow hdata hadd =>
    cases hjob : s.queue row.id with
    | some job =>
      -- the id is taken, and nothing is added
      have hsame : s.queue.add row.id "payment.submitted" data .waiting = s.queue := if_pos (by rw [hjob]; rfl)
      intro id job' hjob'
      exact hP (show s.queue id = some job' from hsame ▸ hjob')
    | none =>
      refine Queue.all_add hP fun hpid' _ => Or.inl ?_
      obtain ⟨row', hrow', hid, hsame⟩ := (hjobs.polls hk).1 row hrow
      refine ⟨row', hrow', ?_, by rw [hsame, hdata]; rfl, by rw [hid]; exact hjob⟩
      rw [← horigin row' hrow' data (hsame.trans hdata)]
      exact hpid'
  | retryAdd r delay run attempt hr hpc =>
    refine Queue.all_add hP fun hpid' _ => absurd ?_ hpid
    rw [← hpid']
    exact hpast hr (by rw [hpc]; rfl)
  | reapAdd k stamp stuck row hk hrow =>
    refine Queue.all_add hP fun hpid' _ => absurd ?_ hpid
    rw [← hpid']
    exact hselected hk row hrow
  | dequeue r w jobId job hr hjob hready =>
    refine Queue.all_setState hP fun job' hjob' hpid' _ => ?_
    cases hjob.symm.trans hjob'
    exact hP hjob hpid' (live_of_ready hready)
  | stall jobId job r hjob hst =>
    refine Queue.all_setState hP fun job' hjob' hpid' _ => ?_
    cases hjob.symm.trans hjob'
    exact hP hjob hpid' (by rw [hst]; rfl)
  | finish r run state hr hpc =>
    refine all_closeJob hP fun job hjob _ _ hlive => ?_
    rcases hpc with ⟨-, rfl⟩ | ⟨-, rfl⟩ <;> cases hlive
  | _ => exact hP

/-- A run that may claim has been on its way, or has taken a live job. -/
theorem Step.undriven_run (h : Step port env s a s') : All s'.runs fun _ run =>
    run.data.paymentId = pid → Pc.mayClaim run.pc = true → Drivable s pid := by
  have hP : All s.runs fun _ run => run.data.paymentId = pid → Pc.mayClaim run.pc = true → Drivable s pid :=
    fun r run hr hdata hpc => Or.inr (Or.inr ⟨r, run, hr, hdata, hpc⟩)
  cases h with
  | dequeue r w jobId job hr hjob hready =>
    exact AllBut.set (All.but hP) fun hpid' _ => Or.inr (Or.inl ⟨jobId, job, hjob, hpid', live_of_ready hready⟩)
  | walk _ r run pc hr hw =>
    refine AllBut.set (All.but hP) fun hpid' hpc => hP hr hpid' ?_
    cases hw with
    | claimBegin hpc' => rw [hpc']; rfl
    | claimRead hpc' => rw [hpc']; rfl
    | claimClock hpc' => rw [hpc']; exact hpc
    | claimNone | claimIllegal | claimLost | settleBegin | settleClock | retryLost | finalLost | retryInvalid | fail => cases hpc
  | crash w =>
    refine All.map _ (hP.mono fun r run hrun => ?_)
    by_cases hw : run.worker = w
    · rw [if_pos hw]
      rintro - ⟨⟩
    · rw [if_neg hw]
      exact hrun
  | claim | call | refuse | receive | rethrow | timeout | exhaust | retry | final | retryAdd | finish =>
    exact AllBut.set (All.but hP) fun _ hpc => by cases hpc
  | _ => exact hP

/-- Nothing comes to drive a lost payment. -/
theorem Lost.step (h : Lost s pid) (hr : Reach (system port env) (fun _ a => foreign a = false) s)
    (hown : foreign a = false) (hs : step port env s a = some s') : Lost s' pid := by
  obtain ⟨⟨p, hp, hst⟩, hundriven⟩ := h
  have hrule := step_sound hs
  refine ⟨?_, fun hdrivable => hundriven ?_⟩
  · obtain ⟨x, hx, hxst, -⟩ := account_of_payment hp
    have hstep := hrule.account (lockInv hr) (pcInv hr) (ledgerInv hr).owned pid
    rw [hx] at hstep
    generalize hy : s'.db.account pid = y at hstep
    cases hstep with
    | same =>
      obtain ⟨q, hq, hqst, -⟩ := Db.account_eq_some hy
      exact ⟨q, hq, by rw [← hqst, hxst, hst]⟩
    | moved hm hmove =>
      rw [hst] at hxst
      cases hmove with
      | claim =>
        -- only a run that may claim it moves a PENDING payment
        cases hm with
        | claim hrun hpc hp' =>
          cases hp.symm.trans hp'
          refine absurd (Or.inr (Or.inr ⟨_, _, hrun, rfl, ?_⟩)) hundriven
          rw [hpc]
          exact decide_eq_true hst
      | retry hx' | exhaust hx' | settle hx' | reap hx' =>
        rw [hxst] at hx'
        cases hx'
  · rcases hdrivable with ⟨row, hrow, haggregate, hsub, hnone⟩ | ⟨jobId, job, hjob, hdata, hlive⟩ | ⟨r, run, hrun, hdata, hpc⟩
    · exact hrule.undriven_row (by rw [hp]; rfl) hrow haggregate hsub hnone
    · exact hrule.undriven_job hown (jobInv hr fun _ _ => id) (originInv hr) (pastInv hr) (selectedInv hr)
        (not_begun hp hst) hjob hdata hlive
    · exact hrule.undriven_run hrun hdata hpc

/-! ## Driven payments can be claimed -/

/-- The payment can leave PENDING. -/
def CanBegin (port : BankPort β κ) (env : Env) (s : State β) (pid : String) : Prop :=
  ∃ t, Path port env unattended s t ∧ Begun t.db pid

theorem CanBegin.of_path (h : CanBegin port env t pid) (hpath : Path port env unattended s t) : CanBegin port env s pid := by
  obtain ⟨u, hu, hbegun⟩ := h
  exact ⟨u, hpath.trans hu, hbegun⟩

theorem CanBegin.of_step (h : CanBegin port env t pid) (ha : unattended a = true) (hs : step port env s a = some t) :
    CanBegin port env s pid :=
  h.of_path (Path.single a ha hs)

variable (port env) in
/-- A run that has not yet claimed its PENDING payment can. -/
theorem canBegin_of_run {p : Payment} {r : Nat} {run : Run} (hr : s.runs r = some run)
    (hp : s.db.payments run.data.paymentId = some p) (hst : p.status = PENDING)
    (hlock : s.rowLocks run.data.paymentId = none) (hpc : Pc.mayClaim run.pc = true) :
    CanBegin port env s run.data.paymentId := by
  have htimed : ∀ {u : State β} {run' : Run} {began clock : Nat}, u.runs r = some run' → run'.data = run.data →
      run'.pc = .claimRead began PENDING (some clock) → u.db = s.db → u.rowLocks = s.rowLocks →
      CanBegin port env u run.data.paymentId := by
    intro u run' began clock hr' hdata hpc' hdb hlocks
    obtain ⟨t, hclaim, hbegun⟩ : ∃ t, step port env u (.claimUpdate r) = some t ∧ Begun t.db run.data.paymentId := by
      apply Exists.intro
      constructor
      · simp [step, claimUpdate, hr', hpc', Db.updateWhere, hdata, hdb, hp, hst, hlocks, hlock]
        rfl
      · refine ⟨claimSet clock p, ?_, by rintro ⟨⟩⟩
        exact Function.update_self ..
    exact ⟨t, Path.single _ rfl hclaim, hbegun⟩
  have hread : ∀ {u : State β} {run' : Run} {began : Nat}, u.runs r = some run' → run'.data = run.data →
      run'.pc = .claimRead began PENDING none → u.db = s.db → u.rowLocks = s.rowLocks →
      CanBegin port env u run.data.paymentId := by
    intro u run' began hr' hdata hpc' hdb hlocks
    have hclock : step port env u (.readClock r) = some (u.setPc r run' (.claimRead began PENDING (some u.now))) := by
      simp [step, readClock, hr', hpc']
    have htimed' : CanBegin port env (u.setPc r run' (.claimRead began PENDING (some u.now))) run.data.paymentId :=
      htimed (Function.update_self ..) hdata rfl hdb hlocks
    exact htimed'.of_step rfl hclock
  have hbegun : ∀ {u : State β} {run' : Run} {began : Nat}, u.runs r = some run' → run'.data = run.data →
      run'.pc = .claimBegun began → u.db = s.db → u.rowLocks = s.rowLocks →
      CanBegin port env u run.data.paymentId := by
    intro u run' began hr' hdata hpc' hdb hlocks
    have hselect : step port env u (.claimSelect r) = some (u.setPc r run' (.claimRead began PENDING none)) := by
      simp [step, claimSelect, hr', hpc', hdata, hdb, hp, hst, canTransition, transitionMap]
    have hread' : CanBegin port env (u.setPc r run' (.claimRead began PENDING none)) run.data.paymentId :=
      hread (Function.update_self ..) hdata rfl hdb hlocks
    exact hread'.of_step rfl hselect
  cases hcase : run.pc with
  | start =>
    have hbegin : step port env s (.claimBegin r) = some (s.setPc r run (.claimBegun s.now)) := by
      simp [step, claimBegin, hr, hcase]
    have hbegun' : CanBegin port env (s.setPc r run (.claimBegun s.now)) run.data.paymentId :=
      hbegun (Function.update_self ..) rfl rfl rfl rfl
    exact hbegun'.of_step rfl hbegin
  | claimBegun began => exact hbegun hr rfl hcase rfl rfl
  | claimRead began status clock =>
    rw [hcase] at hpc
    cases of_decide_eq_true hpc
    cases clock with
    | none => exact hread hr rfl hcase rfl rfl
    | some clock => exact htimed hr rfl hcase rfl rfl
  | claimDone | calling | decided | settleBegun | retryAdd | returned | threw | gone => rw [hcase] at hpc; cases hpc

/-- A job that will run or is running can be given to a new run. -/
theorem canBegin_of_job {p : Payment} {jobId : String} {job : Job} (hb : Bounded s) (hjob : s.queue jobId = some job)
    (hlive : job.state.live = true) (hp : s.db.payments job.data.paymentId = some p) (hst : p.status = PENDING)
    (hlock : s.rowLocks job.data.paymentId = none) : CanBegin port env s job.data.paymentId := by
  obtain ⟨r, hfree⟩ := hb.exists_run
  have hready : ∀ {u : State β} {job' : Job}, u.queue jobId = some job' → job'.data = job.data →
      ready u.now job'.state = true → u.runs r = none → u.db = s.db → u.rowLocks = s.rowLocks →
      CanBegin port env u job.data.paymentId := by
    intro u job' hjob' hdata hready hfree' hdb hlocks
    obtain ⟨t, htake, hrun, hdb', hlocks'⟩ : ∃ t, step port env u (.dequeue r 0 jobId) = some t ∧
        t.runs r = some ⟨jobId, job'.data, 0, .start⟩ ∧ t.db = u.db ∧ t.rowLocks = u.rowLocks := by
      apply Exists.intro
      constructor
      · simp [step, dequeue, hfree', hjob', hready]
        rfl
      · exact ⟨Function.update_self .., rfl, rfl⟩
    have hrun' := canBegin_of_run port env hrun (show _ = some p by rw [hdb', hdb, hdata]; exact hp) hst
      (by rw [hlocks', hlocks, hdata]; exact hlock) rfl
    rw [hdata] at hrun'
    exact hrun'.of_step rfl htake
  cases hcase : job.state with
  | waiting => exact hready hjob rfl (by rw [hcase]; rfl) hfree rfl rfl
  | delayed readyAt =>
    refine CanBegin.of_step (a := .tick readyAt) (hready (u := { s with now := s.now + readyAt }) hjob rfl ?_ hfree rfl rfl)
      rfl rfl
    rw [hcase]
    exact decide_eq_true (Nat.le_add_left _ _)
  | active r' =>
    have hstall : step port env s (.stall jobId) = some { s with queue := s.queue.setState jobId .waiting } := by
      simp [step, stall, hjob, hcase]
    have hwaiting : s.queue.setState jobId .waiting jobId = some { job with state := .waiting } := by
      rw [Queue.setState_apply, if_pos rfl, hjob]
      rfl
    refine CanBegin.of_step ?_ rfl hstall
    exact hready (u := { s with queue := s.queue.setState jobId .waiting }) hwaiting rfl rfl hfree rfl rfl
  | completed | failed => rw [hcase] at hlive; cases hlive

theorem path_of_drain {k : Nat} : ∀ {m : Nat} {s t : State β}, drain port env k m s = some t → Path port env unattended s t
  | 0, s, t, h => by cases h; exact .refl
  | m + 1, s, t, h => by
    obtain ⟨u, hu, h⟩ := Option.bind_eq_some_iff.1 h
    refine (Transition.Path.of_exec (fun a ha => ?_) hu).trans (path_of_drain h)
    rcases List.mem_append.1 ha with ha | ha
    · rcases List.mem_cons.1 ha with rfl | ha
      · rfl
      · obtain ⟨row, -, rfl⟩ := List.mem_map.1 ha
        rfl
    · cases List.mem_singleton.1 ha
      rfl

theorem row_path {p : Action κ → Bool} (h : Path port env p s t) {row : OutboxRow} (hrow : row ∈ s.db.outbox) :
    ∃ row' ∈ t.db.outbox, row'.id = row.id ∧ row'.aggregateId = row.aggregateId := by
  induction h with
  | refl => exact ⟨row, hrow, rfl, rfl⟩
  | tail _ hlast ih =>
    obtain ⟨row', hrow', hid, haggregate⟩ := ih
    obtain ⟨a, -, hs⟩ := hlast
    obtain ⟨row'', hrow'', hid', haggregate', -⟩ := (step_sound hs).row_persists hrow'
    exact ⟨row'', hrow'', hid'.trans hid, haggregate'.trans haggregate⟩

/-- A submission without a job can be given one: by the poll that holds it, or by enough polls. -/
theorem exists_job (h : Reach (system port env) (fun _ a => foreign a = false) s) {row : OutboxRow}
    (hrow : row ∈ s.db.outbox) (hsub : row.submitted?.isSome = true) (hnone : s.queue row.id = none) :
    ∃ t job, Path port env unattended s t ∧ t.queue row.id = some job ∧ job.data.paymentId = row.aggregateId ∧
      job.state.live = true := by
  have hjobs := jobInv h fun _ _ => id
  have hids := idsInv h
  cases hlock : s.outboxLocks row.id with
  | some k =>
    obtain ⟨poll, hk, -, hmem⟩ := (pollsInv h).locks row.id k hlock
    obtain ⟨batched, hbatched, hid⟩ := List.mem_map.1 hmem
    obtain ⟨data, hdata⟩ := Option.isSome_iff_exists.1 (((pollsInv h).batches hk).1 batched hbatched)
    obtain ⟨row', hrow', hid', hsame⟩ := (hjobs.polls hk).1 batched hbatched
    cases hids.unique hrow' hrow (hid'.trans hid)
    have hadd : row.id ∉ poll.added := fun hin => by
      have hsome := (hjobs.polls hk).2 _ hin
      rw [hnone] at hsome
      cases hsome
    obtain ⟨batched', hfind, hid''⟩ : ∃ other,
        poll.rows.find? (fun other => other.id = row.id) = some other ∧ other.id = row.id := by
      obtain ⟨other, hother⟩ := Option.isSome_iff_exists.1 (List.find?_isSome (p := fun other => decide (other.id = row.id)).2
        ⟨batched, hbatched, by simp [hid]⟩)
      exact ⟨other, hother, by simpa using List.find?_some hother⟩
    cases List.inj_on_of_nodup_map ((pollsInv h).batches hk).2 (List.mem_of_find?_eq_some hfind) hbatched (hid''.trans hid.symm)
    obtain ⟨t, hstep, hqueue⟩ : ∃ t, step port env s (.pollAdd k row.id) = some t ∧
        t.queue = s.queue.add row.id "payment.submitted" data .waiting := by
      apply Exists.intro
      constructor
      · simp [step, pollAdd, hk, hfind, hdata, hadd, hid]
        rfl
      · rfl
    refine ⟨t, ⟨"payment.submitted", data, .waiting⟩, Path.single _ rfl hstep, ?_, ?_, rfl⟩
    · rw [hqueue, Queue.add_apply, if_pos ⟨rfl, hnone⟩]
    · exact originInv h row hrow data (hsame.trans hdata)
  | none =>
    have hpub : row.publishedAt = none := by
      cases hpub : row.publishedAt with
      | none => rfl
      | some time =>
        have hsome := hjobs.published row hrow hsub (by rw [hpub]; rintro ⟨⟩)
        rw [hnone] at hsome
        cases hsome
    have hbacklog : row ∈ backlog s := List.mem_filter.2 ⟨hrow, decide_eq_true ⟨hpub, hsub, hlock⟩⟩
    obtain ⟨k, -, hk⟩ := (bounded h).polls.exists_free (g := id) Function.injective_id 0
    obtain ⟨t, hdrain, ht⟩ := exists_drained h hk (backlog s).length
    have hempty : backlog t = [] := by
      rw [← List.length_eq_zero_iff, ht.length]
      omega
    have hpath := path_of_drain hdrain
    have hreach := own_path h hpath
    obtain ⟨hsome, row', hrow', hid, -⟩ := ht.published row hbacklog (by rw [hempty]; exact List.not_mem_nil)
    obtain ⟨job, hjob⟩ := Option.isSome_iff_exists.1 hsome
    refine ⟨t, job, hpath, hjob, ?_, ?_⟩
    · -- the job was made from the row
      obtain ⟨same, hmem, hid', haggregate⟩ := row_path hpath hrow
      obtain ⟨origin, horigin, hid'', hdata⟩ := (((jobInv hreach fun _ _ => id).origin hjob).resolve_left (hids.plain hrow))
      cases (idsInv hreach).unique horigin hmem (hid''.trans hid'.symm)
      rw [← haggregate]
      exact originInv hreach same hmem _ hdata
    · rcases ht.queue row.id with hsame | ⟨-, hwaiting⟩
      · rw [hsame, hnone] at hjob
        cases hjob
      · rw [hjob] at hwaiting
        rw [Option.some.inj hwaiting]
        rfl

theorem payment_path {p : Action κ → Bool} (h : Path port env p s t) (hp : (s.db.payments pid).isSome = true) :
    (t.db.payments pid).isSome = true := by
  induction h with
  | refl => exact hp
  | tail _ hlast ih =>
    obtain ⟨q, hq⟩ := Option.isSome_iff_exists.1 ih
    obtain ⟨a, -, hs⟩ := hlast
    obtain ⟨q', hq', -⟩ := (step_sound hs).payment_persists hq
    rw [hq']
    rfl

/-- The tick that may hold a payment ends. -/
theorem CanBegin.of_unlocked (h : ∀ u : State β, u.db = s.db → u.runs = s.runs → u.queue = s.queue → u.polls = s.polls →
    u.rowLocks pid = none → CanBegin port env u pid) : CanBegin port env s pid := by
  have hafter : CanBegin port env { s with
      reaps := Function.update s.reaps ((s.rowLocks pid).getD 0) none
      rowLocks := unlock s.rowLocks ((s.rowLocks pid).getD 0) } pid := h _ rfl rfl rfl rfl (unlock_holder s.rowLocks pid)
  exact hafter.of_step (a := .reapEnd ((s.rowLocks pid).getD 0)) rfl rfl

/-- A driven payment can be claimed. -/
theorem canBegin {p : Payment} (h : Reach (system port env) (fun _ a => foreign a = false) s)
    (hp : s.db.payments pid = some p) (hst : p.status = PENDING) (hdriven : Drivable s pid) : CanBegin port env s pid := by
  have hjob : ∀ {u : State β} {jobId : String} {job : Job}, Bounded u → u.queue jobId = some job → job.data.paymentId = pid →
      job.state.live = true → (∃ q, u.db.payments pid = some q ∧ q.status = PENDING) → CanBegin port env u pid := by
    rintro u jobId job hb hjob rfl hlive ⟨q, hq, hqst⟩
    refine CanBegin.of_unlocked fun v hdb hruns hqueue hpolls hlock => ?_
    refine canBegin_of_job ⟨?_, ?_, ?_⟩ (by rw [hqueue]; exact hjob) hlive (by rw [hdb]; exact hq) hqst hlock
    · rw [hruns]; exact hb.runs
    · rw [hqueue]; exact hb.queue
    · rw [hpolls]; exact hb.polls
  rcases hdriven with ⟨row, hrow, rfl, hsub, hnone⟩ | ⟨jobId, job, hq, hdata, hlive⟩ | ⟨r, run, hr, hdata, hpc⟩
  · obtain ⟨t, job, hpath, hq, hdata, hlive⟩ := exists_job h hrow hsub hnone
    obtain ⟨q, hq'⟩ := Option.isSome_iff_exists.1 (payment_path hpath (by rw [hp]; rfl))
    by_cases hqst : q.status = PENDING
    · exact (hjob (bounded (own_path h hpath)) hq hdata hlive ⟨q, hq', hqst⟩).of_path hpath
    · exact ⟨t, hpath, q, hq', hqst⟩
  · exact hjob (bounded h) hq hdata hlive ⟨p, hp, hst⟩
  · subst hdata
    refine CanBegin.of_unlocked fun v hdb hruns _ _ hlock => ?_
    exact canBegin_of_run port env (by rw [hruns]; exact hr) (by rw [hdb]; exact hp) hst hlock hpc

/-- Without clients a PENDING payment can leave PENDING if its submission has no job yet, a job of it is live, or a run may
still claim it; otherwise it stays PENDING, whatever clients and the pipeline do. -/
theorem pending_lost_or_drivable {p : Payment} (h : Reach (system port env) (fun _ a => foreign a = false) s)
    (hp : s.db.payments pid = some p) (hst : p.status = PENDING) :
    (Drivable s pid → ∃ t q, Path port env unattended s t ∧ t.db.payments pid = some q ∧ q.status ≠ PENDING) ∧
    (¬ Drivable s pid → ∀ t, Path port env (fun a => !foreign a) s t →
      ∃ q, t.db.payments pid = some q ∧ q.status = PENDING) := by
  constructor
  · intro hdriven
    obtain ⟨t, hpath, q, hq, hne⟩ := canBegin h hp hst hdriven
    exact ⟨t, q, hpath, hq, hne⟩
  · intro hundriven t hpath
    have hlost : Reach (system port env) (fun _ a => foreign a = false) t ∧ Lost t pid := by
      induction hpath with
      | refl => exact ⟨h, ⟨p, hp, hst⟩, hundriven⟩
      | tail _ hlast ih =>
        obtain ⟨hr, hlost⟩ := ih
        obtain ⟨a, ha, hs⟩ := hlast
        have hown : foreign a = false := by simpa using ha
        exact ⟨.step hr hown hs, hlost.step hr hown hs⟩
    exact hlost.2.pending

/-- Txn 1 fails on a published payment: its job goes to the failed set, and the payment is lost. -/
theorem pending_lost_or_drivable_failed : ∃ s p,
    Reach (system SimulatedBankAdapter.port standard) (fun _ a => foreign a = false) s ∧ s.db.payments "0" = some p ∧
    p.status = PENDING ∧ (s.queue "00").all (fun job => job.state = .failed) = true ∧
    (Drivable s "0" → ∃ t q, Path SimulatedBankAdapter.port standard unattended s t ∧ t.db.payments "0" = some q ∧
      q.status ≠ PENDING) ∧
    (¬ Drivable s "0" → ∀ t, Path SimulatedBankAdapter.port standard (fun a => !foreign a) s t →
      ∃ q, t.db.payments "0" = some q ∧ q.status = PENDING) := by
  obtain ⟨s, hs, hp⟩ := exists_reach_of_execIf (show (execIf (system SimulatedBankAdapter.port standard)
    (fun _ a => foreign a = false) (system SimulatedBankAdapter.port standard).init
      (accept order 0 "00" ++ [.dequeue 0 0 "00", .claimBegin 0, .fail 0, .finish 0])).any
      (fun s => (s.db.payments "0").any (fun p => p.status = PENDING) &&
        (s.queue "00").all fun job => job.state = .failed) = true by decide)
  obtain ⟨hst, hfailed⟩ := Bool.and_eq_true_iff.1 hp
  obtain ⟨p, hp, hst⟩ := (Option.any_eq_true _ _).1 hst
  have hst := of_decide_eq_true hst
  exact ⟨s, p, hs, hp, hst, hfailed, pending_lost_or_drivable hs hp hst⟩

end PaymentsProcessor.Pipeline
