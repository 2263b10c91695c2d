/-
The retry loop of a delivery: its first job is run to its end, then each retry job in turn, with the clock and the API
going on. Whatever the receiver replies to each request, the delivery ends with its first success, or dead when the
attempts are used up, and no job of it is left.
-/
import PaymentsProcessor.Base.Rounds
import PaymentsProcessor.Webhooks.Sequential
import PaymentsProcessor.Queue.JobIds

namespace PaymentsProcessor.Webhooks

open Transition PartialMap Processor Dispatcher Webhooks.Reaper

/-! ## The specification -/

/-- The status after an attempt, given its number. -/
def statusOf (max : ℕ) (reply : Reply) (attempts : ℕ) : WebhookStatus :=
  match reply.lastError with
  | none => .delivered
  | some _ => if attempts ≥ max then .dead else .failed

/-- The status after so many attempts. -/
def statusAfter (max : ℕ) (reply : ℕ → Reply) : ℕ → WebhookStatus
  | 0 => .pending
  | n + 1 => statusOf max (reply n) (n + 1)

/-- `k` is the index of the first success, `none` if there is none. -/
def FirstSuccess (reply : ℕ → Reply) : Option ℕ → Prop
  | some k => (∀ i < k, (reply i).lastError ≠ none) ∧ (reply k).lastError = none
  | none => ∀ i, (reply i).lastError ≠ none

/-- The attempts up to the first success, and no more than `max`. -/
def attemptsUntil (max : ℕ) : Option ℕ → ℕ
  | some k => min (k + 1) max
  | none => max

/-! ## Running one job after the other -/

variable (env : Env)

/-- The clock and the API. -/
def quiet : Action → Bool
  | .tick _ | .emit _ _ _ | .insertEndpoint _ _ | .deactivate _ => true
  | _ => false

/-- The steps of a run other than the receipt of the reply, the clock and the API. -/
def alone (r : Nat) : Action → Bool
  | .tick _ | .emit _ _ _ | .insertEndpoint _ _ | .deactivate _ => true
  | .load r' | .post r' | .write r' | .retryAdd r' => r' = r
  | _ => false

/-- A job of the delivery is taken and run to its end; its request is answered by `reply`. -/
inductive JobRun (id : String) (reply : Reply) (s s' : State) : Prop
  | mk (r : Nat) (jobId : String) (job : LiveJob DeliveryJob) (delay : Nat) (taken begun sent replied ended : State)
      (hwait : Path (system env) quiet s taken) (hjob : taken.queue jobId = some job) (hid : job.data.deliveryId = id)
      (htake : step env taken (.dequeue r jobId) = some begun) (hsend : Path (system env) (alone r) begun sent)
      (hreply : step env sent (.receive r reply delay) = some replied)
      (hend : Path (system env) (alone r) replied ended) (hfinish : step env ended (.finish r) = some s')

/-- The delivery has one job, and it is still to be run. -/
def OneJob (s : State) (id jobId : String) : Prop :=
  (∃ job, s.queue jobId = some job ∧ job.data.deliveryId = id ∧
      (job.state = .waiting ∨ ∃ readyAt, job.state = .delayed readyAt)) ∧
    ∀ i job, s.queue i = some job → job.data.deliveryId = id → i = jobId

/-- The delivery has no job left. -/
def NoJob (s : State) (id : String) : Prop := ∀ i job, s.queue i = some job → job.data.deliveryId ≠ id

/-- The loop from a state on: it makes one run for each attempt up to the first success, at most `MAX_WEBHOOK_ATTEMPTS`,
and each of them can be made whatever its reply; it ends with a success or dead. -/
structure LoopLaw (id : String) (reply : ℕ → Reply) (k : Option ℕ) (s : State) : Prop where
  bounded : ∀ n t, Rounds (fun i => JobRun env id (reply i)) s n t → n ≤ attemptsUntil env.webhooks.maxAttempts k
  proceeds : ∀ n t, Rounds (fun i => JobRun env id (reply i)) s n t → n < attemptsUntil env.webhooks.maxAttempts k →
    ∃ jobId job, OneJob t id jobId ∧ t.queue jobId = some job ∧ ∀ r ms reply, t.runs r = none →
      job.state.ready (t.now + ms) = true → ∃ t', JobRun env id reply t t'
  stops : ∀ t, Rounds (fun i => JobRun env id (reply i)) s (attemptsUntil env.webhooks.maxAttempts k) t → NoJob t id ∧
    (postsOf t id).length = (postsOf s id).length + attemptsUntil env.webhooks.maxAttempts k ∧
    ∃ d, t.delivery id = some d ∧
      (∀ m, k = some m → m < env.webhooks.maxAttempts → d.status = .delivered ∧ d.attempts = m + 1) ∧
      ((∀ m, k = some m → env.webhooks.maxAttempts ≤ m) → d.status = .dead ∧ d.attempts = env.webhooks.maxAttempts)

variable {env} {s s' t : State} {a : Action} {id : String}

/-! ## Ids of jobs -/

/-- A retry id tells the delivery and the attempt. -/
theorem retryJobId_inj {id' : String} {n n' : Nat} (h : retryJobId id n = retryJobId id' n') (hid : ':' ∉ id.toList)
    (hid' : ':' ∉ id'.toList) : id = id' ∧ n = n' :=
  JobId.same_tag_inj (show ":retry:".toList = ':' :: "retry:".toList from rfl) hid hid' h

/-- A retry id is not the id of a delivery. -/
theorem retryJobId_ne {id' : String} {n : Nat} (hid : ':' ∉ id.toList) : retryJobId id' n ≠ id := by
  rintro rfl
  exact hid (by simp [retryJobId])

/-! ## What a run relies on -/

/-- The ids of the deliveries are drawn, their endpoints are there, and so are those the polls have read; each job has
the id of its delivery or one of its retry ids. -/
structure RowsInv (env : Env) (s : State) : Prop where
  minted : ∀ d ∈ s.deliveries, ∃ n, d.id = env.u.ulid n
  placed : ∀ d ∈ s.deliveries, ∃ endpoint ∈ s.endpoints, endpoint.id = d.endpointId
  located : All s.polls fun _ poll => ∀ read ∈ poll.endpoints, ∃ endpoint ∈ s.endpoints, endpoint.id = read.id
  keyed : All s.queue fun jobId job => jobId = job.data.deliveryId ∨ ∃ n, jobId = retryJobId job.data.deliveryId n

/-- No endpoint is deleted. -/
theorem Step.endpoint {endpoint : WebhookEndpoint} (hs : Step env s a s') (h : endpoint ∈ s.endpoints) :
    ∃ endpoint' ∈ s'.endpoints, endpoint'.id = endpoint.id := by
  cases hs with
  | insertEndpoint => exact ⟨endpoint, List.mem_append_left _ h, rfl⟩
  | deactivate id =>
    refine ⟨_, List.mem_map_of_mem h, ?_⟩
    split <;> rfl
  | _ => exact ⟨endpoint, h, rfl⟩

/-- A delivery made by a poll has a drawn id and the id of an endpoint the poll has read. -/
theorem of_mem_deliveriesFor' {began n : Nat} {events : List OutboxRow} {endpoints : List WebhookEndpoint}
    {d : WebhookDelivery} (h : d ∈ deliveriesFor env began n events endpoints) :
    (∃ m, d.id = env.u.ulid m) ∧ ∃ endpoint ∈ endpoints, endpoint.id = d.endpointId := by
  obtain ⟨⟨⟨row, endpoint⟩, m⟩, hmem, rfl⟩ := List.mem_map.1 h
  have hpair := (List.mem_zipIdx hmem).2.2
  refine ⟨⟨n + m, rfl⟩, endpoint, ?_, rfl⟩
  have hin : (row, endpoint) ∈ events.flatMap fun row => endpoints.map fun endpoint => (row, endpoint) := by
    rw [hpair]
    exact List.getElem_mem _
  obtain ⟨row', -, hin⟩ := List.mem_flatMap.1 hin
  obtain ⟨endpoint', hin, heq⟩ := List.mem_map.1 hin
  cases heq
  exact hin

theorem RowsInv.step (h : RowsInv env s) (hs : Step env s a s') : RowsInv env s' := by
  obtain ⟨hminted, hplaced, hlocated, hkeyed⟩ := h
  -- endpoints are never deleted
  have hread : ∀ {id : String}, (∃ endpoint ∈ s.endpoints, endpoint.id = id) → ∃ endpoint ∈ s'.endpoints, endpoint.id = id := by
    rintro id ⟨endpoint, hmem, rfl⟩
    exact hs.endpoint hmem
  have hplaced' : ∀ d ∈ s.deliveries, ∃ endpoint ∈ s'.endpoints, endpoint.id = d.endpointId :=
    fun d hd => hread (hplaced d hd)
  have hlocated' : All s.polls fun _ poll => ∀ read ∈ poll.endpoints, ∃ endpoint ∈ s'.endpoints, endpoint.id = read.id :=
    hlocated.mono fun _ _ hpoll read hmem => hread (hpoll read hmem)
  have hmoved : ∀ {k poll new}, s.polls k = some poll → new.endpoints = poll.endpoints →
      All (Function.update s.polls k (some new)) fun _ poll => ∀ read ∈ poll.endpoints, ∃ endpoint ∈ s'.endpoints,
        endpoint.id = read.id := by
    intro k poll new hk hsame
    refine hlocated'.but.set fun read hmem => ?_
    rw [hsame] at hmem
    exact hlocated' hk read hmem
  cases hs with
  | pollBegin => exact ⟨hminted, hplaced', hlocated'.but.set (by simp), hkeyed⟩
  | pollNone k poll hk => exact ⟨hminted, hplaced', hmoved hk rfl, hkeyed⟩
  | pollSelect k poll hk => exact ⟨hminted, hplaced', hmoved hk rfl, hkeyed⟩
  | pollEndpoints k poll hk =>
    refine ⟨hminted, hplaced', hlocated'.but.set fun read hmem => ?_, hkeyed⟩
    exact ⟨read, (List.mem_filter.1 hmem).1, rfl⟩
  | pollCommit k poll rows hk hpc hrows =>
    refine ⟨fun d hd => ?_, fun d hd => ?_, hmoved hk rfl, hkeyed⟩
    · rcases List.mem_append.1 hd with hd | hd
      · exact hminted d hd
      · exact (of_mem_deliveriesFor' (hrows ▸ hd)).1
    · rcases List.mem_append.1 hd with hd | hd
      · exact hplaced' d hd
      -- a new delivery is of an endpoint its poll has read
      · obtain ⟨-, endpoint, hmem, heq⟩ := of_mem_deliveriesFor' (hrows ▸ hd)
        rw [← heq]
        exact hlocated' hk endpoint hmem
  | pollAdd k id poll left hk =>
    exact ⟨hminted, hplaced', hmoved hk rfl, EvictingQueue.all_add hkeyed (Or.inl rfl)⟩
  | pollEnd k poll hk => exact ⟨hminted, hplaced', hmoved hk rfl, hkeyed⟩
  | reapAdd k id stuck row =>
    refine ⟨hminted, hplaced', hlocated', EvictingQueue.all_add hkeyed ?_⟩
    unfold reapJobId
    split
    · exact Or.inl rfl
    · exact Or.inr ⟨_, rfl⟩
  | dequeue r jobId job =>
    exact ⟨hminted, hplaced', hlocated', EvictingQueue.all_setState hkeyed fun job hjob => @hkeyed jobId job hjob⟩
  | write r run d w =>
    refine ⟨fun e he => ?_, fun e he => ?_, hlocated', hkeyed⟩
    · obtain ⟨old, hold, rfl⟩ := List.mem_map.1 he
      split
      · rw [StatusWrite.set_id]
        exact hminted old hold
      · exact hminted old hold
    · obtain ⟨old, hold, rfl⟩ := List.mem_map.1 he
      split
      · rw [StatusWrite.set_endpointId]
        exact hplaced' old hold
      · exact hplaced' old hold
  | retryAdd => exact ⟨hminted, hplaced', hlocated', EvictingQueue.all_add hkeyed (Or.inr ⟨_, rfl⟩)⟩
  | finish | giveUp => exact ⟨hminted, hplaced', hlocated', EvictingQueue.all_finish hkeyed⟩
  | stall jobId => exact ⟨hminted, hplaced', hlocated', EvictingQueue.all_setState hkeyed fun job hjob => @hkeyed jobId job hjob⟩
  | _ => exact ⟨hminted, hplaced', hlocated', hkeyed⟩

theorem rowsInv {C : State → Action → Prop} (h : Reach (system env) C s) : RowsInv env s :=
  h.invariant (I := RowsInv env) ⟨fun _ hd => absurd hd List.not_mem_nil, fun _ hd => absurd hd List.not_mem_nil, all_empty,
    all_empty⟩ fun _ _ _ _ hI _ hs => hI.step (step_sound hs)

theorem mem_of_delivery {d : WebhookDelivery} (h : s.delivery id = some d) : d ∈ s.deliveries :=
  List.mem_of_find?_eq_some h

/-- The id of a delivery has no separator in it. -/
theorem RowsInv.plain {d : WebhookDelivery} (h : RowsInv env s) (hd : s.delivery id = some d) : ':' ∉ id.toList := by
  obtain ⟨n, hn⟩ := h.minted d (mem_of_delivery hd)
  rw [← find_id hd, hn]
  exact env.u.plain n

/-- A job under the id of a delivery or one of its retry ids is a job of that delivery. -/
theorem RowsInv.owner {jobId : String} {job : LiveJob DeliveryJob} {d : WebhookDelivery} {n : Nat} (h : RowsInv env s)
    (hI : SnapshotInv s) (hd : s.delivery id = some d) (hjob : s.queue jobId = some job) (hjobId : jobId = retryJobId id n) :
    job.data.deliveryId = id := by
  obtain ⟨row, hrow, -⟩ := hI.queue hjob
  rcases h.keyed hjob with hown | ⟨m, hretry⟩
  · exact absurd (hjobId.symm.trans hown) (retryJobId_ne (h.plain hrow))
  · exact (retryJobId_inj (hretry.symm.trans hjobId) (h.plain hrow) (h.plain hd)).1

/-! ## One run -/

/-- The write schedules a retry. -/
def StatusWrite.retries : StatusWrite → Bool
  | .failed _ _ _ _ => true
  | .delivered _ | .dead _ _ => false

/-- Where a run alone with its delivery is: what it has written, and the jobs, the requests and the row. -/
def Stage (q : EvictingQueue DeliveryJob) (d : WebhookDelivery) (sent : Nat) (w : Option StatusWrite) (s : State) (run : Run) :
    Prop :=
  match run.pc with
  | .start => w = none ∧ s.queue = q ∧ s.delivery d.id = some d ∧ (postsOf s d.id).length = sent
  | .loaded e => e = d ∧ w = none ∧ s.queue = q ∧ s.delivery d.id = some d ∧ (postsOf s d.id).length = sent
  | .posting e => e = d ∧ w = none ∧ s.queue = q ∧ s.delivery d.id = some d ∧ (postsOf s d.id).length = sent + 1
  | .settling e w' => e = d ∧ w = some w' ∧ s.queue = q ∧ s.delivery d.id = some d ∧ (postsOf s d.id).length = sent + 1
  | .retryAdd deliveryId attempts delay basis => ∃ w', w = some w' ∧
      afterWrite d w' basis = .retryAdd deliveryId attempts delay basis ∧ s.queue = q ∧ s.delivery d.id = some (w'.set d) ∧
      (postsOf s d.id).length = sent + 1
  | .returned => ∃ w', w = some w' ∧ s.delivery d.id = some (w'.set d) ∧ (postsOf s d.id).length = sent + 1 ∧
      if w'.retries then
        ∃ basis readyAt, s.queue = q.add (retryJobId d.id (w'.set d).attempts) ⟨d.id, basis⟩ (.delayed readyAt)
      else s.queue = q
  | .threw | .gone => False

variable (env) in
/-- With the endpoint of its row there, a run sends its request. -/
theorem post_of_endpoint {r : Nat} {run : Run} {d : WebhookDelivery} {endpoint : WebhookEndpoint} (hr : s.runs r = some run)
    (hpc : run.pc = .loaded d) (hmem : endpoint ∈ s.endpoints) (hid : endpoint.id = d.endpointId) :
    ∃ endpoint', step env s (.post r) =
      some { s.setPc r run (.posting d) with posts := s.posts ++ [postFor env d endpoint' s.now] } := by
  have hfound : (s.endpoints.find? fun e => e.id = d.endpointId).isSome = true := by
    rw [List.find?_isSome]
    exact ⟨endpoint, hmem, decide_eq_true hid⟩
  obtain ⟨endpoint', hfind⟩ := Option.isSome_iff_exists.1 hfound
  exact ⟨endpoint', by simp [Webhooks.step, post, hr, hpc, hfind]⟩

/-- A stage, with the place of the run filled in. -/
theorem Stage.at_pc {q : EvictingQueue DeliveryJob} {d : WebhookDelivery} {sent : Nat} {w : Option StatusWrite} {run : Run}
    {pc : Pc} (h : Stage q d sent w s run) (hpc : run.pc = pc) : Stage q d sent w s { run with pc := pc } := by
  subst hpc
  exact h

theorem eq_of_run {r r' : Nat} {run run' : Run} (h : r' = r) (hrun : s.runs r = some run) (hr' : s.runs r' = some run') :
    r' = r ∧ run' = run := by
  subst h
  exact ⟨rfl, Option.some.inj (hr'.symm.trans hrun)⟩

/-- A step of a run alone with its delivery takes it to the next stage. -/
theorem Stage.step {q : EvictingQueue DeliveryJob} {d : WebhookDelivery} {sent r : Nat} {w : Option StatusWrite} {run : Run}
    (h : Stage q d sent w s run) (hI : RowsInv env s) (hopen : d.status.final = false) (hrun : s.runs r = some run)
    (hid : run.data.deliveryId = d.id) (ha : alone r a = true) (hs : step env s a = some s') :
    ∃ run', s'.runs r = some run' ∧ run'.jobId = run.jobId ∧ run'.data = run.data ∧ Stage q d sent w s' run' ∧
      s'.deliveryLocks = s.deliveryLocks := by
  have hrule := step_sound hs
  cases hrule with
  | tick | emit | insertEndpoint | deactivate => exact ⟨run, hrun, rfl, rfl, h, rfl⟩
  | walk r' run' _ pc hr hwalk =>
    cases hwalk with
    | loadNone hpc hnone =>
      obtain ⟨rfl, rfl⟩ := eq_of_run (of_decide_eq_true ha) hrun hr
      obtain ⟨hw, hq, hd, hsent⟩ := h.at_pc hpc
      rw [hid, hd] at hnone
      cases hnone
    | loadFinal hpc hload hfinal =>
      obtain ⟨rfl, rfl⟩ := eq_of_run (of_decide_eq_true ha) hrun hr
      obtain ⟨hw, hq, hd, hsent⟩ := h.at_pc hpc
      rw [hid, hd] at hload
      cases hload
      rw [hopen] at hfinal
      cases hfinal
    | load hpc hload =>
      obtain ⟨rfl, rfl⟩ := eq_of_run (of_decide_eq_true ha) hrun hr
      obtain ⟨hw, hq, hd, hsent⟩ := h.at_pc hpc
      rw [hid, hd] at hload
      cases hload
      exact ⟨_, Function.update_self .., rfl, rfl, ⟨rfl, hw, hq, hd, hsent⟩, rfl⟩
    | @postThrows e hpc =>
      obtain ⟨rfl, rfl⟩ := eq_of_run (of_decide_eq_true ha) hrun hr
      obtain ⟨rfl, -, -, hd, -⟩ := h.at_pc hpc
      obtain ⟨endpoint, hmem, heq⟩ := hI.placed e (mem_of_delivery hd)
      obtain ⟨endpoint', hpost⟩ := post_of_endpoint env hrun hpc hmem heq
      have hpcs := congrArg (fun s : Option State => s.map fun s => (s.runs r').map Run.pc) (hpost.symm.trans hs)
      simp [State.setPc] at hpcs
    | receive => cases ha
    | fail => cases ha
  | post r' run' e endpoint hr hpc =>
    obtain ⟨rfl, rfl⟩ := eq_of_run (of_decide_eq_true ha) hrun hr
    obtain ⟨rfl, hw, hq, hd, hsent⟩ := h.at_pc hpc
    refine ⟨_, Function.update_self .., rfl, rfl, ⟨rfl, hw, hq, hd, ?_⟩, rfl⟩
    unfold postsOf at hsent ⊢
    rw [List.filter_append, List.length_append, hsent]
    simp [postFor]
  | write r' run' e w' basis hr hpc hbasis =>
    obtain ⟨rfl, rfl⟩ := eq_of_run (of_decide_eq_true ha) hrun hr
    obtain ⟨rfl, hw, hq, hd, hsent⟩ := h.at_pc hpc
    have hset : find (update s.deliveries e.id w'.set) e.id = some (w'.set e) := by
      rw [find_update w'.set_id, show find s.deliveries e.id = some e from hd]
      simp
    refine ⟨_, Function.update_self .., rfl, rfl, ?_, rfl⟩
    cases w' with
    | delivered => exact ⟨_, hw, hset, hsent, hq⟩
    | dead => exact ⟨_, hw, hset, hsent, hq⟩
    | failed => exact ⟨_, hw, rfl, hq, hset, hsent⟩
  | retryAdd r' run' deliveryId attempts delay basis hr hpc =>
    obtain ⟨rfl, rfl⟩ := eq_of_run (of_decide_eq_true ha) hrun hr
    obtain ⟨w', hw, hafter, hq, hd, hsent⟩ := h.at_pc hpc
    refine ⟨_, Function.update_self .., rfl, rfl, ⟨w', hw, hd, hsent, ?_⟩, rfl⟩
    cases w' with
    | delivered => cases hafter
    | dead => cases hafter
    | failed =>
      cases hafter
      exact ⟨basis, s.now + delay, by rw [← hq]; rfl⟩
  | _ => cases ha

/-- What a run that has returned leaves behind. -/
theorem Stage.returned {q : EvictingQueue DeliveryJob} {d : WebhookDelivery} {sent : Nat} {w : StatusWrite} {run : Run}
    (h : Stage q d sent (some w) s run) (hpc : run.pc = .returned) :
    s.delivery d.id = some (w.set d) ∧ (postsOf s d.id).length = sent + 1 ∧
      if w.retries then ∃ basis readyAt, s.queue = q.add (retryJobId d.id (w.set d).attempts) ⟨d.id, basis⟩ (.delayed readyAt)
      else s.queue = q := by
  obtain ⟨_, hw, hreturned⟩ := h.at_pc hpc
  cases hw
  exact hreturned

/-- A run alone with its delivery goes through its stages. -/
theorem Stage.path {q : EvictingQueue DeliveryJob} {d : WebhookDelivery} {sent r : Nat} {w : Option StatusWrite} {run : Run}
    (h : Stage q d sent w s run) (hr : Reach (system env) Free s) (hopen : d.status.final = false)
    (hrun : s.runs r = some run) (hid : run.data.deliveryId = d.id) (hpath : Path (system env) (alone r) s t) :
    ∃ run', t.runs r = some run' ∧ run'.jobId = run.jobId ∧ run'.data = run.data ∧ Stage q d sent w t run' ∧
      t.deliveryLocks = s.deliveryLocks := by
  refine Path.invariant (I := fun u => ∃ run', u.runs r = some run' ∧ run'.jobId = run.jobId ∧ run'.data = run.data ∧
    Stage q d sent w u run' ∧ u.deliveryLocks = s.deliveryLocks) hr hpath ⟨run, hrun, rfl, rfl, h, rfl⟩ ?_
  rintro u a u' hu ⟨run1, hrun1, hjob1, hdata1, hstage1, hlocks1⟩ ha hs
  obtain ⟨run2, hrun2, hjob2, hdata2, hstage2, hlocks2⟩ :=
    hstage1.step (rowsInv hu) hopen hrun1 (by rw [hdata1, hid]) ha hs
  exact ⟨run2, hrun2, hjob2.trans hjob1, hdata2.trans hdata1, hstage2, hlocks2.trans hlocks1⟩

/-- The clock and the API leave rows, jobs, runs, locks and requests as they are. -/
theorem quiet_path (h : Path (system env) quiet s t) : t.deliveries = s.deliveries ∧ t.queue = s.queue ∧
    t.runs = s.runs ∧ t.deliveryLocks = s.deliveryLocks ∧ t.posts = s.posts := by
  induction h with
  | refl => exact ⟨rfl, rfl, rfl, rfl, rfl⟩
  | tail _ hstep ih =>
    obtain ⟨a, ha, hs⟩ := hstep
    cases step_sound hs with
    | tick | emit | insertEndpoint | deactivate => exact ih
    | walk _ _ _ _ _ hwalk => cases hwalk <;> cases ha
    | _ => cases ha

/-! ## What a run comes to -/

/-- At rest: the row is as it is and not locked, and so many requests have been sent for it. -/
structure Resting (env : Env) (d : WebhookDelivery) (sent : Nat) (s : State) : Prop where
  reach : Reach (system env) Free s
  row : s.delivery d.id = some d
  unlocked : s.deliveryLocks d.id = none
  sent : (postsOf s d.id).length = sent

theorem final_set (w : StatusWrite) (d : WebhookDelivery) : (w.set d).status.final = !w.retries := by
  cases w <;> rfl

/-- The row after a reply, whenever it is recorded. -/
theorem set_writeFor (env : Env) (d : WebhookDelivery) (reply : Reply) (now delay : Nat) :
    ((writeFor env d reply now delay).set d).attempts = d.attempts + 1 ∧
      ((writeFor env d reply now delay).set d).status = statusOf env.webhooks.maxAttempts reply (d.attempts + 1) := by
  unfold writeFor statusOf
  cases reply.lastError with
  | none => exact ⟨rfl, rfl⟩
  | some lastError =>
    dsimp only
    split <;> exact ⟨rfl, rfl⟩

/-- The retry id of the next attempt is free as long as the delivery has its one job only. -/
theorem OneJob.free {d : WebhookDelivery} (h : OneJob s d.id (jobIdOf d)) (hr : Reach (system env) Free s)
    (hd : s.delivery d.id = some d) : s.queue (retryJobId d.id (d.attempts + 1)) = none := by
  have hI := rowsInv hr
  have hplain := hI.plain hd
  cases hjob : s.queue (retryJobId d.id (d.attempts + 1)) with
  | none => rfl
  | some job =>
    have hid := h.2 _ job hjob (hI.owner (snapshotInv hr) hd hjob rfl)
    unfold jobIdOf at hid
    split at hid
    · exact absurd hid (retryJobId_ne hplain)
    · have hattempts := (retryJobId_inj hid hplain hplain).2
      omega

/-- The one job is gone. -/
theorem OneJob.finished {jobId : String} (h : OneJob s id jobId)
    (hq : ∀ i, s'.queue i = if i = jobId then none else s.queue i) : NoJob s' id := by
  intro i job hjob hid
  rw [hq] at hjob
  split at hjob
  · cases hjob
  · rename_i hne
    exact hne (h.2 i job hjob hid)

/-- The one job is gone, and another one was added. -/
theorem OneJob.replaced {jobId next : String} {data : DeliveryJob} {readyAt : Nat} (h : OneJob s id jobId)
    (hne : next ≠ jobId) (hdata : data.deliveryId = id)
    (hq : ∀ i, s'.queue i = if i = jobId then none else if i = next then some ⟨data, .delayed readyAt⟩ else s.queue i) :
    OneJob s' id next := by
  refine ⟨⟨⟨data, .delayed readyAt⟩, ?_, hdata, Or.inr ⟨readyAt, rfl⟩⟩, fun i job hjob hid => ?_⟩
  · rw [hq, if_neg hne, if_pos rfl]
  · rw [hq] at hjob
    split at hjob
    · cases hjob
    · rename_i hother
      split at hjob
      · rename_i hnext
        exact hnext
      · exact absurd (h.2 i job hjob hid) hother

/-- The jobs when the run of the one job is finished with. -/
theorem OneJob.after {d : WebhookDelivery} {sent r : Nat} {w : StatusWrite} {run : Run} (h : OneJob s d.id (jobIdOf d))
    (hfree : s.queue (retryJobId d.id (d.attempts + 1)) = none) (hattempts : (w.set d).attempts = d.attempts + 1)
    (hstage : Stage (s.queue.setState (jobIdOf d) (.active r)) d sent (some w) t run) (hpc : run.pc = .returned)
    (hq : s'.queue = t.queue.finish (jobIdOf d) r) :
    if (w.set d).status.final then NoJob s' d.id else OneJob s' d.id (jobIdOf (w.set d)) := by
  obtain ⟨-, -, hjobs⟩ := hstage.returned hpc
  obtain ⟨job, hjob, -⟩ := h.1
  rw [final_set]
  cases hretries : w.retries with
  | false =>
    rw [hretries, if_neg Bool.false_ne_true] at hjobs
    refine h.finished fun i => ?_
    rw [hq, hjobs]
    exact EvictingQueue.finish_taken hjob i
  | true =>
    rw [hretries, if_pos rfl, hattempts] at hjobs
    obtain ⟨basis, readyAt, hjobs⟩ := hjobs
    have hnext : jobIdOf (w.set d) = retryJobId d.id (d.attempts + 1) := by
      unfold jobIdOf
      rw [hattempts, if_neg (Nat.succ_ne_zero _), StatusWrite.set_id]
    rw [hnext]
    have hne : retryJobId d.id (d.attempts + 1) ≠ jobIdOf d := by
      intro hc
      rw [hc, hjob] at hfree
      cases hfree
    have hafter : ∀ i, s'.queue i = if i = jobIdOf d then none
        else if i = retryJobId d.id (d.attempts + 1) then some ⟨⟨d.id, basis⟩, .delayed readyAt⟩ else s.queue i := by
      intro i
      rw [hq, hjobs]
      exact EvictingQueue.finish_added hjob hfree i
    exact h.replaced hne rfl hafter

/-- A run of the one job of an open delivery records the reply, and leaves one job, the next retry, as long as the
delivery is still open, and none otherwise. -/
theorem JobRun.result {d : WebhookDelivery} {sent : Nat} {reply : Reply} (h : JobRun env d.id reply s s')
    (hs : Resting env d sent s) (hone : OneJob s d.id (jobIdOf d)) (hopen : d.status.final = false) :
    ∃ d', d'.id = d.id ∧ d'.attempts = d.attempts + 1 ∧
      d'.status = statusOf env.webhooks.maxAttempts reply (d.attempts + 1) ∧
      Resting env d' (sent + 1) s' ∧ if d'.status.final then NoJob s' d.id else OneJob s' d.id (jobIdOf d') := by
  obtain ⟨r, jobId, job, delay, taken, begun, posted, replied, ended, hwait, hjob, hid, htake, hsend, hreply, hend, hfinish⟩ := h
  obtain ⟨hdeliveries, hqueue, -, hlocks, hposts⟩ := quiet_path hwait
  have hreach := hs.reach.path hwait
  have hreach' : Reach (system env) Free begun := .step (a := .dequeue r jobId) hreach trivial htake
  rw [hqueue] at hjob
  cases step_sound htake with
  | walk _ _ _ _ _ hwalk => cases hwalk
  | dequeue _ _ job' hfree hjob' hready =>
    rw [hqueue] at hjob'
    cases hjob.symm.trans hjob'
    obtain rfl := hone.2 _ _ hjob hid
    -- the stages up to the reply
    have hstage : Stage (s.queue.setState (jobIdOf d) (.active r)) d sent none
        { taken with
          queue := taken.queue.setState (jobIdOf d) (.active r)
          runs := Function.update taken.runs r (some ⟨jobIdOf d, job.data, .start⟩) }
        ⟨jobIdOf d, job.data, .start⟩ := by
      refine ⟨rfl, by rw [hqueue], ?_, ?_⟩
      · unfold State.delivery
        rw [hdeliveries]
        exact hs.row
      · unfold postsOf
        rw [hposts]
        exact hs.sent
    obtain ⟨run1, hrun1, hjob1, hdata1, hstage1, hlocks1⟩ := hstage.path hreach' hopen (Function.update_self ..) hid hsend
    have hreach1 := hreach'.path hsend
    have hreach2 : Reach (system env) Free replied := .step (a := .receive r reply delay) hreach1 trivial hreply
    cases step_sound hreply with
    | walk _ run _ pc hrun hwalk =>
      cases hwalk with
      | @receive e _ _ hpc =>
        cases hrun1.symm.trans hrun
        obtain ⟨rfl, -, hstage1⟩ := hstage1.at_pc hpc
        -- the stages from the reply to the end
        have hstage2 : Stage (s.queue.setState (jobIdOf e) (.active r)) e sent (some (writeFor env e reply posted.now delay))
            (posted.setPc r run1 (.settling e (writeFor env e reply posted.now delay)))
            { run1 with pc := .settling e (writeFor env e reply posted.now delay) } := ⟨rfl, rfl, hstage1⟩
        obtain ⟨run3, hrun3, hjob3, hdata3, hstage3, hlocks3⟩ :=
          hstage2.path hreach2 hopen (Function.update_self ..) (by rw [hdata1]; exact hid) hend
        have hfinal : Reach (system env) Free s' := .step (a := .finish r) (hreach2.path hend) trivial hfinish
        obtain ⟨hattempts, hstatus⟩ := set_writeFor env e reply posted.now delay
        generalize writeFor env e reply posted.now delay = w at *
        cases step_sound hfinish with
        | walk _ _ _ _ _ hwalk => cases hwalk
        | finish _ run4 hrun4 hover =>
          cases hrun3.symm.trans hrun4
          have hjobId : run3.jobId = jobIdOf e := hjob3.trans hjob1
          have hpc3 : run3.pc = .returned := by
            cases hpc3 : run3.pc <;> rw [hpc3] at hover <;> first | rfl | cases hover
            exact (hstage3.at_pc hpc3).elim
          rw [hjobId] at hfinal ⊢
          obtain ⟨hrow, hsent, -⟩ := hstage3.returned hpc3
          refine ⟨w.set e, w.set_id e, hattempts, hstatus, ⟨hfinal, ?_, ?_, ?_⟩,
            hone.after (hone.free hs.reach hs.row) hattempts hstage3 hpc3 rfl⟩
          · rw [w.set_id]
            exact hrow
          · rw [w.set_id]
            exact (congrFun (hlocks3.trans (hlocks1.trans hlocks)) e.id).trans hs.unlocked
          · rw [w.set_id]
            exact hsent

/-! ## A run can be made -/

/-- The steps of `process` in a run, other than the receipt of the reply. -/
def inProcess (r : Nat) : Action → Bool
  | .load r' | .post r' | .write r' | .retryAdd r' => r' = r
  | _ => false

theorem alone_of_inProcess {r : Nat} (h : inProcess r a = true) : alone r a = true := by
  cases a <;> first | exact h | cases h

/-- A run of an open delivery sends its request. -/
theorem exists_posted {d : WebhookDelivery} {r : Nat} {run : Run} (hI : RowsInv env s) (hrun : s.runs r = some run)
    (hpc : run.pc = .start) (hd : s.delivery run.data.deliveryId = some d) (hopen : d.status.final = false) :
    ∃ t post, Path (system env) (inProcess r) s t ∧ t.runs r = some { run with pc := .posting d } ∧
      t.deliveries = s.deliveries ∧ t.deliveryLocks = s.deliveryLocks ∧ t.posts = s.posts ++ [post] ∧
      post.deliveryId = d.id := by
  have hload : step env s (.load r) = some (s.setPc r run (.loaded d)) := by
    simp [step, load, hrun, hpc, hd, hopen]
  have hrun' : (s.setPc r run (.loaded d)).runs r = some { run with pc := .loaded d } := Function.update_self ..
  obtain ⟨endpoint, hmem, hid⟩ := hI.placed d (mem_of_delivery hd)
  obtain ⟨endpoint', hpost⟩ := post_of_endpoint (s := s.setPc r run (.loaded d)) env hrun' rfl hmem hid
  have hloaded : Path (system env) (inProcess r) s (s.setPc r run (.loaded d)) :=
    Path.single (.load r) (by simp [inProcess]) hload
  exact ⟨_, postFor env d endpoint' s.now, hloaded.trans (Path.single (.post r) (by simp [inProcess]) hpost),
    Function.update_self .., rfl, rfl, rfl, rfl⟩

variable (env) in
/-- A run that has decided what to write writes it, adds its retry job and returns. -/
theorem exists_returned {d : WebhookDelivery} {w : StatusWrite} {r : Nat} {run : Run} (hrun : s.runs r = some run)
    (hpc : run.pc = .settling d w) (hunlocked : s.deliveryLocks d.id = none) :
    ∃ t, Path (system env) (inProcess r) s t ∧ t.runs r = some { run with pc := .returned } ∧
      t.deliveries = update s.deliveries d.id w.set ∧ t.posts = s.posts := by
  obtain ⟨t, hwrite, basis, hrun', hdeliveries, hposts⟩ : ∃ t, step env s (.write r) = some t ∧
      ∃ basis, t.runs r = some { run with pc := afterWrite d w basis } ∧ t.deliveries = update s.deliveries d.id w.set ∧
        t.posts = s.posts := by
    apply Exists.intro
    constructor
    · simp [step, write, hrun, hpc, hunlocked]
      rfl
    · exact ⟨_, Function.update_self .., rfl, rfl⟩
  have hpath : Path (system env) (inProcess r) s t := Path.single (.write r) (by simp [inProcess]) hwrite
  cases w with
  | delivered => exact ⟨t, hpath, hrun', hdeliveries, hposts⟩
  | dead => exact ⟨t, hpath, hrun', hdeliveries, hposts⟩
  | failed delay next attempts err =>
    obtain ⟨u, hadd, hrun'', hdeliveries', hposts'⟩ : ∃ u, step env t (.retryAdd r) = some u ∧
        u.runs r = some { run with pc := .returned } ∧ u.deliveries = t.deliveries ∧ u.posts = t.posts := by
      apply Exists.intro
      constructor
      · simp [step, retryAdd, hrun', afterWrite]
        rfl
      · exact ⟨Function.update_self .., rfl, rfl⟩
    exact ⟨u, hpath.trans (Path.single (.retryAdd r) (by simp [inProcess]) hadd), hrun'', hdeliveries'.trans hdeliveries,
      hposts'.trans hposts⟩

/-- What a run of an open delivery leaves: one more attempt, recorded as its reply says, and one more request. -/
structure Attempted (env : Env) (reply : Reply) (d : WebhookDelivery) (r : Nat) (s t : State) : Prop where
  gone : (t.runs r).map Run.pc = some .gone
  row : ∃ d', t.delivery d.id = some d' ∧ d'.status = statusOf env.webhooks.maxAttempts reply (d.attempts + 1) ∧
    d'.attempts = d.attempts + 1
  post : ∃ post, t.posts = s.posts ++ [post] ∧ post.deliveryId = d.id

/-- A job of an open delivery that is ready can be run to its end, whatever the reply. -/
theorem exists_run {d : WebhookDelivery} {r : Nat} {jobId : String} {job : LiveJob DeliveryJob} (hr : Reach (system env) Free s)
    (hd : s.delivery d.id = some d) (hopen : d.status.final = false) (hunlocked : s.deliveryLocks d.id = none)
    (hjob : s.queue jobId = some job) (hid : job.data.deliveryId = d.id) (hfree : s.runs r = none)
    (hready : job.state.ready s.now = true) (reply : Reply) : ∃ delay begun sent replied ended t,
    step env s (.dequeue r jobId) = some begun ∧ Path (system env) (inProcess r) begun sent ∧
    step env sent (.receive r reply delay) = some replied ∧ Path (system env) (inProcess r) replied ended ∧
    step env ended (.finish r) = some t ∧ Attempted env reply d r s t := by
  obtain ⟨begun, htake, hrun, hrow, hlocks, hposts⟩ : ∃ t, step env s (.dequeue r jobId) = some t ∧
      t.runs r = some ⟨jobId, job.data, .start⟩ ∧ t.deliveries = s.deliveries ∧ t.deliveryLocks = s.deliveryLocks ∧
      t.posts = s.posts := by
    apply Exists.intro
    constructor
    · simp [step, dequeue, hfree, hjob, hready]
      rfl
    · exact ⟨Function.update_self .., rfl, rfl, rfl⟩
  have hbegun : begun.delivery job.data.deliveryId = some d := by
    rw [hid]
    exact (congrArg (find · d.id) hrow).trans hd
  obtain ⟨sent, post, hsend, hrun1, hrow1, hlocks1, hposts1, hfor⟩ :=
    exists_posted (rowsInv (.step (a := .dequeue r jobId) hr trivial htake)) hrun rfl hbegun hopen
  have hdrawn : Worker.backoffCap env.cfg (d.attempts + 1) / 2 ≤ Worker.backoffCap env.cfg (d.attempts + 1) := Nat.div_le_self _ _
  obtain ⟨replied, hreply, hrun2, hrow2, hlocks2, hposts2⟩ : ∃ t,
      step env sent (.receive r reply (Worker.backoffCap env.cfg (d.attempts + 1))) = some t ∧
      t.runs r = some ⟨jobId, job.data,
        .settling d (writeFor env d reply sent.now (Worker.backoffCap env.cfg (d.attempts + 1)))⟩ ∧
      t.deliveries = sent.deliveries ∧ t.deliveryLocks = sent.deliveryLocks ∧ t.posts = sent.posts := by
    apply Exists.intro
    constructor
    · simp [step, receive, hrun1, hdrawn]
      rfl
    · exact ⟨Function.update_self .., rfl, rfl, rfl⟩
  obtain ⟨ended, hend, hrun3, hrow3, hposts3⟩ :=
    exists_returned env hrun2 rfl (by rw [hlocks2, hlocks1, hlocks]; exact hunlocked)
  obtain ⟨t, hfinish, hrun4, hrow4, hposts4⟩ : ∃ t, step env ended (.finish r) = some t ∧
      (t.runs r).map Run.pc = some .gone ∧ t.deliveries = ended.deliveries ∧ t.posts = ended.posts := by
    apply Exists.intro
    constructor
    · simp [step, finish, hrun3, Pc.over]
      rfl
    · exact ⟨by simp [State.setPc], rfl, rfl⟩
  refine ⟨_, begun, sent, replied, ended, t, htake, hsend, hreply, hend, hfinish, hrun4, ⟨_, ?_,
    (set_writeFor env d reply sent.now (Worker.backoffCap env.cfg (d.attempts + 1))).2, (set_writeFor env d reply _ _).1⟩,
    post, ?_, hfor⟩
  · show find t.deliveries d.id = _
    rw [hrow4, hrow3, hrow2, hrow1, hrow, find_update (StatusWrite.set_id _), show find s.deliveries d.id = some d from hd,
      Option.map_some, if_pos rfl]
  · rw [hposts4, hposts3, hposts2, hposts1, hposts]

/-- The one job of an open delivery can be run when it is ready, whatever the reply. -/
theorem exists_jobRun {d : WebhookDelivery} {sent r ms : Nat} {jobId : String} {job : LiveJob DeliveryJob}
    (hs : Resting env d sent s) (hopen : d.status.final = false) (hjob : s.queue jobId = some job)
    (hid : job.data.deliveryId = d.id) (hfree : s.runs r = none) (hready : job.state.ready (s.now + ms) = true)
    (reply : Reply) : ∃ s', JobRun env d.id reply s s' := by
  have hwait : Path (system env) quiet s { s with now := s.now + ms } := Path.single (.tick ms) rfl rfl
  obtain ⟨delay, begun, sent, replied, ended, s', htake, hsend, hreply, hend, hfinish, -⟩ :=
    exists_run (hs.reach.path hwait) hs.row hopen hs.unlocked hjob hid hfree hready reply
  exact ⟨s', .mk r jobId job delay _ begun sent replied ended hwait hjob hid htake
    (hsend.mono_test fun _ => alone_of_inProcess) hreply (hend.mono_test fun _ => alone_of_inProcess) hfinish⟩

/-- A run needs a job. -/
theorem JobRun.job {reply : Reply} (h : JobRun env id reply s s') : ∃ i job, s.queue i = some job ∧ job.data.deliveryId = id := by
  obtain ⟨r, jobId, job, delay, taken, begun, posted, replied, ended, hwait, hjob, hid, -⟩ := h
  rw [(quiet_path hwait).2.1] at hjob
  exact ⟨jobId, job, hjob, hid⟩

/-! ## The loop -/

variable {reply : ℕ → Reply} {k : Option ℕ} {max n : ℕ}

theorem statusOf_failed {r : Reply} (h : r.lastError ≠ none) (n : ℕ) :
    statusOf max r n = if n ≥ max then .dead else .failed := by
  unfold statusOf
  obtain ⟨err, herr⟩ := Option.ne_none_iff_exists'.1 h
  rw [herr]

/-- The requests before the last one fail. -/
theorem fails_before (hk : FirstSuccess reply k) (hn : n + 1 < attemptsUntil max k) : (reply n).lastError ≠ none := by
  cases k with
  | none => exact hk n
  | some k =>
    have hmin : n + 1 < min (k + 1) max := hn
    exact hk.1 n (by omega)

theorem attemptsUntil_le (max : ℕ) (k : Option ℕ) : attemptsUntil max k ≤ max := by
  cases k with
  | none => exact le_refl _
  | some k => exact min_le_right _ _

/-- The delivery is open as long as requests are left. -/
theorem open_before (hk : FirstSuccess reply k) (hn : n < attemptsUntil max k) : (statusAfter max reply n).final = false := by
  cases n with
  | zero => rfl
  | succ n =>
    have hle := attemptsUntil_le max k
    change (statusOf max (reply n) (n + 1)).final = false
    rw [statusOf_failed (fails_before hk hn), if_neg (by omega)]
    rfl

/-- The first success delivers. -/
theorem statusAfter_delivered {m : ℕ} (hk : FirstSuccess reply (some m)) (hm : m < max) :
    attemptsUntil max (some m) = m + 1 ∧ statusAfter max reply (m + 1) = .delivered := by
  refine ⟨min_eq_left hm, ?_⟩
  change statusOf max (reply m) (m + 1) = .delivered
  unfold statusOf
  rw [hk.2]

/-- Without a success among the attempts there are, the last one kills. -/
theorem statusAfter_dead (hk : FirstSuccess reply k) (hlate : ∀ m, k = some m → max ≤ m) (hmax : 1 ≤ max) :
    attemptsUntil max k = max ∧ statusAfter max reply max = .dead := by
  obtain ⟨n, rfl⟩ := Nat.exists_eq_succ_of_ne_zero (Nat.pos_iff_ne_zero.1 hmax)
  have hfails : (reply n).lastError ≠ none := by
    cases k with
    | none => exact hk n
    | some m => exact hk.1 n (hlate m rfl)
  refine ⟨?_, ?_⟩
  · cases k with
    | none => rfl
    | some m => exact min_eq_right (Nat.le_succ_of_le (hlate m rfl))
  · change statusOf (n + 1) (reply n) (n + 1) = .dead
    rw [statusOf_failed hfails, if_pos (le_refl _)]

/-- What is left after `n` runs. -/
def LoopInv (env : Env) (id : String) (reply : ℕ → Reply) (k : Option ℕ) (sent n : ℕ) (t : State) : Prop :=
  ∃ d, d.id = id ∧ d.attempts = n ∧ d.status = statusAfter env.webhooks.maxAttempts reply n ∧
    Resting env d (sent + n) t ∧
    if n < attemptsUntil env.webhooks.maxAttempts k then OneJob t id (jobIdOf d) else NoJob t id

theorem final_last (hk : FirstSuccess reply k) (hmax : 1 ≤ max) :
    (statusAfter max reply (attemptsUntil max k)).final = true := by
  by_cases hlate : ∀ m, k = some m → max ≤ m
  · obtain ⟨htotal, hdead⟩ := statusAfter_dead hk hlate hmax
    rw [htotal, hdead]
    rfl
  · push Not at hlate
    obtain ⟨m, rfl, hm⟩ := hlate
    obtain ⟨htotal, hdelivered⟩ := statusAfter_delivered hk hm
    rw [htotal, hdelivered]
    rfl

/-- A run before the last keeps the invariant. -/
theorem LoopInv.next {sent : ℕ} (h : LoopInv env id reply k sent n s) (hk : FirstSuccess reply k)
    (hn : n < attemptsUntil env.webhooks.maxAttempts k) (hrun : JobRun env id (reply n) s s') :
    LoopInv env id reply k sent (n + 1) s' := by
  obtain ⟨d, rfl, rfl, hstatus, hresting, hjobs⟩ := h
  rw [if_pos hn] at hjobs
  have hopen := open_before hk hn
  rw [← hstatus] at hopen
  obtain ⟨d', hid, hattempts, hstatus', hresting', hjobs'⟩ := hrun.result hresting hjobs hopen
  refine ⟨d', hid, hattempts, hstatus', hresting', ?_⟩
  have hafter : d'.status = statusAfter env.webhooks.maxAttempts reply (d.attempts + 1) := hstatus'
  by_cases hmore : d.attempts + 1 < attemptsUntil env.webhooks.maxAttempts k
  · rw [hafter, open_before hk hmore, if_neg Bool.false_ne_true] at hjobs'
    rw [if_pos hmore]
    exact hjobs'
  · have hlast : d.attempts + 1 = attemptsUntil env.webhooks.maxAttempts k := by omega
    rw [hafter, hlast, final_last hk env.webhooks.maxAttempts_pos, if_pos rfl] at hjobs'
    rw [if_neg hmore]
    exact hjobs'

/-- So many runs keep it, and there are no more than the attempts. -/
theorem LoopInv.rounds {sent : ℕ} (h : LoopInv env id reply k sent 0 s) (hk : FirstSuccess reply k)
    (hrounds : Rounds (fun i => JobRun env id (reply i)) s n t) :
    n ≤ attemptsUntil env.webhooks.maxAttempts k ∧ LoopInv env id reply k sent n t := by
  refine hrounds.invariant h (fun n t u hn hI hrun => hI.next hk hn hrun) fun t u hI hrun => ?_
  obtain ⟨d, -, -, -, -, hjobs⟩ := hI
  rw [if_neg (lt_irrefl _)] at hjobs
  obtain ⟨i, job, hjob, hid⟩ := hrun.job
  exact hjobs i job hjob hid

/-- A pending row counts no attempt. -/
theorem attempts_of_pending {C : State → Action → Prop} {d : WebhookDelivery} (hr : Reach (system env) C s)
    (hd : s.delivery id = some d) (hpending : d.status = .pending) : d.attempts = 0 := by
  refine hr.invariant (I := fun s => ∀ d, s.delivery id = some d → d.status = .pending → d.attempts = 0)
    (fun _ hd => by cases hd) (fun s a s' _ hI _ hs d hd hst => ?_) d hd hpending
  rcases (step_sound hs).delivery_inv hd with hold | ⟨-, hattempts, -⟩ | ⟨_, _, _, w, _, -, -, -, -, -, rfl⟩
  · exact hI d hold hst
  · exact hattempts
  · cases w <;> cases hst

/-- A pending delivery with its one job, not locked: with no crash, no reaper and no other job of the delivery, each job
run to its end before the next, the loop obeys its law. -/
theorem loopLaw {d : WebhookDelivery} (hr : Reach (system env) Free s) (hd : s.delivery id = some d)
    (hpending : d.status = .pending) (hone : OneJob s id id) (hunlocked : s.deliveryLocks id = none)
    (hk : FirstSuccess reply k) : LoopLaw env id reply k s := by
  have hmax := env.webhooks.maxAttempts_pos
  obtain rfl : d.id = id := find_id hd
  have hattempts := attempts_of_pending hr hd hpending
  have hstart : jobIdOf d = d.id := by
    unfold jobIdOf
    rw [if_pos hattempts]
  have hsome : 0 < attemptsUntil env.webhooks.maxAttempts k := by
    cases k with
    | none => exact hmax
    | some m => exact lt_min (Nat.succ_pos m) hmax
  have hs : LoopInv env d.id reply k (postsOf s d.id).length 0 s :=
    ⟨d, rfl, hattempts, hpending, ⟨hr, hd, hunlocked, rfl⟩, by rwa [if_pos hsome, hstart]⟩
  refine ⟨fun n t h => (hs.rounds hk h).1, fun n t h hn => ?_, fun t h => ?_⟩
  · obtain ⟨-, d', hid', -, hstatus, hresting, hjobs⟩ := hs.rounds hk h
    rw [if_pos hn] at hjobs
    obtain ⟨job, hjob, hown, -⟩ := hjobs.1
    have hopen : d'.status.final = false := by
      rw [hstatus]
      exact open_before hk hn
    refine ⟨_, job, hjobs, hjob, fun r ms reply' hfree hready => ?_⟩
    rw [← hid'] at hown ⊢
    exact exists_jobRun hresting hopen hjob hown hfree hready reply'
  · obtain ⟨-, d', hid', hcount, hstatus, hresting, hjobs⟩ := hs.rounds hk h
    rw [if_neg (lt_irrefl _)] at hjobs
    refine ⟨hjobs, hid' ▸ hresting.sent, d', hid' ▸ hresting.row, fun m hm hlt => ?_, fun hlate => ?_⟩
    · subst hm
      obtain ⟨htotal, hdelivered⟩ := statusAfter_delivered hk hlt
      rw [htotal] at hstatus hcount
      exact ⟨hstatus.trans hdelivered, hcount⟩
    · obtain ⟨htotal, hdead⟩ := statusAfter_dead hk hlate hmax
      rw [htotal] at hstatus hcount
      exact ⟨hstatus.trans hdead, hcount⟩

/-- A delivery whose runs do not overlap keeps its status and its count of attempts in step, whatever dies on the way, and
without crashes its jobs, run in turn from the first one on, end with the first success or with the last attempt. -/
theorem sequential_delivery (env : Env) (id : String) :
    (∀ l s, Transition.Run (system env) l s → (∀ x ∈ l, NonOverlapping id x.1 x.2) → SequentialLaw env id l s) ∧
    ∀ s d reply k, Reach (system env) Free s → s.delivery id = some d → d.status = .pending → OneJob s id id →
      s.deliveryLocks id = none → FirstSuccess reply k → LoopLaw env id reply k s :=
  ⟨fun _ _ h hC => sequentialLaw h hC, fun _ _ _ _ hr hd hpending hone hunlocked hk => loopLaw hr hd hpending hone hunlocked hk⟩

/-- A run records a failure and dies before it adds the retry job; a failure and then a success, in two runs. -/
theorem sequential_delivery_failed :
    (∃ l s, Transition.Run (system standard) l s ∧
      ((s.delivery "000").any fun d => d.status = .failed ∧ d.attempts = 1) = true ∧ SequentialLaw standard "000" l s) ∧
    ∃ s, LoopLaw standard "000" (fun i => if i = 0 then .response 500 else .response 200) (some 1) s := by
  have hannounced : (exec (system standard) (system standard).init announce).isSome = true := by decide
  have hdies : (((exec (system standard) (system standard).init announce).bind fun s =>
      step standard s (.dequeue 0 "000")).bind fun s =>
        exec (system standard) s [.load 0, .post 0, .receive 0 (.response 500) 500, .write 0, .crash 0]).any (fun s =>
          (s.delivery "000").any fun d => d.status = .failed ∧ d.attempts = 1) = true := by decide +kernel
  have hexec := (Option.some_get hannounced).symm
  have hruns : (Option.get _ hannounced).runs = fun _ => none := rfl
  have hqueue : (Option.get _ hannounced).queue = EvictingQueue.add (fun _ => none) "000" ⟨"000", 0⟩ .waiting := rfl
  have hrow : ∃ d, (Option.get _ hannounced).delivery "000" = some d ∧ d.status = .pending ∧
      (Option.get _ hannounced).deliveryLocks "000" = none := ⟨_, rfl, rfl, rfl⟩
  generalize Option.get _ hannounced = s at *
  rw [hexec] at hdies
  refine ⟨?_, s, ?_⟩
  · obtain ⟨t, ht, hp⟩ := (Option.any_eq_true _ _).1 hdies
    obtain ⟨s1, htake, ht⟩ := Option.bind_eq_some_iff.1 ht
    obtain ⟨l, hl, hactions⟩ := Run.init.exists_of_exec hexec
    obtain ⟨l', hl', hactions'⟩ := (hl.step (S := system standard) (a := .dequeue 0 "000") htake).exists_of_exec ht
    refine ⟨_, t, hl', hp, (sequential_delivery standard "000").1 _ t hl' ?_⟩
    have hother : ∀ {as : List Action} {l : List (State × Action)}, l.map Prod.snd = as →
        (∀ a ∈ as, ∀ r jobId, a ≠ .dequeue r jobId) → ∀ x ∈ l, NonOverlapping "000" x.1 x.2 := by
      rintro _ l rfl hne ⟨u, a⟩ hx
      cases a with
      | dequeue r jobId => exact absurd rfl (hne _ (List.mem_map_of_mem hx) r jobId)
      | _ => trivial
    intro x hx
    rcases List.mem_append.1 hx with hx | hx
    · rcases List.mem_append.1 hx with hx | hx
      · exact hother hactions (by simp [announce]) x hx
      · obtain rfl := List.mem_singleton.1 hx
        intro job _ _ hbusy
        obtain ⟨r, run, hr, -⟩ := hbusy
        rw [hruns] at hr
        cases hr
    · exact hother hactions' (by simp) x hx
  · obtain ⟨d, hd, hpending, hunlocked⟩ := hrow
    have hjobs : ∀ i, s.queue i = if i = "000" then some ⟨⟨"000", 0⟩, .waiting⟩ else none := by
      intro i
      rw [hqueue, EvictingQueue.add_absent rfl, Function.update_apply]
    refine (sequential_delivery standard "000").2 s d _ _ (Reach.init.exec hexec) hd hpending ⟨?_, fun i job hjob _ => ?_⟩
      hunlocked ⟨fun i hi => ?_, rfl⟩
    · exact ⟨_, (hjobs "000").trans (if_pos rfl), rfl, Or.inl rfl⟩
    · rw [hjobs] at hjob
      split at hjob
      · rename_i hid
        exact hid
      · cases hjob
    · obtain rfl := Nat.lt_one_iff.1 hi
      decide

end PaymentsProcessor.Webhooks
