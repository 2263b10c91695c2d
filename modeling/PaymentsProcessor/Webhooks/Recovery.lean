/-
What can still become of a delivery. A delivery that is pending or failed can always be driven to its receiver: by the job
it has, or by one the reaper makes; and if the receiver answers, it is delivered.
-/
import PaymentsProcessor.Webhooks.RetryLoop

namespace PaymentsProcessor.Webhooks

open Transition PartialMap Processor Dispatcher Webhooks.Reaper

variable {env : Env} {s s' t : State} {a : Action} {id : String} {C : State → Action → Prop}

/-! ## Jobs and runs -/

theorem Step.finitelyMany_runs (h : FinitelyMany s.runs) (hs : Step env s a s') : FinitelyMany s'.runs := by
  cases hs with
  | dequeue | walk | post | write | retryAdd | finish | crash => exact h.update _ _
  | _ => exact h

theorem finitelyMany_runs (h : Reach (system env) C s) : FinitelyMany s.runs :=
  h.invariant (I := fun s => FinitelyMany s.runs) finitelyMany_empty fun _ _ _ _ hI _ hs => (step_sound hs).finitelyMany_runs hI

/-- A job under the id the reaper makes for a delivery is that delivery's. -/
theorem owner_of_reapJobId (h : Reach (system env) C s) {d : WebhookDelivery} {row : Stranded} {job : LiveJob DeliveryJob}
    (hd : s.delivery id = some d) (hrow : row.id = id) (hjob : s.queue (reapJobId row) = some job) :
    job.data.deliveryId = id := by
  have hI := rowsInv h
  unfold reapJobId at hjob
  rw [hrow] at hjob
  split at hjob
  · obtain ⟨held, hheld, -⟩ := (snapshotInv h).queue hjob
    rcases hI.keyed hjob with hown | ⟨n, hown⟩
    · exact hown.symm
    · exact absurd hown.symm (retryJobId_ne (hI.plain hd))
  · exact hI.owner (snapshotInv h) hd hjob rfl

/-! ## Continuations -/

/-- Nothing is announced and no endpoint changes, and the receivers all settle their requests in one way. -/
def answering (reply : Reply) : Action → Bool
  | .emit _ _ _ | .insertEndpoint _ _ | .deactivate _ => false
  | .receive _ reply' _ => reply' = reply
  | _ => true

/-- Time, a step of a reaper, or the end of the lock of a job that a run holds. -/
def recovering : Action → Bool
  | .tick _ | .reapSelect _ _ | .reapCommit _ | .reapAdd _ _ | .reapEnd _ | .stall _ => true
  | _ => false

/-- A step of one run, from its job to the end of it, with a receiver that settles in one way. -/
def ofRun (r : Nat) (reply : Reply) : Action → Bool
  | .dequeue r' _ | .load r' | .post r' | .write r' | .retryAdd r' | .finish r' => r' = r
  | .receive r' reply' _ => r' = r && reply' = reply
  | _ => false

/-- The reaper or the end of a lock makes a job ready, and a new run takes it and finishes with it. -/
def Attempt (env : Env) (reply : Reply) (s t : State) : Prop :=
  ∃ u r, Path (system env) recovering s u ∧ u.runs r = none ∧ Path (system env) (ofRun r reply) u t ∧
    (t.runs r).map Run.pc = some .gone

variable {reply : Reply}

theorem answering_of_recovering (h : recovering a = true) : answering reply a = true := by
  cases a <;> first | rfl | cases h

theorem answering_of_ofRun {r : Nat} (h : ofRun r reply a = true) : answering reply a = true := by
  cases a with
  | receive r' reply' delay => exact (Bool.and_eq_true_iff.1 h).2
  | emit | insertEndpoint | deactivate => cases h
  | _ => rfl

theorem Attempt.path (h : Attempt env reply s t) : Path (system env) (answering reply) s t := by
  obtain ⟨u, r, hready, -, hrun, -⟩ := h
  exact (hready.mono_test fun _ => answering_of_recovering).trans (hrun.mono_test fun _ => answering_of_ofRun)

theorem path_of_attempts {n : ℕ} (h : Rounds (fun _ => Attempt env reply) s n t) : Path (system env) (answering reply) s t := by
  induction h with
  | start => exact .refl
  | next _ hround ih => exact ih.trans hround.path

/-- The delivery has a job that may be taken, and its row is free. -/
structure Ready (env : Env) (id : String) (s t : State) : Prop where
  path : Path (system env) recovering s t
  delivery : t.delivery id = s.delivery id
  endpoints : t.endpoints = s.endpoints
  unlocked : t.deliveryLocks id = none
  runs : t.runs = s.runs
  posts : t.posts = s.posts
  job : ∃ jobId job, t.queue jobId = some job ∧ job.data.deliveryId = id ∧ job.state.ready t.now = true

variable (env) in
/-- The tick that holds the delivery ends, and time passes. -/
theorem exists_released (s : State) (id : String) (ms : Nat) : ∃ t k, Path (system env) recovering s t ∧
    t.deliveries = s.deliveries ∧ t.endpoints = s.endpoints ∧ t.runs = s.runs ∧ t.posts = s.posts ∧ t.queue = s.queue ∧
    t.now = s.now + ms ∧ t.deliveryLocks id = none ∧ t.reaps k = none := by
  refine ⟨{ s with
    now := s.now + ms
    reaps := Function.update s.reaps ((s.deliveryLocks id).getD 0) none
    deliveryLocks := unlock s.deliveryLocks ((s.deliveryLocks id).getD 0) }, (s.deliveryLocks id).getD 0, ?_, rfl, rfl, rfl,
    rfl, rfl, rfl, unlock_holder _ _, Function.update_self ..⟩
  exact (Path.single (.reapEnd ((s.deliveryLocks id).getD 0)) rfl rfl).trans (Path.single (.tick ms) rfl rfl)

variable (env) in
/-- A delivery without a job is reaped. -/
theorem exists_reaped {d : WebhookDelivery} {k : Nat} (hk : s.reaps k = none) (hd : s.delivery id = some d)
    (hopen : d.status.final = false) (hlate : dueAt d + env.webhooks.reaperDeadlineMs < s.now)
    (hlock : s.deliveryLocks id = none) (hfree : s.queue (reapJobId ⟨d.id, d.status, d.attempts, d.writes⟩) = none) :
    ∃ t, Ready env id s t := by
  obtain rfl := find_id hd
  have hrow : strandedRow env s d.id = some ⟨d.id, d.status, d.attempts, d.writes⟩ := by
    unfold strandedRow
    rw [hd]
    exact if_pos ⟨by rw [hopen]; rfl, hlate, hlock⟩
  obtain ⟨s1, h1, hk1, hsame1⟩ : ∃ s1, step env s (.reapSelect k [d.id]) = some s1 ∧
      s1.reaps k = some (.selected [⟨d.id, d.status, d.attempts, d.writes⟩]) ∧ s1.deliveries = s.deliveries ∧
      s1.endpoints = s.endpoints ∧ s1.runs = s.runs ∧ s1.posts = s.posts ∧ s1.queue = s.queue ∧
      s1.deliveryLocks d.id = some k := by
    apply Exists.intro
    constructor
    · simp [step, reapSelect, hk, hrow]
      rfl
    · exact ⟨Function.update_self .., rfl, rfl, rfl, rfl, rfl, if_pos rfl⟩
  obtain ⟨hdeliveries1, hendpoints1, hruns1, hposts1, hqueue1, hlock1⟩ := hsame1
  obtain ⟨s2, h2, hk2, hsame2⟩ : ∃ s2, step env s1 (.reapCommit k) = some s2 ∧
      s2.reaps k = some (.adding [⟨d.id, d.status, d.attempts, d.writes⟩]) ∧ s2.deliveries = s.deliveries ∧
      s2.endpoints = s.endpoints ∧ s2.runs = s.runs ∧ s2.posts = s.posts ∧ s2.queue = s.queue ∧
      s2.deliveryLocks d.id = none := by
    apply Exists.intro
    constructor
    · simp only [step, reapCommit, hk1]
      rfl
    · exact ⟨Function.update_self .., hdeliveries1, hendpoints1, hruns1, hposts1, hqueue1, if_pos hlock1⟩
  obtain ⟨hdeliveries2, hendpoints2, hruns2, hposts2, hqueue2, hlock2⟩ := hsame2
  obtain ⟨s3, h3, hdeliveries3, hsame3⟩ : ∃ s3, step env s2 (.reapAdd k d.id) = some s3 ∧ s3.deliveries = s.deliveries ∧
      s3.endpoints = s.endpoints ∧ s3.runs = s.runs ∧ s3.posts = s.posts ∧ s3.deliveryLocks d.id = none ∧
      s3.queue = s.queue.add (reapJobId ⟨d.id, d.status, d.attempts, d.writes⟩) ⟨d.id, d.writes⟩ .waiting := by
    apply Exists.intro
    constructor
    · simp [step, reapAdd, hk2]
      rfl
    · exact ⟨hdeliveries2, hendpoints2, hruns2, hposts2, hlock2, by rw [← hqueue2]⟩
  obtain ⟨hendpoints3, hruns3, hposts3, hlock3, hqueue3⟩ := hsame3
  refine ⟨s3, ?_, congrArg (find · d.id) hdeliveries3, hendpoints3, hlock3, hruns3, hposts3,
    reapJobId ⟨d.id, d.status, d.attempts, d.writes⟩, ⟨⟨d.id, d.writes⟩, .waiting⟩, ?_, rfl, rfl⟩
  · refine (Path.single (.reapSelect k [d.id]) rfl h1).trans ((Path.single (.reapCommit k) rfl h2).trans ?_)
    exact Path.single (.reapAdd k d.id) rfl h3
  · rw [hqueue3]
    exact (EvictingQueue.add_free _ _ hfree).1

/-- From any reached state, a delivery that is not final can be given a job. -/
theorem exists_ready {d : WebhookDelivery} (h : Reach (system env) C s) (hd : s.delivery id = some d)
    (hopen : d.status.final = false) : ∃ t, Ready env id s t := by
  have hid : d.id = id := find_id hd
  cases hjob : s.queue (reapJobId ⟨d.id, d.status, d.attempts, d.writes⟩) with
  | none =>
    obtain ⟨u, k, hpath, hdeliveries, hendpoints, hruns, hposts, hqueue, hnow, hlock, hk⟩ :=
      exists_released env s id (dueAt d + env.webhooks.reaperDeadlineMs + 1)
    have hdu : u.delivery id = s.delivery id := congrArg (find · id) hdeliveries
    obtain ⟨t, ht⟩ := exists_reaped env hk (hdu.trans hd) hopen (by omega) hlock
      (by rw [hqueue]; exact hjob)
    exact ⟨t, hpath.trans ht.path, ht.delivery.trans hdu, ht.endpoints.trans hendpoints, ht.unlocked, ht.runs.trans hruns,
      ht.posts.trans hposts, ht.job⟩
  | some job =>
    -- the reaper's add would find this job, which is the delivery's own
    have hown : job.data.deliveryId = id := owner_of_reapJobId h hd hid hjob
    generalize reapJobId ⟨d.id, d.status, d.attempts, d.writes⟩ = jobId at hjob
    obtain ⟨u, -, hpath, hdeliveries, hendpoints, hruns, hposts, hqueue, hnow, hlock, -⟩ :=
      exists_released env s id (job.state.due s.now)
    have hdu : u.delivery id = s.delivery id := congrArg (find · id) hdeliveries
    have hjobu : u.queue jobId = some job := by rw [hqueue]; exact hjob
    cases hstate : job.state with
    | waiting => exact ⟨u, hpath, hdu, hendpoints, hlock, hruns, hposts, jobId, job, hjobu, hown, by rw [hstate]; rfl⟩
    | delayed readyAt =>
      refine ⟨u, hpath, hdu, hendpoints, hlock, hruns, hposts, jobId, job, hjobu, hown, ?_⟩
      rw [hstate] at hnow ⊢
      rw [hnow]
      exact decide_eq_true (Nat.le_add_left _ _)
    | active r =>
      -- its run is taken for dead
      have hstall : step env u (.stall jobId) = some { u with queue := u.queue.setState jobId .waiting } := by
        simp only [step, stall, hjobu, hstate]
      refine ⟨_, hpath.trans (Path.single (.stall jobId) rfl hstall), hdu, hendpoints, hlock, hruns, hposts, jobId,
        { job with state := .waiting }, ?_, hown, rfl⟩
      show u.queue.setState _ _ _ = _
      rw [EvictingQueue.setState_some hjobu, Function.update_self]

/-! ## A run -/

theorem ofRun_of_inProcess {r : Nat} (h : inProcess r a = true) : ofRun r reply a = true := by
  cases a <;> first | exact h | cases h

/-- A delivery with a job can be attempted, with one request. -/
theorem Ready.exists_attempted {d : WebhookDelivery} (h : Ready env id s t) (ht : Reach (system env) Free t)
    (hd : s.delivery id = some d) (hopen : d.status.final = false) (reply : Reply) :
    ∃ u d' post, Attempt env reply s u ∧ u.delivery id = some d' ∧
      d'.status = statusOf env.webhooks.maxAttempts reply (d.attempts + 1) ∧ d'.attempts = d.attempts + 1 ∧
      u.posts = s.posts ++ [post] ∧ post.deliveryId = id := by
  obtain ⟨jobId, job, hjob, hown, hready⟩ := h.job
  have hdt : t.delivery id = some d := h.delivery.trans hd
  obtain rfl := find_id hdt
  obtain ⟨r, -, hr⟩ := (finitelyMany_runs ht).exists_free Function.injective_id 0
  obtain ⟨delay, begun, sent, replied, ended, u, htake, hsend, hreply, hend, hfinish, hgone, ⟨d', hd', hstatus, hattempts⟩,
    post, hposts, hfor⟩ := exists_run ht hdt hopen h.unlocked hjob hown hr hready reply
  have hrun : Path (system env) (ofRun r reply) t u :=
    (Path.single (.dequeue r jobId) (by simp [ofRun]) htake).trans <|
      (hsend.mono_test fun _ => ofRun_of_inProcess).trans <|
      (Path.single (.receive r reply delay) (by simp [ofRun]) hreply).trans <|
      (hend.mono_test fun _ => ofRun_of_inProcess).trans (Path.single (.finish r) (by simp [ofRun]) hfinish)
  exact ⟨u, d', post, ⟨t, r, h.path, hr, hrun, hgone⟩, hd', hstatus, hattempts, by rw [hposts, h.posts], hfor⟩

/-! ## To the end -/

/-- Unless it fails with attempts left, an attempt is the last one. -/
theorem statusOf_cases (max attempts : Nat) (reply : Reply) :
    statusOf max reply attempts = (if reply.lastError = none then .delivered else .dead) ∨
      statusOf max reply attempts = .failed ∧ attempts < max := by
  unfold statusOf
  cases reply.lastError with
  | none => exact Or.inl rfl
  | some lastError =>
    dsimp only
    split
    · exact Or.inl rfl
    · rename_i hleft
      exact Or.inr ⟨rfl, Nat.lt_of_not_ge hleft⟩

/-- The attempts to the end: one where the receiver accepts, and those that are left where it refuses. -/
def attemptsToEnd (env : Env) (reply : Reply) (d : WebhookDelivery) : Nat :=
  if reply.lastError = none then 1 else max 1 (env.webhooks.maxAttempts - d.attempts)

/-- After a failure with attempts left there is one fewer to go. -/
theorem attemptsToEnd_succ {d d' : WebhookDelivery} (hattempts : d'.attempts = d.attempts + 1)
    (hfailed : statusOf env.webhooks.maxAttempts reply (d.attempts + 1) = .failed) :
    attemptsToEnd env reply d = attemptsToEnd env reply d' + 1 := by
  unfold statusOf at hfailed
  unfold attemptsToEnd
  cases hreply : reply.lastError with
  | none =>
    rw [hreply] at hfailed
    cases hfailed
  | some lastError =>
    rw [hreply] at hfailed
    dsimp only at hfailed
    split at hfailed
    · cases hfailed
    · rw [if_neg (by simp), if_neg (by simp), hattempts]
      omega

/-- With the last attempt the end is reached. -/
theorem attemptsToEnd_one {d : WebhookDelivery} (hend : statusOf env.webhooks.maxAttempts reply (d.attempts + 1) ≠ .failed) :
    attemptsToEnd env reply d = 1 := by
  unfold statusOf at hend
  unfold attemptsToEnd
  cases hreply : reply.lastError with
  | none => rfl
  | some lastError =>
    rw [hreply] at hend
    dsimp only at hend
    split at hend
    · rw [if_neg (by simp)]
      omega
    · exact absurd rfl hend

/-- An open delivery can be driven to its end, one attempt after the other. -/
theorem exists_attempts {d : WebhookDelivery} (h : Reach (system env) Free s) (hd : s.delivery id = some d)
    (hopen : d.status.final = false) (reply : Reply) : ∃ t d' posts,
    Rounds (fun _ => Attempt env reply) s (attemptsToEnd env reply d) t ∧ t.delivery id = some d' ∧
    d'.status = (if reply.lastError = none then .delivered else .dead) ∧ d'.attempts = d.attempts + attemptsToEnd env reply d ∧
    t.posts = s.posts ++ posts ∧ posts.length = attemptsToEnd env reply d ∧ ∀ post ∈ posts, post.deliveryId = id := by
  obtain ⟨n, hn⟩ : ∃ n, env.webhooks.maxAttempts ≤ d.attempts + n := ⟨env.webhooks.maxAttempts, Nat.le_add_left _ _⟩
  -- by induction on the attempts that are left: each one that fails counts
  induction n generalizing s d with
  | zero =>
    obtain ⟨t, ht⟩ := exists_ready h hd hopen
    obtain ⟨u, d', post, hattempt, hd', hstatus, hattempts, hposts, hfor⟩ :=
      ht.exists_attempted (h.path ht.path) hd hopen reply
    rcases statusOf_cases env.webhooks.maxAttempts (d.attempts + 1) reply with hend | ⟨-, hleft⟩
    · have hone : attemptsToEnd env reply d = 1 := attemptsToEnd_one (by rw [hend]; split <;> simp)
      rw [hone]
      exact ⟨u, d', [post], .next .start hattempt, hd', hstatus.trans hend, hattempts, hposts, rfl, by simp [hfor]⟩
    · omega
  | succ n ih =>
    obtain ⟨t, ht⟩ := exists_ready h hd hopen
    obtain ⟨u, d', post, hattempt, hd', hstatus, hattempts, hposts, hfor⟩ :=
      ht.exists_attempted (h.path ht.path) hd hopen reply
    rcases statusOf_cases env.webhooks.maxAttempts (d.attempts + 1) reply with hend | ⟨hfailed, -⟩
    · have hone : attemptsToEnd env reply d = 1 := attemptsToEnd_one (by rw [hend]; split <;> simp)
      rw [hone]
      exact ⟨u, d', [post], .next .start hattempt, hd', hstatus.trans hend, hattempts, hposts, rfl, by simp [hfor]⟩
    · have hopen' : d'.status.final = false := by rw [hstatus, hfailed]; rfl
      obtain ⟨v, d'', posts, hrounds, hd'', hend, hcount, hposts', hlength, hall⟩ :=
        ih (h.path hattempt.path) hd' hopen' (by omega)
      rw [attemptsToEnd_succ hattempts hfailed]
      refine ⟨v, d'', post :: posts, hrounds.cons hattempt, hd'', hend, by omega, ?_, by simp [hlength], ?_⟩
      · rw [hposts', hposts, List.append_assoc]
        rfl
      · intro other hother
        rcases List.mem_cons.1 hother with rfl | hrest
        · exact hfor
        · exact hall other hrest

/-- On a path of any steps with such receivers as well. -/
theorem exists_final {d : WebhookDelivery} (h : Reach (system env) Free s) (hd : s.delivery id = some d)
    (hopen : d.status.final = false) (reply : Reply) : ∃ t d', Path (system env) (answering reply) s t ∧
    t.delivery id = some d' ∧ d'.status = if reply.lastError = none then .delivered else .dead := by
  obtain ⟨t, d', _, hrounds, hd', hstatus, -⟩ := exists_attempts h hd hopen reply
  exact ⟨t, d', path_of_attempts hrounds, hd', hstatus⟩

/-- From any reached state, a delivery that is not final can be driven to its end by the reaper, the end of the locks of
jobs that runs hold, and one worker that takes one job after the other, if the receivers always settle in one way: with one
request to delivered if that is a success, and with as many requests as it has attempts left to dead if it is not. -/
theorem delivery_recoverable {d : WebhookDelivery} (h : Reach (system env) C s) (hd : s.delivery id = some d)
    (hopen : d.status.final = false) (reply : Reply) : ∃ t d' posts,
    Rounds (fun _ => Attempt env reply) s (attemptsToEnd env reply d) t ∧ t.delivery id = some d' ∧
    d'.status = (if reply.lastError = none then .delivered else .dead) ∧ d'.attempts = d.attempts + attemptsToEnd env reply d ∧
    t.posts = s.posts ++ posts ∧ posts.length = attemptsToEnd env reply d ∧ ∀ post ∈ posts, post.deliveryId = id :=
  exists_attempts h.free hd hopen reply

/-- A worker crashes while it waits for the receiver; the delivery has five attempts left. -/
theorem delivery_recoverable_crashed : ∃ s d, Reach (system standard) Free s ∧ s.delivery "000" = some d ∧
    d.status.final = false ∧ attemptsToEnd standard (.response 500) d = 5 ∧ ∀ reply : Reply, ∃ t d' posts,
      Rounds (fun _ => Attempt standard reply) s (attemptsToEnd standard reply d) t ∧ t.delivery "000" = some d' ∧
      d'.status = (if reply.lastError = none then .delivered else .dead) ∧
      d'.attempts = d.attempts + attemptsToEnd standard reply d ∧ t.posts = s.posts ++ posts ∧
      posts.length = attemptsToEnd standard reply d ∧ ∀ post ∈ posts, post.deliveryId = "000" := by
  obtain ⟨s, hs, hp⟩ := exists_reach_of_exec (show (exec (system standard) (system standard).init
    (announce ++ send 0 "000" ++ [.crash 0])).any (fun s => (s.delivery "000").any fun d =>
      !d.status.final && attemptsToEnd standard (.response 500) d = 5) = true by decide)
  obtain ⟨d, hd, hp⟩ := (Option.any_eq_true _ _).1 hp
  obtain ⟨hopen, hleft⟩ := Bool.and_eq_true_iff.1 hp
  have hopen : d.status.final = false := by simpa using hopen
  exact ⟨s, d, hs, hd, hopen, of_decide_eq_true hleft, delivery_recoverable hs hd hopen⟩

end PaymentsProcessor.Webhooks
