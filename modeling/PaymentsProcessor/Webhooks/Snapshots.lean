/-
What the runs, the jobs and the ticks hold of a delivery is what they read of its row some time ago. As long as the
status of the row has not been written since, it is still so: the row is the one read, a job's id is the one made
from the row's attempts, and no job comes before the row's next attempt is due.
-/
import PaymentsProcessor.Webhooks.System

namespace PaymentsProcessor.Webhooks

open Transition PartialMap Processor Dispatcher Webhooks.Reaper

variable {env : Env} {s s' : State} {a : Action} {id : String} {n : Nat} {P Q : WebhookDelivery → Prop}

/-! ## Rows -/

/-- A row stays as it is, or a run writes its status. -/
theorem Step.delivery {row : WebhookDelivery} (hs : Step env s a s') (h : s.delivery id = some row) :
    s'.delivery id = some row ∨ ∃ r run d w, a = .write r ∧ s.runs r = some run ∧ run.pc = .settling d w ∧
      d.id = id ∧ s'.delivery id = some (w.set row) := by
  cases hs with
  | pollCommit k poll rows => exact Or.inl (find_append h)
  | write r run d w basis hr hpc =>
    have hupd : find (update s.deliveries d.id w.set) id = some (if id = d.id then w.set row else row) := by
      rw [find_update w.set_id, show find s.deliveries id = some row from h]
      rfl
    by_cases hid : id = d.id
    · rw [if_pos hid] at hupd
      exact Or.inr ⟨r, run, d, w, rfl, hr, hpc, hid.symm, hupd⟩
    · rw [if_neg hid] at hupd
      exact Or.inl hupd
  | _ => exact Or.inl h

theorem of_mem_deliveriesFor {began n : Nat} {events : List OutboxRow} {endpoints : List WebhookEndpoint}
    {row : WebhookDelivery} (h : row ∈ deliveriesFor env began n events endpoints) :
    row.status = .pending ∧ row.attempts = 0 ∧ row.writes = 0 := by
  obtain ⟨x, -, rfl⟩ := List.mem_map.1 h
  exact ⟨rfl, rfl, rfl⟩

/-- A row was there before the step, or was inserted by it, or had its status written by it. -/
theorem Step.delivery_inv {row : WebhookDelivery} (hs : Step env s a s') (h : s'.delivery id = some row) :
    s.delivery id = some row ∨ (row.status = .pending ∧ row.attempts = 0 ∧ row.writes = 0) ∨
      ∃ r run d w old, a = .write r ∧ s.runs r = some run ∧ run.pc = .settling d w ∧ d.id = id ∧
        s.delivery id = some old ∧ row = w.set old := by
  cases hs with
  | pollCommit k poll rows hk hpc hrows =>
    have hfind : (s.deliveries ++ rows).find? (fun d => decide (d.id = id)) = some row := h
    rw [List.find?_append] at hfind
    cases hold : s.deliveries.find? fun d => decide (d.id = id) with
    | some old =>
      rw [hold] at hfind
      cases hfind
      exact Or.inl hold
    | none =>
      rw [hold, Option.none_or, hrows] at hfind
      exact Or.inr (Or.inl (of_mem_deliveriesFor (List.mem_of_find?_eq_some hfind)))
  | write r run d w basis hr hpc =>
    have hupd : find (update s.deliveries d.id w.set) id = some row := h
    rw [find_update w.set_id] at hupd
    obtain ⟨old, hold, hset⟩ := Option.map_eq_some_iff.1 hupd
    split at hset
    · rename_i hid
      exact Or.inr (Or.inr ⟨r, run, d, w, old, rfl, hr, hpc, hid.symm, hold, hset.symm⟩)
    · subst hset
      exact Or.inl hold
  | _ => exact Or.inl h

/-- The row's status has been written at least `n` times, and `P` holds of the row if it was no more than that. -/
def AsOf (s : State) (id : String) (n : Nat) (P : WebhookDelivery → Prop) : Prop :=
  ∃ row, s.delivery id = some row ∧ n ≤ row.writes ∧ (n = row.writes → P row)

theorem AsOf.mono (h : AsOf s id n P) (hPQ : ∀ row, P row → Q row) : AsOf s id n Q := by
  obtain ⟨row, hrow, hle, hP⟩ := h
  exact ⟨row, hrow, hle, fun hn => hPQ row (hP hn)⟩

theorem AsOf.of_row {row : WebhookDelivery} (h : s.delivery id = some row) (hP : P row) : AsOf s id row.writes P :=
  ⟨row, h, Nat.le_refl _, fun _ => hP⟩

theorem AsOf.step (h : AsOf s id n P) (hs : Step env s a s') : AsOf s' id n P := by
  obtain ⟨row, hrow, hle, hP⟩ := h
  rcases hs.delivery hrow with hsame | ⟨r, run, d, w, -, -, -, -, hset⟩
  · exact ⟨row, hsame, hle, hP⟩
  · refine ⟨w.set row, hset, ?_, ?_⟩
    · rw [StatusWrite.set_writes]; omega
    · rw [StatusWrite.set_writes]; omega

/-! ## What is held of a row -/

/-- The row a run has read and goes by. -/
def Pc.read : Pc → Option WebhookDelivery
  | .loaded d | .posting d | .settling d _ => some d
  | _ => none

/-- A row that was read before its status was final. -/
structure ReadInv (s : State) (deliveryId : String) (d : WebhookDelivery) : Prop where
  id : d.id = deliveryId
  open_ : d.status.final = false
  asOf : AsOf s deliveryId d.writes (· = d)

/-- A failure counts on from the row read; its next attempt is no later than the retry job, whenever that is added. -/
def Decided (now : Nat) (d : WebhookDelivery) : StatusWrite → Prop
  | .delivered _ => True
  | .dead attempts _ => attempts = d.attempts + 1
  | .failed delay nextAttemptAt attempts _ => attempts = d.attempts + 1 ∧ nextAttemptAt ≤ now + delay

/-- The id of the job that is to drive a row. -/
def jobIdOf (d : WebhookDelivery) : String := if d.attempts = 0 then d.id else retryJobId d.id d.attempts

/-- The next attempt of the row is due by a time, if it has failed. -/
def DueBy (time : Nat) (d : WebhookDelivery) : Prop :=
  d.status = .failed → ∀ nextAttemptAt, d.nextAttemptAt = some nextAttemptAt → nextAttemptAt ≤ time

theorem DueBy.mono {time time' : Nat} (h : time ≤ time') {d : WebhookDelivery} (hd : DueBy time d) : DueBy time' d :=
  fun hst t ht => Nat.le_trans (hd hst t ht) h

/-- What a job under an id, due at a time, says of a row that has not been written since its id was made. -/
def JobFits (jobId : String) (due : Nat) (d : WebhookDelivery) : Prop := jobId = jobIdOf d ∧ DueBy due d

theorem JobFits.mono {jobId : String} {due due' : Nat} (h : due ≤ due') {d : WebhookDelivery} (hd : JobFits jobId due d) :
    JobFits jobId due' d :=
  ⟨hd.1, hd.2.mono h⟩

def JobInv (s : State) (jobId : String) (job : LiveJob DeliveryJob) : Prop :=
  AsOf s job.data.deliveryId job.data.basis (JobFits jobId (job.state.due s.now))

/-- The invariant of a run. -/
structure RunInv (s : State) (run : Run) : Prop where
  job : AsOf s run.data.deliveryId run.data.basis (JobFits run.jobId s.now)
  read : ∀ d, run.pc.read = some d → ReadInv s run.data.deliveryId d
  decided : ∀ d w, run.pc = .settling d w → Decided s.now d w
  recorded : ∀ deliveryId attempts delay basis, run.pc = .retryAdd deliveryId attempts delay basis →
    deliveryId = run.data.deliveryId ∧
      AsOf s deliveryId basis (JobFits (retryJobId deliveryId attempts) (s.now + delay))

/-- The invariant of a selected row. -/
def StrandedInv (s : State) (row : Stranded) : Prop := AsOf s row.id row.basis (JobFits (reapJobId row) s.now)

/-- What a tick has selected. -/
def Reap.stuck : Reap → List Stranded
  | .selected stuck | .adding stuck => stuck

/-- The jobs a poll has still to add. -/
def PollPc.left : PollPc → List String
  | .adding left => left
  | _ => []

/-! ## Steps keep what is held -/

theorem Step.now_le (hs : Step env s a s') : s.now ≤ s'.now := by
  cases hs with
  | tick ms => exact Nat.le_add_right _ _
  | _ => exact Nat.le_refl _

theorem JobInv.step {jobId : String} {job : LiveJob DeliveryJob} (h : JobInv s jobId job) (hs : Step env s a s') :
    JobInv s' jobId job :=
  (AsOf.step h hs).mono fun _ hfits => hfits.mono (LiveState.due_mono hs.now_le _)

theorem StrandedInv.step {row : Stranded} (h : StrandedInv s row) (hs : Step env s a s') : StrandedInv s' row :=
  (AsOf.step h hs).mono fun _ hfits => hfits.mono hs.now_le

theorem Decided.mono {now now' : Nat} (h : now ≤ now') {d : WebhookDelivery} {w : StatusWrite} (hw : Decided now d w) :
    Decided now' d w := by
  cases w with
  | delivered => trivial
  | dead => exact hw
  | failed delay => exact ⟨hw.1, Nat.le_trans hw.2 (Nat.add_le_add_right h _)⟩

theorem RunInv.step {run : Run} (h : RunInv s run) (hs : Step env s a s') : RunInv s' run where
  job := (h.job.step hs).mono fun _ hfits => hfits.mono hs.now_le
  read d hd := ⟨(h.read d hd).id, (h.read d hd).open_, (h.read d hd).asOf.step hs⟩
  decided d w hpc := (h.decided d w hpc).mono hs.now_le
  recorded deliveryId attempts delay basis hpc := by
    obtain ⟨hid, hasOf⟩ := h.recorded deliveryId attempts delay basis hpc
    exact ⟨hid, (hasOf.step hs).mono fun _ hfits => hfits.mono (Nat.add_le_add_right hs.now_le _)⟩

theorem Step.delivery_isSome (hs : Step env s a s') (h : (s.delivery id).isSome = true) :
    (s'.delivery id).isSome = true := by
  obtain ⟨row, hrow⟩ := Option.isSome_iff_exists.1 h
  rcases hs.delivery hrow with hsame | ⟨_, _, _, w, -, -, -, -, hset⟩
  · rw [hsame]; rfl
  · rw [hset]; rfl

/-- A run that takes a job. -/
theorem RunInv.start {jobId : String} {data : DeliveryJob}
    (h : AsOf s data.deliveryId data.basis (JobFits jobId s.now)) : RunInv s ⟨jobId, data, .start⟩ where
  job := h
  read d hd := by cases hd
  decided d w hpc := by cases hpc
  recorded _ _ _ _ hpc := by cases hpc

/-- A run that has read nothing and recorded nothing. -/
theorem RunInv.idle {run : Run} {pc : Pc} (h : RunInv s run) (hread : pc.read = none)
    (hadd : ∀ deliveryId attempts delay basis, pc ≠ .retryAdd deliveryId attempts delay basis) :
    RunInv s { run with pc := pc } where
  job := h.job
  read d hd := by rw [hread] at hd; cases hd
  decided d w hpc := by
    rw [show pc = .settling d w from hpc] at hread
    cases hread
  recorded deliveryId attempts delay basis hpc := absurd hpc (hadd deliveryId attempts delay basis)

/-- A run that goes on with the row it has read, or with one read now. -/
theorem RunInv.reading {run : Run} {pc : Pc} {d : WebhookDelivery} (h : RunInv s run)
    (hd : ReadInv s run.data.deliveryId d) (hpc : pc = .loaded d ∨ pc = .posting d) : RunInv s { run with pc := pc } where
  job := h.job
  read e he := by
    rcases hpc with rfl | rfl
    · cases he; exact hd
    · cases he; exact hd
  decided e w he := by rcases hpc with rfl | rfl <;> cases he
  recorded _ _ _ _ he := by rcases hpc with rfl | rfl <;> cases he

/-- A run that has recorded a failure. -/
theorem RunInv.adding {run : Run} {deliveryId : String} {attempts delay basis : Nat} (h : RunInv s run)
    (hid : deliveryId = run.data.deliveryId)
    (hasOf : AsOf s deliveryId basis (JobFits (retryJobId deliveryId attempts) (s.now + delay))) :
    RunInv s { run with pc := .retryAdd deliveryId attempts delay basis } where
  job := h.job
  read d hd := by cases hd
  decided d w hpc := by cases hpc
  recorded _ _ _ _ hpc := by cases hpc; exact ⟨hid, hasOf⟩

theorem decided_writeFor (env : Env) (d : WebhookDelivery) (reply : Reply) (now delay : Nat) :
    Decided now d (writeFor env d reply now delay) := by
  unfold writeFor
  split
  · trivial
  · dsimp only
    split
    · exact rfl
    · exact ⟨rfl, Nat.le_refl _⟩

/-- The row after a recorded failure, as the retry job will see it. -/
theorem asOf_failed {row d : WebhookDelivery} {delay next attempts : Nat} {err : String}
    (hrow : s.delivery id = some ((StatusWrite.failed delay next attempts err).set row))
    (hw : Decided s.now d (.failed delay next attempts err)) :
    AsOf s id (row.writes + 1) (JobFits (retryJobId id attempts) (s.now + delay)) := by
  refine AsOf.of_row hrow ⟨?_, fun _ t ht => ?_⟩
  · have hid : ((StatusWrite.failed delay next attempts err).set row).id = id := find_id hrow
    have hattempts : ((StatusWrite.failed delay next attempts err).set row).attempts = attempts := rfl
    have hpos : attempts ≠ 0 := by
      have := hw.1
      omega
    unfold jobIdOf
    rw [hid, hattempts, if_neg hpos]
  · cases ht
    exact hw.2

theorem RunInv.write {run : Run} {row d : WebhookDelivery} {w : StatusWrite} (h : RunInv s run)
    (hid : d.id = run.data.deliveryId) (hrow : s.delivery d.id = some (w.set row)) (hw : Decided s.now d w) :
    RunInv s { run with pc := afterWrite d w (row.writes + 1) } := by
  cases w with
  | delivered => exact h.idle rfl (by simp [afterWrite])
  | dead => exact h.idle rfl (by simp [afterWrite])
  | failed delay next attempts err => exact h.adding hid (asOf_failed hrow hw)

theorem RunInv.walk {r : Nat} {run : Run} {pc : Pc} (h : RunInv s run) (hwalk : Walk env s r run a pc) :
    RunInv s { run with pc := pc } := by
  cases hwalk with
  | loadNone => exact h.idle rfl (by simp)
  | loadFinal => exact h.idle rfl (by simp)
  | load hpc hd hfinal =>
    exact h.reading ⟨find_id hd, hfinal, AsOf.of_row hd rfl⟩ (Or.inl rfl)
  | postThrows => exact h.idle rfl (by simp)
  | @receive d reply delay hpc =>
    have hread := h.read d (by rw [hpc]; rfl)
    refine ⟨h.job, fun e he => ?_, fun e w he => ?_, by simp⟩
    · cases he; exact hread
    · cases he; exact decided_writeFor env d reply s.now delay
  | fail => exact h.idle rfl (by simp)

/-! ## The invariant -/

/-- A row whose status was never written is as it was inserted. -/
def Fresh (s : State) : Prop :=
  ∀ id row, s.delivery id = some row → row.writes = 0 → row.attempts = 0 ∧ row.status = .pending

theorem Fresh.step (h : Fresh s) (hs : Step env s a s') : Fresh s' := by
  intro id row hrow hwrites
  rcases hs.delivery_inv hrow with hold | ⟨hstatus, hattempts, -⟩ | ⟨r, run, d, w, old, -, -, -, -, -, rfl⟩
  · exact h id row hold hwrites
  · exact ⟨hattempts, hstatus⟩
  · rw [StatusWrite.set_writes] at hwrites
    omega

/-- The first job of a delivery, under the delivery's own id. -/
theorem Fresh.asOf (h : Fresh s) (hid : (s.delivery id).isSome = true) (due : Nat) : AsOf s id 0 (JobFits id due) := by
  obtain ⟨row, hrow⟩ := Option.isSome_iff_exists.1 hid
  refine ⟨row, hrow, Nat.zero_le _, fun hwrites => ?_⟩
  obtain ⟨hattempts, hstatus⟩ := h id row hrow hwrites.symm
  refine ⟨?_, fun hfailed => ?_⟩
  · unfold jobIdOf
    rw [if_pos hattempts, show row.id = id from find_id hrow]
  · rw [hstatus] at hfailed
    cases hfailed

theorem strandedRow_eq_some {row : Stranded} (h : strandedRow env s id = some row) :
    ∃ d, s.delivery id = some d ∧ row = ⟨d.id, d.status, d.attempts, d.writes⟩ ∧ d.status.final = false ∧
      dueAt d + env.webhooks.reaperDeadlineMs < s.now := by
  unfold strandedRow at h
  split at h
  · rename_i d hd
    split at h
    · rename_i hcond
      cases h
      exact ⟨d, hd, rfl, by simpa using hcond.1, hcond.2.1⟩
    · cases h
  · cases h

/-- A selected row says what the row was, and that its next attempt is due. -/
theorem StrandedInv.of_select {row : Stranded} (h : strandedRow env s id = some row) : StrandedInv s row := by
  obtain ⟨d, hd, rfl, -, hdue⟩ := strandedRow_eq_some h
  have hid : d.id = id := find_id hd
  unfold StrandedInv
  dsimp only
  rw [hid]
  refine AsOf.of_row hd ⟨?_, fun _ t ht => ?_⟩
  · unfold reapJobId jobIdOf
    rw [hid]
  · unfold dueAt at hdue
    rw [ht, Option.getD_some] at hdue
    omega

structure SnapshotInv (s : State) : Prop where
  fresh : Fresh s
  queue : All s.queue (JobInv s)
  runs : All s.runs fun _ run => RunInv s run
  polls : All s.polls fun _ poll => ∀ id ∈ poll.pc.left, (s.delivery id).isSome = true
  reaps : All s.reaps fun _ reap => ∀ row ∈ reap.stuck, StrandedInv s row

theorem SnapshotInv.step (h : SnapshotInv s) (hs : Step env s a s') : SnapshotInv s' := by
  obtain ⟨hfresh, hqueue, hruns, hpolls, hreaps⟩ := h
  -- what was read of a row holds of it as of that write, whatever was written since
  have hfresh' := hfresh.step hs
  have hqueue' : All s.queue (JobInv s') := hqueue.mono fun _ _ hjob => hjob.step hs
  have hruns' : All s.runs fun _ run => RunInv s' run := hruns.mono fun _ _ hrun => hrun.step hs
  have hpolls' : All s.polls fun _ poll => ∀ id ∈ poll.pc.left, (s'.delivery id).isSome = true :=
    hpolls.mono fun _ _ hpoll id hid => hs.delivery_isSome (hpoll id hid)
  have hreaps' : All s.reaps fun _ reap => ∀ row ∈ reap.stuck, StrandedInv s' row :=
    hreaps.mono fun _ _ hreap row hrow => (hreap row hrow).step hs
  have hstep := hs
  cases hs with
  | tick | emit | insertEndpoint | deactivate => exact ⟨hfresh', hqueue', hruns', hpolls', hreaps'⟩
  | pollBegin | pollNone | pollSelect | pollEndpoints =>
    exact ⟨hfresh', hqueue', hruns', hpolls'.but.set (fun _ h => by cases h), hreaps'⟩
  | pollCommit k poll rows hk hpc hrows hconstraints =>
    refine ⟨hfresh', hqueue', hruns', hpolls'.but.set fun id hid => ?_, hreaps'⟩
    obtain ⟨d, hd, rfl⟩ := List.mem_map.1 hid
    have hpk := (of_decide_eq_true hconstraints).1
    rw [show State.delivery _ d.id = some d from find_of_mem hpk (List.mem_append_right _ hd)]
    rfl
  | pollAdd k id poll left hk hpc hid =>
    have hleft : ∀ i ∈ left, (s.delivery i).isSome = true := fun i hi => hpolls hk i (by rw [hpc]; exact hi)
    refine ⟨hfresh', EvictingQueue.all_add hqueue' (hfresh'.asOf (hleft id hid) _), hruns', ?_, hreaps'⟩
    exact hpolls'.but.set fun i hi => hleft i (List.mem_filter.1 hi).1
  | pollEnd k poll hk =>
    refine ⟨hfresh', hqueue', hruns', hpolls'.but.set fun i hi => ?_, hreaps'⟩
    dsimp only at hi
    split at hi <;> cases hi
  | reapSelect k ids stuck hk hstuck =>
    refine ⟨hfresh', hqueue', hruns', hpolls', hreaps'.but.set fun row hrow => ?_⟩
    obtain ⟨id, -, hrow⟩ := hstuck row hrow
    exact (StrandedInv.of_select hrow).step hstep
  | reapCommit k stuck hk =>
    exact ⟨hfresh', hqueue', hruns', hpolls', hreaps'.but.set fun row hrow => hreaps hk row hrow⟩
  | reapAdd k id stuck row hk hfind =>
    have hrow := hreaps hk row (List.mem_of_find?_eq_some hfind)
    refine ⟨hfresh', EvictingQueue.all_add hqueue' hrow, hruns', hpolls', hreaps'.but.set fun row hrow => ?_⟩
    exact hreaps hk row (List.mem_filter.1 hrow).1
  | reapEnd => exact ⟨hfresh', hqueue', hruns', hpolls', hreaps'.but.erase⟩
  | dequeue r jobId job hr hjob hready =>
    have hold : JobInv s jobId job := hqueue hjob
    have hfits : AsOf s job.data.deliveryId job.data.basis (JobFits jobId s.now) :=
      hold.mono fun _ h => h.mono (LiveState.due_of_ready hready)
    refine ⟨hfresh', EvictingQueue.all_setState hqueue' fun old hq => ?_, hruns'.but.set ?_, hpolls', hreaps'⟩
    · rw [hjob] at hq
      cases hq
      exact hfits
    · exact (RunInv.start hfits).step hstep
  | walk r run a pc hr hwalk =>
    exact ⟨hfresh', hqueue', hruns'.but.set ((RunInv.walk (hruns hr) hwalk).step hstep), hpolls', hreaps'⟩
  | post r run d endpoint hr hpc =>
    have hread := (hruns hr).read d (by rw [hpc]; rfl)
    exact ⟨hfresh', hqueue', hruns'.but.set (((hruns hr).reading hread (Or.inr rfl)).step hstep), hpolls', hreaps'⟩
  | write r run d w basis hr hpc hbasis =>
    have hread := (hruns hr).read d (by rw [hpc]; rfl)
    obtain ⟨row, hrow, -⟩ := hread.asOf
    -- the number of the write is read off the row it has written
    have hset : find (update s.deliveries d.id w.set) d.id = some (w.set row) := by
      rw [find_update w.set_id, hread.id, show find s.deliveries run.data.deliveryId = some row from hrow]
      simp
    rw [hset, Option.map_some, Option.getD_some, StatusWrite.set_writes] at hbasis
    subst hbasis
    refine ⟨hfresh', hqueue', hruns'.but.set ?_, hpolls', hreaps'⟩
    exact (hruns' hr).write hread.id hset ((hruns hr).decided d w hpc)
  | retryAdd r run deliveryId attempts delay basis hr hpc =>
    obtain ⟨-, hrec⟩ := (hruns hr).recorded deliveryId attempts delay basis hpc
    have hjob : JobInv s (retryJobId deliveryId attempts) ⟨⟨deliveryId, basis⟩, .delayed (s.now + delay)⟩ := hrec
    refine ⟨hfresh', EvictingQueue.all_add hqueue' (hjob.step hstep), hruns'.but.set ?_, hpolls', hreaps'⟩
    exact (hruns' hr).idle rfl (by simp)
  | finish r run hr =>
    exact ⟨hfresh', EvictingQueue.all_finish hqueue', hruns'.but.set ((hruns' hr).idle rfl (by simp)), hpolls', hreaps'⟩
  | crash r run hr =>
    exact ⟨hfresh', hqueue', hruns'.but.set ((hruns' hr).idle rfl (by simp)), hpolls', hreaps'⟩
  | stall jobId r job hjob hactive =>
    refine ⟨hfresh', EvictingQueue.all_setState hqueue' fun old hq => ?_, hruns', hpolls', hreaps'⟩
    have hold : JobInv s jobId job := hqueue hjob
    rw [hjob] at hq
    cases hq
    -- a stalled job waits again, with the data it had
    unfold JobInv at hold ⊢
    rw [hactive] at hold
    exact hold
  | giveUp jobId r job => exact ⟨hfresh', EvictingQueue.all_finish hqueue', hruns', hpolls', hreaps'⟩

theorem fresh_initial : Fresh State.initial := by
  intro id row hrow
  have hnone : State.initial.delivery id = none := rfl
  rw [hnone] at hrow
  cases hrow

theorem snapshotInv {C : State → Action → Prop} (h : Reach (system env) C s) : SnapshotInv s :=
  h.invariant (I := SnapshotInv) ⟨fresh_initial, all_empty, all_empty, all_empty, all_empty⟩
    fun _ _ _ _ hI _ hs => hI.step (step_sound hs)

end PaymentsProcessor.Webhooks
