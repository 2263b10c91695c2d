/-
Who drives an accepted payment. The obligation goes from the outbox row to the queue's job to the payment's
status. A run that throws in txn 1 leaves a failed job and a PENDING payment behind; unless that happens,
every PENDING payment has an unpublished row or a live job.
-/
import PaymentsProcessor.Pipeline.Amounts

namespace PaymentsProcessor.Pipeline

open PaymentStatus Worker Relay Reaper Transition PartialMap

variable {β κ : Type} {port : BankPort β κ} {env : Env} {s s' : State β} {a : Action κ}

/-! ## The obligation -/

/-- Every PENDING payment has an unpublished `payment.submitted` row, or a job that will run or is
running. -/
def Driven (s : State β) : Prop := ∀ pid p, s.db.payments pid = some p → p.status = PENDING →
  (∃ row ∈ s.db.outbox, row.aggregateId = pid ∧ row.submitted?.isSome = true ∧ row.publishedAt = none) ∨
  ∃ jobId job, s.queue jobId = some job ∧ job.data.paymentId = pid ∧ job.state.live = true

/-- The run has thrown, still holds its job, and its payment is PENDING. -/
def strands (s : State β) (r : Nat) (run : Run) : Bool :=
  run.pc = .threw && (s.queue run.jobId).map Job.state = some (.active r) &&
    (s.db.payments run.data.paymentId).any fun p => p.status = PENDING

/-- No job comes from elsewhere, and none goes to the failed set while its payment is PENDING. -/
def keepsDriving (s : State β) : Action κ → Bool
  | .inject _ _ _ => false
  | .finish r => (s.runs r).all fun run => !strands s r run
  | _ => true

theorem foreign_of_keepsDriving (h : keepsDriving s a = true) : foreign a = false := by
  cases a <;> first | rfl | cases h

/-! ## Outbox rows -/

/-- The ids of the outbox rows were drawn, each for one row. -/
structure IdsInv (env : Env) (s : State β) : Prop where
  drawn : ∀ id ∈ s.db.outbox.map OutboxRow.id, ∃ n < s.ulids, id = env.u.ulid n
  nodup : (s.db.outbox.map OutboxRow.id).Nodup

theorem IdsInv.keep (h : IdsInv env s) (hids : s'.db.outbox.map OutboxRow.id = s.db.outbox.map OutboxRow.id)
    (hle : s.ulids ≤ s'.ulids) : IdsInv env s' := by
  refine ⟨fun id hid => ?_, by rw [hids]; exact h.nodup⟩
  rw [hids] at hid
  obtain ⟨n, hn, hdrawn⟩ := h.drawn id hid
  exact ⟨n, Nat.lt_of_lt_of_le hn hle, hdrawn⟩

/-- A row inserted under an id drawn for it. -/
theorem IdsInv.insert (h : IdsInv env s) {row : OutboxRow} {n : Nat} (hout : s'.db.outbox = s.db.outbox ++ [row])
    (hrow : row.id = env.u.ulid n) (hle : s.ulids ≤ n) (hlt : n < s'.ulids) : IdsInv env s' := by
  have hids : s'.db.outbox.map OutboxRow.id = s.db.outbox.map OutboxRow.id ++ [row.id] := by
    rw [hout, List.map_append]; rfl
  refine ⟨fun id hid => ?_, ?_⟩
  · rw [hids, List.mem_append, List.mem_singleton] at hid
    rcases hid with hold | rfl
    · obtain ⟨m, hm, hdrawn⟩ := h.drawn id hold
      exact ⟨m, by omega, hdrawn⟩
    · exact ⟨n, hlt, hrow⟩
  · rw [hids, List.nodup_append]
    refine ⟨h.nodup, List.nodup_singleton _, fun id hid other hother => ?_⟩
    rw [List.mem_singleton] at hother
    rintro rfl
    obtain ⟨m, hm, hdrawn⟩ := h.drawn id hid
    have heq := env.u.injective (hdrawn.symm.trans (hother.trans hrow))
    omega

theorem idsInv {C : State β → Action κ → Prop} (h : Reach (system port env) C s) : IdsInv env s := by
  refine h.invariant (I := IdsInv env) ⟨fun _ hid => absurd hid List.not_mem_nil, .nil⟩ fun t a t' _ hI _ hs => ?_
  cases step_sound hs with
  | accepted dto key hash correlationId amountCents row =>
    exact hI.insert (n := t.ulids + 1) rfl rfl (Nat.le_succ _) (Nat.lt_succ_of_lt (Nat.lt_succ_self _))
  | final r run began clock dis target p =>
    exact hI.insert (n := t.ulids + 1) rfl rfl (Nat.le_succ _) (Nat.lt_succ_self _)
  | pollCommit k poll =>
    refine hI.keep ?_ (Nat.le_refl _)
    rw [Db.markPublished, List.map_map]
    exact List.map_congr_left fun row _ => by dsimp only [Function.comp]; split <;> rfl
  | rejected => exact hI.keep rfl (Nat.le_add_right _ 3)
  | claim | exhaust | retry => exact hI.keep rfl (Nat.le_succ _)
  | reapUpdate => exact hI.keep rfl (Nat.le_add_right _ _)
  | _ => exact hI.keep rfl (Nat.le_refl _)

/-- Two rows with one id are one row, and its id is not one that jobs are given elsewhere. -/
theorem IdsInv.unique (h : IdsInv env s) {row row' : OutboxRow} (hrow : row ∈ s.db.outbox) (hrow' : row' ∈ s.db.outbox)
    (hid : row.id = row'.id) : row = row' :=
  List.inj_on_of_nodup_map h.nodup hrow hrow' hid

theorem IdsInv.plain (h : IdsInv env s) {row : OutboxRow} (hrow : row ∈ s.db.outbox) : ':' ∉ row.id.toList := by
  obtain ⟨n, -, hid⟩ := h.drawn row.id (List.mem_map_of_mem hrow)
  rw [hid]
  exact env.u.plain n

/-- An outbox row stays, with its id and its event. -/
theorem Step.row_persists (h : Step port env s a s') {row : OutboxRow} (hrow : row ∈ s.db.outbox) :
    ∃ row' ∈ s'.db.outbox, row'.id = row.id ∧ row'.aggregateId = row.aggregateId ∧ row'.submitted? = row.submitted? := by
  cases h with
  | accepted | final => exact ⟨row, List.mem_append_left _ hrow, rfl, rfl, rfl⟩
  | pollCommit k poll =>
    refine ⟨_, List.mem_map_of_mem hrow, ?_⟩
    split
    · exact ⟨rfl, rfl, rfl⟩
    · exact ⟨rfl, rfl, rfl⟩
  | _ => exact ⟨row, hrow, rfl, rfl, rfl⟩

/-- Every payment has its `payment.submitted` row. -/
def RowInv (s : State β) : Prop := ∀ pid, (s.db.payments pid).isSome = true →
  ∃ row ∈ s.db.outbox, row.aggregateId = pid ∧ ∃ data, row.submitted? = some data ∧ data.paymentId = pid

theorem rowInv {C : State β → Action κ → Prop} (h : Reach (system port env) C s) : RowInv s := by
  refine h.invariant (I := RowInv) (fun _ hp => by cases hp) fun t a t' _ hI _ hs => ?_
  intro pid hp
  have hrule := step_sound hs
  rcases hrule.payment_inv hp with hold | ⟨dto, row, id, correlationId, now, hout, rfl, -⟩
  · obtain ⟨row, hrow, haggregate, hdata⟩ := hI pid hold
    obtain ⟨row', hrow', -, haggregate', hsame⟩ := hrule.row_persists hrow
    exact ⟨row', hrow', haggregate'.trans haggregate, by rwa [hsame]⟩
  · refine ⟨submittedRow row id correlationId now, ?_, rfl, _, rfl, rfl⟩
    rw [hout]
    exact List.mem_append_right _ (List.mem_singleton_self _)

/-! ## Jobs -/

/-- Jobs come from outbox rows, from retries or from reaps, and each hop of a row to its job is sound: a poll
holds rows of the outbox, has added the jobs it says, and only published rows whose job exists. Runs run
jobs. -/
structure JobInv (s : State β) : Prop where
  polls : All s.polls fun _ poll =>
    (∀ row ∈ poll.rows, ∃ row' ∈ s.db.outbox, row'.id = row.id ∧ row'.submitted? = row.submitted?) ∧
      ∀ id ∈ poll.added, (s.queue id).isSome = true
  published : ∀ row ∈ s.db.outbox, row.submitted?.isSome = true → row.publishedAt ≠ none → (s.queue row.id).isSome = true
  origin : All s.queue fun jobId job => ':' ∈ jobId.toList ∨
    ∃ row ∈ s.db.outbox, row.id = jobId ∧ row.submitted? = some job.data
  runs : All s.runs fun _ run => ∃ job, s.queue run.jobId = some job ∧ job.data = run.data

theorem JobInv.step (h : JobInv s) (hown : foreign a = false) (hs : Step port env s a s') : JobInv s' := by
  -- jobs and rows persist, so each case has only to place what its step adds
  have hqueue : ∀ {jobId : String}, (s.queue jobId).isSome = true → (s'.queue jobId).isSome = true := by
    intro jobId hsome
    obtain ⟨job, hjob⟩ := Option.isSome_iff_exists.1 hsome
    obtain ⟨job', hjob', -⟩ := hs.job_persists hjob
    rw [hjob']
    rfl
  have hrow : ∀ {id : String} {sub : Option JobData}, (∃ row ∈ s.db.outbox, row.id = id ∧ row.submitted? = sub) →
      ∃ row ∈ s'.db.outbox, row.id = id ∧ row.submitted? = sub := by
    rintro id sub ⟨row, hmem, hid, hsub⟩
    obtain ⟨row', hmem', hid', -, hsub'⟩ := hs.row_persists hmem
    exact ⟨row', hmem', hid'.trans hid, hsub'.trans hsub⟩
  have hP : All s.polls fun _ poll =>
      (∀ row ∈ poll.rows, ∃ row' ∈ s'.db.outbox, row'.id = row.id ∧ row'.submitted? = row.submitted?) ∧
        ∀ id ∈ poll.added, (s'.queue id).isSome = true :=
    h.polls.mono fun _ _ hpoll => ⟨fun row hmem => hrow (hpoll.1 row hmem), fun id hid => hqueue (hpoll.2 id hid)⟩
  have hB : ∀ row ∈ s.db.outbox, row.submitted?.isSome = true → row.publishedAt ≠ none →
      (s'.queue row.id).isSome = true := fun row hmem hsub hpub => hqueue (h.published row hmem hsub hpub)
  have hO : All s.queue fun jobId job => ':' ∈ jobId.toList ∨
      ∃ row ∈ s'.db.outbox, row.id = jobId ∧ row.submitted? = some job.data :=
    h.origin.mono fun _ _ hjob => hjob.imp_right hrow
  have hR : All s.runs fun _ run => ∃ job, s'.queue run.jobId = some job ∧ job.data = run.data := by
    refine h.runs.mono fun r run hrun => ?_
    obtain ⟨job, hjob, hdata⟩ := hrun
    obtain ⟨job', hjob', hdata'⟩ := hs.job_persists hjob
    exact ⟨job', hjob', hdata'.trans hdata⟩
  cases hs with
  | inject => cases hown
  | accepted dto key hash correlationId amountCents row =>
    refine ⟨hP, fun out hout hsub hpub => ?_, hO, hR⟩
    rcases List.mem_append.1 hout with hold | hnew
    · exact hB out hold hsub hpub
    · cases List.mem_singleton.1 hnew
      exact absurd rfl hpub
  | final r run began clock dis target p hr =>
    refine ⟨hP, fun out hout hsub hpub => ?_, hO, hR.but.set (hR hr :)⟩
    rcases List.mem_append.1 hout with hold | hnew
    · exact hB out hold hsub hpub
    · cases List.mem_singleton.1 hnew
      rw [(terminalRow_event ..).1] at hsub
      cases hsub
  | pollSelect k hk =>
    refine ⟨hP.but.set ⟨fun row hmem => ⟨row, (mem_unpublished hmem).1, rfl, rfl⟩, ?_⟩, hB, hO, hR⟩
    exact fun id hid => absurd hid List.not_mem_nil
  | pollAdd k poll row data hk hmem hdata =>
    -- the new job has the id and the data of its row
    refine ⟨hP.but.set ⟨(hP hk :).1, fun id hid => ?_⟩, hB, ?_, hR⟩
    · rcases List.mem_cons.1 hid with rfl | hid
      · exact Queue.add_isSome ..
      · exact (hP hk :).2 id hid
    · refine Queue.all_add hO (Or.inr ?_)
      obtain ⟨row', hmem', hid, hsub⟩ := (hP hk :).1 row hmem
      exact ⟨row', hmem', hid, hsub.trans hdata⟩
  | pollCommit k poll hk hlive hadded =>
    -- every row the commit marks has had its job added
    refine ⟨hP.but.erase, fun out hout hsub hpub => ?_, hO, hR⟩
    obtain ⟨old, hold, rfl⟩ := List.mem_map.1 hout
    by_cases hc : old.id ∈ poll.rows.map OutboxRow.id
    · obtain ⟨row, hmem, hid⟩ := List.mem_map.1 hc
      have hsome := (hP hk :).2 row.id (hadded row hmem)
      rw [if_pos hc]
      rw [hid] at hsome
      exact hsome
    · rw [if_neg hc] at hsub hpub ⊢
      exact hB old hold hsub hpub
  | pollAbort k poll hk => exact ⟨hP.but.set (hP hk :), hB, hO, hR⟩
  | dequeue r w jobId job hr hjob =>
    refine ⟨hP, hB, Queue.all_setState hO fun _ hold => (hO hold :), hR.but.set ?_⟩
    exact Queue.setState_persists hjob _ _
  | walk _ r run pc hr => exact ⟨hP, hB, hO, hR.but.set (hR hr :)⟩
  | claim r run began clock p hr => exact ⟨hP, hB, hO, hR.but.set (hR hr :)⟩
  | call r run hr => exact ⟨hP, hB, hO, hR.but.set (hR hr :)⟩
  | refuse r run hr => exact ⟨hP, hB, hO, hR.but.set (hR hr :)⟩
  | receive r run call since outcome hr => exact ⟨hP, hB, hO, hR.but.set (hR hr :)⟩
  | rethrow r run call since message hr => exact ⟨hP, hB, hO, hR.but.set (hR hr :)⟩
  | timeout r run since hr => exact ⟨hP, hB, hO, hR.but.set (hR hr :)⟩
  | exhaust r run began clock reason p hr => exact ⟨hP, hB, hO, hR.but.set (hR hr :)⟩
  | retry r run began clock reason p hr => exact ⟨hP, hB, hO, hR.but.set (hR hr :)⟩
  | retryAdd r delay run attempt hr =>
    -- the ids of retries and re-drives have a colon, those of rows have none
    refine ⟨hP, hB, Queue.all_add hO (Or.inl ?_), hR.but.set (hR hr :)⟩
    simp [retryJobId]
  | finish r run state hr => exact ⟨hP, hB, all_closeJob hO fun _ hold _ => (hO hold :), hR.but.set (hR hr :)⟩
  | stall => exact ⟨hP, hB, Queue.all_setState hO fun _ hold => (hO hold :), hR⟩
  | crash w =>
    refine ⟨hP, hB, hO, All.map _ (hR.mono fun r run hrun => ?_)⟩
    split
    · exact hrun
    · exact hrun
  | reapAdd k stamp stuck row hk hmem =>
    refine ⟨hP, hB, Queue.all_add hO (Or.inl ?_), hR⟩
    simp [reapJobId]
  | _ => exact ⟨hP, hB, hO, hR⟩

theorem jobInv {C : State β → Action κ → Prop} (h : Reach (system port env) C s)
    (hown : ∀ s a, C s a → foreign a = false) : JobInv s :=
  h.invariant (I := JobInv) ⟨all_empty, fun _ hrow => absurd hrow List.not_mem_nil, all_empty, all_empty⟩
    fun t a _ _ hI hC hs => hI.step (hown t a hC) (step_sound hs)

/-- The history has the add of every job. -/
def AddedInv (s : State β) : Prop :=
  All s.queue fun jobId job => ∃ name fresh, .added jobId name job.data fresh ∈ s.history

theorem addedInv {C : State β → Action κ → Prop} (h : Reach (system port env) C s) : AddedInv s := by
  refine h.invariant (I := AddedInv) all_empty fun t a t' _ hI _ hs => ?_
  have hrule := step_sound hs
  have hkeep : All t.queue fun jobId job => ∃ name fresh, .added jobId name job.data fresh ∈ t'.history := by
    refine hI.mono fun jobId job hjob => ?_
    obtain ⟨name, fresh, hmem⟩ := hjob
    exact ⟨name, fresh, hrule.mem_history hmem⟩
  cases hrule with
  | inject | pollAdd | retryAdd | reapAdd =>
    exact Queue.all_add hkeep ⟨_, _, List.mem_append_right _ (List.mem_singleton_self _)⟩
  | dequeue | stall => exact Queue.all_setState hkeep fun _ hjob => (hkeep hjob :)
  | finish => exact all_closeJob hkeep fun _ hjob _ => (hkeep hjob :)
  | _ => exact hkeep

/-! ## Progress of a payment -/

/-- The payment exists and has left PENDING. -/
def Begun (db : Db) (pid : String) : Prop := ∃ p, db.payments pid = some p ∧ p.status ≠ PENDING

theorem Step.begun (h : Step port env s a s') {pid : String} (hpid : Begun s.db pid) : Begun s'.db pid := by
  obtain ⟨p, hp, hst⟩ := hpid
  obtain ⟨q, hq, -, -, hsame | hne⟩ := h.payment_persists hp
  · exact ⟨q, hq, by rwa [hsame]⟩
  · exact ⟨q, hq, hne⟩

/-- A run here, unless it failed, has seen its payment claimed. -/
def Pc.past : Pc → Bool
  | .claimRead _ status _ => status ≠ PENDING
  | .claimDone | .calling _ | .decided _ | .settleBegun _ _ _ | .retryAdd _ | .returned => true
  | _ => false

/-- A run past txn 1 has a payment that has left PENDING. -/
def PastInv (s : State β) : Prop := All s.runs fun _ run => Pc.past run.pc = true → Begun s.db run.data.paymentId

/-- A run that walks on past txn 1 found its payment claimed. -/
theorem Walk.past {r : Nat} {run : Run} {pc : Pc} (hw : Walk s r run a pc) (hagrees : DataAgrees s.db run.data)
    (hbefore : Pc.past run.pc = true → Begun s.db run.data.paymentId) (hpast : Pc.past pc = true) :
    Begun s.db run.data.paymentId := by
  obtain ⟨q, hq, -⟩ := hagrees
  cases hw with
  | claimNone hpc hp =>
    rw [hp] at hq
    cases hq
  | claimIllegal hpc hp hst =>
    refine ⟨_, hp, fun hpending => ?_⟩
    rw [hpending] at hst
    cases hst
  | claimRead hpc hp hst => exact ⟨_, hp, of_decide_eq_true hpast⟩
  | claimClock hpc => exact hbefore (by rw [hpc]; exact hpast)
  | @claimLost began clock status hpc hp =>
    by_cases hst : status = PENDING
    · exact ⟨q, hq, hst ▸ hp q hq⟩
    · exact hbefore (by rw [hpc]; exact decide_eq_true hst)
  | settleBegin hpc => exact hbefore (by rw [hpc]; rfl)
  | settleClock hpc => exact hbefore (by rw [hpc]; rfl)
  | retryLost hpc => exact hbefore (by rw [hpc]; rfl)
  | finalLost hpc => exact hbefore (by rw [hpc]; rfl)
  | claimBegin | retryInvalid | fail => cases hpast

theorem PastInv.step (h : PastInv s) (hagree : AgreeInv s) (hs : Step port env s a s') : PastInv s' := by
  have hI : All s.runs fun _ run => Pc.past run.pc = true → Begun s'.db run.data.paymentId :=
    h.mono fun _ _ hrun hpast => hs.begun (hrun hpast)
  cases hs with
  | walk _ r run pc hr hw => exact h.but.set fun hpast => hw.past (hagree.runs hr) (h hr) hpast
  | claim r run began clock p hr hpc hp => exact hI.but.set fun _ => ⟨_, Function.update_self .., by rintro ⟨⟩⟩
  | call r run hr hpc => exact hI.but.set fun _ => (hI hr :) (by rw [hpc]; rfl)
  | refuse r run hr hpc => exact hI.but.set fun _ => (hI hr :) (by rw [hpc]; rfl)
  | receive r run call since outcome hr hpc => exact hI.but.set fun _ => (hI hr :) (by rw [hpc]; rfl)
  | timeout r run since hr hpc => exact hI.but.set fun _ => (hI hr :) (by rw [hpc]; rfl)
  | exhaust r run began clock reason p hr hpc => exact hI.but.set fun _ => (hI hr :) (by rw [hpc]; rfl)
  | retry r run began clock reason p hr hpc => exact hI.but.set fun _ => (hI hr :) (by rw [hpc]; rfl)
  | final r run began clock dis target p hr hpc => exact hI.but.set fun _ => (hI hr :) (by rw [hpc]; rfl)
  | retryAdd r delay run attempt hr hpc => exact hI.but.set fun _ => (hI hr :) (by rw [hpc]; rfl)
  | dequeue | rethrow | finish => exact hI.but.set (by rintro ⟨⟩)
  | crash w =>
    refine All.map _ (hI.mono fun r run hrun => ?_)
    by_cases hw : run.worker = w
    · rw [if_pos hw]
      rintro ⟨⟩
    · rw [if_neg hw]; exact hrun
  | _ => exact hI

/-- A job that is over has a payment that has left PENDING. -/
def LiveInv (s : State β) : Prop := All s.queue fun _ job => job.state.live = true ∨ Begun s.db job.data.paymentId

theorem LiveInv.step (h : LiveInv s) (hagree : AgreeInv s) (hjobs : JobInv s) (hpast : PastInv s)
    (hdrives : keepsDriving s a = true) (hs : Step port env s a s') : LiveInv s' := by
  have hI : All s.queue fun _ job => job.state.live = true ∨ Begun s'.db job.data.paymentId :=
    h.mono fun _ _ hjob => hjob.imp_right hs.begun
  cases hs with
  | inject => cases hdrives
  | pollAdd | retryAdd | reapAdd => exact Queue.all_add hI (Or.inl rfl)
  | dequeue | stall => exact Queue.all_setState hI fun _ _ => Or.inl rfl
  | finish r run state hr hpc =>
    refine all_closeJob hI fun job hjob hactive => Or.inr ?_
    obtain ⟨job', hjob', hdata⟩ := hjobs.runs hr
    cases hjob.symm.trans hjob'
    show Begun s.db job.data.paymentId
    rw [hdata]
    rcases hpc with ⟨hpc, -⟩ | ⟨hpc, -⟩
    · exact (hpast hr :) (by rw [hpc]; rfl)
    · -- it threw: by the condition not while its payment was PENDING
      obtain ⟨p, hp, -⟩ := hagree.runs hr
      refine ⟨p, hp, fun hst => ?_⟩
      simp [keepsDriving, hr, strands, hpc, hjob, hactive, hp, hst] at hdrives
  | _ => exact hI

/-- In every run of the pipeline in which no job comes from elsewhere and none goes to the failed set while its
payment is PENDING, every PENDING payment is driven. -/
theorem pending_driven (h : Reach (system port env) (fun s a => keepsDriving s a = true) s) : Driven s := by
  have hown : ∀ (s : State β) (a : Action κ), keepsDriving s a = true → foreign a = false :=
    fun _ _ => foreign_of_keepsDriving
  have hI : PastInv s ∧ LiveInv s := by
    refine h.invariant (I := fun s => PastInv s ∧ LiveInv s) ⟨all_empty, all_empty⟩ fun t a t' hr hI hdrives hs => ?_
    have hagree := agreeInv hr hown
    exact ⟨hI.1.step hagree (step_sound hs), hI.2.step hagree (jobInv hr hown) hI.1 hdrives (step_sound hs)⟩
  have hids := idsInv h
  have hjobs := jobInv h hown
  intro pid p hp hst
  obtain ⟨row, hrow, haggregate, data, hdata, hpid⟩ := rowInv h pid (by rw [hp]; rfl)
  have hsub : row.submitted?.isSome = true := by rw [hdata]; rfl
  cases hpub : row.publishedAt with
  | none => exact Or.inl ⟨row, hrow, haggregate, hsub, hpub⟩
  | some time =>
    obtain ⟨job, hjob⟩ := Option.isSome_iff_exists.1 (hjobs.published row hrow hsub (by rw [hpub]; simp))
    -- the job under the row's id was made from the row
    obtain ⟨row', hrow', hid, hsame⟩ := (hjobs.origin hjob).resolve_left (hids.plain hrow)
    cases hids.unique hrow' hrow hid
    cases hsame.symm.trans hdata
    rcases hI.2 hjob with hlive | ⟨q, hq, hne⟩
    · exact Or.inr ⟨row.id, job, hjob, hpid, hlive⟩
    · rw [hpid] at hq
      cases hp.symm.trans hq
      exact absurd hst hne

/-- A run fails in txn 1 after its job was put back; the payment is PENDING and its job waits. -/
theorem pending_driven_stalled : ∃ s,
    Reach (system SimulatedBankAdapter.port standard) (fun s a => keepsDriving s a = true) s ∧
    (s.db.payments "0").any (fun p => p.status = PENDING) = true ∧
    (s.db.outbox.all fun row => row.publishedAt ≠ none) = true ∧ Driven s := by
  obtain ⟨s, hs, hp⟩ := exists_reach_of_execIf (show (execIf (system SimulatedBankAdapter.port standard)
    (fun s a => keepsDriving s a = true) (system SimulatedBankAdapter.port standard).init
      (accept order 0 "00" ++ [.dequeue 0 0 "00", .claimBegin 0, .stall "00", .fail 0, .finish 0])).any
      (fun s => (s.db.payments "0").any (fun p => p.status = PENDING) &&
        s.db.outbox.all fun row => row.publishedAt ≠ none) = true by decide)
  obtain ⟨hst, hpub⟩ := Bool.and_eq_true_iff.1 hp
  exact ⟨s, hs, hst, hpub, pending_driven hs⟩

/-- Txn 1 fails on a published payment: its job goes to the failed set, and nothing drives it any more. -/
theorem pending_stranded : ∃ s, Reach (system SimulatedBankAdapter.port standard) (fun _ a => foreign a = false) s ∧
    ¬ Driven s := by
  obtain ⟨s, hs, hp⟩ := exists_reach_of_execIf (show (execIf (system SimulatedBankAdapter.port standard)
    (fun _ a => foreign a = false) (system SimulatedBankAdapter.port standard).init
      (accept order 0 "00" ++ [.dequeue 0 0 "00", .claimBegin 0, .fail 0, .finish 0])).any
      (fun s => (s.db.payments "0").any (fun p => p.status = PENDING) &&
        (s.db.outbox.all fun row => row.publishedAt ≠ none) &&
        (s.queue "00").all (fun job => job.state = .failed) &&
        s.history.all fun e => match e with | .added jobId _ _ _ => jobId = "00" | _ => true) = true by decide)
  rw [Bool.and_eq_true, Bool.and_eq_true, Bool.and_eq_true] at hp
  obtain ⟨⟨⟨hst, hpub⟩, hfailed⟩, hadded⟩ := hp
  obtain ⟨p, hp, hst⟩ := (Option.any_eq_true _ _).1 hst
  refine ⟨s, hs, fun hdriven => ?_⟩
  rcases hdriven "0" p hp (of_decide_eq_true hst) with ⟨row, hrow, -, -, hnone⟩ | ⟨jobId, job, hjob, -, hlive⟩
  · exact absurd hnone (of_decide_eq_true (List.all_eq_true.1 hpub row hrow))
  · obtain ⟨name, fresh, hmem⟩ := addedInv hs hjob
    cases of_decide_eq_true (List.all_eq_true.1 hadded _ hmem)
    rw [hjob] at hfailed
    rw [of_decide_eq_true hfailed] at hlive
    cases hlive

end PaymentsProcessor.Pipeline
