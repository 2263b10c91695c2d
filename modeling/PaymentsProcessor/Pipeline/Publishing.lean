/-
Publishing an outbox row. A poll writes to two stores, first the jobs and then the marks: a row is marked only
by the commit of a poll that holds it and whose adds the queue has all accepted, and the queue creates one
job for it at most.
-/
import PaymentsProcessor.Pipeline.Delivery

namespace PaymentsProcessor.Pipeline

open PaymentStatus Worker Relay Reaper Transition PartialMap

variable {β κ : Type} {port : BankPort β κ} {env : Env} {s s' : State β} {a : Action κ}

/-! ## Jobs are created once -/

/-- How often an add has created a job under this id. -/
def created (jobId : String) (h : List (Effect β)) : Nat := h.countP fun e =>
  match e with
  | .added jobId' _ _ fresh => jobId' = jobId && fresh
  | _ => false

theorem created_append (jobId : String) (h es : List (Effect β)) :
    created jobId (h ++ es) = created jobId h + created jobId es :=
  List.countP_append

theorem created_quiet {es : List (Effect β)} (hes : ∀ e ∈ es, ∀ jobId name data fresh, e ≠ .added jobId name data fresh)
    (jobId : String) (h : List (Effect β)) : created jobId (h ++ es) = created jobId h := by
  rw [created_append, Nat.add_eq_left, created, List.countP_eq_zero]
  intro e he
  cases e with
  | added => exact absurd rfl (hes _ he _ _ _ _)
  | _ => simp

/-- A job under an id has been created once, one that is not there never: the queue keeps its jobs. -/
def CreatedInv (h : List (Effect β)) (q : Queue) : Prop := ∀ jobId,
  created jobId h = if (q jobId).isSome then 1 else 0

theorem CreatedInv.keep {h : List (Effect β)} {q q' : Queue} (hI : CreatedInv h q)
    (hq : ∀ jobId, (q' jobId).isSome = (q jobId).isSome) : CreatedInv h q' := by
  intro jobId
  rw [hI, hq]

theorem CreatedInv.quiet {h es : List (Effect β)} {q : Queue} (hI : CreatedInv h q)
    (hes : ∀ e ∈ es, ∀ jobId name data fresh, e ≠ .added jobId name data fresh) : CreatedInv (h ++ es) q := by
  intro jobId
  rw [created_quiet hes, hI]

theorem setState_isSome (q : Queue) (jobId : String) (state : JobState) (i : String) :
    (q.setState jobId state i).isSome = (q i).isSome := by
  rw [Queue.setState_apply]
  split
  · rw [Option.isSome_map]
  · rfl

theorem closeJob_isSome (q : Queue) (jobId : String) (r : Nat) (state : JobState) (i : String) :
    (closeJob q jobId r state i).isSome = (q i).isSome := by
  unfold closeJob
  split
  · exact setState_isSome ..
  · rfl

/-- An add that finds its id taken creates nothing; one that finds it free creates its job. -/
theorem CreatedInv.enqueue (hI : CreatedInv s.history s.queue) (jobId name : String) (data : JobData)
    (state : JobState) :
    CreatedInv (s.enqueue jobId name data state).history (s.enqueue jobId name data state).queue := by
  intro i
  have hnew : created i ([.added jobId name data (s.queue jobId).isNone] : List (Effect β)) =
      if jobId = i ∧ s.queue jobId = none then 1 else 0 := by
    cases hq : s.queue jobId <;> by_cases hi : jobId = i <;> simp [created, hi]
  show created i (s.history ++ [_]) = if (s.queue.add jobId name data state i).isSome then 1 else 0
  rw [created_append, hnew, hI, Queue.add_apply]
  by_cases hi : i = jobId
  · subst hi
    cases hq : s.queue i <;> simp
  · simp [hi, Ne.symm hi]

theorem createdInv {C : State β → Action κ → Prop} (h : Reach (system port env) C s) :
    CreatedInv s.history s.queue := by
  refine h.invariant (I := fun s => CreatedInv s.history s.queue) (fun _ => rfl) fun t a t' _ hI _ hs => ?_
  cases step_sound hs with
  | inject | pollAdd | retryAdd | reapAdd => exact hI.enqueue _ _ _ _
  | dequeue | stall => exact hI.keep (setState_isSome _ _ _)
  | finish => exact hI.keep (closeJob_isSome _ _ _ _)
  | accepted | claim | call | refuse | answer | receive | rethrow | timeout | exhaust | retry | final =>
    exact hI.quiet (by simp)
  | reapUpdate k began time clock stuck =>
    show CreatedInv (_ ++ _ ++ _) _
    rw [List.append_assoc]
    refine hI.quiet ?_
    intro e he
    rcases List.mem_append.1 he with he | he
    all_goals
      obtain ⟨x, -, rfl⟩ := List.mem_map.1 he
      simp
  | _ => exact hI

/-! ## Marks -/

/-- A poll with the row in its batch commits, the queue having accepted every job of the batch. -/
def CommitsRow (s : State β) (a : Action κ) (id : String) : Prop := ∃ k poll, a = .pollCommit k ∧
  s.polls k = some poll ∧ poll.live = true ∧ (∀ row ∈ poll.rows, row.id ∈ poll.added) ∧ id ∈ poll.rows.map OutboxRow.id

/-- A row keeps its mark, or a poll that holds it commits. -/
theorem Step.mark (h : Step port env s a s') {row : OutboxRow} (hrow : row ∈ s.db.outbox) :
    (∃ row' ∈ s'.db.outbox, row'.id = row.id ∧ row'.publishedAt = row.publishedAt) ∨ CommitsRow s a row.id := by
  cases h with
  | accepted | final => exact Or.inl ⟨row, List.mem_append_left _ hrow, rfl, rfl⟩
  | pollCommit k poll hk hlive hadded =>
    by_cases hc : row.id ∈ poll.rows.map OutboxRow.id
    · exact Or.inr ⟨k, poll, rfl, hk, hlive, hadded, hc⟩
    · exact Or.inl ⟨row, List.mem_map.2 ⟨row, hrow, if_neg hc⟩, rfl, rfl⟩
  | _ => exact Or.inl ⟨row, hrow, rfl, rfl⟩

/-- A failed poll stays failed. -/
theorem Step.failed_persists (h : Step port env s a s') {k : Nat} {poll : Poll} (hk : s.polls k = some poll)
    (hlive : poll.live = false) : ∃ poll', s'.polls k = some poll' ∧ poll'.live = false ∧ poll'.rows = poll.rows := by
  have hset : ∀ {k' : Nat} {poll' : Poll}, (k = k' → poll'.live = false ∧ poll'.rows = poll.rows) →
      ∃ poll'', Function.update s.polls k' (some poll') k = some poll'' ∧ poll''.live = false ∧
        poll''.rows = poll.rows := by
    intro k' poll' hsame
    by_cases hc : k = k'
    · subst hc
      exact ⟨poll', Function.update_self .., hsame rfl⟩
    · exact ⟨poll, (Function.update_of_ne hc _ _).trans hk, hlive, rfl⟩
  cases h with
  | pollSelect k' hk' =>
    refine hset fun hc => ?_
    rw [← hc, hk] at hk'
    cases hk'
  | pollAdd k' poll' row data hk' =>
    refine hset ?_
    rintro rfl
    cases hk.symm.trans hk'
    exact ⟨hlive, rfl⟩
  | pollCommit k' poll' hk' hlive' =>
    refine ⟨poll, (Function.update_of_ne ?_ _ _).trans hk, hlive, rfl⟩
    rintro rfl
    cases hk.symm.trans hk'
    rw [hlive] at hlive'
    cases hlive'
  | pollAbort k' poll' hk' hlive' =>
    refine hset ?_
    rintro rfl
    cases hk.symm.trans hk'
    exact ⟨rfl, rfl⟩
  | _ => exact ⟨poll, hk, hlive, rfl⟩

/-! ## Publish before mark -/

/-- A marked submission has its job in the queue, with the row's payload, and no row has had two jobs
created. -/
structure PublishedOnce (s : State β) : Prop where
  accepted : ∀ row ∈ s.db.outbox, ∀ data, row.submitted? = some data → row.publishedAt ≠ none →
    ∃ job, s.queue row.id = some job ∧ job.data = data
  once : ∀ row ∈ s.db.outbox, row.submitted?.isSome = true → created row.id s.history ≤ 1

/-- In every run of the pipeline in which no job comes from elsewhere, marked rows have their job and no row has
two; a row's mark changes only where a poll that holds it commits with all its adds accepted; and a poll
that failed never commits. -/
theorem publish_before_mark (h : Reach (system port env) (fun _ a => foreign a = false) s) : PublishedOnce s ∧
    ∀ a s', Pipeline.step port env s a = some s' →
      (∀ row ∈ s.db.outbox, (∃ row' ∈ s'.db.outbox, row'.id = row.id ∧ row'.publishedAt = row.publishedAt) ∨
        CommitsRow s a row.id) ∧
      ∀ k poll, s.polls k = some poll → poll.live = false →
        ∃ poll', s'.polls k = some poll' ∧ poll'.live = false ∧ poll'.rows = poll.rows := by
  have hids := idsInv h
  have hjobs := jobInv h fun _ _ => id
  refine ⟨⟨fun row hrow data hdata hpub => ?_, fun row hrow _ => ?_⟩, fun a s' hs => ?_⟩
  · obtain ⟨job, hjob⟩ := Option.isSome_iff_exists.1 (hjobs.published row hrow (by rw [hdata]; rfl) hpub)
    -- the job under the row's id was made from the row
    obtain ⟨row', hrow', hid, hsame⟩ := (hjobs.origin hjob).resolve_left (hids.plain hrow)
    cases hids.unique hrow' hrow hid
    exact ⟨job, hjob, Option.some.inj (hsame.symm.trans hdata)⟩
  · rw [createdInv h row.id]
    split <;> omega
  · have hrule := step_sound hs
    exact ⟨fun row hrow => hrule.mark hrow, fun k poll hk hlive => hrule.failed_persists hk hlive⟩

/-- Two polls: the first adds a row's job and fails, its transaction rolled back; the second adds the job again,
to no effect, and commits. -/
theorem publish_before_mark_failed : ∃ s, Reach (system SimulatedBankAdapter.port standard) (fun _ a => foreign a = false) s ∧
    (s.db.outbox.any fun row => row.publishedAt ≠ none) = true ∧ PublishedOnce s := by
  obtain ⟨s, hs, hp⟩ := exists_reach_of_execIf (show (execIf (system SimulatedBankAdapter.port standard)
    (fun _ a => foreign a = false) (system SimulatedBankAdapter.port standard).init
      [.submit order "key" "hash" "corr", .pollSelect 0, .pollAdd 0 "00", .pollAbort 0, .pollSelect 1,
        .pollAdd 1 "00", .pollCommit 1]).any (fun s => s.db.outbox.any fun row => row.publishedAt ≠ none) = true by decide)
  exact ⟨s, hs, hp, (publish_before_mark hs).1⟩

end PaymentsProcessor.Pipeline
