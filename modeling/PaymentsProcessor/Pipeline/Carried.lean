/-
Job data on their way from the outbox to the queue and the runs: what is true of the data of every submission and every
re-drive is true of all job data, as long as no job comes from elsewhere.
-/
import PaymentsProcessor.Pipeline.Runs

namespace PaymentsProcessor.Pipeline

open PaymentStatus Worker Relay Reaper Transition PartialMap

variable {β κ : Type} {port : BankPort β κ} {env : Env} {s s' : State β} {a : Action κ}

/-- A job from elsewhere. -/
def foreign : Action κ → Bool
  | .inject _ _ _ => true
  | _ => false

theorem mem_unpublished {row : OutboxRow} (h : row ∈ unpublished s) :
    row ∈ s.db.outbox ∧ row.publishedAt = none ∧ row.submitted?.isSome = true ∧ s.outboxLocks row.id = none := by
  have hmem := List.mem_of_mem_take h
  rw [List.mem_insertionSort, List.mem_filter] at hmem
  exact ⟨hmem.1, of_decide_eq_true hmem.2⟩

/-- A property of job data, wherever they are: in outbox rows, polls, jobs and runs. -/
structure Carried (P : JobData → Prop) (s : State β) : Prop where
  outbox : ∀ row ∈ s.db.outbox, ∀ data, row.submitted? = some data → P data
  polls : All s.polls fun _ poll => ∀ row ∈ poll.rows, ∀ data, row.submitted? = some data → P data
  jobs : All s.queue fun _ job => P job.data
  runs : All s.runs fun _ run => P run.data

theorem Carried.mono {P Q : JobData → Prop} (h : Carried P s) (hPQ : ∀ data, P data → Q data) : Carried Q s where
  outbox row hrow data hdata := hPQ data (h.outbox row hrow data hdata)
  polls := h.polls.mono fun _ _ hpoll row hrow data hdata => hPQ data (hpoll row hrow data hdata)
  jobs := h.jobs.mono fun _ _ => hPQ _
  runs := h.runs.mono fun _ _ => hPQ _

/-- New data come from a submission or from a reap; everything else carries data on. -/
theorem Carried.step {P : JobData → Prop} (h : Carried P s) (hown : foreign a = false) (hs : Step port env s a s')
    (hsubmit : ∀ (row : Payment) id dto c now data, .submitted row.id dto c ∈ s'.history →
      s'.db.payments row.id = some row → (submittedRow row id c now).submitted? = some data → P data)
    (hreap : ∀ k stamp stuck row, s.reaps k = some (.adding stamp stuck) → row ∈ stuck → P (reapData row)) : Carried P s' := by
  obtain ⟨hO, hP, hJ, hR⟩ := h
  cases hs with
  | inject => cases hown
  | accepted dto key hash correlationId amountCents row =>
    refine ⟨fun out hout data hdata => ?_, hP, hJ, hR⟩
    rcases List.mem_append.1 hout with hold | hnew
    · exact hO out hold data hdata
    · cases List.mem_singleton.1 hnew
      exact hsubmit row _ dto correlationId _ data (by simp) (Function.update_self ..) hdata
  | final r run began clock dis target p hr =>
    refine ⟨fun out hout data hdata => ?_, hP, hJ, hR.but.set (hR hr :)⟩
    rcases List.mem_append.1 hout with hold | hnew
    · exact hO out hold data hdata
    · cases List.mem_singleton.1 hnew
      rw [(terminalRow_event ..).1] at hdata
      cases hdata
  | pollSelect k hk => exact ⟨hO, hP.but.set fun row hmem => hO row (mem_unpublished hmem).1, hJ, hR⟩
  | pollAdd k poll row data hk hmem hdata =>
    -- a job has the payload of its row, a run the data of its job, a retry job the data of its run
    exact ⟨hO, hP.but.set (hP hk :), Queue.all_add hJ ((hP hk :) row hmem data hdata), hR⟩
  | pollCommit k poll hk =>
    refine ⟨fun out hout data hdata => ?_, hP.but.erase, hJ, hR⟩
    obtain ⟨old, hold, rfl⟩ := List.mem_map.1 hout
    split at hdata
    · exact hO old hold data hdata
    · exact hO old hold data hdata
  | pollAbort k poll hk => exact ⟨hO, hP.but.set (hP hk :), hJ, hR⟩
  | dequeue r w jobId job hr hjob =>
    exact ⟨hO, hP, Queue.all_setState hJ fun _ hold => (hJ hold :), hR.but.set (hJ hjob :)⟩
  | walk _ r run pc hr => exact ⟨hO, hP, hJ, hR.but.set (hR hr :)⟩
  | claim r run began clock p hr => exact ⟨hO, hP, hJ, hR.but.set (hR hr :)⟩
  | call r run hr => exact ⟨hO, hP, hJ, hR.but.set (hR hr :)⟩
  | refuse r run hr => exact ⟨hO, hP, hJ, hR.but.set (hR hr :)⟩
  | receive r run call since outcome hr => exact ⟨hO, hP, hJ, hR.but.set (hR hr :)⟩
  | rethrow r run call since message hr => exact ⟨hO, hP, hJ, hR.but.set (hR hr :)⟩
  | timeout r run since hr => exact ⟨hO, hP, hJ, hR.but.set (hR hr :)⟩
  | exhaust r run began clock reason p hr => exact ⟨hO, hP, hJ, hR.but.set (hR hr :)⟩
  | retry r run began clock reason p hr => exact ⟨hO, hP, hJ, hR.but.set (hR hr :)⟩
  | retryAdd r delay run attempt hr => exact ⟨hO, hP, Queue.all_add hJ (hR hr :), hR.but.set (hR hr :)⟩
  | finish r run state hr => exact ⟨hO, hP, all_closeJob hJ fun _ hjob _ => (hJ hjob :), hR.but.set (hR hr :)⟩
  | stall => exact ⟨hO, hP, Queue.all_setState hJ fun _ hjob => (hJ hjob :), hR⟩
  | crash w =>
    refine ⟨hO, hP, hJ, All.map _ (hR.mono fun r run hrun => ?_)⟩
    split
    · exact hrun
    · exact hrun
  | reapAdd k stamp stuck row hk hmem => exact ⟨hO, hP, Queue.all_add hJ (hreap k stamp stuck row hk hmem), hR⟩
  | _ => exact ⟨hO, hP, hJ, hR⟩

end PaymentsProcessor.Pipeline
