/-
The schedule of a delivery. The row holds the time of the next attempt and the queue the job for it, and `process`
does not compare them: a run posts whenever its job is taken. Requests keep to the row and a delivery has one chain
of jobs as long as the order of jobs is kept: what is taken then was made from the row as it is.
-/
import PaymentsProcessor.Webhooks.Order

namespace PaymentsProcessor.Webhooks

open Transition PartialMap Processor Dispatcher Webhooks.Reaper

variable {env : Env} {s s' : State} {a : Action} {i : String} {job : LiveJob DeliveryJob}

/-! ## Requests in time -/

/-- The run that sends a request in the step. -/
def sender (s : State) : Action → Option Run
  | .post r =>
    (s.runs r).filter fun run =>
      match run.pc with
      | .loaded d => s.endpoints.any fun endpoint => endpoint.id = d.endpointId
      | _ => false
  | _ => none

theorem sender_eq_some {run : Run} (h : sender s a = some run) : ∃ r d, s.runs r = some run ∧ run.pc = .loaded d := by
  cases a with
  | post r =>
    obtain ⟨hr, hsends⟩ := Option.filter_eq_some_iff.1 h
    split at hsends
    · rename_i d hpc
      exact ⟨r, d, hr, hpc⟩
    · cases hsends
  | _ => cases h

/-- A request for a failed delivery is not sent before its next attempt is due. -/
def PostInTime (s : State) (a : Action) : Prop :=
  ∀ run row, sender s a = some run → s.delivery run.data.deliveryId = some row → DueBy s.now row

/-- The run that sends a request was made from the row as it is, and its job was not taken before it was due. -/
theorem postInTime (hI : SnapshotInv s) (hO : OrderInv s) : PostInTime s a := by
  intro run row hrun hrow
  obtain ⟨r, d, hr, hpc⟩ := sender_eq_some hrun
  obtain ⟨hd, hbasis⟩ := (hO.runs hr).reads d (by rw [hpc]; rfl)
  obtain ⟨row', hrow', -, hfits⟩ := (hI.runs hr).job
  rw [hrow] at hd hrow'
  cases hd
  cases hrow'
  exact (hfits hbasis).2

/-! ## Chains -/

/-- The job will be run, or its run goes on, or is lost and the job will be put back. -/
def alive (runs : Nat → Option Run) (job : LiveJob DeliveryJob) : Bool :=
  match job.state with
  | .waiting | .delayed _ => true
  | .active r => !(runs r).any fun run => run.pc.over

/-- Every delivery has one live job at most. -/
def OneChain (s : State) : Prop :=
  ∀ i j job job', s.queue i = some job → s.queue j = some job' → alive s.runs job = true → alive s.runs job' = true →
    job.data.deliveryId = job'.data.deliveryId → i = j

/-- What a live job says of its row: the row it was made from, or the one its run has written. -/
theorem OrderInv.live (h : OrderInv s) (hjob : s.queue i = some job) (halive : alive s.runs job = true) :
    ∃ row, s.delivery job.data.deliveryId = some row ∧
      (job.data.basis = row.writes ∧ row.status.final = false ∨
        job.data.basis + 1 = row.writes ∧ (row.status.final = true ∨ ∀ j job', s.queue j = some job' →
          job'.data.deliveryId = job.data.deliveryId → job'.data.basis ≤ job.data.basis)) := by
  cases h.standings hjob with
  | current hrow hbasis => exact ⟨_, hrow, Or.inl ⟨hbasis, h.open_ i job _ hjob hrow hbasis⟩⟩
  | closed hrow hbasis hfinal => exact ⟨_, hrow, Or.inr ⟨hbasis, Or.inl hfinal⟩⟩
  | @spent r run hstate hr _ hdata hspent =>
    -- a run past its row whose job is alive has the retry job still to add
    unfold alive at halive
    simp only [hstate, hr, Option.any_some, Bool.not_eq_true'] at halive
    cases hpc : run.pc with
    | retryAdd deliveryId attempts delay basis =>
      obtain ⟨⟨row, hrow, -, -, hlast⟩, hjobs⟩ := (h.runs hr).records _ _ _ _ hpc
      rw [hdata] at hrow hlast hjobs
      exact ⟨row, hrow, Or.inr ⟨hlast, Or.inr hjobs⟩⟩
    | returned | threw =>
      rw [hpc] at halive
      cases halive
    | _ =>
      rw [hpc] at hspent
      cases hspent

theorem oneChain (hO : OrderInv s) : OneChain s := by
  intro i j job job' hi hj hialive hjalive hid
  obtain ⟨row, hrow, hstands⟩ := hO.live hi hialive
  obtain ⟨row', hrow', hstands'⟩ := hO.live hj hjalive
  rw [← hid, hrow] at hrow'
  cases hrow'
  refine hO.same i j job job' hi hj hid ?_
  rcases hstands with ⟨hcur, hopen⟩ | ⟨hlast, hdone⟩ <;> rcases hstands' with ⟨hcur', hopen'⟩ | ⟨hlast', hdone'⟩
  · exact hcur.trans hcur'.symm
  · rcases hdone' with hfinal | hjobs
    · rw [hopen] at hfinal
      cases hfinal
    · have hle := hjobs i job hi hid
      omega
  · rcases hdone with hfinal | hjobs
    · rw [hopen'] at hfinal
      cases hfinal
    · have hle := hjobs j job' hj hid.symm
      omega
  · omega

/-! ## Runs that keep the order -/

/-- In every run whose steps keep the order of jobs, no request for a failed delivery is sent before its next attempt is
due, and no delivery ever has two live jobs. -/
theorem backoff_kept (h : Reach (system env) KeepsOrder s) : (∀ a, PostInTime s a) ∧ OneChain s :=
  ⟨fun _ => postInTime (snapshotInv h) (orderInv h), oneChain (orderInv h)⟩

/-- A delivery fails twice, each retry job taken when it is due. -/
def retried : List Action :=
  [announce, send 0 "000", [.receive 0 (.response 503) 700, .write 0, .retryAdd 0, .finish 0, .tick 700],
    send 1 "000:retry:1", [.receive 1 (.rejected none) 1500, .write 1, .retryAdd 1, .finish 1]].flatten

theorem backoff_kept_retried : ∃ s, Reach (system standard) KeepsOrder s ∧
    (s.queue "000:retry:2").any (fun job => job.state = .delayed 2200) = true ∧ (∀ a, PostInTime s a) ∧ OneChain s := by
  obtain ⟨s, hs, hp⟩ := exists_reach_of_execIf (show (execIf (system standard) (fun s a => orderly s a = true)
    (system standard).init retried).any
      (fun s => (s.queue "000:retry:2").any fun job => job.state = .delayed 2200) = true by decide +kernel)
  have hreach : Reach (system standard) KeepsOrder s := hs.mono fun _ _ => keepsOrder_of_orderly
  exact ⟨s, hreach, hp, backoff_kept hreach⟩

/-- A worker dies after it has recorded a failure and added the retry job; its job is put back and taken again. -/
def takenAgain : List Action :=
  [announce, send 0 "000", [.receive 0 (.response 500) 1000, .write 0, .retryAdd 0, .crash 0, .stall "000",
    .dequeue 1 "000", .load 1]].flatten

/-- The second run posts a second before the next attempt is due, beside the delayed retry job. -/
theorem posted_early : ∃ s, Reach (system standard) Free s ∧ (step standard s (.post 1)).isSome = true ∧
    ¬ PostInTime s (.post 1) ∧ ¬ OneChain s := by
  obtain ⟨s, hs, hp⟩ := exists_reach_of_exec (show (exec (system standard) (system standard).init takenAgain).any
    (fun s => (step standard s (.post 1)).isSome &&
      ((sender s (.post 1)).any fun run => run.data.deliveryId = "000") &&
      ((s.delivery "000").any fun d => d.status = .failed ∧ d.nextAttemptAt = some (s.now + 1000)) &&
      ((s.queue "000").any fun job => job.data.deliveryId = "000" ∧ alive s.runs job) &&
      (s.queue "000:retry:1").any fun job => job.data.deliveryId = "000" ∧ alive s.runs job) = true by decide +kernel)
  obtain ⟨hp, hsecond⟩ := Bool.and_eq_true_iff.1 hp
  obtain ⟨hp, hfirst⟩ := Bool.and_eq_true_iff.1 hp
  obtain ⟨hp, hrow⟩ := Bool.and_eq_true_iff.1 hp
  obtain ⟨hstep, hrun⟩ := Bool.and_eq_true_iff.1 hp
  obtain ⟨run, hrun, hid⟩ := (Option.any_eq_true _ _).1 hrun
  obtain ⟨row, hrow, hearly⟩ := (Option.any_eq_true _ _).1 hrow
  obtain ⟨first, hfirst, hfirstAlive⟩ := (Option.any_eq_true _ _).1 hfirst
  obtain ⟨second, hsecond, hsecondAlive⟩ := (Option.any_eq_true _ _).1 hsecond
  obtain ⟨hfirstId, hfirstAlive⟩ := of_decide_eq_true hfirstAlive
  obtain ⟨hsecondId, hsecondAlive⟩ := of_decide_eq_true hsecondAlive
  refine ⟨s, hs, hstep, fun htime => ?_, fun hone => ?_⟩
  · obtain ⟨hstatus, hnext⟩ := of_decide_eq_true hearly
    rw [← of_decide_eq_true hid] at hrow
    have hdue := htime run row hrun hrow hstatus _ hnext
    omega
  · have hsame := hone _ _ first second hfirst hsecond hfirstAlive hsecondAlive (hfirstId.trans hsecondId.symm)
    exact absurd hsame (by decide)

end PaymentsProcessor.Webhooks
