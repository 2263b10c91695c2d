/-
What a reaper's add creates. The id of the job is made from the attempts a tick has read of the row, as the normal
path would have made it, so that a job that is still there takes the add: this works for the jobs that were made from
the row as it is, and no others.
-/
import PaymentsProcessor.Webhooks.Order

namespace PaymentsProcessor.Webhooks

open Transition PartialMap Processor Dispatcher Webhooks.Reaper

variable {env : Env} {s s' : State} {a : Action}

/-- If the step is a reaper's add that creates a job, the delivery has no other job. -/
def OnlyLost (s : State) : Action → Prop
  | .reapAdd k id => ∀ row, reapCreates s k id = some row →
      ∀ i job, s.queue i = some job → job.data.deliveryId ≠ row.id
  | _ => True

/-- What a tick has read of a row that was not written since. -/
theorem stranded_current (hI : SnapshotInv s) (hO : OrderInv s) {k : Nat} {id : String} {row : Stranded}
    (h : reapCreates s k id = some row) (hcur : outdated s row.id row.basis = false) :
    ∃ d, s.delivery row.id = some d ∧ d.status.final = false ∧ s.queue (jobIdOf d) = none := by
  obtain ⟨stuck, hk, hfind, hfree⟩ := reapCreates_eq_some h
  have hmem := List.mem_of_find?_eq_some hfind
  obtain ⟨d, hd, hle, hopen⟩ := hO.reaps hk row hmem
  have hbasis := Nat.le_antisymm hle ((outdated_eq_false hd).1 hcur)
  obtain ⟨d', hd', -, hfits⟩ := hI.reaps hk row hmem
  rw [hd] at hd'
  cases hd'
  refine ⟨d, hd, hopen hbasis, ?_⟩
  rw [← (hfits hbasis).1]
  exact hfree

theorem onlyLost_of_keepsOrder (hI : SnapshotInv s) (hO : OrderInv s) (hC : KeepsOrder s a) : OnlyLost s a := by
  cases a with
  | reapAdd k id =>
    intro row hrow i job hjob hid
    obtain ⟨hcur, hruns⟩ := hC row hrow
    obtain ⟨d, hd, hopen, hfree⟩ := stranded_current hI hO hrow hcur
    have hinv : JobInv s i job := hI.queue hjob
    obtain ⟨d', hd', hle⟩ := hinv.row
    have hsame : d' = d := by
      rw [hid, hd] at hd'
      exact (Option.some.inj hd').symm
    subst hsame
    -- the job made from the row as it is has the id that was free
    have hcurrent : job.data.basis ≠ d'.writes := by
      intro hbasis
      rw [← hinv.id_eq hd' hbasis, hjob] at hfree
      cases hfree
    cases hO.standings hjob with
    | current hrow' hbasis =>
      rw [hd'] at hrow'
      cases hrow'
      exact hcurrent hbasis
    | closed hrow' _ hfinal =>
      rw [hd'] at hrow'
      cases hrow'
      rw [hopen] at hfinal
      cases hfinal
    | @spent r run _ hr _ hdata hspent =>
      have hrec := hruns r run hr (by rw [hdata]; exact hid) (by rintro hgone; rw [hgone] at hspent; cases hspent)
      rw [hdata] at hrec
      rcases recorded_eq_false hd' hrec with hcur' | ⟨hfinal, -⟩
      · exact hcurrent (Nat.le_antisymm hle hcur')
      · rw [hopen] at hfinal
        cases hfinal
  | _ => trivial

/-- In every run whose steps keep the order of jobs, a reaper creates jobs only for deliveries that have none. -/
theorem only_lost (h : Reach (system env) KeepsOrder s) (hC : KeepsOrder s a) : OnlyLost s a :=
  onlyLost_of_keepsOrder (snapshotInv h) (orderInv h) hC

/-! ## A lost job, and one that was not -/

/-- The step is that of a worker that takes a job. -/
def takesJob : Action → Bool
  | .dequeue _ _ => true
  | _ => false

/-- Without a job taken there is no run. -/
theorem runs_none (h : Reach (system env) (fun s a => (orderly s a && !takesJob a) = true) s) (r : Nat) : s.runs r = none := by
  revert r
  refine h.invariant (I := fun s => ∀ r, s.runs r = none) (fun _ => rfl) fun t a t' _ hI hC hs => ?_
  cases step_sound hs with
  | dequeue q jobId => simp [takesJob] at hC
  | walk q run _ _ hr | post q run _ _ hr | write q run _ _ _ hr | retryAdd q run _ _ _ _ hr | finish q run hr | crash q run hr =>
    rw [hI q] at hr
    cases hr
  | _ => exact hI

/-- The job of a delivery is lost with the add of the dispatcher, and a tick of the reaper finds the delivery. -/
def lost : List Action := [announce.dropLast, [.pollEnd 0], reap 0 60001 "000"].flatten

theorem only_lost_made : ∃ s s', Reach (system standard) KeepsOrder s ∧
    step standard s (.reapAdd 0 "000") = some s' ∧ s.queue "000" = none ∧ (s'.queue "000").isSome = true ∧
    OnlyLost s (.reapAdd 0 "000") := by
  obtain ⟨s, hs, hp⟩ := exists_reach_of_execIf (show (execIf (system standard)
    (fun s a => (orderly s a && !takesJob a) = true) (system standard).init lost).any
      (fun s => (s.queue "000").isNone && ((reapCreates s 0 "000").all fun row => !outdated s row.id row.basis) &&
        (step standard s (.reapAdd 0 "000")).any fun s' => (s'.queue "000").isSome) = true by decide +kernel)
  obtain ⟨hp, hadd⟩ := Bool.and_eq_true_iff.1 hp
  obtain ⟨hfree, hcur⟩ := Bool.and_eq_true_iff.1 hp
  obtain ⟨s', hs', hjob⟩ := (Option.any_eq_true _ _).1 hadd
  have hreach : Reach (system standard) KeepsOrder s := hs.mono fun _ _ hC => keepsOrder_of_orderly (Bool.and_eq_true_iff.1 hC).1
  have hkeeps : KeepsOrder s (.reapAdd 0 "000") := by
    intro row hrow
    rw [hrow] at hcur
    refine ⟨by simpa using hcur, fun r run hr => ?_⟩
    rw [runs_none hs r] at hr
    cases hr
  exact ⟨s, s', hreach, hs', Option.isNone_iff_eq_none.1 hfree, hjob, only_lost hreach hkeeps⟩

/-- A worker dies between recording a failure and adding the retry job, its job is put back, and no worker is up. -/
def putBack : List Action :=
  [announce, send 0 "000", [.receive 0 (.response 500) 500, .write 0, .crash 0, .stall "000"],
    reap 0 61000 "000"].flatten

/-- A reaper makes the retry job while the delivery's first job waits for a worker. -/
theorem second_job_made : ∃ s, Reach (system standard) Free s ∧
    (step standard s (.reapAdd 0 "000")).isSome = true ∧ ¬ OnlyLost s (.reapAdd 0 "000") := by
  obtain ⟨s, hs, hp⟩ := exists_reach_of_exec (show (exec (system standard) (system standard).init putBack).any
    (fun s => (step standard s (.reapAdd 0 "000")).isSome &&
      ((reapCreates s 0 "000").any fun row => row.id = "000") &&
      (s.queue "000").any fun job => job.data.deliveryId = "000" ∧ job.state = .waiting) = true by decide +kernel)
  obtain ⟨hp, hjob⟩ := Bool.and_eq_true_iff.1 hp
  obtain ⟨hstep, hrow⟩ := Bool.and_eq_true_iff.1 hp
  obtain ⟨row, hrow, hid⟩ := (Option.any_eq_true _ _).1 hrow
  obtain ⟨job, hjob, hfor⟩ := (Option.any_eq_true _ _).1 hjob
  refine ⟨s, hs, hstep, fun hlost => ?_⟩
  have hne := hlost row hrow "000" job hjob
  rw [of_decide_eq_true hid] at hne
  exact hne (of_decide_eq_true hfor).1

end PaymentsProcessor.Webhooks
