/-
Ends of deliveries and the count of their attempts. The updates of `process` go by the id of the row alone, and the
failures write a count made from the row as it was read, before the wait for the receiver. Ends are final and every
attempt is counted in exactly the runs in which no failure is written over an attempt recorded meanwhile, and no
success over a dead delivery.
-/
import PaymentsProcessor.Webhooks.Snapshots

namespace PaymentsProcessor.Webhooks

open Transition PartialMap Processor Dispatcher Webhooks.Reaper

variable {env : Env} {s s' : State} {a : Action} {l : List (State × Action)}

/-! ## The property -/

/-- The step writes the status of the delivery. -/
def writesStatus (s : State) (id : String) : Action → Bool
  | .write r =>
    match s.runs r with
    | some run =>
      match run.pc with
      | .settling d _ => d.id = id
      | _ => false
    | none => false
  | _ => false

/-- The step leaves a final status as it is, and counts an attempt for a status it writes. -/
def EndsFinal (s : State) (a : Action) (s' : State) : Prop :=
  ∀ id row, s.delivery id = some row → ∃ row', s'.delivery id = some row' ∧
    (row.status.final = true → row'.status = row.status) ∧
    row'.attempts = row.attempts + if writesStatus s id a then 1 else 0

/-! ## The condition -/

/-- The row can take what a run has decided to write after it read `d`: a success, unless the row is dead; a failure,
if no attempt has been recorded since. -/
def StatusWrite.fits (w : StatusWrite) (d row : WebhookDelivery) : Bool :=
  match w with
  | .delivered _ => row.status ≠ .dead
  | .dead _ _ | .failed _ _ _ _ => row.attempts = d.attempts

/-- If the step is an update of `process`, the row can take it. -/
def writeFits (s : State) : Action → Bool
  | .write r =>
    match s.runs r with
    | some run =>
      match run.pc with
      | .settling d w => (s.delivery d.id).all (w.fits d)
      | _ => true
    | none => true
  | _ => true

theorem writeFits_write {r : Nat} {run : Run} {d row : WebhookDelivery} {w : StatusWrite} (hr : s.runs r = some run)
    (hpc : run.pc = .settling d w) (hrow : s.delivery d.id = some row) :
    writeFits s (.write r) = w.fits d row := by
  simp [writeFits, hr, hpc, hrow]

/-! ## The count -/

/-- `attempts` is the number of status writes, in the rows and in what the runs have read of them. -/
structure Counted (s : State) : Prop where
  rows : ∀ id row, s.delivery id = some row → row.attempts = row.writes
  reads : All s.runs fun _ run => ∀ d, run.pc.read = some d → d.attempts = d.writes

/-- What a run has read, it has read before or reads now. -/
theorem Step.read_inv {r : Nat} {run' : Run} {d : WebhookDelivery} (hs : Step env s a s') (hr : s'.runs r = some run')
    (hd : run'.pc.read = some d) :
    (∃ run, s.runs r = some run ∧ run.pc.read = some d) ∨ ∃ id, s.delivery id = some d := by
  have key : ∀ (q : Nat) (new : Run), Function.update s.runs q (some new) r = some run' →
      (∀ e, new.pc.read = some e → (∃ run, s.runs q = some run ∧ run.pc.read = some e) ∨
        ∃ id, s.delivery id = some e) →
      (∃ run, s.runs r = some run ∧ run.pc.read = some d) ∨ ∃ id, s.delivery id = some d := by
    intro q new hupd hnew
    by_cases hq : r = q
    · subst hq
      rw [Function.update_self] at hupd
      cases hupd
      exact hnew d hd
    · rw [Function.update_of_ne hq] at hupd
      exact Or.inl ⟨run', hupd, hd⟩
  cases hs with
  | dequeue q jobId job => exact key q _ hr fun e he => by cases he
  | walk q run a pc hq hwalk =>
    refine key q _ hr fun e he => ?_
    cases hwalk with
    | load hpc hload => cases he; exact Or.inr ⟨_, hload⟩
    | receive hpc => cases he; exact Or.inl ⟨run, hq, by rw [hpc]; rfl⟩
    | loadNone | loadFinal | postThrows | fail => cases he
  | post q run e endpoint hq hpc =>
    exact key q _ hr fun e he => by cases he; exact Or.inl ⟨run, hq, by rw [hpc]; rfl⟩
  | write q run e w basis => exact key q _ hr fun e he => by cases w <;> cases he
  | retryAdd q | finish q | crash q => exact key q _ hr fun e he => by cases he
  | _ => exact Or.inl ⟨run', hr, hd⟩

theorem Counted.step (h : Counted s) (hI : SnapshotInv s) (hfits : writeFits s a = true) (hs : Step env s a s') :
    Counted s' := by
  refine ⟨fun id row hrow => ?_, fun r run hr d hd => ?_⟩
  · rcases hs.delivery_inv hrow with hold | ⟨-, hattempts, hwrites⟩ | ⟨r, run, d, w, old, rfl, hr, hpc, rfl, hold, rfl⟩
    · exact h.rows id row hold
    · rw [hattempts, hwrites]
    · have hdecided := (hI.runs hr).decided d w hpc
      have hcount := h.rows _ old hold
      rw [writeFits_write hr hpc hold] at hfits
      rw [StatusWrite.set_writes, ← hcount]
      cases w with
      | delivered => rfl
      | dead attempts err =>
        have hold := of_decide_eq_true hfits
        show attempts = old.attempts + 1
        rw [hold]
        exact hdecided
      | failed delay next attempts err =>
        have hold := of_decide_eq_true hfits
        show attempts = old.attempts + 1
        rw [hold]
        exact hdecided.1
  · rcases hs.read_inv hr hd with ⟨run, hrun, hread⟩ | ⟨id, hrow⟩
    · exact h.reads hrun d hread
    · exact h.rows id d hrow

theorem counted (h : Reach (system env) (fun s a => writeFits s a = true) s) : Counted s :=
  h.invariant (I := Counted) ⟨fun _ _ hrow => (by cases hrow), all_empty⟩ fun _ _ _ hr hI hfits hs =>
    hI.step (snapshotInv hr) hfits (step_sound hs)

/-! ## Ends are final -/

/-- A write leaves the ends final and counts its attempt exactly if the row can take it. -/
theorem fits_iff {d row : WebhookDelivery} {w : StatusWrite} (hdecided : Decided s.now d w)
    (hsame : row.attempts = d.attempts → row.status.final = false) :
    ((row.status.final = true → (w.set row).status = row.status) ∧ (w.set row).attempts = row.attempts + 1) ↔
      w.fits d row = true := by
  cases w with
  | delivered t =>
    show ((_ → WebhookStatus.delivered = row.status) ∧ row.attempts + 1 = row.attempts + 1) ↔ decide (row.status ≠ .dead) = true
    cases row.status <;> simp [WebhookStatus.final]
  | dead attempts err =>
    have hattempts : attempts = d.attempts + 1 := hdecided
    show ((_ → WebhookStatus.dead = row.status) ∧ attempts = row.attempts + 1) ↔ decide (row.attempts = d.attempts) = true
    constructor
    · rintro ⟨-, hcount⟩
      apply decide_eq_true
      omega
    · intro hfits
      have heq := of_decide_eq_true hfits
      refine ⟨fun hfinal => ?_, by omega⟩
      rw [hsame heq] at hfinal
      cases hfinal
  | failed delay next attempts err =>
    have hattempts : attempts = d.attempts + 1 := hdecided.1
    show ((_ → WebhookStatus.failed = row.status) ∧ attempts = row.attempts + 1) ↔ decide (row.attempts = d.attempts) = true
    constructor
    · rintro ⟨-, hcount⟩
      apply decide_eq_true
      omega
    · intro hfits
      have heq := of_decide_eq_true hfits
      refine ⟨fun hfinal => ?_, by omega⟩
      rw [hsame heq] at hfinal
      cases hfinal

theorem writesStatus_write {r : Nat} {run : Run} {d : WebhookDelivery} {w : StatusWrite} (hr : s.runs r = some run)
    (hpc : run.pc = .settling d w) (id : String) : writesStatus s id (.write r) = decide (d.id = id) := by
  simp [writesStatus, hr, hpc]

/-- A step other than an update of `process` writes no status. -/
theorem endsFinal_of_ne_write (hs : Step env s a s') (ha : ∀ r, a ≠ .write r) : EndsFinal s a s' := by
  intro id row hrow
  have hfalse : writesStatus s id a = false := by
    cases a with
    | write r => exact absurd rfl (ha r)
    | _ => rfl
  rcases hs.delivery hrow with hsame | ⟨r, run, d, w, hwrite, -⟩
  · exact ⟨row, hsame, fun _ => rfl, by simp [hfalse]⟩
  · exact absurd hwrite (ha r)

/-- The update of a run. -/
theorem write_inv {r : Nat} (hs : Step env s (.write r) s') : ∃ run d w, s.runs r = some run ∧
    run.pc = .settling d w ∧ s'.deliveries = update s.deliveries d.id w.set := by
  cases hs with
  | write _ run d w basis hr hpc => exact ⟨run, d, w, hr, hpc, rfl⟩
  | walk _ run _ pc hr hwalk => cases hwalk

/-- An update leaves the ends final and counts its attempt exactly if the row can take it. -/
theorem endsFinal_write_iff {r : Nat} {run : Run} {d row : WebhookDelivery} {w : StatusWrite}
    (hr : s.runs r = some run) (hpc : run.pc = .settling d w) (hrow : s.delivery d.id = some row)
    (hupd : s'.deliveries = update s.deliveries d.id w.set) :
    EndsFinal s (.write r) s' ↔
      ((row.status.final = true → (w.set row).status = row.status) ∧ (w.set row).attempts = row.attempts + 1) := by
  have hafter : ∀ id, s'.delivery id = (s.delivery id).map fun e => if id = d.id then w.set e else e := by
    intro id
    unfold State.delivery
    rw [hupd, find_update w.set_id]
  constructor
  · intro h
    obtain ⟨row', hrow', hfinal, hcount⟩ := h d.id row hrow
    rw [hafter, hrow] at hrow'
    simp only [Option.map_some, if_true, Option.some.injEq] at hrow'
    subst hrow'
    rw [writesStatus_write hr hpc, if_pos (decide_eq_true rfl)] at hcount
    exact ⟨hfinal, hcount⟩
  · rintro ⟨hfinal, hcount⟩ id old hold
    rw [hafter, hold, writesStatus_write hr hpc]
    by_cases hid : id = d.id
    · subst hid
      rw [hrow] at hold
      cases hold
      exact ⟨w.set row, by simp, hfinal, by simpa using hcount⟩
    · exact ⟨old, by simp [hid], fun _ => rfl, by simp [Ne.symm hid]⟩

theorem endsFinal_step_iff (hr : Reach (system env) (fun s a => writeFits s a = true) s)
    (hs : step env s a = some s') : EndsFinal s a s' ↔ writeFits s a = true := by
  have hstep := step_sound hs
  by_cases ha : ∃ r, a = .write r
  · obtain ⟨r, rfl⟩ := ha
    obtain ⟨run, d, w, hrun, hpc, hupd⟩ := write_inv hstep
    have hI := (snapshotInv hr).runs hrun
    have hread := hI.read d (by rw [hpc]; rfl)
    obtain ⟨row, hrow, -, hsame⟩ := hread.asOf
    rw [← hread.id] at hrow
    rw [endsFinal_write_iff hrun hpc hrow hupd, writeFits_write hrun hpc hrow]
    refine fits_iff (hI.decided d w hpc) fun heq => ?_
    -- as many attempts as were read are as many status writes: the row is the one read
    have hwrites : d.writes = row.writes := by
      rw [← (counted hr).rows _ row hrow, heq, (counted hr).reads hrun d (by rw [hpc]; rfl)]
    rw [hsame hwrites]
    exact hread.open_
  · have hne : ∀ r, a ≠ .write r := fun r h => ha ⟨r, h⟩
    have hfits : writeFits s a = true := by
      cases a with
      | write r => exact absurd rfl (hne r)
      | _ => rfl
    exact ⟨fun _ => hfits, fun _ => endsFinal_of_ne_write hstep hne⟩

/-- In a run, every step leaves the final statuses as they are and counts an attempt for each status it writes,
exactly if every update of `process` finds a row that can take it. -/
theorem ends_final_iff (h : Transition.Run (system env) l s) :
    (∀ x ∈ l, ∀ s', step env x.1 x.2 = some s' → EndsFinal x.1 x.2 s') ↔ ∀ x ∈ l, writeFits x.1 x.2 = true :=
  h.forall_steps_iff (C := fun s a => writeFits s a = true) fun _ _ _ hr hs => endsFinal_step_iff hr hs

/-- A delivery fails once and is then delivered by its retry job. -/
def redelivered : List Action :=
  [announce, send 0 "000", [.receive 0 (.response 500) 500, .write 0, .retryAdd 0, .finish 0, .tick 500],
    send 1 "000:retry:1", [.receive 1 (.response 200) 1000, .write 1, .finish 1]].flatten

theorem ends_final_redelivered : ∃ l s, Transition.Run (system standard) l s ∧
    (s.delivery "000").any (fun d => d.status = .delivered ∧ d.attempts = 2) = true ∧
    ((∀ x ∈ l, ∀ s', step standard x.1 x.2 = some s' → EndsFinal x.1 x.2 s') ↔
      ∀ x ∈ l, writeFits x.1 x.2 = true) := by
  obtain ⟨l, s, hrun, hp⟩ := exists_run_of_exec (show (exec (system standard) (system standard).init redelivered).any
    (fun s => (s.delivery "000").any fun d => d.status = .delivered ∧ d.attempts = 2) = true by decide +kernel)
  exact ⟨l, s, hrun, hp, ends_final_iff hrun⟩

/-- Two runs of one job: the first is still waiting for the receiver when its job stalls and is taken again. -/
def overlapping : List Action :=
  [announce, send 0 "000", [.stall "000"], send 1 "000",
    [.receive 0 (.response 200) 500, .write 0, .receive 1 (.rejected none) 500]].flatten

/-- The second run's failure is written over the first one's success: the delivered delivery has failed, and one of
its two attempts is lost. -/
theorem delivered_fails : ∃ s s', Reach (system standard) Free s ∧ step standard s (.write 1) = some s' ∧
    ¬ EndsFinal s (.write 1) s' := by
  obtain ⟨s, hs, hp⟩ := exists_reach_of_exec (show (exec (system standard) (system standard).init overlapping).any
    (fun s => (s.delivery "000").any (fun d => d.status = .delivered ∧ d.attempts = 1) &&
      (step standard s (.write 1)).any fun s' =>
        (s'.delivery "000").any fun d => d.status = .failed ∧ d.attempts = 1) = true by decide +kernel)
  obtain ⟨hbefore, hafter⟩ := Bool.and_eq_true_iff.1 hp
  obtain ⟨row, hrow, hdelivered⟩ := (Option.any_eq_true _ _).1 hbefore
  obtain ⟨s', hstep, hafter⟩ := (Option.any_eq_true _ _).1 hafter
  obtain ⟨row', hrow', hfailed⟩ := (Option.any_eq_true _ _).1 hafter
  refine ⟨s, s', hs, hstep, fun hends => ?_⟩
  obtain ⟨row'', hrow'', hfinal, -⟩ := hends "000" row hrow
  rw [hrow'] at hrow''
  cases hrow''
  have hst := (of_decide_eq_true hdelivered).1
  rw [hst] at hfinal
  rw [(of_decide_eq_true hfailed).1] at hfinal
  cases hfinal rfl

end PaymentsProcessor.Webhooks
