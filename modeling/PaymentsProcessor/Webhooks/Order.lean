/-
One chain of jobs. A run decides by the status of its row alone, and an add is taken by a job of the same id alone, so a
delivery keeps to one chain as long as a job is done with when its run has recorded a failure: no worker dies and no lock
expires in between, and what the dispatcher and the reaper add comes before the row is written again.
-/
import PaymentsProcessor.Webhooks.Snapshots

namespace PaymentsProcessor.Webhooks

open Transition PartialMap Processor Dispatcher Webhooks.Reaper

variable {env : Env} {s s' : State} {a : Action} {r : Nat} {run : Run} {i j jobId : String} {job job' : LiveJob DeliveryJob}

/-! ## The condition -/

/-- The status of the delivery has been written since its count of writes was `basis`. -/
def outdated (s : State) (id : String) (basis : Nat) : Bool := (s.delivery id).any fun row => basis < row.writes

/-- An attempt of the job has been recorded, and it was not the last one. -/
def recorded (s : State) (data : DeliveryJob) : Bool :=
  (s.delivery data.deliveryId).any fun row =>
    data.basis < row.writes && !(row.status.final && data.basis + 1 = row.writes)

/-- `process` goes on, or will. -/
def Pc.going : Pc → Bool
  | .returned | .threw | .gone => false
  | _ => true

/-- The row for which a reaper's add creates a job. -/
def reapCreates (s : State) (k : Nat) (id : String) : Option Stranded :=
  match s.reaps k with
  | some (.adding stuck) =>
    (stuck.find? fun row => row.id = id).filter fun row => (s.queue (reapJobId row)).isNone
  | _ => none

/-- The dispatcher's add comes before the first attempt is recorded, a reaper's before the row it has read is written
again and when no run is past recording a failure; no worker dies past that, and no lock expires past that or while the
run goes on. -/
def KeepsOrder (s : State) : Action → Prop
  | .pollAdd _ id => s.queue id = none → outdated s id 0 = false
  | .reapAdd k id => ∀ row, reapCreates s k id = some row → outdated s row.id row.basis = false ∧
      ∀ r run, s.runs r = some run → run.data.deliveryId = row.id → run.pc ≠ .gone → recorded s run.data = false
  | .crash r => ∀ run, s.runs r = some run → recorded s run.data = false
  | .stall jobId => ∀ job r run, s.queue jobId = some job → job.state = .active r → s.runs r = some run →
      run.pc.going = false ∧ recorded s run.data = false
  | .giveUp jobId => ∀ job r run, s.queue jobId = some job → job.state = .active r → s.runs r = some run →
      run.pc.going = false
  | _ => True

theorem reapCreates_eq_some {k : Nat} {id : String} {row : Stranded} (h : reapCreates s k id = some row) :
    ∃ stuck, s.reaps k = some (.adding stuck) ∧ (stuck.find? fun row => row.id = id) = some row ∧
      s.queue (reapJobId row) = none := by
  unfold reapCreates at h
  split at h
  · rename_i stuck hk
    obtain ⟨hfind, hnone⟩ := Option.filter_eq_some_iff.1 h
    exact ⟨stuck, hk, hfind, Option.isNone_iff_eq_none.1 hnone⟩
  · cases h

/-! ## The order of jobs -/

/-- The run has nothing more to do with its row. -/
def Pc.spent : Pc → Bool
  | .retryAdd _ _ _ _ | .returned | .threw => true
  | _ => false

/-- Where a job stands to its delivery: made from the row as it is, with its run past the row, or the one whose run has
written the final status. -/
inductive Standing (s : State) (i : String) (job : LiveJob DeliveryJob) : Prop
  | current {row : WebhookDelivery} (hrow : s.delivery job.data.deliveryId = some row) (hbasis : job.data.basis = row.writes)
  | closed {row : WebhookDelivery} (hrow : s.delivery job.data.deliveryId = some row)
      (hbasis : job.data.basis + 1 = row.writes) (hfinal : row.status.final = true)
  | spent {r : Nat} {run : Run} (hstate : job.state = .active r) (hr : s.runs r = some run) (hid : run.jobId = i)
      (hdata : run.data = job.data) (hpc : run.pc.spent = true)

/-- A run that has recorded a failure: it was the last to write the row, and there is no job for the next attempt. -/
structure Recording (s : State) (run : Run) (basis : Nat) : Prop where
  row : ∃ row, s.delivery run.data.deliveryId = some row ∧ row.status = .failed ∧ basis = row.writes ∧
    run.data.basis + 1 = row.writes
  last : ∀ i job, s.queue i = some job → job.data.deliveryId = run.data.deliveryId → job.data.basis ≤ run.data.basis

/-- A run holds its job, and what it has read is the row its job was made from. -/
structure RunOrder (s : State) (r : Nat) (run : Run) : Prop where
  holds : run.pc.going = true → ∃ job, s.queue run.jobId = some job ∧ job.state = .active r ∧ job.data = run.data
  reads : ∀ d, run.pc.read = some d → s.delivery run.data.deliveryId = some d ∧ run.data.basis = d.writes
  records : ∀ deliveryId attempts delay basis, run.pc = .retryAdd deliveryId attempts delay basis → Recording s run basis

structure OrderInv (s : State) : Prop where
  standings : All s.queue (Standing s)
  open_ : ∀ i job row, s.queue i = some job → s.delivery job.data.deliveryId = some row → job.data.basis = row.writes →
    row.status.final = false
  same : ∀ i j job job', s.queue i = some job → s.queue j = some job' → job.data.deliveryId = job'.data.deliveryId →
    job.data.basis = job'.data.basis → i = j
  runs : All s.runs (RunOrder s)
  reaps : All s.reaps fun _ reap => ∀ row ∈ reap.stuck, AsOf s row.id row.basis fun d => d.status.final = false

/-! ## Jobs of a row -/

theorem outdated_eq_false {id : String} {basis : Nat} {row : WebhookDelivery} (h : s.delivery id = some row) :
    outdated s id basis = false ↔ row.writes ≤ basis := by
  simp [outdated, h]

theorem recorded_eq_false {data : DeliveryJob} {row : WebhookDelivery} (h : s.delivery data.deliveryId = some row)
    (hrec : recorded s data = false) : row.writes ≤ data.basis ∨ row.status.final = true ∧ data.basis + 1 = row.writes := by
  simp only [recorded, h, Option.any_some, Bool.and_eq_false_iff, decide_eq_false_iff_not, Nat.not_lt, Bool.not_eq_false',
    Bool.and_eq_true, decide_eq_true_eq] at hrec
  exact hrec

/-- A job's row is there, and has been written at least as often as when the job was made. -/
theorem JobInv.row (h : JobInv s i job) : ∃ row, s.delivery job.data.deliveryId = some row ∧ job.data.basis ≤ row.writes := by
  obtain ⟨row, hrow, hle, -⟩ := h
  exact ⟨row, hrow, hle⟩

/-- A job made from the row as it is has the id of the row. -/
theorem JobInv.id_eq {row : WebhookDelivery} (h : JobInv s i job) (hrow : s.delivery job.data.deliveryId = some row)
    (hbasis : job.data.basis = row.writes) : i = jobIdOf row := by
  obtain ⟨row', hrow', -, hfits⟩ := h
  rw [hrow] at hrow'
  cases hrow'
  exact (hfits hbasis).1

/-- A job whose run is not past recording a failure is current, or its run has closed the delivery. -/
theorem Standing.of_recorded (h : JobInv s i job) (hrec : recorded s job.data = false) : Standing s i job := by
  obtain ⟨row, hrow, hle⟩ := h.row
  rcases recorded_eq_false hrow hrec with hcur | ⟨hfinal, hbasis⟩
  · exact .current hrow (Nat.le_antisymm hle hcur)
  · exact .closed hrow hbasis hfinal

/-- What a run past its row needs to stay so. -/
theorem Standing.mono (h : Standing s i job)
    (hdel : ∀ row, s.delivery job.data.deliveryId = some row → s'.delivery job.data.deliveryId = some row)
    (hruns : ∀ r run, job.state = .active r → s.runs r = some run → run.jobId = i → run.pc.spent = true →
      ∃ run', s'.runs r = some run' ∧ run'.jobId = i ∧ run'.data = run.data ∧ run'.pc.spent = true) : Standing s' i job := by
  cases h with
  | current hrow hbasis => exact .current (hdel _ hrow) hbasis
  | closed hrow hbasis hfinal => exact .closed (hdel _ hrow) hbasis hfinal
  | spent hstate hr hid hdata hpc =>
    obtain ⟨run', hr', hid', hdata', hpc'⟩ := hruns _ _ hstate hr hid hpc
    exact .spent hstate hr' hid' (hdata'.trans hdata) hpc'

theorem Recording.mono {basis : Nat} (h : Recording s run basis)
    (hdel : ∀ row, s.delivery run.data.deliveryId = some row → s'.delivery run.data.deliveryId = some row)
    (hqueue : ∀ i job, s'.queue i = some job → job.data.deliveryId = run.data.deliveryId → job.data.basis ≤ run.data.basis) :
    Recording s' run basis := by
  obtain ⟨⟨row, hrow, hrest⟩, -⟩ := h
  exact ⟨⟨row, hdel row hrow, hrest⟩, hqueue⟩

/-- What a run needs to keep its order. -/
theorem RunOrder.mono (h : RunOrder s r run)
    (hdel : ∀ row, s.delivery run.data.deliveryId = some row → s'.delivery run.data.deliveryId = some row)
    (hhold : ∀ job, run.pc.going = true → s.queue run.jobId = some job → job.state = .active r →
      s'.queue run.jobId = some job)
    (hqueue : ∀ deliveryId attempts delay basis, run.pc = .retryAdd deliveryId attempts delay basis →
      ∀ i job, s'.queue i = some job → job.data.deliveryId = run.data.deliveryId → job.data.basis ≤ run.data.basis) :
    RunOrder s' r run where
  holds hgoing := by
    obtain ⟨job, hjob, hstate, hdata⟩ := h.holds hgoing
    exact ⟨job, hhold job hgoing hjob hstate, hstate, hdata⟩
  reads d hd := ⟨hdel d (h.reads d hd).1, (h.reads d hd).2⟩
  records deliveryId attempts delay basis hpc :=
    (h.records deliveryId attempts delay basis hpc).mono hdel (hqueue deliveryId attempts delay basis hpc)

theorem Pc.going_of_read {pc : Pc} {d : WebhookDelivery} (h : pc.read = some d) : pc.going = true := by
  cases pc <;> first | rfl | cases h

/-- A run that does not go on needs nothing. -/
theorem RunOrder.of_over (h : run.pc.going = false) : RunOrder s r run where
  holds hgoing := by rw [h] at hgoing; cases hgoing
  reads d hd := by rw [Pc.going_of_read hd] at h; cases h
  records deliveryId attempts delay basis hpc := by rw [hpc] at h; cases h

/-- Two runs at work on one delivery with jobs made from one state of the row are the same. -/
theorem OrderInv.run_unique (h : OrderInv s) {q : Nat} {other : Run} (hr : s.runs r = some run) (hq : s.runs q = some other)
    (hgoing : run.pc.going = true) (hgoing' : other.pc.going = true) (hid : run.data.deliveryId = other.data.deliveryId)
    (hbasis : run.data.basis = other.data.basis) : r = q := by
  obtain ⟨job, hjob, hstate, hdata⟩ := (h.runs hr).holds hgoing
  obtain ⟨job', hjob', hstate', hdata'⟩ := (h.runs hq).holds hgoing'
  have hsame := h.same _ _ job job' hjob hjob' (by rw [hdata, hdata', hid]) (by rw [hdata, hdata', hbasis])
  rw [hsame, hjob'] at hjob
  cases hjob
  rw [hstate] at hstate'
  cases hstate'
  rfl

/-! ## Steps that leave the jobs and the runs -/

theorem OrderInv.still (h : OrderInv s) (hqueue : s'.queue = s.queue) (hruns : s'.runs = s.runs)
    (hdel : ∀ id, (s.delivery id).isSome = true → s'.delivery id = s.delivery id) (hI : SnapshotInv s)
    (hreaps : All s'.reaps fun _ reap => ∀ row ∈ reap.stuck, AsOf s' row.id row.basis fun d => d.status.final = false) :
    OrderInv s' := by
  have hdel' : ∀ id row, s.delivery id = some row → s'.delivery id = some row := fun id row hrow => by
    rw [hdel id (by rw [hrow]; rfl), hrow]
  refine ⟨fun i job hjob => ?_, fun i job row hjob hrow hbasis => ?_, ?_, fun r run hr => ?_, hreaps⟩
  · rw [hqueue] at hjob
    refine (h.standings hjob).mono (hdel' _) fun r run _ hr hid hpc => ⟨run, ?_, hid, rfl, hpc⟩
    rw [hruns]
    exact hr
  · rw [hqueue] at hjob
    obtain ⟨old, hold, -⟩ := (hI.queue hjob : JobInv s i job).row
    rw [hdel' _ _ hold] at hrow
    cases hrow
    exact h.open_ i job _ hjob hold hbasis
  · rw [hqueue]
    exact h.same
  · rw [hruns] at hr
    refine (h.runs hr).mono (hdel' _) (fun job _ hjob _ => by rw [hqueue]; exact hjob) fun _ _ _ _ hpc i job hjob => ?_
    rw [hqueue] at hjob
    exact ((h.runs hr).records _ _ _ _ hpc).last i job hjob

/-! ## Steps of a run that leave its row -/

/-- After steps that leave the rows, every job has the data of the one before in its place, and every run is new or still
holds what it held. -/
theorem OrderInv.requeue (h : OrderInv s) (hdel : s'.deliveries = s.deliveries)
    (hreaps : All s'.reaps fun _ reap => ∀ row ∈ reap.stuck, AsOf s' row.id row.basis fun d => d.status.final = false)
    (hold : ∀ i job, s'.queue i = some job → ∃ old, s.queue i = some old ∧ old.data = job.data)
    (hstands : All s'.queue (Standing s'))
    (hruns : ∀ r run, s'.runs r = some run → RunOrder s' r run ∨ s.runs r = some run ∧ ∀ job, run.pc.going = true →
      s.queue run.jobId = some job → job.state = .active r → s'.queue run.jobId = some job) : OrderInv s' := by
  have hdel' : ∀ id, s'.delivery id = s.delivery id := fun id => congrArg (fun deliveries => find deliveries id) hdel
  refine ⟨hstands, fun i job row hi hrow hbasis => ?_, fun i j job job' hi hj hid hsame => ?_, fun r run hr => ?_, hreaps⟩
  · obtain ⟨old, hi', hdata⟩ := hold i job hi
    rw [hdel', ← hdata] at hrow
    exact h.open_ i old row hi' hrow (hdata ▸ hbasis)
  · obtain ⟨old, hi', hdata⟩ := hold i job hi
    obtain ⟨old', hj', hdata'⟩ := hold j job' hj
    exact h.same i j old old' hi' hj' (by rw [hdata, hdata', hid]) (by rw [hdata, hdata', hsame])
  · rcases hruns r run hr with hnew | ⟨hr', hhold⟩
    · exact hnew
    · refine (h.runs hr').mono (fun row hrow => by rw [hdel']; exact hrow) hhold fun _ _ _ _ hpc i job hi hid => ?_
      obtain ⟨old, hi', hdata⟩ := hold i job hi
      rw [← hdata] at hid ⊢
      exact ((h.runs hr').records _ _ _ _ hpc).last i old hi' hid

/-- A run moves on to where it keeps its order, with a job that may leave the queue with it. -/
theorem OrderInv.setRun (h : OrderInv s) {new : Run} (hr : s.runs r = some run)
    (hruns : s'.runs = Function.update s.runs r (some new)) (hdel : s'.deliveries = s.deliveries)
    (hreaps : All s'.reaps fun _ reap => ∀ row ∈ reap.stuck, AsOf s' row.id row.basis fun d => d.status.final = false)
    (hqueue : ∀ i job, s'.queue i = some job → s.queue i = some job)
    (hstands : ∀ i job, s'.queue i = some job → job.state = .active r → run.pc.spent = true → run.jobId = i →
      run.data = job.data → Standing s' i job)
    (hkeeps : ∀ i job q, s.queue i = some job → job.state = .active q → q ≠ r → s'.queue i = some job)
    (hnew : RunOrder s' r new) : OrderInv s' := by
  have hdel' : ∀ id, s'.delivery id = s.delivery id := fun id => congrArg (fun deliveries => find deliveries id) hdel
  refine h.requeue hdel hreaps (fun i job hjob => ⟨job, hqueue i job hjob, rfl⟩) (fun i job hjob => ?_) fun q other hq => ?_
  · have hold := hqueue i job hjob
    cases h.standings hold with
    | current hrow hbasis => exact .current (by rw [hdel']; exact hrow) hbasis
    | closed hrow hbasis hfinal => exact .closed (by rw [hdel']; exact hrow) hbasis hfinal
    | @spent q other hstate hq hjobId hrunData hpc =>
      by_cases hqr : q = r
      · subst hqr
        rw [hr] at hq
        cases hq
        exact hstands i job hjob hstate hpc hjobId hrunData
      · exact .spent hstate (by rw [hruns, Function.update_of_ne hqr]; exact hq) hjobId hrunData hpc
  · by_cases hqr : q = r
    · subst hqr
      rw [hruns, Function.update_self] at hq
      cases hq
      exact Or.inl hnew
    · rw [hruns, Function.update_of_ne hqr] at hq
      exact Or.inr ⟨hq, fun job _ hjob hstate => hkeeps _ _ q hjob hstate hqr⟩

/-- A run moves on and leaves the queue. -/
theorem OrderInv.setPc (h : OrderInv s) {pc : Pc} (hr : s.runs r = some run)
    (hruns : s'.runs = Function.update s.runs r (some { run with pc := pc })) (hdel : s'.deliveries = s.deliveries)
    (hreaps : All s'.reaps fun _ reap => ∀ row ∈ reap.stuck, AsOf s' row.id row.basis fun d => d.status.final = false)
    (hqueue : s'.queue = s.queue) (hspent : run.pc.spent = true → pc.spent = true)
    (hnew : RunOrder s' r { run with pc := pc }) : OrderInv s' := by
  refine h.setRun hr hruns hdel hreaps (fun i job hjob => by rwa [hqueue] at hjob) (fun i job _ hstate hpc hid hdata => ?_)
    (fun i job q hjob _ _ => by rwa [hqueue]) hnew
  have hr' : s'.runs r = some { run with pc := pc } := by
    rw [hruns]
    exact Function.update_self ..
  exact .spent hstate hr' hid hdata (hspent hpc)

/-! ## New jobs -/

/-- A job made from the row as it is, with no other such job and no run about to add one. -/
theorem OrderInv.add (h : OrderInv s) (data : DeliveryJob) {row : WebhookDelivery} {state : LiveState}
    (hfree : s.queue jobId = none) (hrow : s.delivery data.deliveryId = some row) (hbasis : data.basis = row.writes)
    (hopen : row.status.final = false)
    (hfresh : ∀ i job, s.queue i = some job → job.data.deliveryId = data.deliveryId → job.data.basis ≠ data.basis)
    (hnone : ∀ r run, s.runs r = some run → run.data.deliveryId = data.deliveryId →
      ∀ deliveryId attempts delay basis, run.pc ≠ .retryAdd deliveryId attempts delay basis)
    (hqueue : s'.queue = s.queue.add jobId data state) (hruns : s'.runs = s.runs) (hdel : s'.deliveries = s.deliveries)
    (hreaps : All s'.reaps fun _ reap => ∀ row ∈ reap.stuck, AsOf s' row.id row.basis fun d => d.status.final = false) :
    OrderInv s' := by
  have hdel' : ∀ id, s'.delivery id = s.delivery id := fun id => congrArg (fun deliveries => find deliveries id) hdel
  have hcases : ∀ i job, s'.queue i = some job → s.queue i = some job ∨ i = jobId ∧ job = ⟨data, state⟩ := by
    intro i job hjob
    rw [hqueue] at hjob
    rcases EvictingQueue.of_add hjob with hold | ⟨-, hi, hnew⟩
    · exact Or.inl hold
    · exact Or.inr ⟨hi, hnew⟩
  have hkeep : ∀ i job, s.queue i = some job → s'.queue i = some job := by
    intro i job hjob
    have hne : i ≠ jobId := by
      rintro rfl
      rw [hfree] at hjob
      cases hjob
    rw [hqueue, (EvictingQueue.add_free data state hfree).2 i hne]
    exact hjob
  refine ⟨fun i job hjob => ?_, fun i job row' hjob hrow' hbasis' => ?_, fun i j job job' hi hj hid hsame => ?_,
    fun r run hr => ?_, hreaps⟩
  · rcases hcases i job hjob with hold | ⟨rfl, rfl⟩
    · refine (h.standings hold).mono (fun row hrow => by rw [hdel']; exact hrow)
        fun r run _ hr hid hpc => ⟨run, ?_, hid, rfl, hpc⟩
      rw [hruns]
      exact hr
    · exact .current (by rw [hdel']; exact hrow) hbasis
  · rw [hdel'] at hrow'
    rcases hcases i job hjob with hold | ⟨rfl, rfl⟩
    · exact h.open_ i job row' hold hrow' hbasis'
    · rw [hrow] at hrow'
      cases hrow'
      exact hopen
  · rcases hcases i job hi with hiold | ⟨rfl, rfl⟩
    · rcases hcases j job' hj with hjold | ⟨rfl, rfl⟩
      · exact h.same i j job job' hiold hjold hid hsame
      · exact absurd hsame (hfresh i job hiold hid)
    · rcases hcases j job' hj with hjold | ⟨rfl, rfl⟩
      · exact absurd hsame.symm (hfresh j job' hjold hid.symm)
      · rfl
  · rw [hruns] at hr
    refine (h.runs hr).mono (fun row hrow => by rw [hdel']; exact hrow) (fun job _ hjob _ => hkeep _ job hjob)
      fun _ _ _ _ hpc i job hjob hid => ?_
    rcases hcases i job hjob with hold | ⟨rfl, rfl⟩
    · exact ((h.runs hr).records _ _ _ _ hpc).last i job hold hid
    · exact absurd hpc (hnone r run hr hid.symm _ _ _ _)

/-- A job under the id of the row is the first made from it, if the id is free. -/
theorem fresh_of_id (hI : SnapshotInv s) {row : WebhookDelivery} {id : String} {basis : Nat}
    (hfree : s.queue (jobIdOf row) = none) (hrow : s.delivery id = some row) (hbasis : basis = row.writes)
    (hjob : s.queue i = some job) (hid : job.data.deliveryId = id) : job.data.basis ≠ basis := by
  intro hsame
  have hi := (hI.queue hjob : JobInv s i job).id_eq (by rw [hid]; exact hrow) (hsame.trans hbasis)
  rw [← hi, hjob] at hfree
  cases hfree

/-! ## The status write -/

/-- The status of one row is written: its writes count on, and the other rows and the jobs are as they were. -/
structure Rewritten (s s' : State) (id : String) (d d' : WebhookDelivery) : Prop where
  before : s.delivery id = some d
  after : s'.delivery id = some d'
  writes : d'.writes = d.writes + 1
  other : ∀ i, i ≠ id → s'.delivery i = s.delivery i
  queue : s'.queue = s.queue

theorem rewritten_of_update {id : String} {d : WebhookDelivery} {w : StatusWrite} (hd : s.delivery id = some d)
    (hdel : s'.deliveries = update s.deliveries id w.set) (hqueue : s'.queue = s.queue) : Rewritten s s' id d (w.set d) := by
  have hset : ∀ i, s'.delivery i = (s.delivery i).map fun e => if i = id then w.set e else e := fun i => by
    unfold State.delivery
    rw [hdel]
    exact find_update w.set_id
  refine ⟨hd, ?_, w.set_writes d, fun i hne => ?_, hqueue⟩
  · rw [hset, hd]
    simp
  · rw [hset]
    simp [hne]

/-- A job was made from the row before the write, or earlier. -/
theorem Rewritten.basis_le {id : String} {d d' : WebhookDelivery} (hw : Rewritten s s' id d d') (hI : SnapshotInv s)
    (hjob : s.queue i = some job) (hid : job.data.deliveryId = id) : job.data.basis ≤ d.writes := by
  obtain ⟨row, hrow, hle⟩ := (hI.queue hjob : JobInv s i job).row
  rw [hid, hw.before] at hrow
  cases hrow
  exact hle

/-- The one job made from the row that a run writes is the run's own, and the run is past its row then. -/
theorem OrderInv.standing_write (h : OrderInv s) {d d' : WebhookDelivery} {pc : Pc}
    (hw : Rewritten s s' run.data.deliveryId d d') (hopen : d.status.final = false) (hr : s.runs r = some run)
    (hgoing : run.pc.going = true) (hnot : run.pc.spent = false) (hmade : run.data.basis = d.writes)
    (hruns : s'.runs = Function.update s.runs r (some { run with pc := pc })) (hspent : pc.spent = true)
    (hjob : s.queue i = some job) : Standing s' i job := by
  -- a run that is past its row is another one
  have hkept : ∀ q other, s.runs q = some other → other.pc.spent = true → s'.runs q = some other := by
    intro q other hq hpast
    have hne : q ≠ r := by
      rintro rfl
      rw [hr] at hq
      cases hq
      rw [hnot] at hpast
      cases hpast
    rw [hruns, Function.update_of_ne hne]
    exact hq
  by_cases hid : job.data.deliveryId = run.data.deliveryId
  · cases h.standings hjob with
    | current hrow hbasis =>
      obtain ⟨own, hown, hownState, hownData⟩ := (h.runs hr).holds hgoing
      rw [hid, hw.before] at hrow
      cases hrow
      have hi := h.same i run.jobId job own hjob hown (by rw [hid, hownData]) (by rw [hbasis, hownData, hmade])
      subst hi
      rw [hjob] at hown
      cases hown
      have hself : s'.runs r = some { run with pc := pc } := by
        rw [hruns]
        exact Function.update_self ..
      exact .spent hownState hself rfl hownData.symm hspent
    | closed hrow _ hfinal =>
      rw [hid, hw.before] at hrow
      cases hrow
      rw [hopen] at hfinal
      cases hfinal
    | spent hstate hq hjobId hdata hpast => exact .spent hstate (hkept _ _ hq hpast) hjobId hdata hpast
  · exact (h.standings hjob).mono (fun row hrow => (hw.other _ hid).trans hrow) fun q other _ hq hjobId hpast =>
      ⟨other, hkept q other hq hpast, hjobId, rfl, hpast⟩

/-- No run but the one that writes is at work on its row. -/
theorem OrderInv.runOrder_write (h : OrderInv s) {d d' : WebhookDelivery} (hw : Rewritten s s' run.data.deliveryId d d')
    (hr : s.runs r = some run) (hgoing : run.pc.going = true) (hmade : run.data.basis = d.writes) {q : Nat} {other : Run}
    (hq : s.runs q = some other) (hqr : q ≠ r) : RunOrder s' q other := by
  obtain ⟨own, hown, -, hownData⟩ := (h.runs hr).holds hgoing
  by_cases hid : other.data.deliveryId = run.data.deliveryId
  · refine ⟨by rw [hw.queue]; exact (h.runs hq).holds, fun e he => ?_, fun deliveryId attempts delay basis hb => ?_⟩
    · obtain ⟨hrow, hmade'⟩ := (h.runs hq).reads e he
      rw [hid, hw.before] at hrow
      cases hrow
      exact absurd (h.run_unique hr hq hgoing (Pc.going_of_read he) hid.symm (hmade.trans hmade'.symm)) (Ne.symm hqr)
    · obtain ⟨⟨row, hrow, -, -, hlast⟩, hjobs⟩ := (h.runs hq).records _ _ _ _ hb
      rw [hid, hw.before] at hrow
      cases hrow
      have hle := hjobs _ own hown (by rw [hownData, hid])
      rw [hownData] at hle
      omega
  · refine (h.runs hq).mono (fun row hrow => (hw.other _ hid).trans hrow) (fun job _ hjob _ => by rw [hw.queue]; exact hjob)
      fun _ _ _ _ hb i job hjob => ?_
    rw [hw.queue] at hjob
    exact ((h.runs hq).records _ _ _ _ hb).last i job hjob

/-- The run that writes is done with its row. -/
theorem OrderInv.write (h : OrderInv s) (hI : SnapshotInv s) {d : WebhookDelivery} {w : StatusWrite} {basis : Nat}
    (hr : s.runs r = some run) (hpc : run.pc = .settling d w)
    (hbasis : basis = ((find (update s.deliveries d.id w.set) d.id).map WebhookDelivery.writes).getD 0)
    (hs : Step env s a s') (hqueue : s'.queue = s.queue)
    (hruns : s'.runs = Function.update s.runs r (some { run with pc := afterWrite d w basis }))
    (hdel : s'.deliveries = update s.deliveries d.id w.set) (hreaps : s'.reaps = s.reaps) : OrderInv s' := by
  have hgoing : run.pc.going = true := by rw [hpc]; rfl
  have hread := (hI.runs hr).read d (by rw [hpc]; rfl)
  obtain ⟨hrow, hmade⟩ := (h.runs hr).reads d (by rw [hpc]; rfl)
  have hw : Rewritten s s' run.data.deliveryId d (w.set d) :=
    rewritten_of_update hrow (by rw [← hread.id]; exact hdel) hqueue
  have hwrites : basis = d.writes + 1 := by
    rw [← hdel] at hbasis
    rw [hbasis, show find s'.deliveries d.id = some (w.set d) from hread.id ▸ hw.after]
    exact hw.writes
  have hdone : (afterWrite d w basis).spent = true := by cases w <;> rfl
  refine ⟨fun i job hjob => ?_, fun i job row hjob hrow' hbasis' => ?_, by rw [hqueue]; exact h.same, fun q other hq => ?_, ?_⟩
  · rw [hqueue] at hjob
    exact h.standing_write hw hread.open_ hr hgoing (by rw [hpc]; rfl) hmade hruns hdone hjob
  · rw [hqueue] at hjob
    by_cases hid : job.data.deliveryId = run.data.deliveryId
    · have hle := hw.basis_le hI hjob hid
      rw [hid, hw.after] at hrow'
      cases hrow'
      rw [hw.writes] at hbasis'
      omega
    · rw [hw.other _ hid] at hrow'
      exact h.open_ i job row hjob hrow' hbasis'
  · by_cases hqr : q = r
    · subst hqr
      rw [hruns, Function.update_self] at hq
      cases hq
      refine ⟨fun _ => by rw [hqueue]; exact (h.runs hr).holds hgoing, fun e he => ?_, fun deliveryId attempts delay b hb => ?_⟩
      · cases w <;> cases he
      · cases w with
        | delivered => cases hb
        | dead => cases hb
        | failed e next n err =>
          cases hb
          refine ⟨⟨_, hw.after, rfl, hwrites, congrArg (· + 1) hmade⟩, fun i job hjob hid => ?_⟩
          rw [hqueue] at hjob
          exact (hw.basis_le hI hjob hid).trans (Nat.le_of_eq hmade.symm)
    · rw [hruns, Function.update_of_ne hqr] at hq
      exact h.runOrder_write hw hr hgoing hmade hq hqr
  · rw [hreaps]
    exact h.reaps.mono fun _ _ hreap row hrow' => (hreap row hrow').step hs

/-! ## Steps of a run -/

/-- A job that a run takes is current, unless its delivery is closed. -/
theorem OrderInv.load (h : OrderInv s) (hr : s.runs r = some run) (hpc : run.pc = .start) {d : WebhookDelivery}
    (hd : s.delivery run.data.deliveryId = some d) (hopen : d.status.final = false) : run.data.basis = d.writes := by
  obtain ⟨job, hjob, hstate, hdata⟩ := (h.runs hr).holds (by rw [hpc]; rfl)
  cases h.standings hjob with
  | current hrow hbasis =>
    rw [hdata, hd] at hrow
    cases hrow
    rw [← hdata]
    exact hbasis
  | closed hrow _ hfinal =>
    rw [hdata, hd] at hrow
    cases hrow
    rw [hopen] at hfinal
    cases hfinal
  | spent hstate' hr' _ _ hspent =>
    rw [hstate] at hstate'
    cases hstate'
    rw [hr] at hr'
    cases hr'
    rw [hpc] at hspent
    cases hspent

theorem OrderInv.walk (h : OrderInv s) {pc : Pc} (hr : s.runs r = some run) (hwalk : Walk env s r run a pc) :
    OrderInv (s.setPc r run pc) := by
  have hown := h.runs hr
  cases hwalk with
  | loadNone hpc => exact h.setPc hr rfl rfl h.reaps rfl (fun _ => rfl) (.of_over rfl)
  | loadFinal hpc => exact h.setPc hr rfl rfl h.reaps rfl (fun _ => rfl) (.of_over rfl)
  | load hpc hd hopen =>
    refine h.setPc hr rfl rfl h.reaps rfl (fun hspent => by rw [hpc] at hspent; cases hspent) ?_
    refine ⟨fun _ => hown.holds (by rw [hpc]; rfl), fun e he => ?_, fun _ _ _ _ hb => by cases hb⟩
    cases he
    exact ⟨hd, h.load hr hpc hd hopen⟩
  | postThrows hpc => exact h.setPc hr rfl rfl h.reaps rfl (fun _ => rfl) (.of_over rfl)
  | receive hpc =>
    refine h.setPc hr rfl rfl h.reaps rfl (fun hspent => by rw [hpc] at hspent; cases hspent) ?_
    refine ⟨fun _ => hown.holds (by rw [hpc]; rfl), fun e he => ?_, fun _ _ _ _ hb => by cases hb⟩
    cases he
    exact hown.reads _ (by rw [hpc]; rfl)
  | fail hpc => exact h.setPc hr rfl rfl h.reaps rfl (fun _ => rfl) (.of_over rfl)

/-- The run leaves its row, and the job of the next attempt is there. -/
theorem OrderInv.retryAdd (h : OrderInv s) {deliveryId : String} {attempts delay basis : Nat}
    (hr : s.runs r = some run) (hpc : run.pc = .retryAdd deliveryId attempts delay basis) (hid : deliveryId = run.data.deliveryId)
    (hruns : s'.runs = Function.update s.runs r (some { run with pc := .returned })) (hdel : s'.deliveries = s.deliveries)
    (hreaps : All s'.reaps fun _ reap => ∀ row ∈ reap.stuck, AsOf s' row.id row.basis fun d => d.status.final = false)
    (hqueue : s'.queue = s.queue.add (retryJobId deliveryId attempts) ⟨deliveryId, basis⟩ (.delayed (s.now + delay))) :
    OrderInv s' := by
  have hmoved : OrderInv (s.setPc r run .returned) := h.setPc hr rfl rfl h.reaps rfl (fun _ => rfl) (.of_over rfl)
  cases hfree : s.queue (retryJobId deliveryId attempts) with
  | some old =>
    rw [EvictingQueue.add_present hfree] at hqueue
    exact h.setPc hr hruns hdel hreaps hqueue (fun _ => rfl) (.of_over rfl)
  | none =>
    obtain ⟨⟨row, hrow, hstatus, hbasis, hlast⟩, hjobs⟩ := (h.runs hr).records _ _ _ _ hpc
    subst hid
    refine hmoved.add ⟨run.data.deliveryId, basis⟩ hfree hrow hbasis (by rw [hstatus]; rfl) (fun i job hjob hid => ?_)
      (fun q other hq hid _ _ _ _ hb => ?_) hqueue hruns hdel hreaps
    · have hle := hjobs i job hjob hid
      dsimp only
      omega
    · -- the run that recorded the failure is the only one to add the job
      by_cases hqr : q = r
      · subst hqr
        rw [show (s.setPc q run .returned).runs q = some { run with pc := .returned } from Function.update_self ..] at hq
        cases hq
        cases hb
      · have hq' : s.runs q = some other := (Function.update_of_ne hqr ..).symm.trans hq
        obtain ⟨⟨row', hrow', -, -, hlast'⟩, -⟩ := (h.runs hq').records _ _ _ _ hb
        rw [show other.data.deliveryId = run.data.deliveryId from hid, hrow] at hrow'
        cases hrow'
        have hsame := h.run_unique hr hq' (by rw [hpc]; rfl) (by rw [hb]; rfl) (Eq.symm hid) (by omega)
        exact hqr hsame.symm

/-- A run takes a job that no run holds. -/
theorem OrderInv.dequeue (h : OrderInv s) {taken : LiveJob DeliveryJob} (hr : s.runs r = none) (hjob : s.queue jobId = some taken)
    (hready : taken.state.ready s.now = true)
    (hqueue : s'.queue = s.queue.setState jobId (.active r))
    (hruns : s'.runs = Function.update s.runs r (some ⟨jobId, taken.data, .start⟩)) (hdel : s'.deliveries = s.deliveries)
    (hreaps : All s'.reaps fun _ reap => ∀ row ∈ reap.stuck, AsOf s' row.id row.basis fun d => d.status.final = false) :
    OrderInv s' := by
  have hdel' : ∀ id, s'.delivery id = s.delivery id := fun id => congrArg (fun deliveries => find deliveries id) hdel
  have hother : ∀ q, q ≠ r → s'.runs q = s.runs q := fun q hne => by rw [hruns]; exact Function.update_of_ne hne ..
  have hne : ∀ {q : Nat} {other : Run}, s.runs q = some other → q ≠ r := by
    rintro q other hq rfl
    rw [hr] at hq
    cases hq
  have hidle : ∀ q, taken.state ≠ .active q := by
    intro q hactive
    rw [hactive] at hready
    cases hready
  have htaken : s'.queue jobId = some { taken with state := .active r } := by
    rw [hqueue, EvictingQueue.setState_some hjob]
    exact Function.update_self ..
  have hrest : ∀ i, i ≠ jobId → s'.queue i = s.queue i := fun i hi => by
    rw [hqueue, EvictingQueue.setState_some hjob]
    exact Function.update_of_ne hi ..
  -- every job is as it was, the taken one in the hands of the run
  have hold : ∀ i job, s'.queue i = some job → ∃ old, s.queue i = some old ∧ old.data = job.data := by
    intro i job hi
    by_cases hij : i = jobId
    · subst hij
      rw [htaken] at hi
      cases hi
      exact ⟨taken, hjob, rfl⟩
    · rw [hrest i hij] at hi
      exact ⟨job, hi, rfl⟩
  refine h.requeue hdel hreaps hold (fun i job hi => ?_) fun q other hq => ?_
  · by_cases hij : i = jobId
    · subst hij
      rw [htaken] at hi
      cases hi
      cases h.standings hjob with
      | current hrow hbasis => exact .current (by rw [hdel']; exact hrow) hbasis
      | closed hrow hbasis hfinal => exact .closed (by rw [hdel']; exact hrow) hbasis hfinal
      | spent hstate => exact absurd hstate (hidle _)
    · rw [hrest i hij] at hi
      refine (h.standings hi).mono (fun row hrow => by rw [hdel']; exact hrow) fun q other _ hq hid hspent => ?_
      exact ⟨other, (hother q (hne hq)).trans hq, hid, rfl, hspent⟩
  · by_cases hqr : q = r
    · subst hqr
      rw [hruns, Function.update_self] at hq
      cases hq
      exact Or.inl ⟨fun _ => ⟨_, htaken, rfl, rfl⟩, fun e he => by simp [Pc.read] at he, fun _ _ _ _ hb => by simp at hb⟩
    · rw [hother q hqr] at hq
      refine Or.inr ⟨hq, fun job _ hi hactive => ?_⟩
      have hij : other.jobId ≠ jobId := by
        rintro hij
        rw [hij, hjob] at hi
        cases hi
        exact hidle q hactive
      rw [hrest _ hij]
      exact hi

/-- A job that no run at work holds is given back, or evicted. -/
theorem OrderInv.release (h : OrderInv s) (hjob : s.queue jobId = some job) (hactive : job.state = .active r)
    (hidle : ∀ run, s.runs r = some run → run.pc.going = false)
    (hmoved : ∀ job', s'.queue jobId = some job' → job'.data = job.data ∧ Standing s' jobId job')
    (hrest : ∀ i, i ≠ jobId → s'.queue i = s.queue i) (hruns : s'.runs = s.runs) (hdel : s'.deliveries = s.deliveries)
    (hreaps : All s'.reaps fun _ reap => ∀ row ∈ reap.stuck, AsOf s' row.id row.basis fun d => d.status.final = false) :
    OrderInv s' := by
  have hdel' : ∀ id, s'.delivery id = s.delivery id := fun id => congrArg (fun deliveries => find deliveries id) hdel
  have hold : ∀ i job', s'.queue i = some job' → ∃ old, s.queue i = some old ∧ old.data = job'.data := by
    intro i job' hi
    by_cases hij : i = jobId
    · subst hij
      exact ⟨job, hjob, (hmoved job' hi).1.symm⟩
    · rw [hrest i hij] at hi
      exact ⟨job', hi, rfl⟩
  refine h.requeue hdel hreaps hold (fun i job' hi => ?_) fun q other hq => ?_
  · by_cases hij : i = jobId
    · subst hij
      exact (hmoved job' hi).2
    · rw [hrest i hij] at hi
      refine (h.standings hi).mono (fun row hrow => by rw [hdel']; exact hrow) fun q other _ hq hid hspent => ?_
      exact ⟨other, by rw [hruns]; exact hq, hid, rfl, hspent⟩
  · rw [hruns] at hq
    refine Or.inr ⟨hq, fun held hgoing hi hheld => ?_⟩
    have hij : other.jobId ≠ jobId := by
      intro hij
      rw [hij, hjob] at hi
      cases hi
      rw [hactive] at hheld
      cases hheld
      rw [hidle other hq] at hgoing
      cases hgoing
    rw [hrest _ hij]
    exact hi

/-! ## The order over a run -/

theorem OrderInv.step (h : OrderInv s) (hI : SnapshotInv s) (hC : KeepsOrder s a) (hs : Step env s a s') : OrderInv s' := by
  have hreaps : All s.reaps fun _ reap => ∀ row ∈ reap.stuck, AsOf s' row.id row.basis fun d => d.status.final = false :=
    h.reaps.mono fun _ _ hreap row hrow => (hreap row hrow).step hs
  have hstep := hs
  cases hs with
  | tick | emit | insertEndpoint | deactivate | pollBegin | pollNone | pollSelect | pollEndpoints | pollEnd =>
    exact h.still rfl rfl (fun _ _ => rfl) hI hreaps
  | pollCommit k poll rows =>
    refine h.still rfl rfl (fun id hid => ?_) hI hreaps
    obtain ⟨row, hrow⟩ := Option.isSome_iff_exists.1 hid
    exact (find_append hrow).trans hrow.symm
  | pollAdd k id poll left hk hpc hid =>
    cases hfree : s.queue id with
    | some old => exact h.still (EvictingQueue.add_present hfree) rfl (fun _ _ => rfl) hI hreaps
    | none =>
      obtain ⟨row, hrow⟩ := Option.isSome_iff_exists.1 (hI.polls hk id (by rw [hpc]; exact hid))
      have hzero : row.writes = 0 := Nat.le_zero.1 ((outdated_eq_false hrow).1 (hC hfree))
      obtain ⟨hattempts, hstatus⟩ := hI.fresh id row hrow hzero
      have hjobId : jobIdOf row = id := by
        unfold jobIdOf
        rw [if_pos hattempts]
        exact find_id hrow
      refine h.add ⟨id, 0⟩ hfree hrow hzero.symm (by rw [hstatus]; rfl)
        (fun i job hjob hsame => ?_) (fun r run hr hsame _ _ _ _ hb => ?_) rfl rfl rfl hreaps
      · exact fresh_of_id hI (by rw [hjobId]; exact hfree) hrow hzero.symm hjob hsame
      · obtain ⟨⟨row', hrow', -, -, hlast⟩, -⟩ := (h.runs hr).records _ _ _ _ hb
        rw [show run.data.deliveryId = id from hsame, hrow] at hrow'
        cases hrow'
        omega
  | reapSelect k ids stuck hk hstuck =>
    refine h.still rfl rfl (fun _ _ => rfl) hI (hreaps.but.set fun row hrow => ?_)
    obtain ⟨id, -, hselected⟩ := hstuck row hrow
    obtain ⟨d, hd, rfl, hopen, -⟩ := strandedRow_eq_some hselected
    rw [show (⟨d.id, d.status, d.attempts, d.writes⟩ : Stranded).id = id from find_id hd]
    exact AsOf.step (AsOf.of_row hd hopen) hstep
  | reapCommit k stuck hk =>
    exact h.still rfl rfl (fun _ _ => rfl) hI (hreaps.but.set fun row hrow => hreaps hk row hrow)
  | reapAdd k id stuck row hk hfind =>
    have hmem := List.mem_of_find?_eq_some hfind
    have hleft : All (Function.update s.reaps k (some (.adding (stuck.filter fun row => row.id ≠ id)))) fun _ reap =>
        ∀ row ∈ reap.stuck, AsOf _ row.id row.basis fun d => d.status.final = false :=
      hreaps.but.set fun row hrow => hreaps hk row (List.mem_filter.1 hrow).1
    cases hfree : s.queue (reapJobId row) with
    | some old => exact h.still (EvictingQueue.add_present hfree) rfl (fun _ _ => rfl) hI hleft
    | none =>
      have hcreates : reapCreates s k id = some row := by simp [reapCreates, hk, hfind, hfree]
      obtain ⟨hcur, hruns⟩ := hC row hcreates
      obtain ⟨d, hd, hle, hopen⟩ := h.reaps hk row hmem
      have hbasis : row.basis = d.writes := Nat.le_antisymm hle ((outdated_eq_false hd).1 hcur)
      obtain ⟨d', hd', -, hfits⟩ := hI.reaps hk row hmem
      rw [hd] at hd'
      cases hd'
      have hjobId : reapJobId row = jobIdOf d := (hfits hbasis).1
      refine h.add ⟨row.id, row.basis⟩ hfree hd hbasis (hopen hbasis)
        (fun i job hjob hsame => ?_) (fun r run hr hsame _ _ _ _ hb => ?_) rfl rfl rfl hleft
      · exact fresh_of_id hI (by rw [← hjobId]; exact hfree) hd hbasis hjob hsame
      · obtain ⟨⟨row', hrow', hstatus, -, hlast⟩, -⟩ := (h.runs hr).records _ _ _ _ hb
        rcases recorded_eq_false hrow' (hruns r run hr hsame (by rw [hb]; simp)) with hle | ⟨hfinal, -⟩
        · omega
        · rw [hstatus] at hfinal
          cases hfinal
  | reapEnd k => exact h.still rfl rfl (fun _ _ => rfl) hI hreaps.but.erase
  | dequeue r jobId taken hr hjob hready =>
    exact h.dequeue hr hjob hready rfl rfl rfl hreaps
  | walk r run a pc hr hwalk => exact h.walk hr hwalk
  | post r run d endpoint hr hpc =>
    refine h.setPc hr rfl rfl hreaps rfl (fun hspent => by rw [hpc] at hspent; cases hspent) ?_
    refine ⟨fun _ => (h.runs hr).holds (by rw [hpc]; rfl), fun e he => ?_, fun _ _ _ _ hb => by cases hb⟩
    cases he
    exact (h.runs hr).reads _ (by rw [hpc]; rfl)
  | write r run d w basis hr hpc hbasis => exact h.write hI hr hpc hbasis hstep rfl rfl rfl rfl
  | retryAdd r run deliveryId attempts delay basis hr hpc =>
    exact h.retryAdd hr hpc ((hI.runs hr).recorded deliveryId attempts delay basis hpc).1 rfl rfl hreaps rfl
  | finish r run hr hover =>
    refine h.setRun hr rfl rfl hreaps (fun i job hi => (EvictingQueue.of_finish hi).1) (fun i job hi hstate _ hid _ => ?_)
      (fun i job q hi hstate hne => ?_) (.of_over rfl)
    · exact absurd hstate ((EvictingQueue.of_finish hi).2 hid.symm)
    · exact EvictingQueue.finish_keeps hi fun _ hactive => by
        rw [hstate] at hactive
        cases hactive
        exact hne rfl
  | crash r run hr =>
    refine h.setRun hr rfl rfl hreaps (fun i job hi => hi) (fun i job hi hstate _ hid hdata => ?_) (fun i job q hi _ _ => hi)
      (.of_over rfl)
    have hrec := hC run hr
    rw [hdata] at hrec
    refine Standing.of_recorded ?_ ?_
    · exact hI.queue hi
    · exact hrec
  | stall jobId r job hjob hactive =>
    have hstands : ∀ job', job'.data = job.data → Standing { s with queue := s.queue.setState jobId .waiting } jobId job' := by
      intro job' hdata
      cases h.standings hjob with
      | current hrow hbasis => exact .current (hdata ▸ hrow) (hdata ▸ hbasis)
      | closed hrow hbasis hfinal => exact .closed (hdata ▸ hrow) (hdata ▸ hbasis) hfinal
      | @spent q run hstate hr _ hrunData hspent =>
        -- a job past its row is put back only if it is current, or its delivery closed
        rw [hactive] at hstate
        cases hstate
        have hrec := (hC job r run hjob hactive hr).2
        rw [hrunData, ← hdata] at hrec
        obtain ⟨row, hrow, hle⟩ := (hI.queue hjob : JobInv s jobId job).row
        rw [← hdata] at hrow hle
        rcases recorded_eq_false hrow hrec with hcur | ⟨hfinal, hbasis⟩
        · exact .current hrow (Nat.le_antisymm hle hcur)
        · exact .closed hrow hbasis hfinal
    have hqueue : s.queue.setState jobId .waiting = Function.update s.queue jobId (some { job with state := .waiting }) :=
      EvictingQueue.setState_some hjob
    refine h.release hjob hactive (fun run hr => (hC job r run hjob hactive hr).1) (fun job' hi => ?_) (fun i hi => ?_)
      rfl rfl hreaps
    · have hsome := (congrFun hqueue jobId).symm.trans hi
      rw [Function.update_self] at hsome
      cases hsome
      exact ⟨rfl, hstands _ rfl⟩
    · exact (congrFun hqueue i).trans (Function.update_of_ne hi ..)
  | giveUp jobId r job hjob hactive =>
    refine h.release hjob hactive (fun run hr => hC job r run hjob hactive hr) (fun job' hi => ?_) (fun i hi => ?_)
      rfl rfl hreaps
    · obtain ⟨hold, hfree⟩ := EvictingQueue.of_finish hi
      rw [hjob] at hold
      cases hold
      exact absurd hactive (hfree rfl)
    · exact EvictingQueue.finish_of_ne hi

theorem orderInv (h : Reach (system env) KeepsOrder s) : OrderInv s := by
  refine h.invariant (I := OrderInv) ⟨all_empty, ?_, ?_, all_empty, all_empty⟩ fun _ _ _ hr hI hC hs =>
    hI.step (snapshotInv hr) hC (step_sound hs)
  · intro i job row hi
    cases hi
  · intro i j job job' hi
    cases hi

/-! ## Steps that keep the order whatever the runs do -/

/-- The step gives no job back, and a dispatcher's add comes before the first attempt is recorded. -/
def orderly (s : State) : Action → Bool
  | .pollAdd _ id => !outdated s id 0
  | .reapAdd _ _ | .crash _ | .stall _ | .giveUp _ => false
  | _ => true

theorem keepsOrder_of_orderly (h : orderly s a = true) : KeepsOrder s a := by
  cases a with
  | pollAdd k id => exact fun _ => by simpa [orderly] using h
  | reapAdd | crash | stall | giveUp => cases h
  | _ => trivial

end PaymentsProcessor.Webhooks
