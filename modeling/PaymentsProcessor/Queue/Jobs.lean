/-
The payments queue with BullMQ's default job options: jobs are found by their id, an add of an id
that exists is ignored, finished jobs are kept, a job has one attempt.
-/
import PaymentsProcessor.Base.PartialMap
import PaymentsProcessor.Database.Schema

namespace PaymentsProcessor

/-- Where a job is; an active job is held by the run with the given number. -/
inductive JobState
  | waiting
  | delayed (readyAt : Nat)
  | active (run : Nat)
  | completed
  | failed
  deriving DecidableEq

/-- The job will still be run, or is running. -/
def JobState.live : JobState → Bool
  | .waiting | .delayed _ | .active _ => true
  | .completed | .failed => false

structure Job where
  name : String
  data : JobData
  state : JobState
  deriving DecidableEq

/-- The jobs by id. -/
abbrev Queue := String → Option Job

namespace Queue

/-- `queue.add(name, data, { jobId, … })`. -/
def add (q : Queue) (jobId name : String) (data : JobData) (state : JobState) : Queue :=
  if (q jobId).isSome then q else Function.update q jobId (some ⟨name, data, state⟩)

/-- Move a job to another state. -/
def setState (q : Queue) (jobId : String) (state : JobState) : Queue :=
  Function.update q jobId ((q jobId).map fun job => { job with state := state })

/-- An add changes nothing but an absent id. -/
theorem add_apply (q : Queue) (jobId name : String) (data : JobData) (state : JobState) (i : String) :
    q.add jobId name data state i =
      if i = jobId ∧ q jobId = none then some ⟨name, data, state⟩ else q i := by
  unfold add
  by_cases hi : i = jobId
  · subst hi
    cases hq : q i <;> simp [hq]
  · cases hq : q jobId <;> simp [hi]

theorem setState_apply (q : Queue) (jobId : String) (state : JobState) (i : String) :
    q.setState jobId state i =
      if i = jobId then (q i).map fun job => { job with state := state } else q i := by
  unfold setState
  by_cases hi : i = jobId
  · subst hi; simp
  · simp [hi]

theorem add_persists {q : Queue} {jobId : String} {job : Job} (h : q jobId = some job) (jobId' name : String)
    (data : JobData) (state : JobState) : q.add jobId' name data state jobId = some job := by
  rw [add_apply, if_neg]
  · exact h
  · rintro ⟨rfl, hnone⟩
    rw [hnone] at h
    cases h

theorem setState_persists {q : Queue} {jobId : String} {job : Job} (h : q jobId = some job) (jobId' : String)
    (state : JobState) : ∃ job', q.setState jobId' state jobId = some job' ∧ job'.data = job.data := by
  rw [setState_apply, h]
  split
  · exact ⟨_, rfl, rfl⟩
  · exact ⟨_, rfl, rfl⟩

/-- An added job is in the queue. -/
theorem add_isSome (q : Queue) (jobId name : String) (data : JobData) (state : JobState) :
    (q.add jobId name data state jobId).isSome = true := by
  rw [add_apply]
  cases hq : q jobId with
  | none => simp
  | some job => simp

open PartialMap in
/-- What is true of every job is true after an add of such a job. -/
theorem all_add {q : Queue} {P : String → Job → Prop} {jobId name : String} {data : JobData} {state : JobState}
    (h : All q P) (hnew : P jobId ⟨name, data, state⟩) : All (q.add jobId name data state) P := by
  intro i job hjob
  rw [add_apply] at hjob
  split at hjob
  · rename_i hi
    cases hjob
    rw [hi.1]
    exact hnew
  · exact h hjob

open PartialMap in
/-- What is true of every job is true after one of them is moved, if it is true of the moved one. -/
theorem all_setState {q : Queue} {P : String → Job → Prop} {jobId : String} {state : JobState} (h : All q P)
    (hmoved : ∀ job, q jobId = some job → P jobId { job with state := state }) : All (q.setState jobId state) P := by
  intro i job hjob
  rw [setState_apply] at hjob
  split at hjob
  · rename_i hi
    subst hi
    obtain ⟨old, hold, rfl⟩ := Option.map_eq_some_iff.1 hjob
    exact hmoved old hold
  · exact h hjob

end Queue

end PaymentsProcessor
