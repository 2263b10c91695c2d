/-
The webhooks queue, whose jobs carry data of any type: with `removeOnComplete` and `removeOnFail` a finished job
is gone, and its id is free again. An add of an id that exists is ignored, a job has one attempt.
-/
import PaymentsProcessor.Base.PartialMap

namespace PaymentsProcessor

/-- Where a job that is not finished is; an active one is held by the run with the given number. -/
inductive LiveState
  | waiting
  | delayed (readyAt : Nat)
  | active (run : Nat)
  deriving DecidableEq

structure LiveJob (δ : Type) where
  data : δ
  state : LiveState
  deriving DecidableEq

/-- The jobs by id. -/
abbrev EvictingQueue (δ : Type) := String → Option (LiveJob δ)

/-- The job may be taken at time `now`. -/
def LiveState.ready (now : Nat) : LiveState → Bool
  | .waiting => true
  | .delayed readyAt => readyAt ≤ now
  | .active _ => false

/-- The time from which the job may be taken, given the time now. -/
def LiveState.due (now : Nat) : LiveState → Nat
  | .delayed readyAt => readyAt
  | .waiting | .active _ => now

theorem LiveState.due_of_ready {now : Nat} {state : LiveState} (h : state.ready now = true) : state.due now ≤ now := by
  cases state with
  | delayed readyAt => exact of_decide_eq_true h
  | waiting => exact Nat.le_refl _
  | active run => cases h

theorem LiveState.due_mono {now now' : Nat} (h : now ≤ now') (state : LiveState) : state.due now ≤ state.due now' := by
  cases state with
  | delayed readyAt => exact Nat.le_refl _
  | waiting => exact h
  | active run => exact h

namespace EvictingQueue

open PartialMap

variable {δ : Type}

/-- `queue.add(…, data, { jobId, … })`. -/
def add (q : EvictingQueue δ) (jobId : String) (data : δ) (state : LiveState) : EvictingQueue δ :=
  if (q jobId).isSome then q else Function.update q jobId (some ⟨data, state⟩)

/-- Move a job to another state. -/
def setState (q : EvictingQueue δ) (jobId : String) (state : LiveState) : EvictingQueue δ :=
  Function.update q jobId ((q jobId).map fun job => { job with state := state })

/-- Run `r` ends and its job with it; the queue ignores a run that no longer holds the job. -/
def finish (q : EvictingQueue δ) (jobId : String) (r : Nat) : EvictingQueue δ :=
  if (q jobId).map LiveJob.state = some (.active r) then Function.update q jobId none else q

variable {q : EvictingQueue δ} {P : String → LiveJob δ → Prop} {jobId i : String} {data : δ} {state : LiveState} {r : Nat}

theorem add_absent (h : q jobId = none) : q.add jobId data state = Function.update q jobId (some ⟨data, state⟩) := by
  simp [add, h]

theorem add_present {job : LiveJob δ} (h : q jobId = some job) : q.add jobId data state = q := by
  simp [add, h]

/-- An add under a free id: the job is there, and the others are as they were. -/
theorem add_free (data : δ) (state : LiveState) (h : q jobId = none) :
    q.add jobId data state jobId = some ⟨data, state⟩ ∧ ∀ j, j ≠ jobId → q.add jobId data state j = q j := by
  rw [add_absent h]
  exact ⟨Function.update_self .., fun j hj => Function.update_of_ne hj ..⟩

/-- An add leaves the jobs there are, and adds the job if its id is free. -/
theorem of_add {job : LiveJob δ} (h : q.add jobId data state i = some job) :
    q i = some job ∨ q jobId = none ∧ i = jobId ∧ job = ⟨data, state⟩ := by
  cases hq : q jobId with
  | some old =>
    rw [add_present hq] at h
    exact Or.inl h
  | none =>
    obtain ⟨hself, hother⟩ := add_free data state hq
    by_cases hi : i = jobId
    · subst hi
      rw [hself] at h
      cases h
      exact Or.inr ⟨rfl, rfl, rfl⟩
    · rw [hother i hi] at h
      exact Or.inl h

/-- What is true of every job is true after an add of such a job. -/
theorem all_add (h : All q P) (hnew : P jobId ⟨data, state⟩) : All (q.add jobId data state) P := by
  cases hq : q jobId with
  | none => rw [add_absent hq]; exact h.but.set hnew
  | some job => rw [add_present hq]; exact h

/-- What is true of every job is true after one of them is moved, if it is true of the moved one. -/
theorem all_setState (h : All q P) (hmoved : ∀ job, q jobId = some job → P jobId { job with state := state }) :
    All (q.setState jobId state) P := by
  unfold setState
  cases hq : q jobId with
  | none => exact h.but.erase
  | some job => exact h.but.set (hmoved job hq)

theorem all_finish (h : All q P) : All (q.finish jobId r) P := by
  unfold finish
  split
  · exact h.but.erase
  · exact h

theorem setState_some {job : LiveJob δ} (h : q jobId = some job) :
    q.setState jobId state = Function.update q jobId (some { job with state := state }) := by
  simp [setState, h]

/-- A job that is taken and then finished is gone, and the others are as they were. -/
theorem finish_taken {job : LiveJob δ} (h : q jobId = some job) (i : String) :
    (q.setState jobId (.active r)).finish jobId r i = if i = jobId then none else q i := by
  unfold finish
  rw [setState_some h, Function.update_self, Option.map_some, if_pos rfl, Function.update_idem, Function.update_apply]

/-- The same with a job added meanwhile. -/
theorem finish_added {job : LiveJob δ} {id : String} (h : q jobId = some job) (hid : q id = none) (i : String) :
    ((q.setState jobId (.active r)).add id data state).finish jobId r i =
      if i = jobId then none else if i = id then some ⟨data, state⟩ else q i := by
  have hne : jobId ≠ id := by
    rintro rfl
    rw [hid] at h
    cases h
  have hfree : q.setState jobId (.active r) id = none := by
    rw [setState_some h, Function.update_of_ne (Ne.symm hne), hid]
  have hheld : q.setState jobId (.active r) jobId = some { job with state := .active r } := by
    rw [setState_some h, Function.update_self]
  obtain ⟨hself, hother⟩ := add_free data state hfree
  unfold finish
  rw [hother jobId hne, hheld, Option.map_some, if_pos rfl, Function.update_apply]
  split
  · rfl
  · rename_i hi
    split
    · rename_i hid'
      rw [hid', hself]
    · rename_i hid'
      rw [hother i hid', setState_some h, Function.update_of_ne hi]

/-- A job stays that the run that ends does not hold under its own id. -/
theorem finish_keeps {job : LiveJob δ} (h : q i = some job) (hfree : i = jobId → job.state ≠ .active r) :
    q.finish jobId r i = some job := by
  unfold finish
  split
  · rename_i hheld
    have hne : i ≠ jobId := by
      rintro rfl
      rw [h, Option.map_some, Option.some.injEq] at hheld
      exact hfree rfl hheld
    rw [Function.update_of_ne hne]
    exact h
  · exact h

theorem finish_of_ne (h : i ≠ jobId) : q.finish jobId r i = q i := by
  unfold finish
  split
  · exact Function.update_of_ne h ..
  · rfl

/-- The jobs after a run has ended were there before, and none of them is held by it under its own id. -/
theorem of_finish {job : LiveJob δ} (h : q.finish jobId r i = some job) :
    q i = some job ∧ (i = jobId → job.state ≠ .active r) := by
  unfold finish at h
  split at h
  · have hne : i ≠ jobId := by
      rintro rfl
      rw [Function.update_self] at h
      cases h
    rw [Function.update_of_ne hne] at h
    exact ⟨h, fun hi => absurd hi hne⟩
  · rename_i hfree
    refine ⟨h, ?_⟩
    rintro rfl hstate
    exact hfree (by rw [h, Option.map_some, hstate])

end EvictingQueue

end PaymentsProcessor
