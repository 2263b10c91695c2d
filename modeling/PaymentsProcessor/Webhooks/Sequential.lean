/-
The deliveries whose runs do not overlap: a job of the delivery is taken only when no run of it is in progress. Runs may
still fail or die at any point, jobs may be put back, given up or made again by the reaper. The row a run goes by is
then the row as it is, so every recorded result counts on from the count that is there.
-/
import PaymentsProcessor.Webhooks.Attempts

namespace PaymentsProcessor

/-- What a status says of the count of attempts. -/
def WebhookDelivery.AttemptsFit (max : Nat) (d : WebhookDelivery) : Prop :=
  match d.status with
  | .pending => d.attempts = 0
  | .failed => 1 ≤ d.attempts ∧ d.attempts < max
  | .dead => d.attempts = max
  | .delivered => 1 ≤ d.attempts ∧ d.attempts ≤ max

namespace Webhooks

open Transition PartialMap Processor

/-! ## The condition and the property -/

/-- The run has come to an end, by itself or by a crash. -/
def Pc.ended : Pc → Bool
  | .returned | .threw | .gone => true
  | .start | .loaded _ | .posting _ | .settling _ _ | .retryAdd _ _ _ _ => false

/-- A run of the delivery is in progress. -/
def Processing (s : State) (id : String) : Prop :=
  ∃ r run, s.runs r = some run ∧ run.data.deliveryId = id ∧ run.pc.ended = false

/-- The step takes no job of the delivery while a run of it is in progress. -/
def NonOverlapping (id : String) (s : State) : Action → Prop
  | .dequeue _ jobId => ∀ job, s.queue jobId = some job → job.data.deliveryId = id → ¬ Processing s id
  | _ => True

/-- The run that records its result for the delivery in the step. -/
def recorder (s : State) (id : String) (a : Action) : Option Nat :=
  match a with
  | .write r => if writesStatus s id (.write r) then some r else none
  | _ => none

/-- The runs that have recorded their results for the delivery, in order. -/
def recorders (id : String) (l : List (State × Action)) : List Nat := l.filterMap fun x => recorder x.1 id x.2

/-- The requests sent for a delivery. -/
def postsOf (s : State) (id : String) : List Post := s.posts.filter fun post => post.deliveryId = id

/-- A step counts one attempt if it records a result, and otherwise leaves the row as it is; it does nothing to a
delivery that has its end, and sends nothing for it. -/
structure DeliveryStep (id : String) (s : State) (a : Action) (s' : State) (d d' : WebhookDelivery) : Prop where
  counts : d'.attempts = d.attempts + if writesStatus s id a then 1 else 0
  records : writesStatus s id a = false → d' = d
  ends : d.status.final = true → d' = d ∧ postsOf s' id = postsOf s id

/-- The law of a history: the row's status and its count fit, the count is the number of runs that have recorded a
result, and every step does what it may. -/
structure SequentialLaw (env : Env) (id : String) (l : List (State × Action)) (s : State) : Prop where
  rows : ∀ d, s.delivery id = some d → d.AttemptsFit env.webhooks.maxAttempts ∧ d.attempts = (recorders id l).length
  once : (recorders id l).Nodup
  steps : ∀ x ∈ l, ∀ s', step env x.1 x.2 = some s' → ∀ d, x.1.delivery id = some d →
    ∃ d', s'.delivery id = some d' ∧ DeliveryStep id x.1 x.2 s' d d'

variable {env : Env} {s s' : State} {a : Action} {id : String} {l : List (State × Action)}

/-! ## What a run decides to write -/

/-- A failed attempt leaves an open row open below the maximum, and kills it at the maximum; a success delivers it. -/
theorem attemptsFit_writeFor {d : WebhookDelivery} {reply : Reply} {now delay : Nat}
    (h : d.AttemptsFit env.webhooks.maxAttempts) (hopen : d.status.final = false) :
    ((writeFor env d reply now delay).set d).AttemptsFit env.webhooks.maxAttempts ∧
      ((writeFor env d reply now delay).set d).attempts = d.attempts + 1 := by
  have hmax := env.webhooks.maxAttempts_pos
  have hlt : d.attempts < env.webhooks.maxAttempts := by
    unfold WebhookDelivery.AttemptsFit at h
    cases hst : d.status with
    | pending => rw [hst] at h; dsimp only at h; omega
    | failed => rw [hst] at h; exact h.2
    | delivered => rw [hst] at hopen; cases hopen
    | dead => rw [hst] at hopen; cases hopen
  unfold writeFor
  cases reply.lastError with
  | none =>
    refine ⟨?_, rfl⟩
    change 1 ≤ d.attempts + 1 ∧ d.attempts + 1 ≤ env.webhooks.maxAttempts
    omega
  | some lastError =>
    dsimp only
    split
    · refine ⟨?_, rfl⟩
      change d.attempts + 1 = env.webhooks.maxAttempts
      omega
    · refine ⟨?_, rfl⟩
      change 1 ≤ d.attempts + 1 ∧ d.attempts + 1 < env.webhooks.maxAttempts
      omega

/-! ## Steps of runs -/

/-- Where a step takes a run. -/
inductive Goes (env : Env) (s : State) (r : Nat) (run : Run) : Action → Pc → Prop
  | ends {a : Action} {pc : Pc} (hended : pc.ended = true) (hno : ∀ r, a ≠ .write r) : Goes env s r run a pc
  | load {d : WebhookDelivery} (hpc : run.pc = .start) (hd : s.delivery run.data.deliveryId = some d) :
      Goes env s r run (.load r) (.loaded d)
  | post {d : WebhookDelivery} (hpc : run.pc = .loaded d) : Goes env s r run (.post r) (.posting d)
  | receive {d : WebhookDelivery} {reply : Reply} {delay : Nat} (hpc : run.pc = .posting d) :
      Goes env s r run (.receive r reply delay) (.settling d (writeFor env d reply s.now delay))
  | write {d : WebhookDelivery} {w : StatusWrite} {basis : Nat} (hpc : run.pc = .settling d w) :
      Goes env s r run (.write r) (afterWrite d w basis)

/-- A run after a step was there before, or takes a job, or has moved on. -/
theorem Step.run_inv {r : Nat} {run' : Run} (hs : Step env s a s') (hr : s'.runs r = some run') :
    (s.runs r = some run' ∧ a ≠ .write r) ∨
    (∃ jobId job, a = .dequeue r jobId ∧ s.runs r = none ∧ s.queue jobId = some job ∧ run' = ⟨jobId, job.data, .start⟩) ∨
    ∃ run pc, s.runs r = some run ∧ run' = { run with pc := pc } ∧ Goes env s r run a pc := by
  -- the step gives run `q` a new place: it is this run, or this one is as it was
  have key : ∀ (q : Nat) (new : Run), Function.update s.runs q (some new) r = some run' →
      (q ≠ r → a ≠ .write r) →
      (q = r → run' = new →
        (∃ jobId job, a = .dequeue r jobId ∧ s.runs r = none ∧ s.queue jobId = some job ∧ run' = ⟨jobId, job.data, .start⟩) ∨
        ∃ run pc, s.runs r = some run ∧ run' = { run with pc := pc } ∧ Goes env s r run a pc) →
      (s.runs r = some run' ∧ a ≠ .write r) ∨
      (∃ jobId job, a = .dequeue r jobId ∧ s.runs r = none ∧ s.queue jobId = some job ∧ run' = ⟨jobId, job.data, .start⟩) ∨
      ∃ run pc, s.runs r = some run ∧ run' = { run with pc := pc } ∧ Goes env s r run a pc := by
    intro q new hupd hother hnew
    by_cases hq : q = r
    · subst hq
      rw [Function.update_self] at hupd
      cases hupd
      exact Or.inr (hnew rfl rfl)
    · rw [Function.update_of_ne (Ne.symm hq)] at hupd
      exact Or.inl ⟨hupd, hother hq⟩
  cases hs with
  | dequeue q jobId job hfree hjob =>
    refine key q _ hr (fun _ => by simp) fun hq hrun => Or.inl ?_
    subst hq
    exact ⟨jobId, job, rfl, hfree, hjob, hrun⟩
  | walk q run _ pc hq hwalk =>
    refine key q _ hr (fun _ => ?_) fun heq hrun => Or.inr ?_
    · cases hwalk <;> simp
    · subst heq
      refine ⟨run, pc, hq, hrun, ?_⟩
      cases hwalk with
      | load hpc hd => exact .load hpc hd
      | receive hpc => exact .receive hpc
      | loadNone | loadFinal | postThrows | fail => exact .ends rfl (by simp)
  | post q run d endpoint hq hpc =>
    refine key q _ hr (fun _ => by simp) fun heq hrun => Or.inr ?_
    subst heq
    exact ⟨run, _, hq, hrun, .post hpc⟩
  | write q run d w basis hq hpc =>
    refine key q _ hr (fun hne hc => ?_) fun heq hrun => Or.inr ?_
    · injection hc with hc
      exact hne hc
    · subst heq
      exact ⟨run, _, hq, hrun, .write hpc⟩
  | retryAdd q run deliveryId attempts delay basis hq =>
    refine key q _ hr (fun _ => by simp) fun heq hrun => Or.inr ?_
    subst heq
    exact ⟨run, _, hq, hrun, .ends rfl (by simp)⟩
  | finish q run hq =>
    refine key q _ hr (fun _ => by simp) fun heq hrun => Or.inr ?_
    subst heq
    exact ⟨run, _, hq, hrun, .ends rfl (by simp)⟩
  | crash q run hq =>
    refine key q _ hr (fun _ => by simp) fun heq hrun => Or.inr ?_
    subst heq
    exact ⟨run, _, hq, hrun, .ends rfl (by simp)⟩
  | _ => exact Or.inl ⟨hr, by simp⟩

/-! ## One run at a time -/

theorem read_of_ended {pc : Pc} (h : pc.ended = true) : pc.read = none := by
  cases pc <;> first | rfl | cases h

theorem not_ended_of_read {pc : Pc} {d : WebhookDelivery} (h : pc.read = some d) : pc.ended = false := by
  apply Bool.eq_false_iff.2
  intro hended
  rw [read_of_ended hended] at h
  cases h

/-- A run that moves on to a point short of its end was short of it before. -/
theorem Goes.not_ended {r : Nat} {run : Run} {pc : Pc} (h : Goes env s r run a pc) (hpc : pc.ended = false) :
    run.pc.ended = false := by
  cases h with
  | ends hended => rw [hended] at hpc; cases hpc
  | load h => rw [h]; rfl
  | post h => rw [h]; rfl
  | receive h => rw [h]; rfl
  | write h => rw [h]; rfl

/-- A step other than an update of `process` leaves the rows as they are. -/
theorem Step.delivery_of_ne_write {d : WebhookDelivery} (hs : Step env s a s') (h : s.delivery id = some d)
    (ha : ∀ r, a ≠ .write r) : s'.delivery id = some d := by
  rcases hs.delivery h with hsame | ⟨r, _, _, _, hwrite, -⟩
  · exact hsame
  · exact absurd hwrite (ha r)

/-- One run of the delivery is in progress at most, what it has read is the row as it is, and the row's status and its
count fit. -/
structure AloneInv (env : Env) (id : String) (s : State) : Prop where
  one : ∀ {r r' run run'}, s.runs r = some run → run.data.deliveryId = id → run.pc.ended = false →
    s.runs r' = some run' → run'.data.deliveryId = id → run'.pc.ended = false → r = r'
  current : All s.runs fun _ run => run.data.deliveryId = id → ∀ d, run.pc.read = some d → s.delivery id = some d
  decided : All s.runs fun _ run => ∀ d w, run.pc = .settling d w →
    ∃ reply now delay, w = writeFor env d reply now delay
  rows : ∀ d, s.delivery id = some d → d.AttemptsFit env.webhooks.maxAttempts

/-- A run in progress was in progress before, or starts when none is. -/
theorem processing_inv {r : Nat} {run' : Run} (hC : NonOverlapping id s a) (hs : Step env s a s')
    (hr : s'.runs r = some run') (hid : run'.data.deliveryId = id) (hpc : run'.pc.ended = false) :
    (∃ run, s.runs r = some run ∧ run.data.deliveryId = id ∧ run.pc.ended = false) ∨
      (∃ jobId, a = .dequeue r jobId) ∧ ¬ Processing s id := by
  rcases hs.run_inv hr with ⟨hsame, -⟩ | ⟨jobId, job, rfl, -, hjob, rfl⟩ | ⟨run, pc, hrun, rfl, hgoes⟩
  · exact Or.inl ⟨run', hsame, hid, hpc⟩
  · exact Or.inr ⟨⟨jobId, rfl⟩, hC job hjob hid⟩
  · exact Or.inl ⟨run, hrun, hid, hgoes.not_ended hpc⟩

/-- The update of a run in progress: it goes by the row as it is. -/
theorem AloneInv.write {r : Nat} {run : Run} {d row : WebhookDelivery} {w : StatusWrite} (h : AloneInv env id s)
    (hI : SnapshotInv s) (hr : s.runs r = some run) (hpc : run.pc = .settling d w) (hid : d.id = id)
    (hrow : s.delivery id = some row) :
    row = d ∧ d.status.final = false ∧ (w.set row).AttemptsFit env.webhooks.maxAttempts ∧
      (w.set row).attempts = row.attempts + 1 := by
  have hread := (hI.runs hr).read d (by rw [hpc]; rfl)
  have hcurrent := h.current hr (hread.id.symm.trans hid) d (by rw [hpc]; rfl)
  cases hrow.symm.trans hcurrent
  obtain ⟨reply, now, delay, rfl⟩ := h.decided hr d w hpc
  exact ⟨rfl, hread.open_, attemptsFit_writeFor (h.rows d hcurrent) hread.open_⟩

theorem AloneInv.step (h : AloneInv env id s) (hI : SnapshotInv s) (hC : NonOverlapping id s a) (hs : Step env s a s') :
    AloneInv env id s' := by
  refine ⟨fun hr hid hpc hr' hid' hpc' => ?_, fun r run' hr hid d hd => ?_, fun r run' hr d w hpc => ?_, fun d hd => ?_⟩
  · rcases processing_inv hC hs hr hid hpc with ⟨run, hrun, hrunid, hrunpc⟩ | ⟨⟨jobId, hdequeue⟩, hnone⟩
    · rcases processing_inv hC hs hr' hid' hpc' with ⟨run', hrun', hrunid', hrunpc'⟩ | ⟨-, hnone⟩
      · exact h.one hrun hrunid hrunpc hrun' hrunid' hrunpc'
      · exact absurd ⟨_, run, hrun, hrunid, hrunpc⟩ hnone
    · rcases processing_inv hC hs hr' hid' hpc' with ⟨run', hrun', hrunid', hrunpc'⟩ | ⟨⟨jobId', hdequeue'⟩, -⟩
      · exact absurd ⟨_, run', hrun', hrunid', hrunpc'⟩ hnone
      · cases hdequeue.symm.trans hdequeue'
        rfl
  · rcases hs.run_inv hr with ⟨hsame, hne⟩ | ⟨jobId, job, rfl, -, hjob, rfl⟩ | ⟨run, pc, hrun, rfl, hgoes⟩
    · have hrow := h.current hsame hid d hd
      rcases hs.delivery hrow with hafter | ⟨q, other, e, w, rfl, hq, hpc, he, -⟩
      · exact hafter
      · -- the writer would be a second run in progress
        have hread := (hI.runs hq).read e (by rw [hpc]; rfl)
        have heq : q = r := h.one hq (hread.id.symm.trans he) (by rw [hpc]; rfl) hsame hid (not_ended_of_read hd)
        exact absurd (congrArg Action.write heq) hne
    · cases hd
    · cases hgoes with
      | ends hended =>
        rw [read_of_ended hended] at hd
        cases hd
      | load hpc hload =>
        cases hd
        rw [show run.data.deliveryId = id from hid] at hload
        exact hs.delivery_of_ne_write hload (by simp)
      | post hpc =>
        cases hd
        exact hs.delivery_of_ne_write (h.current hrun hid d (by rw [hpc]; rfl)) (by simp)
      | receive hpc =>
        cases hd
        exact hs.delivery_of_ne_write (h.current hrun hid d (by rw [hpc]; rfl)) (by simp)
      | @write _ w => cases w <;> cases hd
  · rcases hs.run_inv hr with ⟨hsame, -⟩ | ⟨jobId, job, rfl, -, hjob, rfl⟩ | ⟨run, pc, hrun, rfl, hgoes⟩
    · exact h.decided hsame d w hpc
    · cases hpc
    · cases hgoes with
      | ends hended =>
        rw [show pc = .settling d w from hpc] at hended
        cases hended
      | load => cases hpc
      | post => cases hpc
      | receive => cases hpc; exact ⟨_, _, _, rfl⟩
      | @write _ w' => cases w' <;> cases hpc
  · rcases hs.delivery_inv hd with hold | ⟨hstatus, hattempts, -⟩ | ⟨r, run, e, w, old, -, hr, hpc, he, hold, rfl⟩
    · exact h.rows d hold
    · unfold WebhookDelivery.AttemptsFit
      rw [hstatus]
      exact hattempts
    · exact (h.write hI hr hpc he hold).2.2.1

theorem aloneInv (h : Reach (system env) (NonOverlapping id) s) : AloneInv env id s :=
  h.invariant (I := AloneInv env id) ⟨fun _ _ _ h => (by cases h), all_empty, all_empty, fun _ hd => by cases hd⟩
    fun _ _ _ hr hI hC hs => hI.step (snapshotInv hr) hC (step_sound hs)

/-! ## The law -/

/-- An update for the delivery is made by a run that has read it. -/
theorem of_writesStatus (h : writesStatus s id a = true) :
    ∃ r run d w, a = .write r ∧ s.runs r = some run ∧ run.pc = .settling d w ∧ d.id = id := by
  cases a with
  | write r =>
    unfold writesStatus at h
    dsimp only at h
    split at h
    · rename_i run hr
      split at h
      · rename_i d w hpc
        exact ⟨r, run, d, w, rfl, hr, hpc, of_decide_eq_true h⟩
      · cases h
    · cases h
  | _ => cases h

/-- A step sends for the delivery only if a run of it has loaded it. -/
theorem Step.posts_of_loaded (hs : Step env s a s') :
    postsOf s' id = postsOf s id ∨ ∃ r run d, s.runs r = some run ∧ run.pc = .loaded d ∧ d.id = id := by
  cases hs with
  | post r run d endpoint hr hpc =>
    by_cases hid : d.id = id
    · exact Or.inr ⟨r, run, d, hr, hpc, hid⟩
    · refine Or.inl ?_
      unfold postsOf
      rw [List.filter_append]
      simp [postFor, hid]
  | _ => exact Or.inl rfl

/-- What a step does to the delivery. -/
theorem AloneInv.deliveryStep {d : WebhookDelivery} (h : AloneInv env id s) (hI : SnapshotInv s) (hs : Step env s a s')
    (hd : s.delivery id = some d) : ∃ d', s'.delivery id = some d' ∧ DeliveryStep id s a s' d d' := by
  have hposts : d.status.final = true → postsOf s' id = postsOf s id := by
    intro hfinal
    rcases hs.posts_of_loaded with hsame | ⟨r, run, e, hr, hpc, he⟩
    · exact hsame
    · have hread := (hI.runs hr).read e (by rw [hpc]; rfl)
      cases hd.symm.trans (h.current hr (hread.id.symm.trans he) e (by rw [hpc]; rfl))
      rw [hread.open_] at hfinal
      cases hfinal
  cases hwrites : writesStatus s id a with
  | true =>
    obtain ⟨r, run, e, w, rfl, hr, hpc, he⟩ := of_writesStatus hwrites
    obtain ⟨rfl, hopen, -, hcount⟩ := h.write hI hr hpc he hd
    obtain ⟨run', e', w', hr', hpc', hupd⟩ := write_inv hs
    cases hr.symm.trans hr'
    cases hpc.symm.trans hpc'
    refine ⟨w.set d, ?_, ?_⟩
    · unfold State.delivery
      rw [hupd, find_update w.set_id, show find s.deliveries id = some d from hd]
      simp [he]
    · refine ⟨?_, fun hc => absurd (hwrites.symm.trans hc) (by simp), fun hfinal => ?_⟩
      · rw [hwrites]
        exact hcount
      · rw [hopen] at hfinal
        cases hfinal
  | false =>
    have hsame : s'.delivery id = some d := by
      rcases hs.delivery hd with hsame | ⟨r, run, e, w, rfl, hr, hpc, he, -⟩
      · exact hsame
      · rw [writesStatus_write hr hpc, he, decide_eq_true rfl] at hwrites
        cases hwrites
    exact ⟨d, hsame, by simp [hwrites], fun _ => rfl, fun hfinal => ⟨rfl, hposts hfinal⟩⟩

/-- The update of the delivery is behind the run. -/
def Pc.past : Pc → Bool
  | .retryAdd _ _ _ _ | .returned | .threw | .gone => true
  | .start | .loaded _ | .posting _ | .settling _ _ => false

theorem Pc.past_of_ended {pc : Pc} (h : pc.ended = true) : pc.past = true := by
  cases pc <;> first | rfl | cases h

theorem Goes.past {r : Nat} {run : Run} {pc : Pc} (h : Goes env s r run a pc) (hpast : run.pc.past = true) :
    pc.past = true := by
  cases h with
  | ends hended => exact Pc.past_of_ended hended
  | load h | post h | receive h | write h => rw [h] at hpast; cases hpast

theorem isSome_update {f : Nat → Option Run} {r q : Nat} {new : Run} (h : (f r).isSome = true) :
    (Function.update f q (some new) r).isSome = true := by
  by_cases hq : r = q
  · subst hq
    rw [Function.update_self]
    rfl
  · rwa [Function.update_of_ne hq]

/-- No run is forgotten. -/
theorem Step.runs_isSome {r : Nat} (hs : Step env s a s') (h : (s.runs r).isSome = true) : (s'.runs r).isSome = true := by
  cases hs with
  | dequeue | walk | post | write | retryAdd | finish | crash => exact isSome_update h
  | _ => exact h

/-- Which runs have recorded their results: their updates are behind them, and there is one run for each attempt. -/
structure RecordersInv (id : String) (l : List (State × Action)) (s : State) : Prop where
  past : ∀ r ∈ recorders id l, ∃ run, s.runs r = some run ∧ run.pc.past = true
  once : (recorders id l).Nodup
  count : ((s.delivery id).map WebhookDelivery.attempts).getD 0 = (recorders id l).length

theorem recorders_snoc (id : String) (l : List (State × Action)) (s : State) (a : Action) :
    recorders id (l ++ [(s, a)]) = recorders id l ++ (recorder s id a).toList := by
  unfold recorders
  rw [List.filterMap_append]
  cases h : recorder s id a <;> simp [h]

theorem recorder_eq_none (h : writesStatus s id a = false) : recorder s id a = none := by
  unfold recorder
  cases a with
  | write r => simp [h]
  | _ => rfl

/-- A run whose update is behind it stays so. -/
theorem Step.past {r : Nat} {run : Run} (hs : Step env s a s') (hr : s.runs r = some run) (hpast : run.pc.past = true) :
    ∃ run', s'.runs r = some run' ∧ run'.pc.past = true := by
  obtain ⟨run', hr'⟩ := Option.isSome_iff_exists.1 (hs.runs_isSome (by rw [hr]; rfl))
  refine ⟨run', hr', ?_⟩
  rcases hs.run_inv hr' with ⟨hsame, -⟩ | ⟨_, _, -, hfree, -⟩ | ⟨old, pc, hold, rfl, hgoes⟩
  · cases hr.symm.trans hsame
    exact hpast
  · rw [hr] at hfree
    cases hfree
  · cases hr.symm.trans hold
    exact hgoes.past hpast

theorem RecordersInv.step (h : RecordersInv id l s) (halone : AloneInv env id s) (hI : SnapshotInv s)
    (hs : Step env s a s') : RecordersInv id (l ++ [(s, a)]) s' := by
  have hpast : ∀ r ∈ recorders id l, ∃ run, s'.runs r = some run ∧ run.pc.past = true := by
    intro r hr
    obtain ⟨run, hrun, hpast⟩ := h.past r hr
    exact hs.past hrun hpast
  cases hwrites : writesStatus s id a with
  | true =>
    obtain ⟨r, run, d, w, rfl, hr, hpc, hid⟩ := of_writesStatus hwrites
    have hread := (hI.runs hr).read d (by rw [hpc]; rfl)
    have hd := halone.current hr (hread.id.symm.trans hid) d (by rw [hpc]; rfl)
    obtain ⟨d', hd', hlaw⟩ := halone.deliveryStep hI hs hd
    have hrecorder : recorder s id (.write r) = some r := by
      simp [recorder, hwrites]
    -- who has recorded before is past its settling, so this run has not
    have hnew : r ∉ recorders id l := by
      intro hmem
      obtain ⟨run', hr', hpast'⟩ := h.past r hmem
      cases hr.symm.trans hr'
      rw [hpc] at hpast'
      cases hpast'
    have hcount := h.count
    rw [hd] at hcount
    refine ⟨?_, ?_, ?_⟩
    · rw [recorders_snoc, hrecorder]
      intro q hq
      rcases List.mem_append.1 hq with hq | hq
      · exact hpast q hq
      · obtain rfl := List.mem_singleton.1 hq
        obtain ⟨run', hr'⟩ := Option.isSome_iff_exists.1 (hs.runs_isSome (by rw [hr]; rfl))
        refine ⟨run', hr', ?_⟩
        rcases hs.run_inv hr' with ⟨-, hne⟩ | ⟨_, _, hc, -⟩ | ⟨old, pc, hold, rfl, hgoes⟩
        · exact absurd rfl hne
        · cases hc
        · cases hgoes with
          | ends hended => exact Pc.past_of_ended hended
          | @write _ w => cases w <;> rfl
    · rw [recorders_snoc, hrecorder]
      exact List.nodup_append.2 ⟨h.once, List.nodup_singleton r, by
        rintro q hq _ hr rfl
        exact hnew (List.mem_singleton.1 hr ▸ hq)⟩
    · rw [recorders_snoc, hrecorder, hd', Option.map_some, Option.getD_some, hlaw.counts, hwrites, if_pos rfl,
        List.length_append]
      exact congrArg (· + 1) hcount
  | false =>
    have hsame : recorders id (l ++ [(s, a)]) = recorders id l := by
      rw [recorders_snoc, recorder_eq_none hwrites, Option.toList_none, List.append_nil]
    rw [← hsame] at hpast
    refine ⟨hpast, hsame ▸ h.once, ?_⟩
    rw [hsame, ← h.count]
    -- without a write the attempts stay, and a row inserted now has none
    cases hd : s.delivery id with
    | some d =>
      obtain ⟨d', hd', hlaw⟩ := halone.deliveryStep hI hs hd
      rw [hd', hlaw.records hwrites]
    | none =>
      cases hd' : s'.delivery id with
      | none => rfl
      | some d' =>
        rcases hs.delivery_inv hd' with hold | ⟨-, hattempts, -⟩ | ⟨_, _, _, _, old, -, -, -, -, hold, -⟩
        · rw [hd] at hold
          cases hold
        · exact hattempts
        · rw [hd] at hold
          cases hold

theorem recordersInv (h : Transition.Run (system env) l s) (hC : ∀ x ∈ l, NonOverlapping id x.1 x.2) :
    RecordersInv id l s := by
  induction h with
  | init => exact ⟨fun _ h => (by cases h), List.nodup_nil, rfl⟩
  | @step l s s' a hr hs ih =>
    have hbefore : ∀ x ∈ l, NonOverlapping id x.1 x.2 := fun x hx => hC x (List.mem_append_left _ hx)
    have hreach := hr.reach hbefore
    exact (ih hbefore).step (aloneInv hreach) (snapshotInv hreach) (step_sound hs)

/-- The deliveries whose runs do not overlap obey the law. -/
theorem sequentialLaw (h : Transition.Run (system env) l s) (hC : ∀ x ∈ l, NonOverlapping id x.1 x.2) :
    SequentialLaw env id l s := by
  have hrecorders := recordersInv h hC
  refine ⟨fun d hd => ⟨(aloneInv (h.reach hC)).rows d hd, ?_⟩, hrecorders.once, fun x hx s' hs d hd => ?_⟩
  · have hcount := hrecorders.count
    rwa [hd] at hcount
  · obtain ⟨hreach, -⟩ := h.reach_of_mem_of hC hx
    exact (aloneInv hreach).deliveryStep (snapshotInv hreach) (step_sound hs) hd

end Webhooks

end PaymentsProcessor
