/-
What is true of every run of the worker: it keeps its job's data and only moves on, the history only
grows, and what the history records of a run was done by it at the place where it stood.
-/
import PaymentsProcessor.Pipeline.Locks

namespace PaymentsProcessor.Pipeline

open PaymentStatus Worker Reaper Transition PartialMap

variable {β κ : Type} {port : BankPort β κ} {env : Env} {s s' : State β} {a : Action κ} {r : Nat} {run : Run}

/-! ## Progress of a run -/

/-- How far a run has come. -/
def Pc.rank : Pc → Nat
  | .start => 0
  | .claimBegun _ => 1
  | .claimRead _ _ none => 2
  | .claimRead _ _ (some _) => 3
  | .claimDone => 4
  | .calling _ => 5
  | .decided _ => 6
  | .settleBegun _ _ none => 7
  | .settleBegun _ _ (some _) => 8
  | .retryAdd _ => 9
  | .returned | .threw => 10
  | .gone => 11

/-- Past txn 1 and not yet past its finalising transaction. -/
def Pc.inFlight (pc : Pc) : Bool := 4 ≤ Pc.rank pc && Pc.rank pc ≤ 8

theorem Pc.rank_lt_of_mayFail {pc : Pc} (h : Pc.mayFail pc = true) : Pc.rank pc < 10 := by
  revert h
  unfold Pc.rank
  split <;> simp [Pc.mayFail]

theorem Pc.eq_gone_or_rank_lt (pc : Pc) : .gone = pc ∨ Pc.rank pc < Pc.rank .gone := by
  unfold Pc.rank
  split <;> simp

theorem Walk.rank_lt {pc : Pc} (h : Walk s r run a pc) : Pc.rank run.pc < Pc.rank pc := by
  cases h with
  | fail hpc => exact Pc.rank_lt_of_mayFail hpc
  | claimBegin hpc | claimNone hpc | claimIllegal hpc | claimRead hpc | claimClock hpc | claimLost hpc | settleBegin hpc
  | settleClock hpc | retryLost hpc | finalLost hpc | retryInvalid hpc => rw [hpc]; simp [Pc.rank]

/-- A run keeps its data, and where it is not where it was it has come further. -/
theorem Step.run_persists (h : Step port env s a s') (hr : s.runs r = some run) :
    ∃ pc, s'.runs r = some { run with pc := pc } ∧ (pc = run.pc ∨ Pc.rank run.pc < Pc.rank pc) := by
  have hupdate : ∀ {r' : Nat} {run' : Run} {pc : Pc}, s.runs r' = some run' → Pc.rank run'.pc < Pc.rank pc →
      ∃ pc', Function.update s.runs r' (some { run' with pc := pc }) r = some { run with pc := pc' } ∧
        (pc' = run.pc ∨ Pc.rank run.pc < Pc.rank pc') := by
    intro r' run' pc hr' hlt
    by_cases hc : r = r'
    · subst hc
      cases hr.symm.trans hr'
      exact ⟨pc, Function.update_self .., Or.inr hlt⟩
    · exact ⟨run.pc, (Function.update_of_ne hc _ _).trans hr, Or.inl rfl⟩
  cases h with
  | walk _ r' run' pc hr' hw => exact hupdate hr' hw.rank_lt
  | dequeue r' w jobId job hr' =>
    have hne : r ≠ r' := by
      rintro rfl
      rw [hr'] at hr
      cases hr
    exact ⟨run.pc, (Function.update_of_ne hne _ _).trans hr, Or.inl rfl⟩
  | claim _ _ _ _ _ hr' hpc => exact hupdate hr' (by rw [hpc]; simp [Pc.rank])
  | call _ _ hr' hpc => exact hupdate hr' (by rw [hpc]; simp [Pc.rank])
  | refuse _ _ hr' hpc => exact hupdate hr' (by rw [hpc]; simp [Pc.rank])
  | receive _ _ _ _ _ hr' hpc => exact hupdate hr' (by rw [hpc]; simp [Pc.rank])
  | rethrow _ _ _ _ _ hr' hpc => exact hupdate hr' (by rw [hpc]; simp [Pc.rank])
  | timeout _ _ _ hr' hpc => exact hupdate hr' (by rw [hpc]; simp [Pc.rank])
  | exhaust _ _ _ _ _ _ hr' hpc => exact hupdate hr' (by rw [hpc]; simp [Pc.rank])
  | retry _ _ _ _ _ _ hr' hpc => exact hupdate hr' (by rw [hpc]; simp [Pc.rank])
  | final _ _ _ _ _ _ _ hr' hpc => exact hupdate hr' (by rw [hpc]; simp [Pc.rank])
  | retryAdd _ _ _ _ hr' hpc => exact hupdate hr' (by rw [hpc]; simp [Pc.rank])
  | finish _ _ _ hr' hpc => exact hupdate hr' (by rcases hpc with ⟨hpc, -⟩ | ⟨hpc, -⟩ <;> rw [hpc] <;> simp [Pc.rank])
  | crash w =>
    dsimp only
    rw [hr, Option.map_some]
    by_cases hw : run.worker = w
    · exact ⟨.gone, by rw [if_pos hw], Pc.eq_gone_or_rank_lt run.pc⟩
    · exact ⟨run.pc, by rw [if_neg hw], Or.inl rfl⟩
  | _ => exact ⟨run.pc, hr, Or.inl rfl⟩

/-! ## Payments and jobs -/

/-- A payment stays, with its amount and its currency, and never becomes PENDING again. -/
theorem Step.payment_persists (h : Step port env s a s') {pid : String} {p : Payment}
    (hp : s.db.payments pid = some p) : ∃ q, s'.db.payments pid = some q ∧ q.amountCents = p.amountCents ∧
      q.currency = p.currency ∧ (q.status = p.status ∨ q.status ≠ PENDING) := by
  have hwrite : ∀ {pid' : String} {old new : Payment}, s.db.payments pid' = some old →
      new.amountCents = old.amountCents → new.currency = old.currency → new.status ≠ PENDING →
      ∃ q, Function.update s.db.payments pid' (some new) pid = some q ∧ q.amountCents = p.amountCents ∧
        q.currency = p.currency ∧ (q.status = p.status ∨ q.status ≠ PENDING) := by
    intro pid' old new hold hamount hcurrency hst
    by_cases hc : pid = pid'
    · subst hc
      cases hp.symm.trans hold
      exact ⟨new, Function.update_self .., hamount, hcurrency, Or.inr hst⟩
    · exact ⟨p, (Function.update_of_ne hc _ _).trans hp, rfl, rfl, Or.inl rfl⟩
  cases h with
  | accepted dto key hash correlationId amountCents row hvalid hconv hrow hfresh =>
    have hne : pid ≠ row.id := by
      rintro rfl
      rw [hfresh] at hp
      cases hp
    exact ⟨p, (Function.update_of_ne hne _ _).trans hp, rfl, rfl, Or.inl rfl⟩
  | claim r' run' began clock p' hr' hpc hp' => exact hwrite hp' rfl rfl (by rintro ⟨⟩)
  | exhaust r' run' began clock reason p' hr' hpc hp' hst hlock hspent =>
    exact hwrite hp' rfl rfl (by rw [retrySet_spent hspent]; simp)
  | retry r' run' began clock reason p' hr' hpc hp' hst hlock hleft =>
    exact hwrite hp' rfl rfl (by rw [retrySet_left hleft]; simp)
  | final r' run' began clock dis target p' hr' hpc htarget hp' =>
    exact hwrite hp' rfl rfl (by cases dis <;> cases htarget <;> rintro ⟨⟩)
  | reapUpdate k began time clock stuck hk =>
    rw [Db.insertEvents_payments, Db.updateIn_payments, hp]
    split
    · exact ⟨_, rfl, rfl, rfl, Or.inr (by rintro ⟨⟩)⟩
    · exact ⟨_, rfl, rfl, rfl, Or.inl rfl⟩
  | _ => exact ⟨p, hp, rfl, rfl, Or.inl rfl⟩

/-- A payment was there before, or its submission is accepted now. -/
theorem Step.payment_inv (h : Step port env s a s') {pid : String} (hp : (s'.db.payments pid).isSome = true) :
    (s.db.payments pid).isSome = true ∨ ∃ dto row id correlationId now,
      s'.db.outbox = s.db.outbox ++ [submittedRow row id correlationId now] ∧ row.id = pid ∧
        .submitted pid dto correlationId ∈ s'.history ∧ ∃ n, pid = env.u.ulid n := by
  -- a payment written anew was there before
  have hwrite : ∀ {pid' : String} {old new : Payment}, s.db.payments pid' = some old →
      (Function.update s.db.payments pid' (some new) pid).isSome = true → (s.db.payments pid).isSome = true := by
    intro pid' old new hold hnew
    by_cases hc : pid = pid'
    · rw [hc, hold]; rfl
    · rwa [Function.update_of_ne hc] at hnew
  cases h with
  | accepted dto key hash correlationId amountCents row hvalid hamount hrow =>
    by_cases hc : pid = row.id
    · exact Or.inr ⟨dto, row, _, correlationId, _, rfl, hc.symm, by simp [hc], s.ulids, by rw [hc, hrow]; rfl⟩
    · exact Or.inl (by rwa [Db.insertSubmission_payments, Function.update_of_ne hc] at hp)
  | claim r' run' began clock p' hr' hpc hp' => exact Or.inl (hwrite hp' hp)
  | exhaust r' run' began clock reason p' hr' hpc hp' => exact Or.inl (hwrite hp' hp)
  | retry r' run' began clock reason p' hr' hpc hp' => exact Or.inl (hwrite hp' hp)
  | final r' run' began clock dis target p' hr' hpc htarget hp' => exact Or.inl (hwrite hp' hp)
  | reapUpdate k began time clock stuck hk =>
    rw [Db.insertEvents_payments, Db.updateIn_payments] at hp
    split at hp
    · exact Or.inl (by rwa [Option.isSome_map] at hp)
    · exact Or.inl hp
  | _ => exact Or.inl hp

theorem closeJob_persists {q : Queue} {jobId : String} {job : Job} (h : q jobId = some job) (jobId' : String) (r : Nat)
    (state : JobState) : ∃ job', closeJob q jobId' r state jobId = some job' ∧ job'.data = job.data := by
  unfold closeJob
  split
  · exact Queue.setState_persists h jobId' state
  · exact ⟨job, h, rfl⟩

/-- What is true of every job is true after a run ends, if it is true of the run's job when it is moved. -/
theorem all_closeJob {q : Queue} {P : String → Job → Prop} {jobId : String} {r : Nat} {state : JobState} (h : All q P)
    (hmoved : ∀ job, q jobId = some job → job.state = .active r → P jobId { job with state := state }) :
    All (closeJob q jobId r state) P := by
  unfold closeJob
  split
  · rename_i hactive
    refine Queue.all_setState h fun job hjob => hmoved job hjob ?_
    rw [hjob] at hactive
    exact Option.some.inj hactive
  · exact h

/-- A job stays, with its data. -/
theorem Step.job_persists (h : Step port env s a s') {jobId : String} {job : Job} (hjob : s.queue jobId = some job) :
    ∃ job', s'.queue jobId = some job' ∧ job'.data = job.data := by
  cases h with
  | inject | pollAdd | retryAdd | reapAdd => exact ⟨job, Queue.add_persists hjob .., rfl⟩
  | dequeue | stall => exact Queue.setState_persists hjob _ _
  | finish r' run' state => exact closeJob_persists hjob _ _ _
  | _ => exact ⟨job, hjob, rfl⟩

/-! ## The history -/

/-- The history only grows. -/
theorem Step.history_grows (h : Step port env s a s') : ∃ es, s'.history = s.history ++ es := by
  cases h with
  | reapUpdate => exact ⟨_, List.append_assoc _ _ _⟩
  | _ => first | exact ⟨_, rfl⟩ | exact ⟨[], (List.append_nil _).symm⟩

theorem Step.mem_history (h : Step port env s a s') {e : Effect β} (he : e ∈ s.history) : e ∈ s'.history := by
  obtain ⟨es, hes⟩ := h.history_grows
  rw [hes]
  exact List.mem_append_left _ he

/-- The statuses a finalising transaction may write for a disposition. -/
def Ends (dis : Disposition) (dst : PaymentStatus) : Prop :=
  dis.target = some dst ∨ dis.isRetry = true ∧ (dst = FAILED ∨ dst = RETRYING)

/-- What a run does when it moves its payment: it commits its claim, or a finalising transaction. -/
inductive MovesPayment (run : Run) : Option PaymentStatus → PaymentStatus → Pc → Prop
  | claim {began clock : Nat} {status : PaymentStatus} (hpc : run.pc = .claimRead began status (some clock)) :
      MovesPayment run (some status) PROCESSING .claimDone
  | settle {began clock : Nat} {dis : Disposition} {dst : PaymentStatus} {pc : Pc}
      (hpc : run.pc = .settleBegun began dis (some clock)) (hends : Ends dis dst) (hrank : 8 < Pc.rank pc) :
      MovesPayment run (some PROCESSING) dst pc

/-- A transition recorded of a run is old, or the run makes it now, on the payment of its job. -/
theorem Step.moved_inv (h : Step port env s a s') {pid : String} {src : Option PaymentStatus} {dst : PaymentStatus}
    {version : Nat} (hm : .moved (.worker r) pid src dst version ∈ s'.history) :
    .moved (.worker r) pid src dst version ∈ s.history ∨ ∃ run pc, s.runs r = some run ∧
      run.data.paymentId = pid ∧ s'.runs r = some { run with pc := pc } ∧ MovesPayment run src dst pc ∧
      ∃ q, s'.db.payments pid = some q ∧ q.status = dst ∧ q.version = version := by
  cases h with
  | claim r' run' began clock p hr' hpc =>
    rcases List.mem_append.1 hm with hold | hnew
    · exact Or.inl hold
    · cases List.mem_singleton.1 hnew
      exact Or.inr ⟨run', _, hr', rfl, Function.update_self .., .claim hpc,
        _, Function.update_self .., rfl, rfl⟩
  | exhaust r' run' began clock reason p hr' hpc hp hst hlock hspent =>
    rcases List.mem_append.1 hm with hold | hnew
    · exact Or.inl hold
    · cases List.mem_singleton.1 hnew
      exact Or.inr ⟨run', _, hr', rfl, Function.update_self .., .settle hpc (Or.inr ⟨rfl, Or.inl rfl⟩) (by decide),
        _, Function.update_self .., retrySet_spent hspent, rfl⟩
  | retry r' run' began clock reason p hr' hpc hp hst hlock hleft =>
    rcases List.mem_append.1 hm with hold | hnew
    · exact Or.inl hold
    · cases List.mem_singleton.1 hnew
      exact Or.inr ⟨run', _, hr', rfl, Function.update_self ..,
        .settle hpc (Or.inr ⟨rfl, Or.inr rfl⟩) (by simp [Pc.rank]), _, Function.update_self .., retrySet_left hleft, rfl⟩
  | final r' run' began clock dis target p hr' hpc htarget =>
    rcases List.mem_append.1 hm with hold | hnew
    · exact Or.inl hold
    · cases List.mem_singleton.1 hnew
      exact Or.inr ⟨run', _, hr', rfl, Function.update_self .., .settle hpc (Or.inl htarget) (by decide),
        _, Function.update_self .., rfl, rfl⟩
  | _ => exact Or.inl (by first | exact hm | exact (List.mem_append.1 hm).resolve_right (by simp) | simpa using hm)

/-- A run that moved a payment is past txn 1, and the payment is its job's. -/
def ClaimInv (s : State β) : Prop := ∀ r pid src dst version, .moved (.worker r) pid src dst version ∈ s.history →
  ∃ run, s.runs r = some run ∧ run.data.paymentId = pid ∧ 4 ≤ Pc.rank run.pc

theorem claimInv {C : State β → Action κ → Prop} (h : Reach (system port env) C s) : ClaimInv s := by
  refine h.invariant (I := ClaimInv) (fun _ _ _ _ _ hm => absurd hm List.not_mem_nil) fun t a t' _ hI _ hs => ?_
  intro r pid src dst version hm
  have hrule := step_sound hs
  rcases hrule.moved_inv hm with hold | ⟨run, pc, hr, hpid, hr', hmove, -⟩
  · obtain ⟨run, hr, hpid, hrank⟩ := hI r pid src dst version hold
    obtain ⟨pc, hr', hpc⟩ := hrule.run_persists hr
    refine ⟨_, hr', hpid, ?_⟩
    rcases hpc with rfl | hlt
    · exact hrank
    · exact Nat.le_of_lt (Nat.lt_of_le_of_lt hrank hlt)
  · refine ⟨_, hr', hpid, ?_⟩
    cases hmove with
    | claim => exact Nat.le_refl 4
    | settle _ _ hrank => exact Nat.le_of_lt (Nat.lt_trans (by decide) hrank)

/-- A run that moved a payment out of PROCESSING is past its finalising transaction. -/
def SettledInv (s : State β) : Prop := ∀ r pid dst version,
  .moved (.worker r) pid (some PROCESSING) dst version ∈ s.history → ∃ run, s.runs r = some run ∧ 8 < Pc.rank run.pc

theorem settledInv {C : State β → Action κ → Prop} (h : Reach (system port env) C s) : SettledInv s := by
  refine h.invariant (I := SettledInv) (fun _ _ _ _ hm => absurd hm List.not_mem_nil) fun t a t' hr hI _ hs => ?_
  intro r pid dst version hm
  have hrule := step_sound hs
  rcases hrule.moved_inv hm with hold | ⟨run, pc, hrun, -, hrun', hmove, -⟩
  · obtain ⟨run, hrun, hrank⟩ := hI r pid dst version hold
    obtain ⟨pc, hrun', hpc⟩ := hrule.run_persists hrun
    refine ⟨_, hrun', ?_⟩
    rcases hpc with rfl | hlt
    · exact hrank
    · exact Nat.lt_trans hrank hlt
  · refine ⟨_, hrun', ?_⟩
    cases hmove with
    | claim hpc =>
      have hcan : Pc.WF run.pc := pcInv hr hrun
      rw [hpc] at hcan
      cases hcan
    | settle _ _ hrank => exact hrank

/-- Txn 1 of the run has committed the transition of the payment to PROCESSING. -/
def Won (h : List (Effect β)) (r : Nat) (pid : String) : Prop :=
  ∃ src version, .moved (.worker r) pid (some src) PROCESSING version ∈ h

theorem Won.mono {h h' : List (Effect β)} {pid : String} (hw : Won h r pid) (hsub : ∀ e ∈ h, e ∈ h') :
    Won h' r pid := by
  obtain ⟨src, version, hmem⟩ := hw
  exact ⟨src, version, hsub _ hmem⟩

/-- The transition run `r` commits, if the effect is one: payment, statuses, version. -/
def moveBy (r : Nat) : Effect β → Option (String × Option PaymentStatus × PaymentStatus × Nat)
  | .moved (.worker r') pid src dst version => if r' = r then some (pid, src, dst, version) else none
  | _ => none

theorem moveBy_eq_some {e : Effect β} {pid : String} {src : Option PaymentStatus} {dst : PaymentStatus} {version : Nat} :
    moveBy r e = some (pid, src, dst, version) ↔ e = .moved (.worker r) pid src dst version := by
  constructor
  · intro h
    unfold moveBy at h
    split at h
    · split at h
      · cases h
        subst r
        rfl
      · cases h
    · cases h
  · rintro rfl
    simp [moveBy]

end PaymentsProcessor.Pipeline
