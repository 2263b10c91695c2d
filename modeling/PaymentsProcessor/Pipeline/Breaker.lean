/-
The circuit breaker of a worker. HALF-OPEN has no timer, so it is left only by a `record`, and a run whose
bank call is rejected rethrows without one. A run of the pipeline never wedges a breaker, and every
admitted run records once, exactly as long as no run waits for a call that is rejected.
-/
import PaymentsProcessor.Pipeline.Calls

namespace PaymentsProcessor.Pipeline

open PaymentStatus Worker Reaper Transition PartialMap

variable {β κ : Type} {port : BankPort β κ} {env : Env} {s s' : State β} {a : Action κ} {r : Nat}

/-! ## Records -/

/-- How often a run has called `record`. -/
def recordsBy (r : Nat) (h : List (Effect β)) : Nat := h.countP fun e =>
  match e with
  | .recorded r' _ => r' = r
  | _ => false

theorem recordsBy_append (h es : List (Effect β)) : recordsBy r (h ++ es) = recordsBy r h + recordsBy r es :=
  List.countP_append

/-- A run records when it leaves the bank step, and only then. -/
theorem Step.records (h : Step port env s a s') (r : Nat) : recordsBy r s'.history = recordsBy r s.history ∨
    recordsBy r s'.history = recordsBy r s.history + 1 ∧ ∃ run since dis, s.runs r = some run ∧
      run.pc = .calling since ∧ s'.runs r = some { run with pc := .decided dis } := by
  have hquiet : ∀ {es : List (Effect β)}, (∀ e ∈ es, ∀ r' b, e ≠ .recorded r' b) →
      recordsBy r (s.history ++ es) = recordsBy r s.history := by
    intro es hes
    rw [recordsBy_append, Nat.add_eq_left, recordsBy, List.countP_eq_zero]
    intro e he
    have hne := hes e he
    cases e <;> simp at hne ⊢
  -- the two steps that record, and what they append
  have hrecord : ∀ {r' : Nat} {run : Run} {since : Nat} (dis : Disposition) (e : Effect β) (b : Bool),
      s.runs r' = some run → run.pc = .calling since → (∀ r'' b', e ≠ .recorded r'' b') →
      recordsBy r (s.history ++ [e, .recorded r' b]) = recordsBy r s.history ∨
        recordsBy r (s.history ++ [e, .recorded r' b]) = recordsBy r s.history + 1 ∧
        ∃ run' since' dis', s.runs r = some run' ∧ run'.pc = .calling since' ∧
          Function.update s.runs r' (some { run with pc := .decided dis }) r = some { run' with pc := .decided dis' } := by
    intro r' run since dis e b hr hpc hne
    have hcount : recordsBy r (s.history ++ [e, .recorded r' b]) =
        recordsBy r s.history + if r' = r then 1 else 0 := by
      rw [recordsBy_append]
      congr 1
      cases e <;> simp [recordsBy, List.countP_cons] at hne ⊢
    rw [hcount]
    by_cases hc : r' = r
    · subst hc
      exact Or.inr ⟨by simp, run, since, dis, hr, hpc, Function.update_self ..⟩
    · exact Or.inl (by simp [hc])
  cases h with
  | receive r' run call since outcome hr hpc =>
    exact hrecord (dispositionOf outcome) (.received r' (.resolved outcome)) (!(dispositionOf outcome).isRetry) hr hpc (by simp)
  | timeout r' run since hr hpc => exact hrecord (.retry "bank_timeout") (.timedOut r') false hr hpc (by simp)
  | reapUpdate k began time clock stuck =>
    refine Or.inl ?_
    rw [List.append_assoc]
    refine hquiet ?_
    intro e he
    rcases List.mem_append.1 he with he | he
    all_goals
      obtain ⟨x, -, rfl⟩ := List.mem_map.1 he
      simp
  | accepted | inject | pollAdd | claim | call | refuse | answer | rethrow | exhaust | retry | final | retryAdd | reapAdd =>
    exact Or.inl (hquiet (by simp))
  | _ => exact Or.inl rfl

/-- A run that has not left the bank step has not recorded. -/
def RecordInv (s : State β) : Prop := ∀ r, (∀ run, s.runs r = some run → Pc.rank run.pc ≤ 5) →
  recordsBy r s.history = 0

theorem recordInv {C : State β → Action κ → Prop} (h : Reach (system port env) C s) : RecordInv s := by
  refine h.invariant (I := RecordInv) (fun _ _ => rfl) fun t a t' _ hI _ hs => ?_
  intro r hearly
  have hrule := step_sound hs
  rcases hrule.records r with hsame | ⟨-, run, since, dis, -, -, hr'⟩
  · rw [hsame]
    apply hI r
    intro run hr
    obtain ⟨pc, hr', hpc⟩ := hrule.run_persists hr
    have hle := hearly _ hr'
    rcases hpc with rfl | hlt
    · exact hle
    · exact Nat.le_trans (Nat.le_of_lt hlt) hle
  · exact absurd (hearly _ hr') (by simp [Pc.rank])

/-! ## The breaker never wedges -/

/-- Where a breaker is HALF-OPEN some admitted run of its worker is still in its bank step; an admitted run
has not recorded before it leaves that step, and has recorded once after it. -/
structure Unwedged (s : State β) : Prop where
  halfOpen : ∀ w, (s.breakers w).state = .HALF_OPEN → ∃ r run since call, s.runs r = some run ∧ run.worker = w ∧
    run.pc = .calling since ∧ s.calls r = some call
  once : ∀ r run call, s.runs r = some run → s.calls r = some call →
    (∀ since, run.pc = .calling since → recordsBy r s.history = 0) ∧
    (6 ≤ Pc.rank run.pc → run.pc ≠ .gone → recordsBy r s.history = 1)

/-- A run still waits for its call, and the bank has rejected it. -/
def AwaitsRejection (s : State β) (a : Action κ) : Prop := ∃ r run since call message, a = .receive r ∧
  s.runs r = some run ∧ run.pc = .calling since ∧ s.calls r = some call ∧ call.reply = some (.rejected message)

/-- A run that waits has made its call. -/
def WaitInv (s : State β) : Prop := All s.runs fun r run => ∀ since, run.pc = .calling since →
  ∃ call, s.calls r = some call

theorem Walk.not_calling {run : Run} {pc : Pc} (h : Walk s r run a pc) (since : Nat) :
    run.pc ≠ .calling since ∧ pc ≠ .calling since := by
  constructor
  · intro hc
    cases h with
    | fail hpc => rw [hc] at hpc; cases hpc
    | claimBegin hpc | claimNone hpc | claimIllegal hpc | claimRead hpc | claimClock hpc | claimLost hpc | settleBegin hpc
    | settleClock hpc | retryLost hpc | finalLost hpc | retryInvalid hpc => rw [hc] at hpc; cases hpc
  · rintro rfl
    cases h

theorem waitInv {C : State β → Action κ → Prop} (h : Reach (system port env) C s) : WaitInv s := by
  refine h.invariant (I := WaitInv) all_empty fun t a t' hr hI _ hs => ?_
  have hrule := step_sound hs
  have hkeep : All t.runs fun r run => ∀ since, run.pc = .calling since → ∃ call, t'.calls r = some call := by
    intro r run hrun since hpc
    obtain ⟨call, hcall⟩ := (hI hrun :) since hpc
    obtain ⟨call', hcall', -⟩ := hrule.call_persists (callInv hr) hcall
    exact ⟨call', hcall'⟩
  cases hrule with
  | walk _ r run pc hr hw => exact hkeep.but.set fun since hpc => absurd hpc (hw.not_calling since).2
  | call r run hr => exact hkeep.but.set fun _ _ => ⟨_, Function.update_self ..⟩
  | dequeue | claim | refuse | receive | rethrow | timeout | exhaust | retry | final | retryAdd | finish =>
    exact hkeep.but.set (by simp)
  | crash w =>
    refine All.map _ (hkeep.mono fun r run hrun => ?_)
    by_cases hw : run.worker = w
    · rw [if_pos hw]
      simp
    · rw [if_neg hw]; exact hrun
  | _ => exact hkeep

/-- A waiting run goes on waiting, or records and leaves its breaker out of HALF-OPEN, or is rejected, or its
worker crashes and the breaker with it. -/
theorem Step.calling (h : Step port env s a s') {run : Run} {since : Nat} (hr : s.runs r = some run)
    (hpc : run.pc = .calling since) : s'.runs r = some run ∨
      (recordsBy r s'.history = recordsBy r s.history + 1 ∧ (s'.breakers run.worker).state ≠ .HALF_OPEN) ∨
      AwaitsRejection s a ∨
      (s'.runs r = some { run with pc := .gone } ∧ (s'.breakers run.worker).state ≠ .HALF_OPEN) := by
  have hrecord : ∀ (e : Effect β) (b : Bool), (∀ r' b', e ≠ .recorded r' b') →
      recordsBy r (s.history ++ [e, .recorded r b]) = recordsBy r s.history + 1 := by
    intro e b hne
    rw [recordsBy_append]
    cases e <;> simp [recordsBy] at hne ⊢
  -- another run's step
  have hother : ∀ {r' : Nat} {run' : Run} {pc : Pc}, s.runs r' = some run' → (∀ since, run'.pc ≠ .calling since) →
      Function.update s.runs r' (some { run' with pc := pc }) r = some run := by
    intro r' run' pc hr' hne
    rw [Function.update_of_ne, hr]
    rintro rfl
    cases hr.symm.trans hr'
    exact hne since hpc
  cases h with
  | receive r' run' call since' outcome hr' hpc' =>
    by_cases hc : r = r'
    · subst hc
      cases hr.symm.trans hr'
      refine Or.inr (Or.inl ⟨hrecord _ _ (by simp), ?_⟩)
      dsimp only
      rw [Function.update_self]
      exact CircuitBreaker.record_state _ _ _ _
    · exact Or.inl ((Function.update_of_ne hc _ _).trans hr)
  | timeout r' run' since' hr' hpc' =>
    by_cases hc : r = r'
    · subst hc
      cases hr.symm.trans hr'
      refine Or.inr (Or.inl ⟨hrecord _ _ (by simp), ?_⟩)
      dsimp only
      rw [Function.update_self]
      exact CircuitBreaker.record_state _ _ _ _
    · exact Or.inl ((Function.update_of_ne hc _ _).trans hr)
  | rethrow r' run' call since' message hr' hpc' hcall hreply =>
    exact Or.inr (Or.inr (Or.inl ⟨r', run', since', call, message, rfl, hr', hpc', hcall, hreply⟩))
  | crash w =>
    dsimp only
    rw [hr, Option.map_some]
    by_cases hw : run.worker = w
    · subst hw
      refine Or.inr (Or.inr (Or.inr ⟨by rw [if_pos rfl], ?_⟩))
      simp
    · exact Or.inl (by rw [if_neg hw])
  | dequeue r' w jobId job hr' =>
    refine Or.inl ((Function.update_of_ne ?_ _ _).trans hr)
    rintro rfl
    rw [hr] at hr'
    cases hr'
  | walk _ r' run' pc hr' hw => exact Or.inl (hother hr' fun since => (hw.not_calling since).1)
  | claim r' run' began clock p hr' hpc' => exact Or.inl (hother hr' (by rw [hpc']; simp))
  | call r' run' hr' hpc' => exact Or.inl (hother hr' (by rw [hpc']; simp))
  | refuse r' run' hr' hpc' => exact Or.inl (hother hr' (by rw [hpc']; simp))
  | exhaust r' run' began clock reason p hr' hpc' => exact Or.inl (hother hr' (by rw [hpc']; simp))
  | retry r' run' began clock reason p hr' hpc' => exact Or.inl (hother hr' (by rw [hpc']; simp))
  | final r' run' began clock dis target p hr' hpc' => exact Or.inl (hother hr' (by rw [hpc']; simp))
  | retryAdd r' delay run' attempt hr' hpc' => exact Or.inl (hother hr' (by rw [hpc']; simp))
  | finish r' run' state hr' hpc' =>
    refine Or.inl (hother hr' ?_)
    rcases hpc' with ⟨hpc', -⟩ | ⟨hpc', -⟩ <;> rw [hpc'] <;> simp
  | _ => exact Or.inl hr

/-- A breaker that is HALF-OPEN was so before, or a run of its worker is admitted by it now. -/
theorem Step.halfOpen_inv (h : Step port env s a s') {w : Nat} (hopen : (s'.breakers w).state = .HALF_OPEN) :
    (s.breakers w).state = .HALF_OPEN ∨ ∃ r run since call, s'.runs r = some run ∧ run.worker = w ∧
      run.pc = .calling since ∧ s'.calls r = some call := by
  have hupdate : ∀ {w' : Nat} {b : CircuitBreaker}, (Function.update s.breakers w' b w).state = .HALF_OPEN →
      (w = w' → b.state = .HALF_OPEN → (s.breakers w).state = .HALF_OPEN) → (s.breakers w).state = .HALF_OPEN := by
    intro w' b hb hback
    by_cases hc : w = w'
    · subst hc
      rw [Function.update_self] at hb
      exact hback rfl hb
    · rwa [Function.update_of_ne hc] at hb
  cases h with
  | call r run hr hpc hallow =>
    by_cases hc : w = run.worker
    · exact Or.inr ⟨r, _, _, _, Function.update_self .., hc.symm, rfl, Function.update_self ..⟩
    · exact Or.inl (hupdate hopen fun heq => absurd heq hc)
  | refuse r run hr hpc hallow =>
    refine Or.inl (hupdate hopen ?_)
    rintro rfl hb
    rcases CircuitBreaker.allow_state hb with hold | hadmitted
    · exact hold
    · rw [hallow] at hadmitted
      cases hadmitted
  | receive r run call since outcome => exact Or.inl (hupdate hopen fun _ hb => absurd hb (CircuitBreaker.record_state _ _ _ _))
  | timeout r run since => exact Or.inl (hupdate hopen fun _ hb => absurd hb (CircuitBreaker.record_state _ _ _ _))
  | crash w' => exact Or.inl (hupdate hopen fun _ hb => by cases hb)
  | _ => exact Or.inl hopen

theorem Pc.rank_le (pc : Pc) : Pc.rank pc ≤ 11 := by
  unfold Pc.rank
  split <;> simp

theorem Pc.calling_of_rank {pc : Pc} (h : Pc.rank pc = 5) : ∃ since, pc = .calling since := by
  revert h
  unfold Pc.rank
  split <;> simp

/-- A run that asks an open breaker waits. -/
theorem Step.authorizes (h : Step port env s (.authorize r) s') {run : Run} (hr : s.runs r = some run)
    (hallow : ((s.breakers run.worker).allow env.cfg s.now).1 = true) :
    s'.runs r = some { run with pc := .calling s.now } := by
  cases h with
  | walk _ _ _ _ _ hw => cases hw
  | call _ run' hr' =>
    cases hr.symm.trans hr'
    exact Function.update_self ..
  | refuse _ run' hr' _ hallow' =>
    cases hr.symm.trans hr'
    rw [hallow] at hallow'
    cases hallow'

/-- A step that rejects no waiting run keeps every breaker unwedged, and conversely. -/
theorem unwedged_step (hr : Reach (system port env) Free s) (hP : Unwedged s)
    (hs : Pipeline.step port env s a = some s') : Unwedged s' ↔ ¬ AwaitsRejection s a := by
  have hrule := step_sound hs
  constructor
  · rintro hP' ⟨r, run, since, call, message, rfl, hrun, hpc, hcall, hreply⟩
    have hzero := (hP.once r run call hrun hcall).1 since hpc
    cases hrule with
    | walk _ _ _ _ _ hw => cases hw
    | receive _ run' call' _ outcome hrun' _ hcall' hreply' =>
      cases hcall.symm.trans hcall'
      rw [hreply] at hreply'
      cases hreply'
    | rethrow _ run' call' _ message' hrun' hpc' hcall' =>
      have hone := (hP'.once r _ call' (Function.update_self ..) hcall').2 (Nat.le_of_ble_eq_true rfl) (by simp)
      rw [recordsBy_append, hzero] at hone
      simp [recordsBy] at hone
  · intro hno
    refine ⟨fun w hopen => ?_, fun r run' call' hrun' hcall' => ⟨fun since hpc => ?_, fun hrank hgone => ?_⟩⟩
    · rcases hrule.halfOpen_inv hopen with hold | hnew
      · obtain ⟨r, run, since, call, hrun, rfl, hpc, hcall⟩ := hP.halfOpen w hold
        obtain ⟨call', hcall', -⟩ := hrule.call_persists (callInv hr) hcall
        rcases hrule.calling hrun hpc with hstill | ⟨-, hne⟩ | hrejected | ⟨-, hne⟩
        · exact ⟨r, run, since, call', hstill, rfl, hpc, hcall'⟩
        · exact absurd hopen hne
        · exact absurd hrejected hno
        · exact absurd hopen hne
      · exact hnew
    · apply recordInv (.step hr trivial hs) r
      intro run hrun
      cases hrun'.symm.trans hrun
      rw [hpc]
      exact Nat.le_refl 5
    · obtain ⟨call, hcall⟩ : ∃ call, s.calls r = some call := by
        rcases hrule.calls_inv hcall' with hold | ⟨rfl, run, hrun, hallow, -⟩ | ⟨-, old, hold, -⟩
        · exact ⟨_, hold⟩
        · -- the run makes its call now, so it waits
          rw [hrule.authorizes hrun hallow] at hrun'
          cases hrun'
          exact absurd hrank (by simp [Pc.rank])
        · exact ⟨_, hold⟩
      obtain ⟨-, run, hrun, -, hlate⟩ := callInv hr hcall
      obtain ⟨pc, hnext, hpc⟩ := hrule.run_persists hrun
      cases hrun'.symm.trans hnext
      rcases Nat.lt_or_ge 5 (Pc.rank run.pc) with hpast | hwaits
      · have hhere : run.pc ≠ .gone := by
          rintro hc
          rcases hpc with rfl | hlt
          · exact hgone hc
          · rw [hc] at hlt
            exact absurd hlt (Nat.not_lt.2 (Pc.rank_le pc))
        have hone := (hP.once r run call hrun hcall).2 hpast hhere
        rcases hrule.records r with hsame | ⟨-, run₂, since, dis, hrun₂, hpc₂, -⟩
        · rw [hsame, hone]
        · cases hrun.symm.trans hrun₂
          rw [hpc₂] at hpast
          exact absurd hpast (by simp [Pc.rank])
      · obtain ⟨since, hcalling⟩ := Pc.calling_of_rank (Nat.le_antisymm hwaits hlate)
        rcases hrule.calling hrun hcalling with hstill | ⟨hmore, -⟩ | hrejected | ⟨hcrashed, -⟩
        · have hsame : pc = run.pc := congrArg Run.pc (Option.some.inj (hnext.symm.trans hstill))
          subst hsame
          exact absurd hrank (Nat.not_le.2 (Nat.lt_succ_of_le hwaits))
        · rw [hmore, (hP.once r run call hrun hcall).1 since hcalling]
        · exact absurd hrejected hno
        · cases hnext.symm.trans hcrashed
          exact absurd rfl hgone

/-- In every run of the pipeline over any bank, no breaker is ever wedged and every admitted run has recorded
once when it leaves its bank step, exactly if no run's call is rejected while the run waits for it. -/
theorem breaker_unwedged_iff {l : List (State β × Action κ)} (h : Transition.Run (system port env) l s) :
    (∀ t ∈ states l s, Unwedged t) ↔ ∀ x ∈ l, ¬ AwaitsRejection x.1 x.2 := by
  refine h.forall_iff (C := fun s a => ¬ AwaitsRejection s a) ⟨fun w hw => ?_, fun _ _ _ hr => ?_⟩
    fun t a t' hr hP hs => unwedged_step hr.free hP hs
  · cases hw
  · cases hr

/-- A worker takes a job whose payment it may not claim and gives up on the bank; the job is redelivered. -/
def giveUp (jobId : String) (r : Nat) : List (Action κ) :=
  [.dequeue r 0 jobId, .claimBegin r, .claimSelect r, .authorize r, .tick 2000, .timeout r, .stall jobId]

/-- The bank is too slow for five runs, the breaker opens, and the probe after its open time closes it. -/
theorem breaker_unwedged_probe : ∃ l s, Transition.Run (system SimulatedBankAdapter.port standard) l s ∧
    (s.breakers 0).state = .CLOSED ∧
    ((∀ t ∈ states l s, Unwedged t) ↔ ∀ x ∈ l, ¬ AwaitsRejection x.1 x.2) := by
  obtain ⟨l, s, hl, hp⟩ := exists_run_of_exec (show (exec (system SimulatedBankAdapter.port standard)
    (system SimulatedBankAdapter.port standard).init
      (accept order 0 "00" ++ [.setConfig { latencyMs := some 5000 }] ++ claim 0 0 "00" ++ [.crash 0, .stall "00"] ++
        [1, 2, 3, 4, 5].flatMap (giveUp "00") ++ [.tick 10000, .setConfig { latencyMs := some 200 }] ++
        [.dequeue 6 0 "00", .claimBegin 6, .claimSelect 6] ++ call 6 200)).any
      (fun s => (s.breakers 0).state = .CLOSED) = true by decide)
  exact ⟨l, s, hl, of_decide_eq_true hp, breaker_unwedged_iff hl⟩

/-- A bank that is reached after its latency and then rejects every call. -/
def resettingBank : BankPort Nat Nat where
  init := 5000
  latencyMs ms := ms
  authorize _ ms := (.rejected "ECONNRESET", ms)
  setConfig ms _ := ms

/-- No recorded call has a run that waits for it. -/
def noneWaits (s : State β) : Bool := s.history.all fun e =>
  match e with
  | .called r _ => (s.runs r).all fun run => Pc.rank run.pc ≠ 5
  | _ => true

theorem not_calling_of_noneWaits {C : State β → Action κ → Prop} (h : Reach (system port env) C s)
    (hnone : noneWaits s = true) {r : Nat} {run : Run} (hr : s.runs r = some run) (since : Nat) :
    run.pc ≠ .calling since := by
  intro hpc
  obtain ⟨call, hcall⟩ := (waitInv h hr :) since hpc
  have hone : (s.runs r).all (fun run => Pc.rank run.pc ≠ 5) = true :=
    List.all_eq_true.1 hnone _ (callInv h hcall :).1
  rw [hr, Option.all_some, hpc] at hone
  cases hone

/-- The breaker opens; the probe after its open time is rejected, and no run is left to record: the breaker
stays HALF-OPEN. -/
theorem rejected_probe_wedges : ∃ s, Reach (system resettingBank standard) Free s ∧
    (s.breakers 0).state = .HALF_OPEN ∧ (∀ r run since, s.runs r = some run → run.pc ≠ .calling since) ∧
    ¬ Unwedged s := by
  obtain ⟨s, hs, hp⟩ := exists_reach_of_exec (show (exec (system resettingBank standard)
    (system resettingBank standard).init
      (accept order 0 "00" ++ claim 0 0 "00" ++ [.crash 0, .stall "00"] ++
        [1, 2, 3, 4, 5].flatMap (giveUp "00") ++ [.tick 10000, .setConfig 200] ++
        [.dequeue 6 0 "00", .claimBegin 6, .claimSelect 6] ++ call 6 200)).any
      (fun s => (s.breakers 0).state = .HALF_OPEN && noneWaits s) = true by decide)
  obtain ⟨hopen, hnone⟩ := Bool.and_eq_true_iff.1 hp
  have hidle : ∀ r run since, s.runs r = some run → run.pc ≠ .calling since := fun r run since hr =>
    not_calling_of_noneWaits hs hnone hr since
  refine ⟨s, hs, of_decide_eq_true hopen, hidle, fun hall => ?_⟩
  obtain ⟨r, run, since, call, hr, -, hpc, -⟩ := hall.halfOpen 0 (of_decide_eq_true hopen)
  exact hidle r run since hr hpc

end PaymentsProcessor.Pipeline
