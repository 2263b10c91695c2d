/-
Who acts. The early returns in txn 1 leave its callback only, so a run that lost its claim goes on to the
bank, its breaker and the finalising transactions. Where every run's txn 1 wins, only winners act.
-/
import PaymentsProcessor.Base.History
import PaymentsProcessor.Pipeline.Runs

namespace PaymentsProcessor.Pipeline

open PaymentStatus Worker Reaper Transition PartialMap History

variable {β κ : Type} {port : BankPort β κ} {env : Env} {s s' : State β} {a : Action κ}

/-! ## Only the claim winner acts -/

/-- Run `r` asks its breaker, calls the bank, records on its breaker or moves a payment out of
PROCESSING. -/
def Acts (r : Nat) : Effect β → Prop
  | .refused r' | .called r' _ | .recorded r' _ => r' = r
  | .moved (.worker r') _ src _ _ => r' = r ∧ src = some PROCESSING
  | _ => False

instance (r : Nat) : DecidablePred (Acts (β := β) r)
  | .refused r' | .called r' _ | .recorded r' _ => inferInstanceAs (Decidable (r' = r))
  | .moved (.worker r') _ src _ _ => inferInstanceAs (Decidable (r' = r ∧ src = some PROCESSING))
  | .moved .submission .. | .moved (.reaper _) .. | .submitted .. | .reaped .. | .added .. | .answered .. | .received ..
  | .timedOut .. => inferInstanceAs (Decidable False)

/-- Whatever a run does to the bank, its breaker or a PROCESSING payment, its own txn 1 had committed the
transition of its payment to PROCESSING before. -/
def OnlyWinnersAct (s : State β) : Prop := Justified (fun pre e => ∀ r, Acts r e →
  ∃ run, s.runs r = some run ∧ Won pre r run.data.paymentId) s.history

/-- Txn 1 of the run, if this step is one of its statements, finds its payment as it needs it: the select
a row that may move to PROCESSING, the compare-and-swap the status that was read. -/
def claimWins (s : State β) : Action κ → Bool
  | .claimSelect r => (s.runs r).all fun run =>
      (s.db.payments run.data.paymentId).any fun p => canTransition p.status PROCESSING
  | .claimUpdate r => (s.runs r).all fun run =>
      match run.pc with
      | .claimRead _ status _ => (s.db.payments run.data.paymentId).any fun p => p.status = status
      | _ => true
  | _ => true

/-- A run between txn 1 and its finalising transaction has won its claim. -/
def WinnerInv (s : State β) : Prop :=
  All s.runs fun r run => Pc.inFlight run.pc = true → Won s.history r run.data.paymentId

/-- The early returns are not taken. -/
theorem Walk.wins {r : Nat} {run : Run} {pc : Pc} (hr : s.runs r = some run) (hwin : claimWins s a = true)
    (hw : Walk s r run a pc) (hflight : Pc.inFlight pc = true) : Pc.inFlight run.pc = true := by
  cases hw with
  | claimNone hpc hp => simp [claimWins, hr, hp] at hwin
  | claimIllegal hpc hp hst => simp [claimWins, hr, hp, hst] at hwin
  | claimLost hpc hp =>
    simp only [claimWins, hr, Option.all_some, hpc] at hwin
    obtain ⟨p, hp', hst⟩ := (Option.any_eq_true _ _).1 hwin
    exact absurd (of_decide_eq_true hst) (hp p hp')
  | settleBegin hpc | settleClock hpc => rw [hpc]; rfl
  | claimBegin | claimRead | claimClock | retryLost | finalLost | retryInvalid | fail => cases hflight

theorem WinnerInv.step (h : WinnerInv s) (hwin : claimWins s a = true) (hs : Step port env s a s') :
    WinnerInv s' := by
  have hI : All s.runs fun r run => Pc.inFlight run.pc = true → Won s'.history r run.data.paymentId :=
    h.mono fun _ _ hrun hflight => (hrun hflight).mono fun _ => hs.mem_history
  cases hs with
  | walk _ r run pc hr hw => exact hI.but.set fun hflight => (hI hr :) (hw.wins hr hwin hflight)
  | claim r run began clock p hr hpc =>
    exact hI.but.set fun _ => ⟨p.status, p.version + 1, List.mem_append_right _ (List.mem_singleton_self _)⟩
  | call r run hr hpc => exact hI.but.set fun _ => (hI hr :) (by rw [hpc]; rfl)
  | refuse r run hr hpc => exact hI.but.set fun _ => (hI hr :) (by rw [hpc]; rfl)
  | receive r run call since outcome hr hpc => exact hI.but.set fun _ => (hI hr :) (by rw [hpc]; rfl)
  | timeout r run since hr hpc => exact hI.but.set fun _ => (hI hr :) (by rw [hpc]; rfl)
  | dequeue | rethrow | exhaust | retry | final | retryAdd | finish => exact hI.but.set (by rintro ⟨⟩)
  | crash w =>
    refine All.map _ (hI.mono fun r run hrun => ?_)
    split
    · rintro ⟨⟩
    · exact hrun
  | _ => exact hI

theorem OnlyWinnersAct.step (h : OnlyWinnersAct s) (hpcs : PcInv s) (hwinners : WinnerInv s)
    (hs : Step port env s a s') : OnlyWinnersAct s' := by
  have hpersist : ∀ {pre : List (Effect β)} {r : Nat}, (∃ run, s.runs r = some run ∧ Won pre r run.data.paymentId) →
      ∃ run, s'.runs r = some run ∧ Won pre r run.data.paymentId := by
    rintro pre r ⟨run, hr, hwon⟩
    obtain ⟨pc, hr', -⟩ := hs.run_persists hr
    exact ⟨_, hr', hwon⟩
  have hJ : Justified (fun pre e => ∀ r, Acts r e → ∃ run, s'.runs r = some run ∧ Won pre r run.data.paymentId)
      s.history := h.mono fun pre e he r hacts => hpersist (he r hacts)
  -- an act of a run in flight, which has won
  have hact : ∀ {pre : List (Effect β)} {r : Nat} {run : Run}, s.runs r = some run → Pc.inFlight run.pc = true →
      (∀ e ∈ s.history, e ∈ pre) → ∃ run, s'.runs r = some run ∧ Won pre r run.data.paymentId :=
    fun hr hflight hsub => hpersist ⟨_, hr, ((hwinners hr :) hflight).mono hsub⟩
  cases hs with
  | claim r run began clock p hr hpc =>
    refine hJ.snoc fun r' hacts => ?_
    have hcan : Pc.WF run.pc := hpcs hr
    rw [hpc, Pc.WF, Option.some.inj hacts.2] at hcan
    cases hcan
  | call r run hr hpc => exact hJ.snoc fun r' hacts => by cases hacts; exact hact hr (by rw [hpc]; rfl) fun _ => id
  | refuse r run hr hpc => exact hJ.snoc fun r' hacts => by cases hacts; exact hact hr (by rw [hpc]; rfl) fun _ => id
  | exhaust r run began clock reason p hr hpc =>
    exact hJ.snoc fun r' hacts => by cases hacts.1; exact hact hr (by rw [hpc]; rfl) fun _ => id
  | retry r run began clock reason p hr hpc =>
    exact hJ.snoc fun r' hacts => by cases hacts.1; exact hact hr (by rw [hpc]; rfl) fun _ => id
  | final r run began clock dis target p hr hpc =>
    exact hJ.snoc fun r' hacts => by cases hacts.1; exact hact hr (by rw [hpc]; rfl) fun _ => id
  | receive r run call since outcome hr hpc =>
    have h1 := hJ.snoc (e := .received r (.resolved outcome)) fun r' hacts => by cases hacts
    have h2 := h1.snoc (e := .recorded r (!(dispositionOf outcome).isRetry)) fun r' hacts => by
      cases hacts; exact hact hr (by rw [hpc]; rfl) fun _ => List.mem_append_left _
    rwa [List.append_assoc] at h2
  | timeout r run since hr hpc =>
    have h1 := hJ.snoc (e := .timedOut r) fun r' hacts => by cases hacts
    have h2 := h1.snoc (e := .recorded r false) fun r' hacts => by
      cases hacts; exact hact hr (by rw [hpc]; rfl) fun _ => List.mem_append_left _
    rwa [List.append_assoc] at h2
  | reapUpdate k began time clock stuck hk =>
    refine (hJ.append fun pre e he r hacts => ?_).append fun pre e he r hacts => ?_
    all_goals
      obtain ⟨x, -, rfl⟩ := List.mem_map.1 he
      exact hacts.elim
  | accepted dto key hash correlationId amountCents row =>
    have h1 := hJ.snoc (e := .submitted row.id dto correlationId) fun r' hacts => by cases hacts
    have h2 := h1.snoc (e := .moved .submission row.id none PENDING 0) fun r' hacts => by cases hacts
    rwa [List.append_assoc] at h2
  | inject | pollAdd | retryAdd | reapAdd | answer | rethrow => exact hJ.snoc fun r' hacts => by cases hacts
  | _ => exact hJ

/-- In every run of the pipeline in which every txn 1 wins its claim, only winners act: whatever a run
does to the bank, its breaker or a PROCESSING payment follows its own claim of the payment. -/
theorem only_winners_act (h : Reach (system port env) (fun s a => claimWins s a = true) s) : OnlyWinnersAct s := by
  have hI : WinnerInv s ∧ OnlyWinnersAct s := by
    refine h.invariant (I := fun s => WinnerInv s ∧ OnlyWinnersAct s) ⟨all_empty, justified_nil⟩
      fun t a t' hr hI hwin hs => ?_
    exact ⟨hI.1.step hwin (step_sound hs), hI.2.step (pcInv hr) hI.1 (step_sound hs)⟩
  exact hI.2

/-- A run that completes a payment; every claim in it wins. -/
theorem only_winners_act_completed : ∃ s,
    Reach (system SimulatedBankAdapter.port standard) (fun s a => claimWins s a = true) s ∧
    (s.db.payments "0").any (fun p => p.status = COMPLETED) = true ∧ OnlyWinnersAct s := by
  obtain ⟨s, hs, hp⟩ := exists_reach_of_execIf (show (execIf (system SimulatedBankAdapter.port standard)
    (fun s a => claimWins s a = true) (system SimulatedBankAdapter.port standard).init
      (accept order 0 "00" ++ claim 0 0 "00" ++ call 0 200 ++ settle 0)).any
      (fun s => (s.db.payments "0").any fun p => p.status = COMPLETED) = true by decide)
  exact ⟨s, hs, hp, only_winners_act hs⟩

theorem OnlyWinnersAct.exists_won (h : OnlyWinnersAct s) {r : Nat} {e : Effect β} (he : e ∈ s.history)
    (hacts : Acts r e) : ∃ run, s.runs r = some run ∧ Won s.history r run.data.paymentId := by
  obtain ⟨pre, post, hh⟩ := List.append_of_mem he
  obtain ⟨run, hr, hwon⟩ := h hh r hacts
  exact ⟨run, hr, hwon.mono fun x hx => hh ▸ List.mem_append_left _ hx⟩

/-- A job is redelivered while its first run holds the claim: the second run finds its payment PROCESSING
and calls the bank. -/
theorem loser_calls_bank : ∃ s, Reach (system SimulatedBankAdapter.port standard) Free s ∧ ¬ OnlyWinnersAct s := by
  obtain ⟨s, hs, hp⟩ := exists_reach_of_exec (show (exec (system SimulatedBankAdapter.port standard)
    (system SimulatedBankAdapter.port standard).init
      (accept order 0 "00" ++ claim 0 0 "00" ++
        [.stall "00", .dequeue 1 1 "00", .claimBegin 1, .claimSelect 1, .authorize 1])).any
      (fun s => (s.history.any fun e => Acts 1 e) && s.history.all fun e => moveBy 1 e = none) = true by decide)
  rw [Bool.and_eq_true, List.any_eq_true, List.all_eq_true] at hp
  obtain ⟨⟨e, he, hacts⟩, hall⟩ := hp
  refine ⟨s, hs, fun hwinners => ?_⟩
  obtain ⟨run, -, src, version, hmoved⟩ := hwinners.exists_won he (of_decide_eq_true hacts)
  have hnone := of_decide_eq_true (hall _ hmoved)
  rw [moveBy_eq_some.2 rfl] at hnone
  cases hnone

end PaymentsProcessor.Pipeline
