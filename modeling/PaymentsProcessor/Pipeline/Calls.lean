/-
What is true of every bank call: it asks for what its run's job says, once a run; the answer a run gets
is the call's; and a run that got an outcome ends as that outcome says.
-/
import PaymentsProcessor.Pipeline.Runs

namespace PaymentsProcessor.Pipeline

open PaymentStatus Worker Reaper Transition PartialMap

variable {β κ : Type} {port : BankPort β κ} {env : Env} {s s' : State β} {a : Action κ} {r : Nat}

/-! ## Calls -/

/-- A call asks for what its run's job says, is recorded, and its run is past the start of the call. -/
def CallInv (s : State β) : Prop := All s.calls fun r call => .called r call.req ∈ s.history ∧
  ∃ run, s.runs r = some run ∧ call.req = requestOf run.data ∧ 5 ≤ Pc.rank run.pc

theorem CallInv.step (h : CallInv s) (hs : Step port env s a s') : CallInv s' := by
  have hI : All s.calls fun r call => .called r call.req ∈ s'.history ∧
      ∃ run, s'.runs r = some run ∧ call.req = requestOf run.data ∧ 5 ≤ Pc.rank run.pc := by
    refine h.mono fun r call hcall => ⟨hs.mem_history hcall.1, ?_⟩
    obtain ⟨-, run, hr, hreq, hrank⟩ := hcall
    obtain ⟨pc, hr', hpc⟩ := hs.run_persists hr
    refine ⟨_, hr', hreq, ?_⟩
    rcases hpc with rfl | hlt
    · exact hrank
    · exact Nat.le_of_lt (Nat.lt_of_le_of_lt hrank hlt)
  cases hs with
  | call r run hr hpc =>
    exact hI.but.set ⟨List.mem_append_right _ (List.mem_singleton_self _), _, Function.update_self .., rfl, Nat.le_refl 5⟩
  | answer r call hcall => exact hI.but.set (hI hcall :)
  | _ => exact hI

theorem callInv {C : State β → Action κ → Prop} (h : Reach (system port env) C s) : CallInv s :=
  h.invariant (I := CallInv) all_empty fun _ _ _ _ hI _ hs => hI.step (step_sound hs)

/-- A recorded call is old, or its run makes it now. -/
theorem Step.called_inv (h : Step port env s a s') {req : BankAuthorizeRequest}
    (hm : .called r req ∈ s'.history) : .called r req ∈ s.history ∨
      ∃ run, s'.runs r = some run ∧ req = requestOf run.data := by
  cases h with
  | call r' run hr hpc =>
    rcases List.mem_append.1 hm with hold | hnew
    · exact Or.inl hold
    · cases List.mem_singleton.1 hnew
      exact Or.inr ⟨_, Function.update_self .., rfl⟩
  | _ => exact Or.inl (by first | exact hm | exact (List.mem_append.1 hm).resolve_right (by simp) | simpa using hm)

/-- Every recorded call asks for what its run's job says. -/
def CalledInv (s : State β) : Prop := ∀ r req, .called r req ∈ s.history →
  ∃ run, s.runs r = some run ∧ req = requestOf run.data

theorem calledInv {C : State β → Action κ → Prop} (h : Reach (system port env) C s) : CalledInv s := by
  refine h.invariant (I := CalledInv) (fun _ _ hm => absurd hm List.not_mem_nil) fun t a t' _ hI _ hs => ?_
  intro r req hm
  have hrule := step_sound hs
  rcases hrule.called_inv hm with hold | hnew
  · obtain ⟨run, hr, hreq⟩ := hI r req hold
    obtain ⟨pc, hr', -⟩ := hrule.run_persists hr
    exact ⟨_, hr', hreq⟩
  · exact hnew

/-- A call is never forgotten, and an answer never replaced. -/
theorem Step.call_persists (hI : CallInv s) (h : Step port env s a s') {call : Call} (hcall : s.calls r = some call) :
    ∃ call', s'.calls r = some call' ∧ call'.req = call.req ∧ ∀ reply, call.reply = some reply →
      call'.reply = some reply := by
  cases h with
  | call r' run hr hpc =>
    have hne : r ≠ r' := by
      rintro rfl
      obtain ⟨-, run', hr', -, hrank⟩ := hI hcall
      cases hr.symm.trans hr'
      rw [hpc] at hrank
      exact absurd hrank (by decide)
    exact ⟨call, (Function.update_of_ne hne _ _).trans hcall, rfl, fun _ => id⟩
  | answer r' call' hcall' hreply =>
    by_cases hc : r = r'
    · subst hc
      cases hcall.symm.trans hcall'
      exact ⟨_, Function.update_self .., rfl, fun reply hr => by rw [hreply] at hr; cases hr⟩
    · exact ⟨call, (Function.update_of_ne hc _ _).trans hcall, rfl, fun _ => id⟩
  | _ => exact ⟨call, hcall, rfl, fun _ => id⟩

/-- A call is old, or its run makes it now, or it is answered now. -/
theorem Step.calls_inv (h : Step port env s a s') {call : Call} (hcall : s'.calls r = some call) :
    s.calls r = some call ∨
    (a = .authorize r ∧ ∃ run, s.runs r = some run ∧ ((s.breakers run.worker).allow env.cfg s.now).1 = true ∧
      call.req = requestOf run.data) ∨
    a = .answer r ∧ ∃ old, s.calls r = some old ∧ old.reply = none ∧ call.req = old.req := by
  cases h with
  | call r' run hr hpc hallow =>
    by_cases hc : r = r'
    · subst hc
      cases (Function.update_self ..).symm.trans hcall
      exact Or.inr (Or.inl ⟨rfl, run, hr, hallow, rfl⟩)
    · exact Or.inl ((Function.update_of_ne hc _ _).symm.trans hcall)
  | answer r' old hold hreply =>
    by_cases hc : r = r'
    · subst hc
      cases (Function.update_self ..).symm.trans hcall
      exact Or.inr (Or.inr ⟨rfl, old, hold, hreply, rfl⟩)
    · exact Or.inl ((Function.update_of_ne hc _ _).symm.trans hcall)
  | _ => exact Or.inl hcall

/-! ## Answers -/

/-- The disposition a run holds between the bank step and its finalising transaction. -/
def Pc.disposition : Pc → Option Disposition
  | .decided dis | .settleBegun _ dis _ => some dis
  | _ => none

/-- An answer a run got is old, or the run gets it now from its call. -/
theorem Step.received_inv (h : Step port env s a s') {outcome : BankOutcome}
    (hm : .received r (.resolved outcome) ∈ s'.history) : .received r (.resolved outcome) ∈ s.history ∨
      a = .receive r ∧ ∃ run since call, s.runs r = some run ∧ run.pc = .calling since ∧ s.calls r = some call ∧
        call.reply = some (.resolved outcome) ∧ s'.runs r = some { run with pc := .decided (dispositionOf outcome) } := by
  cases h with
  | receive r' run call since outcome' hr hpc hcall hreply =>
    rcases List.mem_append.1 hm with hold | hnew
    · exact Or.inl hold
    · simp only [List.mem_cons, Effect.received.injEq, BankReply.resolved.injEq, reduceCtorEq, List.not_mem_nil,
        or_false] at hnew
      obtain ⟨rfl, rfl⟩ := hnew
      exact Or.inr ⟨rfl, run, since, call, hr, hpc, hcall, hreply, Function.update_self ..⟩
  | _ => exact Or.inl (by first | exact hm | exact (List.mem_append.1 hm).resolve_right (by simp) | simpa using hm)

/-- A run that got an outcome got it from its call. -/
def ReceivedInv (s : State β) : Prop := ∀ r outcome, .received r (.resolved outcome) ∈ s.history →
  ∃ call, s.calls r = some call ∧ call.reply = some (.resolved outcome)

theorem receivedInv {C : State β → Action κ → Prop} (h : Reach (system port env) C s) : ReceivedInv s := by
  refine h.invariant (I := ReceivedInv) (fun _ _ hm => absurd hm List.not_mem_nil) fun t a t' hr hI _ hs => ?_
  intro r outcome hm
  have hrule := step_sound hs
  obtain ⟨call, hcall, hreply⟩ : ∃ call, t.calls r = some call ∧ call.reply = some (.resolved outcome) := by
    rcases hrule.received_inv hm with hold | ⟨-, run, since, call, -, -, hcall, hreply, -⟩
    · exact hI r outcome hold
    · exact ⟨call, hcall, hreply⟩
  obtain ⟨call', hcall', -, hkeep⟩ := hrule.call_persists (callInv hr) hcall
  exact ⟨call', hcall', hkeep _ hreply⟩

/-- A run that got an outcome holds its disposition until it ends. -/
def DisposedInv (s : State β) : Prop := All s.runs fun r run => ∀ outcome,
  .received r (.resolved outcome) ∈ s.history →
    6 ≤ Pc.rank run.pc ∧ ∀ dis, Pc.disposition run.pc = some dis → dis = dispositionOf outcome

theorem Walk.disposition {run : Run} {pc : Pc} (h : Walk s r run a pc) {dis : Disposition}
    (hdis : Pc.disposition pc = some dis) : Pc.disposition run.pc = some dis := by
  cases h with
  | settleBegin hpc | settleClock hpc => rw [hpc]; exact hdis
  | _ => cases hdis

theorem DisposedInv.step (h : DisposedInv s) (hcalls : CallInv s) (hreceived : ReceivedInv s)
    (hs : Step port env s a s') : DisposedInv s' := by
  -- a run that moves on, from where it may hold a disposition, to where it holds the same one
  have hset : ∀ {r : Nat} {run : Run} {pc : Pc}, (∀ r, a ≠ .receive r) → s.runs r = some run →
      (6 ≤ Pc.rank run.pc → 6 ≤ Pc.rank pc ∧ ∀ dis, Pc.disposition pc = some dis → Pc.disposition run.pc = some dis) →
      All (Function.update s.runs r (some { run with pc := pc })) fun r run => ∀ outcome,
        .received r (.resolved outcome) ∈ s'.history →
          6 ≤ Pc.rank run.pc ∧ ∀ dis, Pc.disposition run.pc = some dis → dis = dispositionOf outcome := by
    intro r run pc ha hr hpc
    have hold : ∀ {r outcome}, .received r (.resolved outcome) ∈ s'.history →
        .received r (.resolved outcome) ∈ s.history := fun hm => (hs.received_inv hm).resolve_right fun hc => ha _ hc.1
    refine AllBut.set (fun r' run' _ hr' outcome hm => (h hr' :) outcome (hold hm)) fun outcome hm => ?_
    obtain ⟨hrank, hdis⟩ := (h hr :) outcome (hold hm)
    exact ⟨(hpc hrank).1, fun dis hd => hdis dis ((hpc hrank).2 dis hd)⟩
  have hkeep : (∀ r, a ≠ .receive r) → All s.runs fun r run => ∀ outcome,
      .received r (.resolved outcome) ∈ s'.history →
        6 ≤ Pc.rank run.pc ∧ ∀ dis, Pc.disposition run.pc = some dis → dis = dispositionOf outcome :=
    fun ha => h.mono fun r run hrun outcome hm => hrun outcome ((hs.received_inv hm).resolve_right fun hc => ha _ hc.1)
  -- a run that cannot have got an outcome yet
  have hearly : ∀ {pc pc' : Pc}, Pc.rank pc < 6 → 6 ≤ Pc.rank pc →
      6 ≤ Pc.rank pc' ∧ ∀ dis, Pc.disposition pc' = some dis → Pc.disposition pc = some dis :=
    fun h1 h2 => absurd h2 (Nat.not_le.2 h1)
  cases hs with
  | walk _ r run pc hr hw =>
    refine hset (fun r' hc => by subst hc; cases hw) hr fun hrank => ⟨?_, fun dis => hw.disposition⟩
    exact Nat.le_of_lt (Nat.lt_of_le_of_lt hrank hw.rank_lt)
  | dequeue r w jobId job hr =>
    refine (hkeep (by simp)).but.set fun outcome hm => ?_
    obtain ⟨call, hcall, -⟩ := hreceived r outcome hm
    obtain ⟨-, run, hr', -⟩ := hcalls hcall
    rw [hr] at hr'
    cases hr'
  | receive r run call since outcome hr hpc =>
    have hnew : ∀ {r' outcome'}, .received r' (.resolved outcome') ∈ s.history ++
        [.received r (.resolved outcome), .recorded r (!(dispositionOf outcome).isRetry)] →
        .received r' (.resolved outcome') ∈ s.history ∨ r' = r ∧ outcome' = outcome := by
      intro r' outcome' hm
      simpa using hm
    refine AllBut.set (fun r' run' hne hr' outcome' hm => ?_) fun outcome' hm => ⟨by simp [Pc.rank], fun dis hdis => ?_⟩
    · exact (h hr' :) outcome' ((hnew hm).resolve_right fun hc => hne hc.1)
    · rcases hnew hm with hold | ⟨-, rfl⟩
      · have hrank := ((h hr :) outcome' hold).1
        rw [hpc] at hrank
        exact absurd hrank (by simp [Pc.rank])
      · exact (Option.some.inj hdis).symm
  | claim r run began clock p hr hpc => exact hset (by simp) hr (hearly (by simp [hpc, Pc.rank]))
  | call r run hr hpc => exact hset (by simp) hr (hearly (by simp [hpc, Pc.rank]))
  | refuse r run hr hpc => exact hset (by simp) hr (hearly (by simp [hpc, Pc.rank]))
  | timeout r run since hr hpc => exact hset (by simp) hr (hearly (by simp [hpc, Pc.rank]))
  | rethrow r run call since message hr hpc =>
    refine (h.mono fun r' run' hrun outcome hm => hrun outcome (by simpa using hm)).but.set fun outcome hm => ?_
    exact ⟨by simp [Pc.rank], fun _ h => by cases h⟩
  | exhaust r run began clock reason p hr => exact hset (by simp) hr fun _ => ⟨by simp [Pc.rank], fun _ h => by cases h⟩
  | retry r run began clock reason p hr => exact hset (by simp) hr fun _ => ⟨by simp [Pc.rank], fun _ h => by cases h⟩
  | final r run began clock dis target p hr => exact hset (by simp) hr fun _ => ⟨by simp [Pc.rank], fun _ h => by cases h⟩
  | retryAdd r delay run attempt hr => exact hset (by simp) hr fun _ => ⟨by simp [Pc.rank], fun _ h => by cases h⟩
  | finish r run state hr => exact hset (by simp) hr fun _ => ⟨by simp [Pc.rank], fun _ h => by cases h⟩
  | crash w =>
    refine All.map _ ((hkeep (by simp)).mono fun r run hrun outcome hm => ?_)
    split
    · exact ⟨by simp [Pc.rank], fun _ h => by cases h⟩
    · exact hrun outcome hm
  | _ => exact hkeep (by simp)

theorem disposedInv {C : State β → Action κ → Prop} (h : Reach (system port env) C s) : DisposedInv s :=
  h.invariant (I := DisposedInv) all_empty fun _ _ _ hr hI _ hs =>
    hI.step (callInv hr) (receivedInv hr) (step_sound hs)

/-- A run that got an outcome and settled its payment settled it as the outcome says. -/
def SettlesInv (s : State β) : Prop := ∀ r outcome pid dst version, .received r (.resolved outcome) ∈ s.history →
  .moved (.worker r) pid (some PROCESSING) dst version ∈ s.history → Ends (dispositionOf outcome) dst

theorem settlesInv {C : State β → Action κ → Prop} (h : Reach (system port env) C s) : SettlesInv s := by
  refine h.invariant (I := SettlesInv) (fun _ _ _ _ _ hm => absurd hm List.not_mem_nil) fun t a t' hr hI _ hs => ?_
  intro r outcome pid dst version hreceived hmoved
  have hrule := step_sound hs
  rcases hrule.received_inv hreceived with hold | ⟨rfl, run, since, call, hrun, hpc, -⟩
  · rcases hrule.moved_inv hmoved with hold' | ⟨run, pc, hrun, -, -, hmove, -⟩
    · exact hI r outcome pid dst version hold hold'
    · cases hmove with
      | claim hpc =>
        have hcan : Pc.WF run.pc := pcInv hr hrun
        rw [hpc] at hcan
        cases hcan
      | settle hpc hends =>
        rename_i began dis _
        have hdis := ((disposedInv hr hrun :) outcome hold).2 dis (by rw [hpc]; rfl)
        rwa [← hdis]
  · -- the run only gets its answer now, so it has not settled yet
    have hearly : ∀ {run' : Run}, t.runs r = some run' → Pc.rank run'.pc = 5 := by
      intro run' hrun'
      cases hrun.symm.trans hrun'
      rw [hpc]
      rfl
    rcases hrule.moved_inv hmoved with hold' | ⟨run', pc, hrun', -, -, hmove, -⟩
    · obtain ⟨run', hrun', hrank⟩ := settledInv hr r pid dst version hold'
      rw [hearly hrun'] at hrank
      exact absurd hrank (by decide)
    · have hrank := hearly hrun'
      cases hmove with
      | claim hpc' => rw [hpc'] at hrank; cases hrank
      | settle hpc' => rw [hpc'] at hrank; cases hrank

end PaymentsProcessor.Pipeline
