/-
The correlation id on its way through a payment's life. Outbox payloads, job data and retries carry it on; the
reaper's events and jobs do not. A run keeps it exactly as long as no tick reaps a PROCESSING payment and no
job without it commits a transition.
-/
import PaymentsProcessor.Ledger.Refinement
import PaymentsProcessor.Pipeline.Delivery

namespace PaymentsProcessor.Pipeline

open PaymentStatus Worker Relay Reaper Transition PartialMap

variable {β κ : Type} {port : BankPort β κ} {env : Env} {s s' : State β} {a : Action κ} {pid c : String}

/-! ## One correlation id -/

/-- All audit rows and terminal payloads of an accepted payment carry its submission's correlation id. -/
def CorrelationKept (s : State β) : Prop := ∀ pid dto c, .submitted pid dto c ∈ s.history →
  (∀ e ∈ s.db.paymentEvents, e.paymentId = pid → e.correlationId = some c) ∧
    ∀ row ∈ s.db.outbox, row.aggregateId = pid → ∀ payload, row.terminal? = some payload →
      payload.correlationId = some c

/-- The compare-and-swap the run is about to make finds its payment. -/
def swaps (s : State β) (run : Run) : Bool :=
  match run.pc with
  | .claimRead _ status (some _) => (s.db.payments run.data.paymentId).any fun p => p.status = status
  | .settleBegun _ _ (some _) => (s.db.payments run.data.paymentId).any fun p => p.status = PROCESSING
  | _ => false

/-- The step commits no transition of a run whose job has no correlation id, and reaps no PROCESSING payment. -/
def keepsCorrelation (s : State β) : Action κ → Bool
  | .claimUpdate r | .retryUpdate r | .finalUpdate r =>
    (s.runs r).all fun run => run.data.correlationId.isSome || !swaps s run
  | .reapUpdate k => (s.reaps k).all fun reap => processingIds (Reap.rows reap) = []
  | _ => true

/-! ## Submissions -/

/-- An accepted submission is recorded for a payment that was not there, or no submission is recorded now. -/
theorem Step.submits (h : Step port env s a s') :
    (∃ pid dto c, s.db.payments pid = none ∧ (s'.db.payments pid).isSome = true ∧
      ∀ pid' dto' c', .submitted pid' dto' c' ∈ s'.history →
        .submitted pid' dto' c' ∈ s.history ∨ pid' = pid ∧ dto' = dto ∧ c' = c) ∨
    ∀ pid dto c, .submitted pid dto c ∈ s'.history → .submitted pid dto c ∈ s.history := by
  cases h with
  | accepted dto key hash correlationId amountCents row hvalid hconv hrow hfresh =>
    refine Or.inl ⟨row.id, dto, correlationId, hfresh, by simp, fun pid' dto' c' hm => ?_⟩
    simpa using hm
  | _ =>
    refine Or.inr fun pid dto c hm => ?_
    first | exact hm | exact (List.mem_append.1 hm).resolve_right (by simp) | simpa using hm

/-- Every payment was submitted, once. -/
structure SubmittedInv (s : State β) : Prop where
  recorded : ∀ pid, (s.db.payments pid).isSome = true → ∃ dto c, .submitted pid dto c ∈ s.history
  stored : ∀ pid dto c, .submitted pid dto c ∈ s.history → (s.db.payments pid).isSome = true
  unique : ∀ pid dto dto' c c', .submitted pid dto c ∈ s.history → .submitted pid dto' c' ∈ s.history → c = c'

theorem submittedInv {C : State β → Action κ → Prop} (h : Reach (system port env) C s) : SubmittedInv s := by
  refine h.invariant (I := SubmittedInv) ⟨fun _ hp => (by cases hp), fun _ _ _ hm => absurd hm List.not_mem_nil,
    fun _ _ _ _ _ hm => absurd hm List.not_mem_nil⟩ fun t a t' _ hI _ hs => ?_
  have hrule := step_sound hs
  have hstays : ∀ pid, (t.db.payments pid).isSome = true → (t'.db.payments pid).isSome = true := by
    intro pid hp
    obtain ⟨p, hp⟩ := Option.isSome_iff_exists.1 hp
    obtain ⟨q, hq, -⟩ := hrule.payment_persists hp
    rw [hq]; rfl
  refine ⟨fun pid hp => ?_, fun pid dto c hm => ?_, fun pid dto dto' c c' hm hm' => ?_⟩
  · rcases hrule.payment_inv hp with hold | ⟨dto, row, id, c, now, -, -, hm, -⟩
    · obtain ⟨dto, c, hm⟩ := hI.recorded pid hold
      exact ⟨dto, c, hrule.mem_history hm⟩
    · exact ⟨dto, c, hm⟩
  · rcases hrule.submits with ⟨pid₁, dto₁, c₁, -, hsome, hnew⟩ | hold
    · rcases hnew _ _ _ hm with hold | ⟨rfl, -, -⟩
      · exact hstays _ (hI.stored _ _ _ hold)
      · exact hsome
    · exact hstays _ (hI.stored _ _ _ (hold _ _ _ hm))
  · rcases hrule.submits with ⟨pid₁, dto₁, c₁, hnone, -, hnew⟩ | hold
    · -- the payment of a new submission was not there, so it has no old one
      have hfresh : ∀ {dto c}, .submitted pid₁ dto c ∉ t.history := by
        intro dto c hc
        have hsome := hI.stored _ _ _ hc
        rw [hnone] at hsome
        cases hsome
      rcases hnew _ _ _ hm with h1 | ⟨rfl, -, rfl⟩
      · rcases hnew _ _ _ hm' with h2 | ⟨rfl, -, rfl⟩
        · exact hI.unique _ _ _ _ _ h1 h2
        · exact absurd h1 hfresh
      · rcases hnew _ _ _ hm' with h2 | ⟨-, -, rfl⟩
        · exact absurd h2 hfresh
        · rfl
    · exact hI.unique _ _ _ _ _ (hold _ _ _ hm) (hold _ _ _ hm')

/-! ## Data that is carried on -/

/-- The correlation id in some job data, if there is one, is that of the payment's submission. -/
def Known (h : List (Effect β)) (data : JobData) : Prop := ∀ c, data.correlationId = some c →
  ∃ dto, .submitted data.paymentId dto c ∈ h

theorem knownInv {C : State β → Action κ → Prop} (h : Reach (system port env) C s)
    (hown : ∀ s a, C s a → foreign a = false) : Carried (Known s.history) s := by
  refine h.invariant (I := fun s => Carried (Known s.history) s)
    ⟨fun _ hrow => absurd hrow List.not_mem_nil, all_empty, all_empty, all_empty⟩ fun t a t' _ hI hC hs => ?_
  have hrule := step_sound hs
  have hold : Carried (Known t'.history) t := hI.mono fun data hdata c hc => by
    obtain ⟨dto, hm⟩ := hdata c hc
    exact ⟨dto, hrule.mem_history hm⟩
  refine hold.step (hown t a hC) hrule (fun row id dto c now data hm _ hdata => ?_) fun _ _ _ _ _ _ _ h => by cases h
  cases hdata
  rintro c' hc
  cases hc
  exact ⟨dto, hm⟩

/-! ## Where events and terminal rows come from -/

theorem mem_reapEvents_correlationId {began : Nat} {e : PaymentEvent} : ∀ {n : Nat} {pids : List String},
    e ∈ reapEvents env began n pids → e.paymentId ∈ pids ∧ e.correlationId = none
  | _, [], h => by cases h
  | n, pid :: pids, h => by
    rcases List.mem_cons.1 h with rfl | h
    · exact ⟨List.mem_cons_self, rfl⟩
    · obtain ⟨hmem, hnone⟩ := mem_reapEvents_correlationId h
      exact ⟨List.mem_cons_of_mem _ hmem, hnone⟩

/-- The step writes for this run, whose compare-and-swap finds its payment. -/
def Writes (s : State β) (a : Action κ) (run : Run) : Prop := ∃ r,
  (a = .claimUpdate r ∨ a = .retryUpdate r ∨ a = .finalUpdate r) ∧ s.runs r = some run ∧ swaps s run = true

/-- An audit row is old, of a submission, of a run that writes, or of a reap. -/
theorem Step.event_inv (h : Step port env s a s') {e : PaymentEvent} (he : e ∈ s'.db.paymentEvents) :
    e ∈ s.db.paymentEvents ∨
    (∃ dto c, .submitted e.paymentId dto c ∈ s'.history ∧ e.correlationId = some c) ∨
    (∃ run, Writes s a run ∧ e.paymentId = run.data.paymentId ∧ e.correlationId = run.data.correlationId) ∨
    ∃ k reap, a = .reapUpdate k ∧ s.reaps k = some reap ∧ processingIds (Reap.rows reap) ≠ [] := by
  cases h with
  | accepted dto key hash correlationId amountCents row =>
    rcases List.mem_append.1 he with hold | hnew
    · exact Or.inl hold
    · cases List.mem_singleton.1 hnew
      exact Or.inr (Or.inl ⟨dto, correlationId, by simp [submittedEvent], rfl⟩)
  | claim r run began clock p hr hpc hp =>
    rcases List.mem_append.1 he with hold | hnew
    · exact Or.inl hold
    · cases List.mem_singleton.1 hnew
      exact Or.inr (Or.inr (Or.inl ⟨run, ⟨r, Or.inl rfl, hr, by simp [swaps, hpc, hp]⟩, rfl, rfl⟩))
  | exhaust r run began clock reason p hr hpc hp hst =>
    rcases List.mem_append.1 he with hold | hnew
    · exact Or.inl hold
    · cases List.mem_singleton.1 hnew
      exact Or.inr (Or.inr (Or.inl ⟨run, ⟨r, Or.inr (Or.inl rfl), hr, by simp [swaps, hpc, hp, hst]⟩, rfl, rfl⟩))
  | retry r run began clock reason p hr hpc hp hst =>
    rcases List.mem_append.1 he with hold | hnew
    · exact Or.inl hold
    · cases List.mem_singleton.1 hnew
      exact Or.inr (Or.inr (Or.inl ⟨run, ⟨r, Or.inr (Or.inl rfl), hr, by simp [swaps, hpc, hp, hst]⟩, rfl, rfl⟩))
  | final r run began clock dis target p hr hpc htarget hp hst =>
    rcases List.mem_append.1 he with hold | hnew
    · exact Or.inl hold
    · cases List.mem_singleton.1 hnew
      exact Or.inr (Or.inr (Or.inl ⟨run, ⟨r, Or.inr (Or.inr rfl), hr, by simp [swaps, hpc, hp, hst]⟩, rfl, rfl⟩))
  | reapUpdate k began time clock stuck hk =>
    rcases List.mem_append.1 he with hold | hnew
    · exact Or.inl hold
    · refine Or.inr (Or.inr (Or.inr ⟨k, _, rfl, hk, ?_⟩))
      exact List.ne_nil_of_mem (mem_reapEvents_correlationId hnew).1
  | _ => exact Or.inl he

/-- A terminal row is old, or of a run that writes. -/
theorem Step.terminal_inv (h : Step port env s a s') {row : OutboxRow} (hrow : row ∈ s'.db.outbox)
    {payload : TerminalPayload} (hpayload : row.terminal? = some payload) :
    (∃ old ∈ s.db.outbox, old.aggregateId = row.aggregateId ∧ old.terminal? = some payload) ∨
    ∃ run, Writes s a run ∧ row.aggregateId = run.data.paymentId ∧ payload.correlationId = run.data.correlationId := by
  cases h with
  | accepted dto key hash correlationId amountCents prow =>
    rcases List.mem_append.1 hrow with hold | hnew
    · exact Or.inl ⟨row, hold, rfl, hpayload⟩
    · cases List.mem_singleton.1 hnew
      cases hpayload
  | pollCommit k poll =>
    obtain ⟨old, hold, rfl⟩ := List.mem_map.1 hrow
    by_cases hc : old.id ∈ poll.rows.map OutboxRow.id
    · rw [if_pos hc] at hpayload ⊢
      exact Or.inl ⟨old, hold, rfl, hpayload⟩
    · rw [if_neg hc] at hpayload ⊢
      exact Or.inl ⟨old, hold, rfl, hpayload⟩
  | final r run began clock dis target p hr hpc htarget hp hst =>
    rcases List.mem_append.1 hrow with hold | hnew
    · exact Or.inl ⟨row, hold, rfl, hpayload⟩
    · cases List.mem_singleton.1 hnew
      rw [(terminalRow_event ..).2] at hpayload
      cases hpayload
      exact Or.inr ⟨run, ⟨r, Or.inr (Or.inr rfl), hr, by simp [swaps, hpc, hp, hst]⟩, rfl, rfl⟩
  | _ => exact Or.inl ⟨row, hrow, rfl, hpayload⟩

/-- A run that writes leaves an audit row with its job's correlation id. -/
theorem Step.writes (h : Step port env s a s') {run : Run} (hw : Writes s a run) :
    ∃ e ∈ s'.db.paymentEvents, e.paymentId = run.data.paymentId ∧ e.correlationId = run.data.correlationId := by
  obtain ⟨r, ha, hr, hswaps⟩ := hw
  have hself : ∀ {r' : Nat} {run' : Run}, s.runs r' = some run' → r' = r → run' = run := by
    rintro _ run' hr' rfl
    exact Option.some.inj (hr'.symm.trans hr)
  have hnew : ∀ {db : Db} {e : PaymentEvent}, e ∈ (db.insertEvents [e]).paymentEvents := fun {_ _} =>
    List.mem_append_right _ (List.mem_singleton_self _)
  -- a lost compare-and-swap found no payment
  have hfound : ∀ {status : PaymentStatus}, (s.db.payments run.data.paymentId).any (fun p => p.status = status) = true →
      ¬ ∀ p, s.db.payments run.data.paymentId = some p → p.status ≠ status := by
    intro status hany hlost
    obtain ⟨p, hp, hst⟩ := (Option.any_eq_true _ _).1 hany
    exact hlost p hp (of_decide_eq_true hst)
  cases h with
  | claim r' run' began clock p hr' =>
    cases hself hr' (by simpa using ha)
    exact ⟨_, hnew, rfl, rfl⟩
  | exhaust r' run' began clock reason p hr' =>
    cases hself hr' (by simpa using ha)
    exact ⟨_, hnew, rfl, rfl⟩
  | retry r' run' began clock reason p hr' =>
    cases hself hr' (by simpa using ha)
    exact ⟨_, hnew, rfl, rfl⟩
  | final r' run' began clock dis target p hr' =>
    cases hself hr' (by simpa using ha)
    exact ⟨_, hnew, rfl, rfl⟩
  | walk _ r' run' pc hr' hw =>
    unfold swaps at hswaps
    cases hw with
    | claimLost hpc hp =>
      cases hself hr' (by simpa using ha)
      rw [hpc] at hswaps
      exact absurd hp (hfound hswaps)
    | retryLost hpc hp =>
      cases hself hr' (by simpa using ha)
      rw [hpc] at hswaps
      exact absurd hp (hfound hswaps)
    | finalLost hpc htarget hp =>
      cases hself hr' (by simpa using ha)
      rw [hpc] at hswaps
      exact absurd hp (hfound hswaps)
    | claimBegin | claimNone | claimIllegal | claimRead | claimClock | settleBegin | settleClock | retryInvalid | fail =>
      simp at ha
  | _ => simp at ha

/-- A tick that reaps PROCESSING payments leaves an audit row without a correlation id. -/
theorem exists_reapEvent (env : Env) (began n : Nat) {pids : List String} (h : pids ≠ []) :
    ∃ e ∈ reapEvents env began n pids, e.correlationId = none := by
  cases pids with
  | nil => exact absurd rfl h
  | cons pid pids => exact ⟨_, List.mem_cons_self, rfl⟩

theorem Step.reaps {k : Nat} {reap : Reap} (h : Step port env s (.reapUpdate k) s')
    (hk : s.reaps k = some reap) (hne : processingIds (Reap.rows reap) ≠ []) :
    ∃ e ∈ s'.db.paymentEvents, e.correlationId = none := by
  cases h with
  | walk _ _ _ _ _ hw => cases hw
  | reapUpdate _ began time clock stuck hk' =>
    cases hk.symm.trans hk'
    obtain ⟨e, he, hnone⟩ := exists_reapEvent env began s.ulids hne
    exact ⟨e, List.mem_append_right _ he, hnone⟩

/-! ## The id is kept -/

/-- The condition, of a run that may write. -/
theorem writes_iff {r : Nat} (ha : a = .claimUpdate r ∨ a = .retryUpdate r ∨ a = .finalUpdate r) :
    ((s.runs r).all fun run => run.data.correlationId.isSome || !swaps s run) = true ↔
      ∀ run, Writes s a run → run.data.correlationId ≠ none := by
  constructor
  · rintro hall run ⟨r', ha', hr, hswaps⟩ hnone
    obtain rfl : r = r' := by rcases ha with rfl | rfl | rfl <;> simpa using ha'
    simp [hr, hswaps, hnone] at hall
  · intro hwrites
    cases hr : s.runs r with
    | none => rfl
    | some run =>
      cases hswaps : swaps s run
      · simp [hswaps]
      · simp [Option.isSome_iff_ne_none, hwrites run ⟨r, ha, hr, hswaps⟩]

/-- The condition, in terms of the runs that write and the ticks that reap. -/
theorem keepsCorrelation_iff (h : Step port env s a s') : keepsCorrelation s a = true ↔
    (∀ run, Writes s a run → run.data.correlationId ≠ none) ∧
      ∀ k reap, a = .reapUpdate k → s.reaps k = some reap → processingIds (Reap.rows reap) = [] := by
  have hnone : ∀ {r : Nat}, (a = .claimUpdate r ∨ a = .retryUpdate r ∨ a = .finalUpdate r) →
      ∀ k reap, a = .reapUpdate k → s.reaps k = some reap → processingIds (Reap.rows reap) = [] := by
    rintro r (rfl | rfl | rfl) <;> simp
  have hquiet : (∀ r, a ≠ .claimUpdate r ∧ a ≠ .retryUpdate r ∧ a ≠ .finalUpdate r) →
      ∀ run, Writes s a run → run.data.correlationId ≠ none := by
    rintro hne run ⟨r, ha, -⟩
    rcases ha with rfl | rfl | rfl
    · exact absurd rfl (hne r).1
    · exact absurd rfl (hne r).2.1
    · exact absurd rfl (hne r).2.2
  cases a with
  | claimUpdate r => exact (writes_iff (Or.inl rfl)).trans ⟨fun hw => ⟨hw, hnone (Or.inl rfl)⟩, fun hw => hw.1⟩
  | retryUpdate r =>
    exact (writes_iff (Or.inr (Or.inl rfl))).trans ⟨fun hw => ⟨hw, hnone (Or.inr (Or.inl rfl))⟩, fun hw => hw.1⟩
  | finalUpdate r =>
    exact (writes_iff (Or.inr (Or.inr rfl))).trans ⟨fun hw => ⟨hw, hnone (Or.inr (Or.inr rfl))⟩, fun hw => hw.1⟩
  | reapUpdate k =>
    cases h with
    | walk _ _ _ _ _ hw => cases hw
    | reapUpdate _ began time clock stuck hk =>
      show (s.reaps k).all _ = true ↔ _
      rw [hk, Option.all_some, decide_eq_true_iff]
      constructor
      · refine fun hempty => ⟨hquiet fun _ => ⟨by simp, by simp, by simp⟩, ?_⟩
        rintro k' reap hk' hselected
        cases hk'
        cases hk.symm.trans hselected
        exact hempty
      · exact fun hreaps => hreaps.2 k _ rfl hk
  | _ => exact ⟨fun _ => ⟨hquiet fun _ => ⟨by simp, by simp, by simp⟩, by simp⟩, fun _ => rfl⟩

/-- A step of the pipeline's own keeps the id exactly if it meets the condition. -/
theorem correlationKept_step {C : State β → Action κ → Prop} (hr : Reach (system port env) C s)
    (hown : ∀ s a, C s a → foreign a = false) (hP : CorrelationKept s) (hs : Pipeline.step port env s a = some s') :
    CorrelationKept s' ↔ keepsCorrelation s a = true := by
  have hrule := step_sound hs
  have hsub := submittedInv hr
  have hsub' := submittedInv (hr.free.step trivial hs)
  have howned := (ledgerInv hr).owned
  have howned' := (ledgerInv (hr.free.step trivial hs)).owned
  rw [keepsCorrelation_iff hrule]
  constructor
  · intro hP'
    have hid : ∀ e ∈ s'.db.paymentEvents, e.correlationId ≠ none := by
      intro e he hnone
      obtain ⟨dto, c, hm⟩ := hsub'.recorded e.paymentId (howned'.events e he)
      have hkept := (hP' _ dto c hm).1 e he rfl
      rw [hnone] at hkept
      cases hkept
    refine ⟨fun run hw hnone => ?_, ?_⟩
    · obtain ⟨e, he, -, hc⟩ := hrule.writes hw
      exact hid e he (hc.trans hnone)
    · rintro k reap rfl hk
      by_contra hne
      obtain ⟨e, he, hnone⟩ := hrule.reaps hk hne
      exact hid e he hnone
  · rintro ⟨hwrites, hreaps⟩ pid dto c hm
    -- what an audit row or a payload of the payment says, the payment's submission said
    have hknown : ∀ run, Writes s a run → pid = run.data.paymentId → run.data.correlationId = some c := by
      rintro run hw rfl
      obtain ⟨c', hc⟩ := Option.ne_none_iff_exists'.1 (hwrites run hw)
      obtain ⟨r, -, hrun, -⟩ := hw
      obtain ⟨dto', hm'⟩ := ((knownInv hr hown).runs hrun :) c' hc
      rw [hc, hsub'.unique _ _ _ _ _ (hrule.mem_history hm') hm]
    have hold : (s.db.payments pid).isSome = true → ∃ dto', .submitted pid dto' c ∈ s.history := by
      intro hp
      obtain ⟨dto', c', hm'⟩ := hsub.recorded pid hp
      rw [hsub'.unique _ _ _ _ _ hm (hrule.mem_history hm')]
      exact ⟨dto', hm'⟩
    refine ⟨fun e he hpid => ?_, fun row hrow hpid payload hpayload => ?_⟩
    · rcases hrule.event_inv he with hold' | ⟨dto', c', hm', hc⟩ | ⟨run, hw, hpid', hc⟩ | ⟨k, reap, ha, hk, hne⟩
      · have hp := howned.events e hold'
        rw [hpid] at hp
        obtain ⟨dto', hm'⟩ := hold hp
        exact (hP pid dto' c hm').1 e hold' hpid
      · rw [hpid] at hm'
        rw [hc, hsub'.unique _ _ _ _ _ hm' hm]
      · rw [hc, hknown run hw (hpid.symm.trans hpid')]
      · exact absurd (hreaps k reap ha hk) hne
    · rcases hrule.terminal_inv hrow hpayload with ⟨old, hold', hid, hsame⟩ | ⟨run, hw, hpid', hc⟩
      · have hp := howned.outbox old hold'
        rw [hid, hpid] at hp
        obtain ⟨dto', hm'⟩ := hold hp
        exact (hP pid dto' c hm').2 old hold' (hid.trans hpid) payload hsame
      · rw [hc, hknown run hw (hpid.symm.trans hpid')]

/-- In every run of the pipeline on its own jobs, every audit row and terminal payload of every payment carries
its submission's correlation id in every state, exactly if no run of a job without one commits a transition
and no tick reaps a PROCESSING payment. -/
theorem correlationKept_iff {l : List (State β × Action κ)} (h : Transition.Run (system port env) l s)
    (hown : ∀ x ∈ l, foreign x.2 = false) :
    (∀ t ∈ states l s, CorrelationKept t) ↔ ∀ x ∈ l, keepsCorrelation x.1 x.2 = true := by
  refine h.forall_iff_of (D := fun _ a => foreign a = false) (C := fun s a => keepsCorrelation s a = true)
    (fun _ _ _ hm => absurd hm List.not_mem_nil) (fun t a t' hr _ _ hP hs => ?_) hown
  exact correlationKept_step hr (fun _ _ => id) hP hs

/-- A payment is retried once and then completed. -/
def retried : List (Action BankConfigPatch) :=
  accept order 0 "00" ++ [.setConfig { mode := some .alwaysError }] ++ claim 0 0 "00" ++ call 0 200 ++ retry 0 1000 ++
    [.setConfig { mode := some .alwaysAuthorize }] ++ claim 1 0 "0:retry:1" ++ call 1 200 ++ settle 1

theorem correlationKept_iff_retried : ∃ l s, Transition.Run (system SimulatedBankAdapter.port standard) l s ∧
    (s.db.payments "0").any (fun p => p.status = COMPLETED) = true ∧
    ((∀ t ∈ states l s, CorrelationKept t) ↔ ∀ x ∈ l, keepsCorrelation x.1 x.2 = true) := by
  obtain ⟨s, hs, hp⟩ := (Option.any_eq_true _ _).1 (show (exec (system SimulatedBankAdapter.port standard)
    (system SimulatedBankAdapter.port standard).init retried).any (fun s => (s.db.payments "0").any fun p =>
      p.status = COMPLETED) = true by decide)
  obtain ⟨l, hl, hacts⟩ := Run.init.exists_of_exec hs
  have hown : ∀ x ∈ l, foreign x.2 = false := by
    intro x hx
    have hmem : x.2 ∈ retried := hacts ▸ List.mem_map_of_mem hx
    exact (show ∀ a ∈ retried, foreign a = false by decide) x.2 hmem
  exact ⟨l, s, hl, hp, correlationKept_iff hl hown⟩

/-- A payment is reaped: the reaper's event has no correlation id, nor has what the re-drive job's run leaves. -/
theorem reaped_uncorrelated : ∃ s,
    Reach (system SimulatedBankAdapter.port standard) (fun _ a => foreign a = false) s ∧ ¬ CorrelationKept s := by
  obtain ⟨s, hs, hp⟩ := exists_reach_of_execIf (show (execIf (system SimulatedBankAdapter.port standard)
    (fun _ a => foreign a = false) (system SimulatedBankAdapter.port standard).init
      (accept order 0 "00" ++ claim 0 0 "00" ++ [.crash 0] ++ reap 0 60001 "0" ++ claim 1 0 "0:reap:60001" ++
        call 1 200 ++ settle 1)).any (fun s => (s.db.outbox.any fun row =>
          row.aggregateId = "0" && row.terminal?.any fun payload => payload.correlationId = none) &&
        s.history.any fun e => match e with | .submitted "0" _ _ => true | _ => false) = true by decide)
  obtain ⟨hpayload, hsubmitted⟩ := Bool.and_eq_true_iff.1 hp
  obtain ⟨row, hrow, hpayload⟩ := List.any_eq_true.1 hpayload
  obtain ⟨hpid, hpayload⟩ := Bool.and_eq_true_iff.1 hpayload
  obtain ⟨payload, hpayload, hnone⟩ := (Option.any_eq_true _ _).1 hpayload
  obtain ⟨e, he, hsubmitted⟩ := List.any_eq_true.1 hsubmitted
  refine ⟨s, hs, fun hkept => ?_⟩
  split at hsubmitted
  · have hc := (hkept _ _ _ he).2 row hrow (of_decide_eq_true hpid) payload hpayload
    rw [of_decide_eq_true hnone] at hc
    cases hc
  · cases hsubmitted

end PaymentsProcessor.Pipeline
