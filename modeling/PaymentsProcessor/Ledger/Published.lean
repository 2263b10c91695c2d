/-
The published audit trail. `list_events` orders the audit rows of a payment by `occurred_at`, which is the time at which
the transaction that inserted the row began, while the transitions follow each other in the order in which the updates
ran. What it returns is an unbroken chain up to the payment's status exactly as long as every transaction that moves a
payment began later than all those that moved it before.
-/
import PaymentsProcessor.Base.Stamps
import PaymentsProcessor.Ledger.Audit

namespace PaymentsProcessor

open PaymentStatus Transition Pipeline Worker Relay Reaper

/-! ## The property -/

/-- `list_events`: the rows of a payment that exists, ordered by `occurred_at`, rows with the same one in any order. -/
structure ListEvents (db : Db) (pid : String) (events : List PaymentEvent) : Prop where
  found : (db.payments pid).isSome = true
  ordered : Stamps.Reading PaymentEvent.occurredAt (db.eventsOf pid) events

/-- Each event leaves the status that the one before it entered, and the last one entered the payment's status. -/
structure Unbroken (events : List PaymentEvent) (p : Payment) : Prop where
  chain : events.IsChain fun e e' => e'.fromStatus = some e.toStatus
  last : events.getLast?.map PaymentEvent.toStatus = some p.status

variable {β κ : Type}

/-- Whatever `list_events` returns is unbroken. -/
def Published (s : State β) : Prop :=
  ∀ pid p events, s.db.payments pid = some p → ListEvents s.db pid events → Unbroken events p

/-! ## The condition -/

/-- When the transaction began whose update is executed in the step. -/
def txnBegan (s : State β) : Action κ → Option Nat
  | .claimUpdate r =>
    match (s.runs r).map Run.pc with
    | some (.claimRead began _ _) => some began
    | _ => none
  | .retryUpdate r | .finalUpdate r =>
    match (s.runs r).map Run.pc with
    | some (.settleBegun began _ _) => some began
    | _ => none
  | .reapUpdate k =>
    match s.reaps k with
    | some (.selected began _ _ _) => some began
    | _ => none
  | _ => none

/-- A transaction that moves a payment in the step began later than those that moved it before. -/
def BeginsLater (env : Env) (s : State β) (a : Action κ) : Prop :=
  ∀ pid m began, Moved env s a pid m → txnBegan s a = some began → ∀ e ∈ s.db.eventsOf pid, e.occurredAt < began

variable {port : BankPort β κ} {env : Env} {s s' : State β} {a : Action κ} {pid : String} {p : Payment}

/-! ## Events of a step -/

theorem filter_owner (e : PaymentEvent) :
    ([e].filter fun e => e.paymentId = pid) = if e.paymentId = pid then [e] else [] := by
  by_cases h : e.paymentId = pid <;> simp [h]

/-- What a step makes of the audit rows of a payment. -/
inductive EventsStep (env : Env) (s : State β) (a : Action κ) (pid : String) :
    List PaymentEvent → List PaymentEvent → Prop
  | same {events : List PaymentEvent} (hno : ∀ m, ¬ Moved env s a pid m) : EventsStep env s a pid events events
  | opened {e : PaymentEvent} (hno : ∀ m, ¬ Moved env s a pid m) : EventsStep env s a pid [] [e]
  | moved {events : List PaymentEvent} {e : PaymentEvent} {m : Account.Move} (hm : Moved env s a pid m)
      (hbegan : txnBegan s a = some e.occurredAt) : EventsStep env s a pid events (events ++ [e])

/-- A step that writes the payment of a run adds a row to that payment only. -/
theorem eventsStep_write {r : Nat} {run : Run} {q : Payment} {e : PaymentEvent} {m : Account.Move} (hr : s.runs r = some run)
    (ha : a = .claimUpdate r ∨ a = .retryUpdate r ∨ a = .finalUpdate r) (hm : Moved env s a run.data.paymentId m)
    (he : e.paymentId = run.data.paymentId) (hbegan : txnBegan s a = some e.occurredAt) :
    EventsStep env s a pid (s.db.eventsOf pid) (((s.db.setPayment run.data.paymentId q).insertEvents [e]).eventsOf pid) := by
  rw [Db.eventsOf_insertEvents, Db.eventsOf_setPayment, filter_owner, he]
  by_cases hc : run.data.paymentId = pid
  · rw [if_pos hc]
    exact .moved (hc ▸ hm) hbegan
  · rw [if_neg hc, List.append_nil]
    exact .same fun m hm' => hc (hm'.pid_eq hr ha).symm

theorem occurredAt_reapEvents {began : Nat} {e : PaymentEvent} : ∀ {n : Nat} {pids : List String},
    e ∈ reapEvents env began n pids → e.occurredAt = began
  | _, [], h => by cases h
  | n, pid :: pids, h => by
    rcases List.mem_cons.1 h with rfl | h
    · rfl
    · exact occurredAt_reapEvents h

/-- Every step adds at most one audit row to a payment, with the begin of its transaction. -/
theorem Pipeline.Step.eventsOf (hlocks : LockInv s) (howned : s.db.Owned) (h : Step port env s a s') (pid : String) :
    EventsStep env s a pid (s.db.eventsOf pid) (s'.db.eventsOf pid) := by
  cases h with
  | walk _ r run pc hr hw => exact .same (hw.not_moved hr)
  | accepted dto key hash correlationId amountCents row hvalid hamount hrow hfresh =>
    -- the first row of a new payment, which had none
    have hevents : (s.db.insertSubmission row (submittedEvent row (env.u.ulid (s.ulids + 2)) correlationId s.now)
        (keyRow dto row key hash s.now) (submittedRow row (env.u.ulid (s.ulids + 1)) correlationId s.now)).eventsOf pid =
        s.db.eventsOf pid ++ [submittedEvent row (env.u.ulid (s.ulids + 2)) correlationId s.now].filter
          fun e => e.paymentId = pid := List.filter_append _ _
    have howner : (submittedEvent row (env.u.ulid (s.ulids + 2)) correlationId s.now).paymentId = row.id := rfl
    dsimp only
    rw [hevents, filter_owner, howner]
    by_cases hc : row.id = pid
    · have hblank := (howned.blank hfresh).1
      rw [hc] at hblank
      rw [if_pos hc, hblank]
      exact .opened fun _ h => by cases h
    · rw [if_neg hc, List.append_nil]
      exact .same fun _ h => by cases h
  | claim r run began clock p hr hpc hp =>
    exact eventsStep_write hr (Or.inl rfl) (.claim hr hpc hp) rfl (by simp [txnBegan, hr, hpc, eventFor])
  | exhaust r run began clock reason p hr hpc hp hst hlock hspent =>
    exact eventsStep_write hr (Or.inr (Or.inl rfl)) (.exhaust hr hpc hp hst hspent) rfl
      (by simp [txnBegan, hr, hpc, eventFor])
  | retry r run began clock reason p hr hpc hp hst hlock hleft =>
    exact eventsStep_write hr (Or.inr (Or.inl rfl)) (.retry hr hpc hp hst hleft) rfl
      (by simp [txnBegan, hr, hpc, eventFor])
  | final r run began clock dis target p hr hpc htarget hp hst =>
    exact eventsStep_write hr (Or.inr (Or.inr rfl)) (.settle hr hpc htarget hp hst) rfl
      (by simp [txnBegan, hr, hpc, eventFor])
  | reapUpdate k began time clock stuck hk =>
    by_cases hmem : pid ∈ processingIds stuck
    · have hevents := filter_reapEvents env began pid s.ulids (hlocks.nodup hk)
      rw [if_pos hmem] at hevents
      obtain ⟨e, he, -⟩ := List.map_eq_singleton_iff.1 hevents
      -- every row of the batch carries the begin of the tick's transaction
      have hin : e ∈ (reapEvents env began s.ulids (processingIds stuck)).filter fun e => e.paymentId = pid :=
        he ▸ List.mem_singleton_self e
      obtain ⟨row, hrow, rfl, hst, -⟩ := hlocks.processing hk hmem
      dsimp only
      rw [Db.eventsOf_insertEvents, Db.eventsOf_updateIn, he]
      refine .moved (.reap hk hrow hst) ?_
      rw [occurredAt_reapEvents (List.mem_filter.1 hin).1]
      simp [txnBegan, hk]
    · dsimp only
      rw [eventsOf_reap_other hmem]
      exact .same fun m hm => hmem (hm.mem_processing hk)
  | _ => exact .same fun _ h => by cases h

/-! ## Increasing stamps -/

/-- The audit rows of every payment have increasing times. -/
def Ordered (s : State β) : Prop := ∀ pid, Stamps.Increasing PaymentEvent.occurredAt (s.db.eventsOf pid)

theorem Ordered.step (h : Ordered s) (hlocks : LockInv s) (howned : s.db.Owned) (hC : BeginsLater env s a)
    (hs : Step port env s a s') : Ordered s' := by
  intro pid
  have hstep := hs.eventsOf hlocks howned pid
  generalize hold : s.db.eventsOf pid = events, hnew : s'.db.eventsOf pid = events' at hstep
  cases hstep with
  | same => exact hold ▸ h pid
  | opened => exact List.pairwise_singleton _ _
  | moved hm hbegan =>
    rw [Stamps.increasing_snoc, ← hold]
    exact ⟨h pid, hC pid _ _ hm hbegan⟩

theorem ordered (h : Reach (system port env) (BeginsLater env) s) : Ordered s :=
  h.invariant (I := Ordered) (fun _ => List.Pairwise.nil) fun _ _ _ hr hI hC hs =>
    hI.step (lockInv hr) (ledgerInv hr).owned hC (step_sound hs)

theorem Mirrors.unbroken {events : List PaymentEvent} (h : Mirrors events p) : Unbroken events p :=
  ⟨h.chain.imp fun _ _ he => he.1, h.last⟩

/-- With increasing times, `list_events` returns the rows in commit order. -/
theorem Ordered.published (h : Ordered s) (hr : Reach (system port env) Free s) : Published s := by
  intro pid p events hp hevents
  rw [hevents.ordered.eq (h pid)]
  obtain ⟨x, hx, -⟩ := account_of_payment hp
  exact (((ledgerInv hr).wf hx).mirrors hx hp).unbroken

/-- A transaction that did not begin later than those before it leaves a trail that may be read with its row before the
last one. -/
theorem beginsLater_of_published (hr : Reach (system port env) Free s) (hordered : Ordered s)
    (hs : Pipeline.step port env s a = some s') (hP : Published s') : BeginsLater env s a := by
  intro pid m began hm hbegan e he
  by_contra hlate
  have hI := ledgerInv hr
  have hincreasing := hordered pid
  have hevents := (step_sound hs).eventsOf (lockInv hr) hI.owned pid
  obtain ⟨p, hp⟩ : ∃ p, s.db.payments pid = some p := by
    cases hp : s.db.payments pid with
    | some p => exact ⟨p, rfl⟩
    | none =>
      rw [(hI.owned.blank hp).1] at he
      cases he
  obtain ⟨x, hx, hst, -⟩ := account_of_payment hp
  obtain ⟨y, hy, hmove⟩ := moves_of_moved hr hs hm hx
  obtain ⟨p', hp', hst', -⟩ := Db.account_eq_some hy
  have hlast := ((hI.wf hx).mirrors hx hp).last
  generalize hold : s.db.eventsOf pid = events, hnew : s'.db.eventsOf pid = events' at *
  cases hevents with
  | same hno => exact hno m hm
  | opened hno => exact hno m hm
  | @moved _ e' _ hm' hbegan' =>
    cases hbegan.symm.trans hbegan'
    rcases List.eq_nil_or_concat events with rfl | ⟨init, z, rfl⟩
    · cases he
    · rw [List.concat_eq_append] at *
      -- the last row so far is not older than the one just added
      have hle : e'.occurredAt ≤ z.occurredAt := by
        rcases List.mem_append.1 he with hmem | hmem
        · have hlt := (Stamps.increasing_snoc.1 hincreasing).2 e hmem
          omega
        · rw [List.mem_singleton] at hmem
          subst hmem
          omega
      obtain ⟨l, hreading⟩ := Stamps.exists_reading_getLast hincreasing hle
      rw [← hnew] at hreading
      have hunbroken := hP pid p' _ hp' ⟨by rw [hp']; rfl, hreading⟩
      have hread := hunbroken.last
      rw [List.getLast?_concat] at hread hlast
      have hsame : x.status = y.status := by
        rw [hst, hst']
        exact (Option.some.inj hlast).symm.trans (Option.some.inj hread)
      have hcan := hmove.canTransition
      rw [hsame, not_canTransition_self] at hcan
      cases hcan

/-- In every run, what `list_events` returns is an unbroken chain up to the payment's status in every state if and only
if every transaction that moves a payment began later than those that moved it before. -/
theorem published_iff {l : List (State β × Action κ)} (h : Transition.Run (system port env) l s) :
    (∀ t ∈ states l s, Published t) ↔ ∀ x ∈ l, BeginsLater env x.1 x.2 := by
  refine h.forall_iff (fun pid p _ hp => by cases hp) fun s a s' hr _ hs => ⟨fun hP => ?_, fun hC => ?_⟩
  · exact beginsLater_of_published hr.free (ordered hr) hs hP
  · have hr' : Reach (system port env) (BeginsLater env) s' := .step hr hC hs
    exact (ordered hr').published hr'.free

/-- A payment that is retried once and then completed. -/
theorem published_iff_retried : ∃ l s, Transition.Run (system SimulatedBankAdapter.port standard) l s ∧
    (s.db.eventsOf "0").map PaymentEvent.toStatus = [PENDING, PROCESSING, RETRYING, PROCESSING, COMPLETED] ∧
    ((∀ t ∈ states l s, Published t) ↔ ∀ x ∈ l, BeginsLater standard x.1 x.2) := by
  obtain ⟨l, s, hl, hp⟩ := exists_run_of_exec (show (exec (system SimulatedBankAdapter.port standard)
    (system SimulatedBankAdapter.port standard).init
      (accept order 0 "00" ++ [.setConfig { mode := some .alwaysError }, .tick 1] ++ claim 0 0 "00" ++ call 0 200 ++
        retry 0 1000 ++ [.setConfig { mode := some .alwaysAuthorize }] ++ claim 1 0 "0:retry:1" ++ call 1 200 ++
        settle 1)).any (fun s => (s.db.eventsOf "0").map PaymentEvent.toStatus =
          [PENDING, PROCESSING, RETRYING, PROCESSING, COMPLETED]) = true by decide)
  exact ⟨l, s, hl, of_decide_eq_true hp, published_iff hl⟩

/-- The job of a run that waits for the bank is put back and taken again. The second run begins its first transaction, the
first run's RETRY transaction begins later and commits, and the second run goes on to claim the payment. -/
def claimedLate : List (Action BankConfigPatch) :=
  accept order 0 "00" ++ [.setConfig { mode := some .alwaysError }, .tick 1] ++ claim 0 0 "00" ++ call 0 200 ++
    [.stall "00", .dequeue 1 1 "00", .claimBegin 1, .tick 1, .settleBegin 0, .readClock 0, .retryUpdate 0, .claimSelect 1,
      .readClock 1, .claimUpdate 1]

/-- `list_events` returns the second claim before the retry that made it possible. -/
theorem retry_read_after_claim : ∃ s, Reach (system SimulatedBankAdapter.port standard) Free s ∧ ¬ Published s := by
  obtain ⟨s, hs, hp⟩ := exists_reach_of_exec (show (exec (system SimulatedBankAdapter.port standard)
    (system SimulatedBankAdapter.port standard).init claimedLate).any (fun s => (s.db.payments "0").isSome ∧
      (Stamps.reading PaymentEvent.occurredAt (s.db.eventsOf "0")).map (fun e => (e.fromStatus, e.toStatus)) =
        [(none, PENDING), (some PENDING, PROCESSING), (some RETRYING, PROCESSING), (some PROCESSING, RETRYING)]) = true by
          decide +kernel)
  obtain ⟨hfound, hread⟩ := of_decide_eq_true hp
  obtain ⟨p, hpay⟩ := Option.isSome_iff_exists.1 hfound
  refine ⟨s, hs, fun hall => ?_⟩
  have hchain := (hall "0" p _ hpay ⟨hfound, Stamps.reading_reading _ _⟩).chain
  have hpairs : ((Stamps.reading PaymentEvent.occurredAt (s.db.eventsOf "0")).map
      fun e => (e.fromStatus, e.toStatus)).IsChain fun a b => b.1 = some a.2 := (List.isChain_map _).2 hchain
  rw [hread] at hpairs
  exact absurd hpairs (by decide)

end PaymentsProcessor
