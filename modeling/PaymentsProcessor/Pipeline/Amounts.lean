/-
Amounts and currencies on their way from the request to the bank and the webhook. Every hop carries those
of the payment's row on; the amount in it is exact, its currency is always the default one.
-/
import PaymentsProcessor.Pipeline.Calls
import PaymentsProcessor.Pipeline.Carried

namespace PaymentsProcessor.Pipeline

open PaymentStatus Worker Relay Reaper Transition PartialMap

variable {β κ : Type} {port : BankPort β κ} {env : Env} {s s' : State β} {a : Action κ}

/-! ## Agreement with the row -/

/-- The payment exists, with this amount and currency. -/
def Agrees (db : Db) (pid : String) (amountCents : Nat) (currency : String) : Prop :=
  ∃ p, db.payments pid = some p ∧ p.amountCents = amountCents ∧ p.currency = currency

/-- The data of a job agree with their payment. -/
def DataAgrees (db : Db) (data : JobData) : Prop := Agrees db data.paymentId data.amountCents data.currency

/-- The job data of an outbox row, if it is a submission, agree with their payment. -/
def RowAgrees (db : Db) (row : OutboxRow) : Prop := ∀ data, row.submitted? = some data → DataAgrees db data

/-- The terminal payload of an outbox row, if it has one, agrees with the row's payment. -/
def PayloadAgrees (db : Db) (row : OutboxRow) : Prop := ∀ payload, row.terminal? = some payload →
  payload.paymentId = row.aggregateId ∧ Agrees db row.aggregateId payload.amountCents payload.currency

/-- Amount and currency of a payment never change. -/
theorem Step.agrees (h : Step port env s a s') {pid : String} {amountCents : Nat} {currency : String}
    (hpid : Agrees s.db pid amountCents currency) : Agrees s'.db pid amountCents currency := by
  obtain ⟨p, hp, rfl, rfl⟩ := hpid
  obtain ⟨q, hq, hamount, hcurrency, -⟩ := h.payment_persists hp
  exact ⟨q, hq, hamount, hcurrency⟩

/-! ## Every hop agrees -/

/-- What a tick selected. -/
def Reap.rows : Reap → List StuckRow
  | .begun _ _ => []
  | .selected _ _ stuck _ | .committed stuck | .adding _ stuck => stuck

/-- Every copy of an amount and a currency agrees with its payment. -/
structure AgreeInv (s : State β) : Prop where
  outbox : ∀ row ∈ s.db.outbox, RowAgrees s.db row ∧ PayloadAgrees s.db row
  polls : All s.polls fun _ poll => ∀ row ∈ poll.rows, RowAgrees s.db row
  jobs : All s.queue fun _ job => DataAgrees s.db job.data
  runs : All s.runs fun _ run => DataAgrees s.db run.data
  reaps : All s.reaps fun _ reap => ∀ row ∈ Reap.rows reap, Agrees s.db row.id row.amountCents row.currency

/-- The payload of a terminal row agrees, and nothing else writes one. -/
theorem AgreeInv.payloads (h : AgreeInv s) (hs : Step port env s a s') : ∀ row ∈ s'.db.outbox, PayloadAgrees s'.db row := by
  have hold : ∀ row ∈ s.db.outbox, PayloadAgrees s'.db row := fun row hmem payload hpayload =>
    have hagrees := (h.outbox row hmem).2 payload hpayload
    ⟨hagrees.1, hs.agrees hagrees.2⟩
  have hdata : All s.runs fun _ run => DataAgrees s'.db run.data := h.runs.mono fun _ _ => hs.agrees
  intro row hmem
  cases hs with
  | accepted =>
    rcases List.mem_append.1 hmem with hmem | hnew
    · exact hold row hmem
    · cases List.mem_singleton.1 hnew
      intro _ h
      cases h
  | final r run began clock dis target p hr =>
    rcases List.mem_append.1 hmem with hmem | hnew
    · exact hold row hmem
    · cases List.mem_singleton.1 hnew
      intro payload hpayload
      rw [(terminalRow_event ..).2] at hpayload
      cases hpayload
      exact ⟨rfl, hdata hr⟩
  | pollCommit k poll hk =>
    obtain ⟨old, hin, rfl⟩ := List.mem_map.1 hmem
    split
    · exact hold old hin
    · exact hold old hin
  | _ => exact hold row hmem

/-- A tick keeps what it selected. -/
theorem AgreeInv.selected (h : AgreeInv s) (hs : Step port env s a s') :
    All s'.reaps fun _ reap => ∀ row ∈ Reap.rows reap, Agrees s'.db row.id row.amountCents row.currency := by
  have hK : All s.reaps fun _ reap => ∀ row ∈ Reap.rows reap, Agrees s'.db row.id row.amountCents row.currency :=
    h.reaps.mono fun _ _ hreap row hmem => hs.agrees (hreap row hmem)
  cases hs with
  | reapBegin k hk => exact hK.but.set fun _ h => by cases h
  | deadlineClock k began hk => exact hK.but.set fun _ h => by cases h
  | batchClock k began time stuck hk => exact hK.but.set (hK hk :)
  | reapSelect k pids began clock stuck hk hnodup hstuck =>
    refine hK.but.set fun row hmem => ?_
    obtain ⟨-, -, p, hp, -, -, hamount, hcurrency, -⟩ := stuckRow_eq_some ((mapM_stuckRow hstuck).2 row hmem)
    exact ⟨p, hp, hamount, hcurrency⟩
  | reapUpdate k began time clock stuck hk => exact hK.but.set (hK hk :)
  | reapStamp k stuck hk => exact hK.but.set (hK hk :)
  | reapAdd k stamp stuck row hk => exact hK.but.set fun other hother => (hK hk :) other (List.mem_of_mem_filter hother)
  | reapEnd k => exact hK.but.erase
  | _ => exact hK

theorem AgreeInv.step (h : AgreeInv s) (hown : foreign a = false) (hs : Step port env s a s') : AgreeInv s' := by
  have hold : Carried (DataAgrees s'.db) s :=
    ⟨fun row hmem data hdata => hs.agrees ((h.outbox row hmem).1 data hdata),
      h.polls.mono fun _ _ hpoll row hmem data hdata => hs.agrees (hpoll row hmem data hdata),
      h.jobs.mono fun _ _ => hs.agrees, h.runs.mono fun _ _ => hs.agrees⟩
  have hnew : Carried (DataAgrees s'.db) s' := by
    refine hold.step hown hs (fun row id dto c now data _ hp hdata => ?_) fun k stamp stuck row hk hmem => ?_
    · cases hdata
      exact ⟨row, hp, rfl, rfl⟩
    · exact hs.agrees (h.reaps hk row hmem)
  exact ⟨fun row hmem => ⟨hnew.outbox row hmem, h.payloads hs row hmem⟩, hnew.polls, hnew.jobs, hnew.runs, h.selected hs⟩

theorem agreeInv {C : State β → Action κ → Prop} (h : Reach (system port env) C s)
    (hown : ∀ s a, C s a → foreign a = false) : AgreeInv s :=
  h.invariant (I := AgreeInv) ⟨fun _ hrow => absurd hrow List.not_mem_nil, all_empty, all_empty, all_empty, all_empty⟩
    fun t a _ _ hI hC hs => hI.step (hown t a hC) (step_sound hs)

/-- An accepted request is recorded now or before. -/
theorem Step.submitted_inv (h : Step port env s a s') {pid correlationId : String} {dto : CreatePaymentDto}
    (hm : .submitted pid dto correlationId ∈ s'.history) : .submitted pid dto correlationId ∈ s.history ∨
      ∃ amountCents, convAmountToUnits dto.amount = .ok amountCents ∧ Agrees s'.db pid amountCents "USD" := by
  cases h with
  | accepted dto' key hash correlationId' amountCents row hvalid hconv hrow =>
    rcases List.mem_append.1 hm with hold | hnew
    · exact Or.inl hold
    · simp only [List.mem_cons, Effect.submitted.injEq, reduceCtorEq, List.not_mem_nil, or_false] at hnew
      obtain ⟨rfl, rfl, -⟩ := hnew
      exact Or.inr ⟨amountCents, hconv, row, Function.update_self .., by rw [hrow]; rfl, by rw [hrow]; rfl⟩
  | _ => exact Or.inl (by first | exact hm | exact (List.mem_append.1 hm).resolve_right (by simp) | simpa using hm)

/-- The payment of an accepted request has the parsed amount and the default currency. -/
def OrderInv (s : State β) : Prop := ∀ pid dto correlationId, .submitted pid dto correlationId ∈ s.history →
  ∃ amountCents, convAmountToUnits dto.amount = .ok amountCents ∧ Agrees s.db pid amountCents "USD"

theorem orderInv {C : State β → Action κ → Prop} (h : Reach (system port env) C s) : OrderInv s := by
  refine h.invariant (I := OrderInv) (fun _ _ _ hm => absurd hm List.not_mem_nil) fun t a t' _ hI _ hs => ?_
  intro pid dto correlationId hm
  have hrule := step_sound hs
  rcases hrule.submitted_inv hm with hold | hnew
  · obtain ⟨amountCents, hconv, hagrees⟩ := hI pid dto correlationId hold
    exact ⟨amountCents, hconv, hrule.agrees hagrees⟩
  · exact hnew

/-! ## What the client asked for -/

/-- The exact cents and the currency a request asks for. -/
def Asked (dto : CreatePaymentDto) (amountCents : Nat) (currency : String) : Prop :=
  (amountCents : ℚ) = 100 * decimalValue dto.amount.toList ∧ currency = dto.currency.getD "USD"

/-- The payment's row, every bank request made for it and its terminal payloads carry what was asked for. -/
structure CarriesOrder (s : State β) (pid : String) (dto : CreatePaymentDto) : Prop where
  row : ∃ p, s.db.payments pid = some p ∧ Asked dto p.amountCents p.currency
  requests : ∀ r req, .called r req ∈ s.history → req.paymentId = pid → Asked dto req.amountCents req.currency
  payloads : ∀ row ∈ s.db.outbox, row.aggregateId = pid → ∀ payload, row.terminal? = some payload →
    Asked dto payload.amountCents payload.currency

/-- In every run of the pipeline on its own jobs, the row of an accepted request, the bank requests made
for it and its terminal payloads carry what was asked for exactly if no currency but the default one was
asked for. -/
theorem carriesOrder_iff (h : Reach (system port env) (fun _ a => foreign a = false) s) {pid correlationId : String}
    {dto : CreatePaymentDto} (hmem : .submitted pid dto correlationId ∈ s.history) :
    CarriesOrder s pid dto ↔ dto.currency = none ∨ dto.currency = some "USD" := by
  have hagree := agreeInv h fun _ _ => id
  obtain ⟨amountCents, hconv, p, hp, hamount, hcurrency⟩ := orderInv h pid dto correlationId hmem
  have hexact := (convAmountToUnits_exact hconv).1
  constructor
  · intro hcarries
    obtain ⟨q, hq, -, hasked⟩ := hcarries.row
    cases hp.symm.trans hq
    rw [hcurrency] at hasked
    cases hdto : dto.currency with
    | none => exact Or.inl rfl
    | some currency =>
      rw [hdto] at hasked
      exact Or.inr (congrArg some hasked.symm)
  · intro hdto
    have hasked : ∀ {c : Nat} {currency : String}, Agrees s.db pid c currency → Asked dto c currency := by
      rintro c currency ⟨q, hq, rfl, rfl⟩
      cases hp.symm.trans hq
      refine ⟨by rw [hamount, hexact], ?_⟩
      rcases hdto with hdto | hdto <;> rw [hcurrency, hdto] <;> rfl
    refine ⟨⟨p, hp, hasked ⟨p, hp, rfl, rfl⟩⟩, fun r req hcalled hpid => ?_, fun row hrow haggregate payload hpayload => ?_⟩
    · obtain ⟨run, hr, rfl⟩ := calledInv h r req hcalled
      have hagrees : DataAgrees s.db run.data := hagree.runs hr
      exact hasked (hpid ▸ hagrees)
    · exact hasked (haggregate ▸ ((hagree.outbox row hrow).2 payload hpayload).2)

/-- A request in the default currency, retried, reaped and completed. -/
theorem carriesOrder_iff_reaped : ∃ s,
    Reach (system SimulatedBankAdapter.port standard) (fun _ a => foreign a = false) s ∧
    (s.db.payments "0").any (fun p => p.status = COMPLETED ∧ p.attemptCount = 2) = true ∧
    (CarriesOrder s "0" order ↔ order.currency = none ∨ order.currency = some "USD") := by
  obtain ⟨s, hs, hp⟩ := exists_reach_of_execIf (show (execIf (system SimulatedBankAdapter.port standard)
    (fun _ a => foreign a = false) (system SimulatedBankAdapter.port standard).init
      (accept order 0 "00" ++ [.setConfig { mode := some .alwaysError }] ++ claim 0 0 "00" ++ call 0 200 ++
        retry 0 1000 ++ claim 1 0 "0:retry:1" ++ [.crash 0, .setConfig { mode := some .alwaysAuthorize }] ++
        reap 0 60001 "0" ++ claim 2 0 "0:reap:61201" ++ call 2 200 ++ settle 2)).any
      (fun s => (s.db.payments "0").any (fun p => p.status = COMPLETED ∧ p.attemptCount = 2) &&
        s.history.any fun e => match e with | .submitted "0" dto _ => dto = order | _ => false) = true by decide)
  obtain ⟨hst, hsubmitted⟩ := Bool.and_eq_true_iff.1 hp
  obtain ⟨e, he, hdto⟩ := List.any_eq_true.1 hsubmitted
  refine ⟨s, hs, hst, ?_⟩
  split at hdto
  · cases of_decide_eq_true hdto
    exact carriesOrder_iff hs he
  · cases hdto

/-- A request in euros is accepted and stored in dollars. -/
theorem euros_become_dollars : ∃ s,
    Reach (system SimulatedBankAdapter.port standard) (fun _ a => foreign a = false) s ∧
    (∃ correlationId, .submitted "0" { order with currency := some "EUR" } correlationId ∈ s.history) ∧
    ¬ CarriesOrder s "0" { order with currency := some "EUR" } := by
  obtain ⟨s, hs, hp⟩ := exists_reach_of_execIf (show (execIf (system SimulatedBankAdapter.port standard)
    (fun _ a => foreign a = false) (system SimulatedBankAdapter.port standard).init
      (accept { order with currency := some "EUR" } 0 "00" ++ claim 0 0 "00" ++ call 0 200 ++ settle 0)).any
      (fun s => (s.db.payments "0").any (fun p => p.status = COMPLETED ∧ p.currency = "USD") &&
        s.history.any fun e => match e with
          | .submitted "0" dto _ => dto = { order with currency := some "EUR" }
          | _ => false) = true by decide)
  obtain ⟨hrow, hsubmitted⟩ := Bool.and_eq_true_iff.1 hp
  obtain ⟨p, hp, hst⟩ := (Option.any_eq_true _ _).1 hrow
  obtain ⟨e, he, hdto⟩ := List.any_eq_true.1 hsubmitted
  refine ⟨s, hs, ?_, fun hcarries => ?_⟩
  · split at hdto
    · cases of_decide_eq_true hdto
      exact ⟨_, he⟩
    · cases hdto
  · obtain ⟨q, hq, -, hcurrency⟩ := hcarries.row
    cases hp.symm.trans hq
    rw [(of_decide_eq_true hst).2] at hcurrency
    exact absurd hcurrency (by decide)

end PaymentsProcessor.Pipeline
