/-
`PaymentProcessor.process`, one definition for each stretch of it between two awaits, and the
queue's side of a run: taking a job, finishing it, a stalled job, a crashed worker.

The callback of txn 1 returns early where the claim finds no row, an illegal transition or a lost
compare-and-swap; what follows the transaction runs in any case.
-/
import PaymentsProcessor.Pipeline.State

namespace PaymentsProcessor

open PaymentStatus

/-- What a pipeline is configured with. -/
structure Env where
  cfg : Config
  u : UlidSource

namespace Worker

variable {β κ : Type} (port : BankPort β κ) (env : Env)

/-! ## The statements -/

/-- `SET` of txn 1. -/
def claimSet (now : Nat) (p : Payment) : Payment :=
  { p with status := PROCESSING, version := p.version + 1, updatedAt := now }

/-- `SET` of the RETRY transaction. -/
def retrySet (cfg : Config) (now : Nat) (reason : String) (p : Payment) : Payment :=
  { p with
    attemptCount := p.attemptCount + 1
    lastErrorCode := some reason
    version := p.version + 1
    updatedAt := now
    status := if p.attemptCount + 1 > cfg.maxRetries then FAILED else RETRYING }

theorem retrySet_spent {cfg : Config} {now : Nat} {reason : String} {p : Payment}
    (h : p.attemptCount + 1 > cfg.maxRetries) : (retrySet cfg now reason p).status = FAILED :=
  if_pos h

theorem retrySet_left {cfg : Config} {now : Nat} {reason : String} {p : Payment}
    (h : p.attemptCount + 1 ≤ cfg.maxRetries) : (retrySet cfg now reason p).status = RETRYING :=
  if_neg (Nat.not_lt.2 h)

/-- `SET` of txn 2. -/
def settleSet (now : Nat) (target : PaymentStatus) (p : Payment) : Payment :=
  { p with status := target, version := p.version + 1, updatedAt := now }

/-- The event of a transition made for a job, in a transaction that began at `began`. -/
def eventFor (data : JobData) (id : String) (src dst : PaymentStatus) (metadata : Option Metadata) (began : Nat) :
    PaymentEvent where
  id := id
  paymentId := data.paymentId
  fromStatus := some src
  toStatus := dst
  correlationId := data.correlationId
  metadata := metadata
  occurredAt := began

/-- The outbox row of txn 2. -/
def terminalRow (data : JobData) (id : String) (target : PaymentStatus) (began : Nat) : OutboxRow where
  id := id
  aggregateType := "payment"
  aggregateId := data.paymentId
  event :=
    let payload : TerminalPayload :=
      { paymentId := data.paymentId, status := target, amountCents := data.amountCents,
        currency := data.currency, correlationId := data.correlationId }
    if target = COMPLETED then .completed payload else .failed payload
  publishedAt := none
  webhookDispatchedAt := none
  createdAt := began

theorem terminalRow_event (data : JobData) (id : String) (target : PaymentStatus) (began : Nat) :
    (terminalRow data id target began).submitted? = none ∧ (terminalRow data id target began).terminal? =
      some ⟨data.paymentId, target, data.amountCents, data.currency, data.correlationId⟩ := by
  unfold OutboxRow.submitted? OutboxRow.terminal? terminalRow
  by_cases h : target = COMPLETED <;> simp [h]

/-! ## Taking a job -/

/-- The job may be taken at time `now`. -/
def ready (now : Nat) : JobState → Bool
  | .waiting => true
  | .delayed readyAt => readyAt ≤ now
  | _ => false

/-- A worker takes a job. -/
def dequeue (r w : Nat) (jobId : String) (s : State β) : Option (State β) :=
  match s.runs r, s.queue jobId with
  | none, some job =>
    if ready s.now job.state then
      some { s with
        queue := s.queue.setState jobId (.active r)
        runs := Function.update s.runs r (some ⟨jobId, job.data, w, .start⟩) }
    else none
  | _, _ => none

/-! ## txn 1 -/

/-- `BEGIN`. -/
def claimBegin (r : Nat) (s : State β) : Option (State β) :=
  match s.runs r with
  | some run =>
    match run.pc with
    | .start => some (s.setPc r run (.claimBegun s.now))
    | _ => none
  | none => none

/-- `SELECT status`; without a row or with an illegal transition the callback returns. -/
def claimSelect (r : Nat) (s : State β) : Option (State β) :=
  match s.runs r with
  | some run =>
    match run.pc with
    | .claimBegun began =>
      match s.db.payments run.data.paymentId with
      | none => some (s.setPc r run .claimDone)
      | some p =>
        if canTransition p.status PROCESSING then some (s.setPc r run (.claimRead began p.status none))
        else some (s.setPc r run .claimDone)
    | _ => none
  | none => none

/-- `updatedAt: new Date()`, read before the update of the open transaction is sent. -/
def readClock (r : Nat) (s : State β) : Option (State β) :=
  match s.runs r with
  | some run =>
    match run.pc with
    | .claimRead began status none => some (s.setPc r run (.claimRead began status (some s.now)))
    | .settleBegun began dis none => some (s.setPc r run (.settleBegun began dis (some s.now)))
    | _ => none
  | none => none

/-- The compare-and-swap, the event and the commit; it waits for a lock on the row. With zero rows
the callback returns. -/
def claimUpdate (r : Nat) (s : State β) : Option (State β) :=
  match s.runs r with
  | some run =>
    match run.pc with
    | .claimRead began status (some clock) =>
      match s.db.updateWhere run.data.paymentId status (claimSet clock) with
      | none => some (s.setPc r run .claimDone)
      | some (p, db) =>
        if (s.rowLocks run.data.paymentId).isSome then none
        else
          some { s with
            db := db.insertEvents [eventFor run.data (env.u.ulid s.ulids) status PROCESSING none began]
            ulids := s.ulids + 1
            runs := Function.update s.runs r (some { run with pc := .claimDone })
            history := s.history ++ [.moved (.worker r) run.data.paymentId (some status) PROCESSING p.version] }
    | _ => none
  | none => none

/-! ## The bank call -/

/-- The request of a job. -/
def requestOf (data : JobData) : BankAuthorizeRequest where
  paymentId := data.paymentId
  amountCents := data.amountCents
  currency := data.currency
  idempotencyKey := data.paymentId

/-- `breaker.allow()` and, if it allows, the call of `bank.authorize`. -/
def authorize (r : Nat) (s : State β) : Option (State β) :=
  match s.runs r with
  | some run =>
    match run.pc with
    | .claimDone =>
      let breaker := (s.breakers run.worker).allow env.cfg s.now
      let breakers := Function.update s.breakers run.worker breaker.2
      if breaker.1 then
        some { s with
          breakers := breakers
          calls := Function.update s.calls r (some ⟨requestOf run.data, s.now + port.latencyMs s.bank, none⟩)
          runs := Function.update s.runs r (some { run with pc := .calling s.now })
          history := s.history ++ [.called r (requestOf run.data)] }
      else
        some { s with
          breakers := breakers
          runs := Function.update s.runs r (some { run with pc := .decided (.retry "circuit_open") })
          history := s.history ++ [.refused r] }
    | _ => none
  | none => none

/-- The bank settles a call, whoever still waits for it. -/
def answer (r : Nat) (s : State β) : Option (State β) :=
  match s.calls r with
  | some call =>
    if call.reply = none ∧ call.readyAt ≤ s.now then
      let result := port.authorize call.req s.bank
      some { s with
        bank := result.2
        calls := Function.update s.calls r (some { call with reply := some result.1 })
        history := s.history ++ [.answered r call.req result.1 s.bank result.2] }
    else none
  | none => none

/-- The awaited call settles first: an outcome is turned into a disposition and recorded on the
breaker, a rejection is rethrown. -/
def receive (r : Nat) (s : State β) : Option (State β) :=
  match s.runs r, s.calls r with
  | some run, some call =>
    match run.pc, call.reply with
    | .calling _, some (.resolved outcome) =>
      let dis := dispositionOf outcome
      some { s with
        breakers := Function.update s.breakers run.worker
          ((s.breakers run.worker).record env.cfg s.now (!dis.isRetry))
        runs := Function.update s.runs r (some { run with pc := .decided dis })
        history := s.history ++ [.received r (.resolved outcome), .recorded r (!dis.isRetry)] }
    | .calling _, some (.rejected message) =>
      some { s with
        runs := Function.update s.runs r (some { run with pc := .threw })
        history := s.history ++ [.received r (.rejected message)] }
    | _, _ => none
  | _, _ => none

/-- The race rejects with a `BankTimeoutError`: the timer of `withTimeout` fires first, and the call goes on
without the run, or the port rejected with one. -/
def timeout (r : Nat) (s : State β) : Option (State β) :=
  match s.runs r with
  | some run =>
    match run.pc with
    | .calling since =>
      if since + env.cfg.bankTimeoutMs ≤ s.now ∨ (s.calls r).bind Call.reply = some .timeoutError then
        some { s with
          breakers := Function.update s.breakers run.worker ((s.breakers run.worker).record env.cfg s.now false)
          runs := Function.update s.runs r (some { run with pc := .decided (.retry "bank_timeout") })
          history := s.history ++ [.timedOut r, .recorded r false] }
      else none
    | _ => none
  | none => none

/-! ## The finalising transactions -/

/-- The check of `canTransition('PROCESSING', target)` for a final disposition, then `BEGIN` of txn 2;
`BEGIN` of the RETRY transaction otherwise. -/
def settleBegin (r : Nat) (s : State β) : Option (State β) :=
  match s.runs r with
  | some run =>
    match run.pc with
    | .decided dis =>
      if dis.target.all (canTransition PROCESSING) then some (s.setPc r run (.settleBegun s.now dis none))
      else some (s.setPc r run .threw)
    | _ => none
  | none => none

/-- The body of the RETRY transaction and its commit. -/
def retryUpdate (r : Nat) (s : State β) : Option (State β) :=
  match s.runs r with
  | some run =>
    match run.pc with
    | .settleBegun began (.retry reason) (some clock) =>
      if !canTransition PROCESSING RETRYING || !canTransition PROCESSING FAILED then some (s.setPc r run .threw)
      else
        match s.db.updateWhere run.data.paymentId PROCESSING (retrySet env.cfg clock reason) with
        | none => some (s.setPc r run .returned)
        | some (p, db) =>
          if (s.rowLocks run.data.paymentId).isSome then none
          else if p.status = FAILED then
            some { s with
              db := db.insertEvents [eventFor run.data (env.u.ulid s.ulids) PROCESSING FAILED
                (some { reason := some reason, retriesExhausted := true }) began]
              ulids := s.ulids + 1
              runs := Function.update s.runs r (some { run with pc := .returned })
              history := s.history ++ [.moved (.worker r) run.data.paymentId (some PROCESSING) FAILED p.version] }
          else
            some { s with
              db := db.insertEvents [eventFor run.data (env.u.ulid s.ulids) PROCESSING RETRYING
                (some { reason := some reason, attempt := some p.attemptCount }) began]
              ulids := s.ulids + 1
              runs := Function.update s.runs r (some { run with pc := .retryAdd p.attemptCount })
              history := s.history ++ [.moved (.worker r) run.data.paymentId (some PROCESSING) RETRYING p.version] }
    | _ => none
  | none => none

/-- The body of txn 2 and its commit. -/
def finalUpdate (r : Nat) (s : State β) : Option (State β) :=
  match s.runs r with
  | some run =>
    match run.pc with
    | .settleBegun began dis (some clock) =>
      match dis.target with
      | none => none
      | some target =>
        match s.db.updateWhere run.data.paymentId PROCESSING (settleSet clock target) with
        | none => some (s.setPc r run .returned)
        | some (p, db) =>
          if (s.rowLocks run.data.paymentId).isSome then none
          else
            some { s with
              db := (db.insertEvents [eventFor run.data (env.u.ulid s.ulids) PROCESSING target
                (some dis.metadata) began]).insertOutbox
                  (terminalRow run.data (env.u.ulid (s.ulids + 1)) target began)
              ulids := s.ulids + 2
              runs := Function.update s.runs r (some { run with pc := .returned })
              history := s.history ++ [.moved (.worker r) run.data.paymentId (some PROCESSING) target p.version] }
    | _ => none
  | none => none

/-! ## The retry job -/

/-- The cap of `computeBackoffMs(attempt)`; the delay is between half of it and the whole. -/
def backoffCap (cfg : Config) (attempt : Nat) : Nat :=
  min (cfg.baseBackoffMs * 2 ^ (attempt - 1)) cfg.capBackoffMs

/-- The id of the retry job. -/
def retryJobId (paymentId : String) (attempt : Nat) : String := paymentId ++ ":retry:" ++ toString attempt

/-- `queue.add('payment_retry', …)` with some delay `computeBackoffMs` can return; it throws for an
attempt below one. -/
def retryAdd (r delay : Nat) (s : State β) : Option (State β) :=
  match s.runs r with
  | some run =>
    match run.pc with
    | .retryAdd attempt =>
      if attempt < 1 then some (s.setPc r run .threw)
      else if backoffCap env.cfg attempt / 2 ≤ delay ∧ delay ≤ backoffCap env.cfg attempt then
        some ((s.enqueue (retryJobId run.data.paymentId attempt) "payment_retry" run.data
          (.delayed (s.now + delay))).setPc r run .returned)
      else none
    | _ => none
  | none => none

/-! ## Failure and the end of a job -/

/-- The places where an awaited database or queue operation may reject. -/
def Pc.mayFail : Pc → Bool
  | .start | .claimBegun _ | .claimRead _ _ _ | .decided _ | .settleBegun _ _ _ | .retryAdd _ => true
  | _ => false

/-- An awaited operation rejects: its transaction is rolled back and the run throws. -/
def fail (r : Nat) (s : State β) : Option (State β) :=
  match s.runs r with
  | some run => if Pc.mayFail run.pc then some (s.setPc r run .threw) else none
  | none => none

/-- The queue after a run ends; it ignores a run that no longer holds the job. -/
def closeJob (q : Queue) (jobId : String) (r : Nat) (state : JobState) : Queue :=
  if (q jobId).map Job.state = some (.active r) then q.setState jobId state else q

/-- The job of a run that returned is completed, of one that threw failed. -/
def finish (r : Nat) (s : State β) : Option (State β) :=
  match s.runs r with
  | some run =>
    match run.pc with
    | .returned => some { s.setPc r run .gone with queue := closeJob s.queue run.jobId r .completed }
    | .threw => some { s.setPc r run .gone with queue := closeJob s.queue run.jobId r .failed }
    | _ => none
  | none => none

/-- The lock of an active job expires and the job is put back, as after a crash of its worker. -/
def stall (jobId : String) (s : State β) : Option (State β) :=
  match s.queue jobId with
  | some job =>
    match job.state with
    | .active _ => some { s with queue := s.queue.setState jobId .waiting }
    | _ => none
  | none => none

/-- A worker process dies and starts again: its runs are gone and its breaker is new. -/
def crash (w : Nat) (s : State β) : Option (State β) :=
  some { s with
    runs := fun r => (s.runs r).map fun run => if run.worker = w then { run with pc := .gone } else run
    breakers := Function.update s.breakers w { openedAt := s.now } }

end Worker

end PaymentsProcessor
