/-
The tables of `schema.ts` that the payment pipeline reads and writes, and the statements it runs
on them. `payments` is keyed by its primary key; the other tables are lists in commit order.
-/
import PaymentsProcessor.Shared.Status
import Mathlib.Logic.Function.Basic

namespace PaymentsProcessor

open PaymentStatus

/-! ## Rows -/

/-- A row of `payments`. -/
structure Payment where
  id : String
  customerId : String
  sourceAccount : String
  destinationAccount : String
  amountCents : Nat
  currency : String
  reference : Option String
  status : PaymentStatus
  version : Nat
  attemptCount : Nat
  lastErrorCode : Option String
  createdAt : Nat
  updatedAt : Nat
  deriving DecidableEq

/-- The JSON object in `payment_events.metadata`; a missing key is `none` (`false`). -/
structure Metadata where
  reason : Option String := none
  bankRef : Option String := none
  attempt : Option Nat := none
  retriesExhausted : Bool := false
  deriving DecidableEq

/-- A row of `payment_events`. -/
structure PaymentEvent where
  id : String
  paymentId : String
  fromStatus : Option PaymentStatus
  toStatus : PaymentStatus
  correlationId : Option String
  metadata : Option Metadata
  occurredAt : Nat
  deriving DecidableEq

/-- A row of `idempotency_keys`. -/
structure IdempotencyKey where
  customerId : String
  idempotencyKey : String
  requestHash : String
  paymentId : String
  responseStatus : Nat
  responseBody : Payment
  createdAt : Nat
  deriving DecidableEq

/-- The data of a payments job: the payload of a `payment.submitted` event, or the same object
without the accounts and the customer when the reaper rebuilds it. -/
structure JobData where
  paymentId : String
  amountCents : Nat
  currency : String
  sourceAccount : Option String := none
  destinationAccount : Option String := none
  customerId : Option String := none
  correlationId : Option String := none
  deriving DecidableEq

/-- The payload of a `payment.completed` or `payment.failed` event. -/
structure TerminalPayload where
  paymentId : String
  status : PaymentStatus
  amountCents : Nat
  currency : String
  correlationId : Option String
  deriving DecidableEq

/-- The event of a payment failed because its retries are exhausted. -/
def PaymentEvent.exhausting (e : PaymentEvent) : Bool := e.toStatus = FAILED && e.metadata.any Metadata.retriesExhausted

/-- `event_type` and `payload` of an outbox row: the type fixes the shape of the payload. -/
inductive OutboxEvent
  | submitted (payload : JobData)
  | completed (payload : TerminalPayload)
  | failed (payload : TerminalPayload)
  deriving DecidableEq

/-- The column `event_type`. -/
def OutboxEvent.type : OutboxEvent → String
  | .submitted _ => "payment.submitted"
  | .completed _ => "payment.completed"
  | .failed _ => "payment.failed"

/-- A row of `outbox`. -/
structure OutboxRow where
  id : String
  aggregateType : String
  aggregateId : String
  event : OutboxEvent
  publishedAt : Option Nat
  webhookDispatchedAt : Option Nat
  createdAt : Nat
  deriving DecidableEq

/-- The payload of a `payment.submitted` row. -/
def OutboxRow.submitted? (row : OutboxRow) : Option JobData :=
  match row.event with
  | .submitted d => some d
  | _ => none

/-- The payload of a `payment.completed` or `payment.failed` row. -/
def OutboxRow.terminal? (row : OutboxRow) : Option TerminalPayload :=
  match row.event with
  | .submitted _ => none
  | .completed p => some p
  | .failed p => some p

/-! ## The database -/

/-- The committed tables. -/
structure Db where
  payments : String → Option Payment
  paymentEvents : List PaymentEvent
  idempotencyKeys : List IdempotencyKey
  outbox : List OutboxRow

/-- The empty database. -/
def Db.empty : Db := ⟨fun _ => none, [], [], []⟩

namespace Db

/-- Write one row of `payments`. -/
def setPayment (db : Db) (pid : String) (p : Payment) : Db :=
  { db with payments := Function.update db.payments pid (some p) }

/-- `UPDATE payments SET f WHERE id = pid AND status = st RETURNING *`: the updated row, if one
matched, and the database after the statement. -/
def updateWhere (db : Db) (pid : String) (st : PaymentStatus) (f : Payment → Payment) : Option (Payment × Db) :=
  match db.payments pid with
  | some p => if p.status = st then some (f p, db.setPayment pid (f p)) else none
  | none => none

/-- `UPDATE payments SET f WHERE id IN pids`. -/
def updateIn (db : Db) (pids : List String) (f : Payment → Payment) : Db :=
  { db with payments := fun pid => if pid ∈ pids then (db.payments pid).map f else db.payments pid }

/-- `INSERT INTO payments`; the caller has checked the primary key. -/
def insertPayment (db : Db) (p : Payment) : Db := db.setPayment p.id p

/-- `INSERT INTO payment_events`. -/
def insertEvents (db : Db) (es : List PaymentEvent) : Db :=
  { db with paymentEvents := db.paymentEvents ++ es }

/-- `INSERT INTO idempotency_keys`; the caller has checked the unique constraint. -/
def insertIdempotencyKey (db : Db) (k : IdempotencyKey) : Db :=
  { db with idempotencyKeys := db.idempotencyKeys ++ [k] }

/-- `INSERT INTO outbox`. -/
def insertOutbox (db : Db) (row : OutboxRow) : Db :=
  { db with outbox := db.outbox ++ [row] }

/-- `UPDATE outbox SET published_at = now WHERE id IN ids`. -/
def markPublished (db : Db) (ids : List String) (now : Nat) : Db :=
  { db with outbox := db.outbox.map fun row => if row.id ∈ ids then { row with publishedAt := some now } else row }

/-- `SELECT * FROM idempotency_keys WHERE customer_id = … AND idempotency_key = …`. -/
def findKey (db : Db) (customerId idempotencyKey : String) : Option IdempotencyKey :=
  db.idempotencyKeys.find? fun k => k.customerId = customerId ∧ k.idempotencyKey = idempotencyKey

/-- The audit rows of a payment, in commit order. -/
def eventsOf (db : Db) (pid : String) : List PaymentEvent :=
  db.paymentEvents.filter fun e => e.paymentId = pid

/-- The terminal outbox rows of a payment, in commit order. -/
def terminalOf (db : Db) (pid : String) : List OutboxRow :=
  db.outbox.filter fun row => row.aggregateId = pid ∧ row.terminal?.isSome

/-! ## Statement specifications -/

theorem updateWhere_eq_some {db db' : Db} {pid : String} {st : PaymentStatus} {f : Payment → Payment} {q : Payment}
    (h : db.updateWhere pid st f = some (q, db')) :
    ∃ p, db.payments pid = some p ∧ p.status = st ∧ q = f p ∧ db' = db.setPayment pid (f p) := by
  unfold updateWhere at h
  split at h
  · rename_i p hp
    split at h
    · rename_i hst
      cases h
      exact ⟨p, hp, hst, rfl, rfl⟩
    · cases h
  · cases h

theorem updateWhere_eq_none {db : Db} {pid : String} {st : PaymentStatus} {f : Payment → Payment}
    (h : db.updateWhere pid st f = none) : ∀ p, db.payments pid = some p → p.status ≠ st := by
  intro p hp hst
  unfold updateWhere at h
  rw [hp] at h
  simp [hst] at h

/-! ## What each statement leaves unchanged -/

variable (db : Db)

@[simp] theorem setPayment_payments (pid : String) (p : Payment) :
    (db.setPayment pid p).payments = Function.update db.payments pid (some p) := rfl
@[simp] theorem setPayment_paymentEvents (pid : String) (p : Payment) :
    (db.setPayment pid p).paymentEvents = db.paymentEvents := rfl
@[simp] theorem setPayment_outbox (pid : String) (p : Payment) : (db.setPayment pid p).outbox = db.outbox := rfl

@[simp] theorem updateIn_payments (pids : List String) (f : Payment → Payment) (pid : String) :
    (db.updateIn pids f).payments pid = if pid ∈ pids then (db.payments pid).map f else db.payments pid := rfl
@[simp] theorem updateIn_paymentEvents (pids : List String) (f : Payment → Payment) :
    (db.updateIn pids f).paymentEvents = db.paymentEvents := rfl
@[simp] theorem updateIn_outbox (pids : List String) (f : Payment → Payment) :
    (db.updateIn pids f).outbox = db.outbox := rfl

@[simp] theorem insertEvents_payments (es : List PaymentEvent) : (db.insertEvents es).payments = db.payments := rfl
@[simp] theorem insertEvents_paymentEvents (es : List PaymentEvent) :
    (db.insertEvents es).paymentEvents = db.paymentEvents ++ es := rfl
@[simp] theorem insertEvents_outbox (es : List PaymentEvent) : (db.insertEvents es).outbox = db.outbox := rfl

@[simp] theorem insertOutbox_payments (row : OutboxRow) : (db.insertOutbox row).payments = db.payments := rfl
@[simp] theorem insertOutbox_paymentEvents (row : OutboxRow) :
    (db.insertOutbox row).paymentEvents = db.paymentEvents := rfl
@[simp] theorem insertOutbox_outbox (row : OutboxRow) : (db.insertOutbox row).outbox = db.outbox ++ [row] := rfl

@[simp] theorem markPublished_payments (ids : List String) (now : Nat) :
    (db.markPublished ids now).payments = db.payments := rfl
@[simp] theorem markPublished_paymentEvents (ids : List String) (now : Nat) :
    (db.markPublished ids now).paymentEvents = db.paymentEvents := rfl

end Db

end PaymentsProcessor
