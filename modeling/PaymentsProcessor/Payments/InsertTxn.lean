/-
`CreatePaymentDto` and `PaymentsService.insert_txn`: the rows one submission writes, and the call
as one atomic operation on the committed tables. The interleaved, statement-by-statement version
is in `Payments.Statements`.
-/
import PaymentsProcessor.Config
import PaymentsProcessor.Database.Schema
import PaymentsProcessor.Shared.Money

namespace PaymentsProcessor

/-! ## The request -/

/-- The body of `POST /v1/payments`; `none` is an absent (or null) optional field. -/
structure CreatePaymentDto where
  customerId : String
  sourceAccount : String
  destinationAccount : String
  amount : String
  currency : Option String := none
  reference : Option String := none
  deriving DecidableEq

/-- The validation decorators: the required strings are not empty, the amount matches its pattern,
a given currency has three characters. -/
def CreatePaymentDto.valid (dto : CreatePaymentDto) : Bool :=
  dto.customerId ≠ "" && dto.sourceAccount ≠ "" && dto.destinationAccount ≠ "" &&
    (matchAmount dto.amount.toList).isSome && dto.currency.all (·.length = 3)

/-! ## The rows of a submission -/

/-- The values of an `INSERT INTO payments`; a column without a value takes its default. -/
structure NewPayment where
  id : String
  customerId : String
  amountCents : Nat
  sourceAccount : String
  destinationAccount : String
  reference : Option String
  currency : Option String := none

/-- The inserted row: the given values and the column defaults of `payments`. -/
def NewPayment.row (v : NewPayment) (now : Nat) : Payment where
  id := v.id
  customerId := v.customerId
  sourceAccount := v.sourceAccount
  destinationAccount := v.destinationAccount
  amountCents := v.amountCents
  currency := v.currency.getD "USD"
  reference := v.reference
  status := .PENDING
  version := 0
  attemptCount := 0
  lastErrorCode := none
  createdAt := now
  updatedAt := now

/-- The row `insert_txn` inserts into `payments`. -/
def paymentRow (dto : CreatePaymentDto) (id : String) (amountCents now : Nat) : Payment :=
  NewPayment.row
    { id := id, customerId := dto.customerId, amountCents := amountCents, sourceAccount := dto.sourceAccount,
      destinationAccount := dto.destinationAccount, reference := dto.reference } now

/-- The row `insert_txn` inserts into `payment_events`. -/
def submittedEvent (row : Payment) (id correlationId : String) (now : Nat) : PaymentEvent where
  id := id
  paymentId := row.id
  fromStatus := none
  toStatus := .PENDING
  correlationId := some correlationId
  metadata := some { reason := some "submitted" }
  occurredAt := now

/-- The row `insert_txn` inserts into `idempotency_keys`. -/
def keyRow (dto : CreatePaymentDto) (row : Payment) (key hash : String) (now : Nat) : IdempotencyKey where
  customerId := dto.customerId
  idempotencyKey := key
  requestHash := hash
  paymentId := row.id
  responseStatus := 202
  responseBody := row
  createdAt := now

/-- The row `insert_txn` inserts into `outbox`. -/
def submittedRow (row : Payment) (id correlationId : String) (now : Nat) : OutboxRow where
  id := id
  aggregateType := "payment"
  aggregateId := row.id
  event := .submitted
    { paymentId := row.id, amountCents := row.amountCents, currency := row.currency,
      sourceAccount := some row.sourceAccount, destinationAccount := some row.destinationAccount,
      customerId := some row.customerId, correlationId := some correlationId }
  publishedAt := none
  webhookDispatchedAt := none
  createdAt := now

/-! ## The call -/

/-- How a call of `insert_txn` ends. -/
inductive InsertResult
  | returned (replayed : Bool) (status : Nat) (body : Payment)
  | conflict (message : String)
  | failed (message : String)
  deriving DecidableEq

/-- The `catch` branch for code 23505: read the row of the pair and replay it. -/
def replay (dto : CreatePaymentDto) (key hash : String) (existing : Option IdempotencyKey) : InsertResult :=
  match existing with
  | none =>
    .failed ("customer: " ++ dto.customerId ++ " and idempotency key: " ++ key ++
      " did not exist in idempotencyKeys table")
  | some existing =>
    if existing.requestHash ≠ hash then .conflict "Idempotency-Key reused with a different request payload"
    else .returned true existing.responseStatus existing.responseBody

/-- The four rows of a submission in the tables. -/
def Db.insertSubmission (db : Db) (row : Payment) (event : PaymentEvent) (key : IdempotencyKey) (out : OutboxRow) :
    Db :=
  (((db.insertPayment row).insertEvents [event]).insertIdempotencyKey key).insertOutbox out

@[simp] theorem Db.insertSubmission_payments (db : Db) (row : Payment) (event : PaymentEvent) (key : IdempotencyKey)
    (out : OutboxRow) :
    (db.insertSubmission row event key out).payments = Function.update db.payments row.id (some row) := rfl
@[simp] theorem Db.insertSubmission_paymentEvents (db : Db) (row : Payment) (event : PaymentEvent)
    (key : IdempotencyKey) (out : OutboxRow) :
    (db.insertSubmission row event key out).paymentEvents = db.paymentEvents ++ [event] := rfl
@[simp] theorem Db.insertSubmission_outbox (db : Db) (row : Payment) (event : PaymentEvent) (key : IdempotencyKey)
    (out : OutboxRow) : (db.insertSubmission row event key out).outbox = db.outbox ++ [out] := rfl

/-- A call of `insert_txn`: its arguments, the ids it draws, and when its transaction begins. -/
structure Submission where
  dto : CreatePaymentDto
  key : String
  hash : String
  correlationId : String
  id : String
  outboxId : String
  eventId : String
  began : Nat
  deriving DecidableEq

namespace Submission

/-- The payment of the call. -/
def row (x : Submission) (amountCents : Nat) : Payment := paymentRow x.dto x.id amountCents x.began

/-- The tables with the four rows of the call. -/
def store (x : Submission) (row : Payment) (db : Db) : Db :=
  db.insertSubmission row (submittedEvent row x.eventId x.correlationId x.began)
    (keyRow x.dto row x.key x.hash x.began) (submittedRow row x.outboxId x.correlationId x.began)

/-- `insert_txn` with no other call in progress. -/
def insertTxn (x : Submission) (db : Db) : InsertResult × Db :=
  match convAmountToUnits x.dto.amount with
  | .error message => (.failed message, db)
  | .ok amountCents =>
    -- a primary key or the key of the pair is taken: code 23505, everything rolled back
    if (db.payments x.id).isSome ∨ (db.findKey x.dto.customerId x.key).isSome then
      (replay x.dto x.key x.hash (db.findKey x.dto.customerId x.key), db)
    else (.returned false 202 (x.row amountCents), x.store (x.row amountCents) db)

end Submission

/-- `insert_txn` as one step of the pipeline at time `now`, drawing its ids from the `n`-th on. -/
def insertTxn (u : UlidSource) (now n : Nat) (dto : CreatePaymentDto) (key hash correlationId : String) (db : Db) :
    InsertResult × Db :=
  Submission.insertTxn
    { dto := dto, key := key, hash := hash, correlationId := correlationId, id := u.ulid n, outboxId := u.ulid (n + 1),
      eventId := u.ulid (n + 2), began := now } db

/-- What `insert_txn` does to the tables: nothing, or the four rows of a new payment whose amount is
the parsed one and whose currency is the default. -/
theorem insertTxn_cases (u : UlidSource) (now n : Nat) (dto : CreatePaymentDto) (key hash correlationId : String)
    (db : Db) :
    (∃ e, insertTxn u now n dto key hash correlationId db = (e, db) ∧ ∀ status body, e ≠ .returned false status body) ∨
    (∃ amountCents, convAmountToUnits dto.amount = .ok amountCents ∧ db.payments (u.ulid n) = none ∧
      insertTxn u now n dto key hash correlationId db =
        (.returned false 202 (paymentRow dto (u.ulid n) amountCents now),
          db.insertSubmission (paymentRow dto (u.ulid n) amountCents now)
            (submittedEvent (paymentRow dto (u.ulid n) amountCents now) (u.ulid (n + 2)) correlationId now)
            (keyRow dto (paymentRow dto (u.ulid n) amountCents now) key hash now)
            (submittedRow (paymentRow dto (u.ulid n) amountCents now) (u.ulid (n + 1)) correlationId now))) := by
  unfold insertTxn Submission.insertTxn
  split
  · exact Or.inl ⟨_, rfl, fun _ _ h => by cases h⟩
  · rename_i amountCents hok
    dsimp only
    split
    · refine Or.inl ⟨_, rfl, fun status body h => ?_⟩
      unfold replay at h
      split at h
      · cases h
      · split at h <;> cases h
    · rename_i hfree
      rw [not_or, Option.not_isSome_iff_eq_none] at hfree
      exact Or.inr ⟨amountCents, hok, hfree.1, rfl⟩

end PaymentsProcessor
