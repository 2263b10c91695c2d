/-
`SubmitPaymentForm` of the dashboard over the statements of the API: any number of its `handleSubmit` calls in flight,
beside the calls of other clients. A request may be refused, served by a call of `insert_txn`, or lost in either direction;
the drawer shows for each of its calls what came of it.
-/
import PaymentsProcessor.Base.History
import PaymentsProcessor.Base.Rounds
import PaymentsProcessor.Payments.Idempotency
import PaymentsProcessor.Payments.Validation

namespace PaymentsProcessor.SubmitForm

open Transition PartialMap Submissions

/-! ## The request -/

/-- `SubmitPaymentInput` as the form keeps it. -/
structure SubmitPaymentInput where
  customerId : String := "C12345"
  sourceAccount : String := "VA10001"
  destinationAccount : String := "EXT98765"
  amount : String := "250.00"
  reference : String := "PMT-1001"
  deriving DecidableEq

/-- The white space and line terminators of `String.prototype.trim`. -/
def isTrimmed (c : Char) : Bool :=
  c.toNat ∈ [0x9, 0xA, 0xB, 0xC, 0xD, 0x20, 0xA0, 0x1680, 0x2028, 0x2029, 0x202F, 0x205F, 0x3000, 0xFEFF] ||
    (0x2000 ≤ c.toNat && c.toNat ≤ 0x200A)

/-- The bytes `fetch` strips from both ends of a header's value. -/
def isHeaderSpace (c : Char) : Bool := c.toNat ∈ [0x9, 0xA, 0xD, 0x20]

/-- A string without the characters of a kind at its ends. -/
def stripEnds (p : Char → Bool) (s : String) : String :=
  String.ofList (((s.toList.dropWhile p).reverse.dropWhile p).reverse)

/-- The body of the request; `|| undefined` leaves an empty reference out. -/
def SubmitPaymentInput.body (form : SubmitPaymentInput) : CreatePaymentDto where
  customerId := form.customerId
  sourceAccount := form.sourceAccount
  destinationAccount := form.destinationAccount
  amount := form.amount
  reference := if stripEnds isTrimmed form.reference = "" then none else some (stripEnds isTrimmed form.reference)

/-- The header `idempotency-key` as the API gets it. -/
def header (idempotencyKey : String) : String := stripEnds isHeaderSpace idempotencyKey

/-! ## The drawer -/

/-- What is shown of a payment. -/
structure Receipt where
  id : String
  status : PaymentStatus
  correlationId : Option String
  deriving DecidableEq

/-- `Result`. -/
inductive Result
  | new (receipt : Receipt)
  | replay (receipt : Receipt)
  | error (message : String)
  deriving DecidableEq

def Result.receipt : Result → Option Receipt
  | .new receipt | .replay receipt => some receipt
  | .error _ => none

/-- Where a call of `handleSubmit` is. -/
inductive AttemptPc
  /-- waiting for a response to a request that has not been served -/
  | sent
  /-- waiting for a response to a request that a call of `insert_txn` serves -/
  | served (c : Nat)
  | settled
  deriving DecidableEq

/-- A call of `handleSubmit`, with its request. -/
structure Attempt where
  dto : CreatePaymentDto
  key : String
  pc : AttemptPc

/-- A result with the request it is the result of. -/
structure Shown where
  dto : CreatePaymentDto
  key : String
  result : Result

/-- What the drawer is used with: the hash of a body, the texts of the response statuses, and whether the browser lets the
page read the header of the correlation id. -/
structure Env where
  requestHash : CreatePaymentDto → String
  statusCodes : Nat → Option String
  exposed : Bool

structure State where
  api : Submissions.State
  form : SubmitPaymentInput
  idempotencyKey : String
  submitting : Bool
  result : Option Result
  createdIds : List String
  attempts : Nat → Option Attempt
  /-- all results so far, which no step reads -/
  shown : List Shown

/-- The drawer is opened; `key` is a `randomId()`. -/
def State.opened (key : String) : State where
  api := .initial
  form := {}
  idempotencyKey := key
  submitting := false
  result := none
  createdIds := []
  attempts := fun _ => none
  shown := []

/-! ## handleSubmit -/

/-- `handleSubmit` up to the `fetch`. -/
def handleSubmit (i : Nat) (s : State) : Option State :=
  match s.attempts i with
  | none =>
    some { s with
      submitting := true
      result := none
      attempts := Function.update s.attempts i (some ⟨s.form.body, header s.idempotencyKey, .sent⟩) }
  | some _ => none

/-- The request passes the validation and the check of its header, and `insert_txn` is called. -/
def arrive (env : Env) (i c : Nat) (correlationId id outboxId : String) (s : State) : Option State :=
  match s.attempts i with
  | some ⟨dto, key, .sent⟩ =>
    if dto.valid ∧ key ≠ "" then
      (Submissions.start c dto key (env.requestHash dto) correlationId id outboxId s.api).map fun api =>
        { s with api := api, attempts := Function.update s.attempts i (some ⟨dto, key, .served c⟩) }
    else none
  | _ => none

/-- `submitPayment` on a response: the payment with the header, or what is thrown. -/
def submitPayment (env : Env) (correlationId : String) : Response → Except String (Payment × Option String)
  | .accepted _ body => .ok (body, if env.exposed then some correlationId else none)
  | .problem problem => .error problem.detail

/-- The rest of `handleSubmit`, on what `submitPayment` returns or throws. -/
def settle (i : Nat) (attempt : Attempt) (answer : Except String (Payment × Option String)) (s : State) : State :=
  match answer with
  | .ok (payment, correlationId) =>
    let replayed := payment.id ∈ s.createdIds
    let receipt : Receipt := ⟨payment.id, payment.status, correlationId⟩
    let result : Result := if replayed then .replay receipt else .new receipt
    { s with
      createdIds := if replayed then s.createdIds else payment.id :: s.createdIds
      result := some result
      submitting := false
      attempts := Function.update s.attempts i (some { attempt with pc := .settled })
      shown := s.shown ++ [⟨attempt.dto, attempt.key, result⟩] }
  | .error message =>
    { s with
      result := some (.error message)
      submitting := false
      attempts := Function.update s.attempts i (some { attempt with pc := .settled })
      shown := s.shown ++ [⟨attempt.dto, attempt.key, .error message⟩] }

def url : String := "/v1/payments"

/-- The response to a request that is not served: the validation's, with its messages, or that to an empty header. -/
def refuse (env : Env) (i : Nat) (errors : List String) (s : State) : Option State :=
  match s.attempts i with
  | some ⟨dto, key, .sent⟩ =>
    if dto.valid = false then
      some (settle i ⟨dto, key, .sent⟩ (submitPayment env ""
        (.problem (catchProblem env.statusCodes url (.http 400 (some (.inr errors)))))) s)
    else if key = "" then
      some (settle i ⟨dto, key, .sent⟩ (submitPayment env ""
        (.problem (catchProblem env.statusCodes url (.http 400 (some (.inl "Idempotency-Key header required")))))) s)
    else none
  | _ => none

/-- The response to the call that serves the request comes in. -/
def receive (env : Env) (i : Nat) (s : State) : Option State :=
  match s.attempts i with
  | some ⟨dto, key, .served c⟩ =>
    match s.api.calls c with
    | some ⟨x, .ended result⟩ =>
      some (settle i ⟨dto, key, .served c⟩ (submitPayment env x.correlationId (respond env.statusCodes url result)) s)
    | some ⟨x, .threw message⟩ =>
      some (settle i ⟨dto, key, .served c⟩ (submitPayment env x.correlationId
        (.problem (catchProblem env.statusCodes url (.error message)))) s)
    | _ => none
  | _ => none

/-- The `fetch` rejects, or its response cannot be read, whatever has become of the request. -/
def lose (i : Nat) (message : String) (s : State) : Option State :=
  match s.attempts i with
  | some ⟨_, _, .settled⟩ | none => none
  | some attempt => some (settle i attempt (.error message) s)

/-! ## The system -/

inductive Action
  /-- a statement of any call, the clock, a crash: whatever the API does -/
  | api (a : Submissions.Action)
  /-- typing -/
  | set (form : SubmitPaymentInput)
  | setIdempotencyKey (key : String)
  | handleSubmit (i : Nat)
  | arrive (i c : Nat) (correlationId id outboxId : String)
  | refuse (i : Nat) (errors : List String)
  | receive (i : Nat)
  | lose (i : Nat) (message : String)

/-- One step. A request may arrive after its `fetch` was lost: that call is one of the other clients'. -/
def step (env : Env) (s : State) : Action → Option State
  | .api a => (Submissions.step s.api a).map fun api => { s with api := api }
  | .set form => some { s with form := form }
  | .setIdempotencyKey key => some { s with idempotencyKey := key }
  | .handleSubmit i => handleSubmit i s
  | .arrive i c correlationId id outboxId => arrive env i c correlationId id outboxId s
  | .refuse i errors => refuse env i errors s
  | .receive i => receive env i s
  | .lose i message => lose i message s

/-- One drawer, from its opening on. -/
def system (env : Env) (key : String) : System State Action where
  init := .opened key
  step := step env

end PaymentsProcessor.SubmitForm
