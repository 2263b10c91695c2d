/-
The state of the payment pipeline: the committed tables, the payments queue, the bank, one circuit
breaker per worker, the runs of `PaymentProcessor.process`, their bank calls, the polls of the relay
and the ticks of the reaper in progress, and the history of what happened, which no step reads.

Every await of the code is a point where others may step. A transaction's statements are separate
steps where another transaction can come between them; an update and everything up to the commit is
one step, since the updated row stays locked until then. The times a statement uses are read before it
is sent, so reading the clock is a step of its own.
-/
import PaymentsProcessor.Bank.CircuitBreaker
import PaymentsProcessor.Bank.Port
import PaymentsProcessor.Payments.InsertTxn
import PaymentsProcessor.Queue.Jobs

namespace PaymentsProcessor

/-! ## Runs of the worker -/

/-- `Disposition`: COMPLETE with its bank reference, FAIL or RETRY with its reason. -/
inductive Disposition
  | complete (bankRef : String)
  | fail (reason : String)
  | retry (reason : String)
  deriving DecidableEq

namespace Disposition

/-- `dis.kind === 'RETRY'`. -/
def isRetry : Disposition → Bool
  | .retry _ => true
  | _ => false

/-- `dis.target`. -/
def target : Disposition → Option PaymentStatus
  | .complete _ => some .COMPLETED
  | .fail _ => some .FAILED
  | .retry _ => none

/-- `dis.metadata`. -/
def metadata : Disposition → Metadata
  | .complete bankRef => { bankRef := some bankRef }
  | .fail reason => { reason := some reason }
  | .retry reason => { reason := some reason }

end Disposition

/-- The switch on `outcome.status`. -/
def dispositionOf : BankOutcome → Disposition
  | .authorized bankRef => .complete bankRef
  | .declined reason => .fail reason
  | .error retryable reason => if retryable then .retry reason else .fail reason

/-- Where a run of `process` is. -/
inductive Pc
  /-- before txn 1 -/
  | start
  /-- txn 1 has begun -/
  | claimBegun (began : Nat)
  /-- txn 1 has read a status it may move to PROCESSING; then the time its update will write -/
  | claimRead (began : Nat) (status : PaymentStatus) (clock : Option Nat)
  /-- past txn 1, whichever way its callback returned -/
  | claimDone
  /-- waiting for the bank since a time -/
  | calling (since : Nat)
  /-- past the bank step -/
  | decided (dis : Disposition)
  /-- the RETRY transaction or txn 2 has begun; then it has read the time its update will write -/
  | settleBegun (began : Nat) (dis : Disposition) (clock : Option Nat)
  /-- the retry committed, its job not yet added -/
  | retryAdd (attempt : Nat)
  | returned
  | threw
  /-- the job is finished with, or the worker crashed -/
  | gone
  deriving DecidableEq

/-- One run of `process(job)` on a worker. -/
structure Run where
  jobId : String
  data : JobData
  worker : Nat
  pc : Pc
  deriving DecidableEq

/-- A call of `bank.authorize`, by the run that made it: its latency ends at `readyAt`. -/
structure Call where
  req : BankAuthorizeRequest
  readyAt : Nat
  reply : Option BankReply
  deriving DecidableEq

/-! ## Polls and ticks -/

/-- A `poll_once` of the relay: the rows it selected, the ids whose job the queue has accepted, and
whether its transaction is open. The adds of a failed poll may still arrive. -/
structure Poll where
  rows : List OutboxRow
  added : List String
  live : Bool

/-- What `reap_once` selects of a stuck payment. -/
structure StuckRow where
  id : String
  status : PaymentStatus
  amountCents : Nat
  currency : String
  deriving DecidableEq

/-- A `reap_once`: in its transaction before the select and, since `time`, after it, each with the clock
reading of the statement to come; committed, or adding jobs under ids made at a time. -/
inductive Reap
  | begun (began : Nat) (clock : Option Nat)
  | selected (began time : Nat) (stuck : List StuckRow) (clock : Option Nat)
  | committed (stuck : List StuckRow)
  | adding (stamp : Nat) (stuck : List StuckRow)
  deriving DecidableEq

/-! ## History -/

/-- Who moves a payment. -/
inductive Actor
  | submission
  | worker (run : Nat)
  | reaper (tick : Nat)
  deriving DecidableEq

/-- What happened, in order. -/
inductive Effect (β : Type)
  /-- a submission was accepted -/
  | submitted (paymentId : String) (dto : CreatePaymentDto) (correlationId : String)
  /-- a transition was committed, with the version it wrote -/
  | moved (actor : Actor) (paymentId : String) (src : Option PaymentStatus) (dst : PaymentStatus) (version : Nat)
  /-- a tick claimed a stuck payment, in the status and at the time of its select -/
  | reaped (tick : Nat) (paymentId : String) (status : PaymentStatus) (time : Nat)
  /-- `queue.add` was executed; `fresh` tells whether it created the job -/
  | added (jobId name : String) (data : JobData) (fresh : Bool)
  /-- `breaker.allow()` was false -/
  | refused (run : Nat)
  /-- `bank.authorize` was called -/
  | called (run : Nat) (req : BankAuthorizeRequest)
  /-- the bank settled a call, from one of its states to another -/
  | answered (run : Nat) (req : BankAuthorizeRequest) (reply : BankReply) (before after : β)
  /-- a run got the answer to its call -/
  | received (run : Nat) (reply : BankReply)
  /-- `withTimeout` gave up -/
  | timedOut (run : Nat)
  /-- `breaker.record` was called -/
  | recorded (run : Nat) (success : Bool)

/-! ## The state -/

structure State (β : Type) where
  now : Nat
  /-- how many ids have been drawn -/
  ulids : Nat
  db : Db
  queue : Queue
  bank : β
  /-- by worker -/
  breakers : Nat → CircuitBreaker
  runs : Nat → Option Run
  /-- by the run that made the call -/
  calls : Nat → Option Call
  polls : Nat → Option Poll
  reaps : Nat → Option Reap
  /-- payments locked by the open transaction of a tick -/
  rowLocks : String → Option Nat
  /-- outbox rows locked by the open transaction of a poll -/
  outboxLocks : String → Option Nat
  history : List (Effect β)

namespace State

variable {β : Type}

/-- Nothing submitted, nothing running. -/
def initial (bank : β) : State β where
  now := 0
  ulids := 0
  db := .empty
  queue := fun _ => none
  bank := bank
  breakers := fun _ => { openedAt := 0 }
  runs := fun _ => none
  calls := fun _ => none
  polls := fun _ => none
  reaps := fun _ => none
  rowLocks := fun _ => none
  outboxLocks := fun _ => none
  history := []

/-- Move a run on. -/
def setPc (s : State β) (r : Nat) (run : Run) (pc : Pc) : State β :=
  { s with runs := Function.update s.runs r (some { run with pc := pc }) }

/-- `queue.add`. -/
def enqueue (s : State β) (jobId name : String) (data : JobData) (state : JobState) : State β :=
  { s with queue := s.queue.add jobId name data state
           history := s.history ++ [.added jobId name data (s.queue jobId).isNone] }

/-- Append to the history. -/
def log (s : State β) (es : List (Effect β)) : State β := { s with history := s.history ++ es }

end State

end PaymentsProcessor
