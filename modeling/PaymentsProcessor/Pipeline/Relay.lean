/-
`RelayService.poll_once` and `ReaperService.reap_once`, one definition for each stretch between two
awaits.
-/
import PaymentsProcessor.Pipeline.Worker
import Mathlib.Data.List.Sort

namespace PaymentsProcessor

open PaymentStatus PartialMap

variable {β : Type} (env : Env)

namespace Relay

/-! ## poll_once -/

/-- The rows of the select: unpublished submissions no open poll has locked, oldest first, at most
a hundred. -/
def unpublished (s : State β) : List OutboxRow :=
  ((s.db.outbox.filter fun row =>
      row.publishedAt = none ∧ row.submitted?.isSome ∧ s.outboxLocks row.id = none).insertionSort
    fun a b => a.createdAt ≤ b.createdAt).take 100

/-- `BEGIN` and `SELECT … FOR UPDATE SKIP LOCKED`. -/
def pollSelect (k : Nat) (s : State β) : Option (State β) :=
  match s.polls k with
  | none =>
    let rows := unpublished s
    some { s with
      polls := Function.update s.polls k (some ⟨rows, [], true⟩)
      outboxLocks := fun id => if id ∈ rows.map OutboxRow.id then some k else s.outboxLocks id }
  | some _ => none

/-- One of the concurrent `queue.add(row.eventType, row.payload, { jobId: row.id })` reaches the
queue, possibly after the poll has failed. -/
def pollAdd (k : Nat) (id : String) (s : State β) : Option (State β) :=
  match s.polls k with
  | some poll =>
    match poll.rows.find? fun row => row.id = id with
    | some row =>
      match row.submitted? with
      | some data =>
        if id ∈ poll.added then none
        else
          some { s.enqueue row.id "payment.submitted" data .waiting with
            polls := Function.update s.polls k (some { poll with added := id :: poll.added }) }
      | none => none
    | none => none
  | none => none

/-- With every add accepted, `UPDATE outbox SET published_at` and the commit. -/
def pollCommit (k : Nat) (s : State β) : Option (State β) :=
  match s.polls k with
  | some poll =>
    if poll.live ∧ ∀ row ∈ poll.rows, row.id ∈ poll.added then
      some { s with
        db := s.db.markPublished (poll.rows.map OutboxRow.id) s.now
        polls := Function.update s.polls k none
        outboxLocks := unlock s.outboxLocks k }
    else none
  | none => none

/-- An add or the transaction fails, or the relay crashes: rolled back. -/
def pollAbort (k : Nat) (s : State β) : Option (State β) :=
  match s.polls k with
  | some poll =>
    if poll.live then
      some { s with
        polls := Function.update s.polls k (some { poll with live := false })
        outboxLocks := unlock s.outboxLocks k }
    else none
  | none => none

end Relay

namespace Reaper

/-! ## reap_once -/

/-- `SET` of the batch update. -/
def reapSet (now : Nat) (p : Payment) : Payment :=
  { p with status := RETRYING, attemptCount := p.attemptCount + 1, version := p.version + 1, updatedAt := now }

/-- The selected columns of a payment that is stuck, by the time `clock`, and not locked. -/
def stuckRow (clock : Nat) (s : State β) (pid : String) : Option StuckRow :=
  match s.db.payments pid with
  | some p =>
    if (p.status = PROCESSING ∨ p.status = RETRYING) ∧ p.updatedAt + env.cfg.reaperDeadlineMs < clock ∧
        s.rowLocks pid = none then
      some ⟨pid, p.status, p.amountCents, p.currency⟩
    else none
  | none => none

/-- The events of the batch, with ids from the `n`-th on. -/
def reapEvents (began : Nat) : Nat → List String → List PaymentEvent
  | _, [] => []
  | n, pid :: pids =>
    { id := env.u.ulid n, paymentId := pid, fromStatus := some PROCESSING, toStatus := RETRYING,
      correlationId := none, metadata := some { reason := some "reaped" }, occurredAt := began } ::
      reapEvents began (n + 1) pids

/-- `processingIds`. -/
def processingIds (stuck : List StuckRow) : List String :=
  (stuck.filter fun row => row.status = PROCESSING).map StuckRow.id

/-- `BEGIN`. -/
def reapBegin (k : Nat) (s : State β) : Option (State β) :=
  match s.reaps k with
  | none => some { s with reaps := Function.update s.reaps k (some (.begun s.now none)) }
  | some _ => none

/-- The clock reading of the statement to come: `Date.now()` in the deadline of the select, `new Date()` in the
batch update (where nothing is PROCESSING it goes unused). -/
def reapClock (k : Nat) (s : State β) : Option (State β) :=
  match s.reaps k with
  | some (.begun began none) => some { s with reaps := Function.update s.reaps k (some (.begun began (some s.now))) }
  | some (.selected began time stuck none) =>
    some { s with reaps := Function.update s.reaps k (some (.selected began time stuck (some s.now))) }
  | _ => none

/-- `SELECT … FOR UPDATE SKIP LOCKED LIMIT 100`: some stuck payments, in no particular order. -/
def reapSelect (k : Nat) (pids : List String) (s : State β) : Option (State β) :=
  match s.reaps k with
  | some (.begun began (some clock)) =>
    if pids.Nodup ∧ pids.length ≤ 100 then
      match pids.mapM (stuckRow env clock s) with
      | some stuck =>
        some { s with
          reaps := Function.update s.reaps k (some (.selected began s.now stuck none))
          rowLocks := fun pid => if pid ∈ pids then some k else s.rowLocks pid }
      | none => none
    else none
  | _ => none

/-- The batch update of the PROCESSING rows, by id only, their events, and the commit. -/
def reapUpdate (k : Nat) (s : State β) : Option (State β) :=
  match s.reaps k with
  | some (.selected began time stuck (some clock)) =>
    let pids := processingIds stuck
    let db := s.db.updateIn pids (reapSet clock)
    some { s with
      db := db.insertEvents (reapEvents env began s.ulids pids)
      ulids := s.ulids + pids.length
      reaps := Function.update s.reaps k (some (.committed stuck))
      rowLocks := unlock s.rowLocks k
      history := s.history ++
        (pids.map fun pid =>
          .moved (.reaper k) pid (some PROCESSING) RETRYING (((db.payments pid).map Payment.version).getD 0)) ++
        (stuck.map fun row => .reaped k row.id row.status time) }
  | _ => none

/-- The map over the claimed rows, where `Date.now()` is read. -/
def reapStamp (k : Nat) (s : State β) : Option (State β) :=
  match s.reaps k with
  | some (.committed stuck) => some { s with reaps := Function.update s.reaps k (some (.adding s.now stuck)) }
  | _ => none

/-- The id of a re-drive job. -/
def reapJobId (paymentId : String) (stamp : Nat) : String := paymentId ++ ":reap:" ++ toString stamp

/-- The data of a re-drive job, rebuilt from the selected columns. -/
def reapData (row : StuckRow) : JobData where
  paymentId := row.id
  amountCents := row.amountCents
  currency := row.currency
  correlationId := none

/-- One of the concurrent `queue.add('payment_reap', …)` reaches the queue. -/
def reapAdd (k : Nat) (pid : String) (s : State β) : Option (State β) :=
  match s.reaps k with
  | some (.adding stamp stuck) =>
    match stuck.find? fun row => row.id = pid with
    | some row =>
      some { s.enqueue (reapJobId row.id stamp) "payment_reap" (reapData row) .waiting with
        reaps := Function.update s.reaps k (some (.adding stamp (stuck.filter fun row => row.id ≠ pid))) }
    | none => none
  | _ => none

/-- The tick ends, in good order or by a failure or crash at any point: an open transaction is
rolled back, adds still missing are lost. -/
def reapEnd (k : Nat) (s : State β) : Option (State β) :=
  some { s with
    reaps := Function.update s.reaps k none
    rowLocks := unlock s.rowLocks k }

end Reaper

end PaymentsProcessor
