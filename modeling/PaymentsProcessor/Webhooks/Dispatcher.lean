/-
The writes of `WebhooksService`, and `WebhookDispatcherService.poll_once` and `WebhookReaperService.reap_once`, one
definition for each stretch between two awaits. A transaction's inserts and updates are seen by others only at its
commit, and are one step with it.
-/
import PaymentsProcessor.Webhooks.Processor
import Mathlib.Data.List.Sort

namespace PaymentsProcessor.Webhooks

open PartialMap

variable (env : Env)

namespace Dispatcher

/-! ## Events and endpoints -/

/-- A transaction of the API or a worker inserts an outbox row, with its begin as `created_at`. -/
def emit (event : OutboxEvent) (aggregateId : String) (began : Nat) (s : State) : Option State :=
  if began ≤ s.now then
    some { s with
      outbox := s.outbox ++ [{
        id := env.u.ulid s.ulids, aggregateType := "payment", aggregateId := aggregateId, event := event,
        publishedAt := none, webhookDispatchedAt := none, createdAt := began }]
      ulids := s.ulids + 1 }
  else none

/-- `insert_endpoint`; `secret` is drawn at random. -/
def insertEndpoint (url secret : String) (s : State) : Option State :=
  some { s with
    endpoints := s.endpoints ++ [⟨env.u.ulid s.ulids, url, secret, true, s.now⟩]
    ulids := s.ulids + 1 }

/-- `delete`: the endpoint is deactivated; without a row the call throws. -/
def deactivate (id : String) (s : State) : Option State :=
  if s.endpoints.any fun endpoint => endpoint.id = id then
    some { s with
      endpoints := s.endpoints.map fun endpoint => if endpoint.id = id then { endpoint with active := false } else endpoint }
  else none

/-! ## poll_once -/

/-- The rows of the select: terminal events not yet dispatched that no open poll has locked, oldest first, at most
a hundred. -/
def undispatched (s : State) : List OutboxRow :=
  ((s.outbox.filter fun row =>
      row.webhookDispatchedAt = none ∧ row.terminal?.isSome ∧ s.eventLocks row.id = none).insertionSort
    fun a b => a.createdAt ≤ b.createdAt).take 100

/-- The active endpoints. -/
def activeEndpoints (s : State) : List WebhookEndpoint := s.endpoints.filter WebhookEndpoint.active

/-- The delivery of an event to an endpoint. -/
def deliveryFor (row : OutboxRow) (endpoint : WebhookEndpoint) (id : String) (began : Nat) : WebhookDelivery where
  id := id
  endpointId := endpoint.id
  eventId := row.id
  event := row.event
  createdAt := began

/-- One delivery per event and endpoint, with ids from the `n`-th on. -/
def deliveriesFor (began n : Nat) (events : List OutboxRow) (endpoints : List WebhookEndpoint) : List WebhookDelivery :=
  (events.flatMap fun row => endpoints.map fun endpoint => (row, endpoint)).zipIdx.map fun x =>
    deliveryFor x.1.1 x.1.2 (env.u.ulid (n + x.2)) began

/-- The primary key and the unique constraint of `webhook_deliveries`. -/
def constraints (deliveries : List WebhookDelivery) : Bool :=
  (deliveries.map WebhookDelivery.id).Nodup ∧ (deliveries.map fun d => (d.eventId, d.endpointId)).Nodup

/-- `UPDATE outbox SET webhook_dispatched_at = now WHERE id IN ids`. -/
def markDispatched (outbox : List OutboxRow) (ids : List String) (now : Nat) : List OutboxRow :=
  outbox.map fun row => if row.id ∈ ids then { row with webhookDispatchedAt := some now } else row

/-- `BEGIN`. -/
def pollBegin (k : Nat) (s : State) : Option State :=
  match s.polls k with
  | none => some (s.setPoll k ⟨s.now, [], [], .begun⟩)
  | some _ => none

/-- `SELECT … FROM outbox … FOR UPDATE SKIP LOCKED`; without events the poll ends. -/
def pollSelect (k : Nat) (s : State) : Option State :=
  match s.polls k with
  | some poll =>
    match poll.pc with
    | .begun =>
      match undispatched s with
      | [] => some (s.setPoll k { poll with events := [], pc := .ended })
      | events =>
        some { s.setPoll k { poll with events := events, pc := .selected } with
          eventLocks := fun id => if id ∈ events.map OutboxRow.id then some k else s.eventLocks id }
    | _ => none
  | none => none

/-- `SELECT * FROM webhook_endpoints WHERE active`. -/
def pollEndpoints (k : Nat) (s : State) : Option State :=
  match s.polls k with
  | some poll =>
    match poll.pc with
    | .selected => some (s.setPoll k { poll with endpoints := activeEndpoints s, pc := .located })
    | _ => none
  | none => none

/-- The insert of the deliveries, the update of the events and the commit. -/
def pollCommit (k : Nat) (s : State) : Option State :=
  match s.polls k with
  | some poll =>
    match poll.pc with
    | .located =>
      let rows := deliveriesFor env poll.began s.ulids poll.events poll.endpoints
      if constraints (s.deliveries ++ rows) then
        some { s.setPoll k { poll with pc := .adding (rows.map WebhookDelivery.id) } with
          deliveries := s.deliveries ++ rows
          outbox := markDispatched s.outbox (poll.events.map OutboxRow.id) s.now
          ulids := s.ulids + rows.length
          eventLocks := unlock s.eventLocks k }
      else none
    | _ => none
  | none => none

/-- One of the concurrent `queue.add('webhook.deliver', { deliveryId: d.id }, { jobId: d.id })` reaches the queue. -/
def pollAdd (k : Nat) (id : String) (s : State) : Option State :=
  match s.polls k with
  | some poll =>
    match poll.pc with
    | .adding left =>
      if id ∈ left then
        some { s.setPoll k { poll with pc := .adding (left.filter (· ≠ id)) } with
          queue := s.queue.add id ⟨id, 0⟩ .waiting }
      else none
    | _ => none
  | none => none

/-- The poll ends, in good order or by a failure or crash at any point: an open transaction is rolled back, adds
still missing are lost. -/
def pollEnd (k : Nat) (s : State) : Option State :=
  match s.polls k with
  | some poll =>
    some { s.setPoll k { poll with pc := if poll.pc.committed then .ended else .aborted } with
      eventLocks := unlock s.eventLocks k }
  | none => none

end Dispatcher

namespace Reaper

/-! ## reap_once -/

/-- `COALESCE(next_attempt_at, created_at)`. -/
def dueAt (d : WebhookDelivery) : Nat := d.nextAttemptAt.getD d.createdAt

/-- The selected columns of a delivery that is stranded and not locked. -/
def strandedRow (s : State) (id : String) : Option Stranded :=
  match s.delivery id with
  | some d =>
    if !d.status.final ∧ dueAt d + env.webhooks.reaperDeadlineMs < s.now ∧ s.deliveryLocks id = none then
      some ⟨d.id, d.status, d.attempts, d.writes⟩
    else none
  | none => none

/-- The id the dispatcher or the processor would have used for the row's job. -/
def reapJobId (row : Stranded) : String :=
  if row.attempts = 0 then row.id else Processor.retryJobId row.id row.attempts

/-- `SELECT … FOR UPDATE SKIP LOCKED LIMIT 100`: some stranded deliveries, in no particular order. -/
def reapSelect (k : Nat) (ids : List String) (s : State) : Option State :=
  match s.reaps k with
  | none =>
    if ids.Nodup ∧ ids.length ≤ 100 then
      match ids.mapM (strandedRow env s) with
      | some stuck =>
        some { s with
          reaps := Function.update s.reaps k (some (.selected stuck))
          deliveryLocks := fun id => if id ∈ ids then some k else s.deliveryLocks id }
      | none => none
    else none
  | some _ => none

/-- The commit. -/
def reapCommit (k : Nat) (s : State) : Option State :=
  match s.reaps k with
  | some (.selected stuck) =>
    some { s with
      reaps := Function.update s.reaps k (some (.adding stuck))
      deliveryLocks := unlock s.deliveryLocks k }
  | _ => none

/-- One of the concurrent `queue.add('webhook.deliver', …)` reaches the queue. -/
def reapAdd (k : Nat) (id : String) (s : State) : Option State :=
  match s.reaps k with
  | some (.adding stuck) =>
    match stuck.find? fun row => row.id = id with
    | some row =>
      some { s with
        queue := s.queue.add (reapJobId row) ⟨row.id, row.basis⟩ .waiting
        reaps := Function.update s.reaps k (some (.adding (stuck.filter fun row => row.id ≠ id))) }
    | none => none
  | _ => none

/-- The tick ends, in good order or by a failure or crash at any point. -/
def reapEnd (k : Nat) (s : State) : Option State :=
  some { s with
    reaps := Function.update s.reaps k none
    deliveryLocks := unlock s.deliveryLocks k }

end Reaper

end PaymentsProcessor.Webhooks
