/-
The state of the webhook deliveries: the outbox with its second marker, the endpoints and the deliveries, the
webhooks queue, the runs of `WebhookProcessor.process`, the polls of `WebhookDispatcherService` and the ticks of
`WebhookReaperService` in progress, and the requests sent.

Which job was made from which state of a row is recorded beside the data of the source: `writes` counts the status
writes of a delivery, and `basis` is that count where a job's id was made. No step decides by them.
-/
import PaymentsProcessor.Config
import PaymentsProcessor.Database.Schema
import PaymentsProcessor.Queue.Evicting

namespace PaymentsProcessor

/-! ## Rows -/

/-- `webhook_status`. -/
inductive WebhookStatus
  | pending | delivered | failed | dead
  deriving DecidableEq

/-- The statuses on which `process` returns at once. -/
def WebhookStatus.final : WebhookStatus → Bool
  | .delivered | .dead => true
  | .pending | .failed => false

/-- A row of `webhook_endpoints`. -/
structure WebhookEndpoint where
  id : String
  url : String
  secret : String
  active : Bool
  createdAt : Nat
  deriving DecidableEq

/-- A row of `webhook_deliveries`; `event` is `event_type` and `payload`. -/
structure WebhookDelivery where
  id : String
  endpointId : String
  eventId : String
  event : OutboxEvent
  status : WebhookStatus := .pending
  attempts : Nat := 0
  nextAttemptAt : Option Nat := none
  lastError : Option String := none
  createdAt : Nat
  deliveredAt : Option Nat := none
  /-- the status writes so far, which no statement reads -/
  writes : Nat := 0
  deriving DecidableEq

namespace Webhooks

/-- `SELECT … WHERE id = …`. -/
def find (deliveries : List WebhookDelivery) (id : String) : Option WebhookDelivery :=
  deliveries.find? fun d => d.id = id

/-- `UPDATE … SET f WHERE id = …`. -/
def update (deliveries : List WebhookDelivery) (id : String) (f : WebhookDelivery → WebhookDelivery) :
    List WebhookDelivery :=
  deliveries.map fun d => if d.id = id then f d else d

theorem find_id {deliveries : List WebhookDelivery} {id : String} {d : WebhookDelivery}
    (h : find deliveries id = some d) : d.id = id := by
  simpa using List.find?_some h

theorem find_update {deliveries : List WebhookDelivery} {id i : String} {f : WebhookDelivery → WebhookDelivery}
    (hf : ∀ d, (f d).id = d.id) :
    find (update deliveries id f) i = (find deliveries i).map fun d => if i = id then f d else d := by
  have hid : ∀ d : WebhookDelivery, (if d.id = id then f d else d).id = d.id := fun d => by
    split
    · exact hf d
    · rfl
  unfold find update
  rw [List.find?_map, show (fun d : WebhookDelivery => decide (d.id = i)) ∘
    (fun d => if d.id = id then f d else d) = fun d => decide (d.id = i) from funext fun d => by simp [hid]]
  cases hd : deliveries.find? fun d => decide (d.id = i) with
  | none => rfl
  | some d =>
    have hdi : d.id = i := by simpa using List.find?_some hd
    simp [hdi]

/-- New rows do not hide the old ones. -/
theorem find_append {deliveries rows : List WebhookDelivery} {id : String} {d : WebhookDelivery}
    (h : find deliveries id = some d) : find (deliveries ++ rows) id = some d := by
  unfold find at h ⊢
  rw [List.find?_append, h]
  rfl

/-- With the primary key enforced, a row is found under its id. -/
theorem find_of_mem {deliveries : List WebhookDelivery} {d : WebhookDelivery}
    (hpk : (deliveries.map WebhookDelivery.id).Nodup) (h : d ∈ deliveries) : find deliveries d.id = some d := by
  unfold find
  induction deliveries with
  | nil => cases h
  | cons e es ih =>
    rw [List.map_cons, List.nodup_cons] at hpk
    rw [List.find?_cons]
    rcases List.mem_cons.1 h with rfl | hmem
    · simp
    · have hne : e.id ≠ d.id := fun he => hpk.1 (he ▸ List.mem_map_of_mem hmem)
      simpa [hne] using ih hpk.2 hmem

/-! ## Jobs and runs -/

/-- The data of a webhooks job. -/
structure DeliveryJob where
  deliveryId : String
  /-- the status writes of the row its id was made from, which no step reads -/
  basis : Nat
  deriving DecidableEq

/-- How a `fetch` settles: a response, or a rejection, with the message of an `Error`. -/
inductive Reply
  | response (status : Nat)
  | rejected (message : Option String)
  deriving DecidableEq

/-- `lastError`, unless `ok`. -/
def Reply.lastError : Reply → Option String
  | .response status => if 200 ≤ status ∧ status ≤ 299 then none else some ("HTTP " ++ toString status)
  | .rejected message => some (message.getD "delivery_error")

/-- What a run decides to write after its request, with the values it has computed. -/
inductive StatusWrite
  | delivered (deliveredAt : Nat)
  | dead (attempts : Nat) (lastError : String)
  | failed (delay nextAttemptAt attempts : Nat) (lastError : String)
  deriving DecidableEq

/-- `SET` of the three updates: the success counts in SQL, the failures write the count computed from the row read. -/
def StatusWrite.set (w : StatusWrite) (d : WebhookDelivery) : WebhookDelivery :=
  match w with
  | .delivered deliveredAt =>
    { d with status := .delivered, deliveredAt := some deliveredAt, attempts := d.attempts + 1, writes := d.writes + 1 }
  | .dead attempts lastError =>
    { d with status := .dead, attempts := attempts, lastError := some lastError, writes := d.writes + 1 }
  | .failed _ nextAttemptAt attempts lastError =>
    { d with
      status := .failed
      nextAttemptAt := some nextAttemptAt
      attempts := attempts
      lastError := some lastError
      writes := d.writes + 1 }

@[simp] theorem StatusWrite.set_id (w : StatusWrite) (d : WebhookDelivery) : (w.set d).id = d.id := by
  cases w <;> rfl

@[simp] theorem StatusWrite.set_writes (w : StatusWrite) (d : WebhookDelivery) : (w.set d).writes = d.writes + 1 := by
  cases w <;> rfl

@[simp] theorem StatusWrite.set_endpointId (w : StatusWrite) (d : WebhookDelivery) :
    (w.set d).endpointId = d.endpointId := by
  cases w <;> rfl

@[simp] theorem StatusWrite.set_eventId (w : StatusWrite) (d : WebhookDelivery) : (w.set d).eventId = d.eventId := by
  cases w <;> rfl

@[simp] theorem StatusWrite.set_event (w : StatusWrite) (d : WebhookDelivery) : (w.set d).event = d.event := by
  cases w <;> rfl

/-- Where a run of `process` is. -/
inductive Pc
  /-- before the select of the delivery -/
  | start
  /-- the row was read, and is not final -/
  | loaded (d : WebhookDelivery)
  /-- waiting for the receiver -/
  | posting (d : WebhookDelivery)
  /-- the reply was received, its update not yet executed -/
  | settling (d : WebhookDelivery) (w : StatusWrite)
  /-- the failure is recorded, the retry job not yet added -/
  | retryAdd (deliveryId : String) (attempts delay basis : Nat)
  | returned
  | threw
  /-- the job is finished with, or the worker crashed -/
  | gone
  deriving DecidableEq

/-- `process` has come to its end, and its job will not be given to another run by it. -/
def Pc.over : Pc → Bool
  | .returned | .threw => true
  | _ => false

/-- One run of `process(job)`. -/
structure Run where
  jobId : String
  data : DeliveryJob
  pc : Pc
  deriving DecidableEq

/-- The JSON body of a request; `event` is `type` and `data`. -/
structure Envelope where
  id : String
  event : OutboxEvent
  created : Nat
  deriving DecidableEq

/-- A request sent to a receiver: its headers and body, and the delivery it is for. -/
structure Post where
  deliveryId : String
  url : String
  webhookId : String
  timestamp : Nat
  signature : String
  body : String
  deriving DecidableEq

/-! ## Polls and ticks -/

/-- Where a `poll_once` is: in its transaction, adding the jobs of the rows that are left, past it, or rolled back. -/
inductive PollPc
  | begun
  | selected
  | located
  | adding (left : List String)
  | ended
  | aborted
  deriving DecidableEq

/-- A `poll_once`: when it began, the events and the endpoints it has read. -/
structure Poll where
  began : Nat
  events : List OutboxRow
  endpoints : List WebhookEndpoint
  pc : PollPc

/-- The transaction of the poll has committed its deliveries. -/
def PollPc.committed : PollPc → Bool
  | .adding _ | .ended => true
  | _ => false

/-- What `reap_once` selects of a stranded delivery. -/
structure Stranded where
  id : String
  status : WebhookStatus
  attempts : Nat
  /-- the status writes of the row, which no step reads -/
  basis : Nat
  deriving DecidableEq

/-- A `reap_once`: in its transaction after the select, or adding the jobs that are left. -/
inductive Reap
  | selected (stuck : List Stranded)
  | adding (stuck : List Stranded)
  deriving DecidableEq

/-! ## The state -/

structure State where
  now : Nat
  outbox : List OutboxRow
  endpoints : List WebhookEndpoint
  deliveries : List WebhookDelivery
  ulids : Nat
  queue : EvictingQueue DeliveryJob
  /-- the outbox rows locked by polls -/
  eventLocks : String → Option Nat
  /-- the deliveries locked by ticks -/
  deliveryLocks : String → Option Nat
  polls : Nat → Option Poll
  reaps : Nat → Option Reap
  runs : Nat → Option Run
  posts : List Post

namespace State

/-- Nothing has happened. -/
def initial : State where
  now := 0
  outbox := []
  endpoints := []
  deliveries := []
  ulids := 0
  queue := fun _ => none
  eventLocks := fun _ => none
  deliveryLocks := fun _ => none
  polls := fun _ => none
  reaps := fun _ => none
  runs := fun _ => none
  posts := []

/-- The row of a delivery. -/
def delivery (s : State) (id : String) : Option WebhookDelivery := find s.deliveries id

/-- Move a run on. -/
def setPc (s : State) (r : Nat) (run : Run) (pc : Pc) : State :=
  { s with runs := Function.update s.runs r (some { run with pc := pc }) }

/-- Move a poll on. -/
def setPoll (s : State) (k : Nat) (poll : Poll) : State :=
  { s with polls := Function.update s.polls k (some poll) }

end State

end Webhooks

end PaymentsProcessor
