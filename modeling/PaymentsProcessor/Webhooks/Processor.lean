/-
`WebhookProcessor.process`, one definition for each stretch between two awaits (the endpoint is read in the step
that sends the request, as no endpoint row changes its URL or secret), and the queue's side of a run.
-/
import PaymentsProcessor.Pipeline.Worker
import PaymentsProcessor.Webhooks.State

namespace PaymentsProcessor.Webhooks

/-- What the deliveries are configured with; `hmac` is `createHmac('sha256', secret).update(…).digest('hex')`,
`stringify` is `JSON.stringify`. -/
structure Env where
  cfg : Config
  webhooks : WebhookConfig
  u : UlidSource
  hmac : String → String → String
  stringify : Envelope → String

namespace Processor

variable (env : Env)

/-! ## Taking a job -/

/-- A worker takes a job. -/
def dequeue (r : Nat) (jobId : String) (s : State) : Option State :=
  match s.runs r, s.queue jobId with
  | none, some job =>
    if job.state.ready s.now then
      some { s with
        queue := s.queue.setState jobId (.active r)
        runs := Function.update s.runs r (some ⟨jobId, job.data, .start⟩) }
    else none
  | _, _ => none

/-! ## process -/

/-- The select of the delivery; without a row, or on a final one, the run returns. -/
def load (r : Nat) (s : State) : Option State :=
  match s.runs r with
  | some run =>
    match run.pc with
    | .start =>
      match s.delivery run.data.deliveryId with
      | none => some (s.setPc r run .returned)
      | some d => if d.status.final then some (s.setPc r run .returned) else some (s.setPc r run (.loaded d))
    | _ => none
  | none => none

/-- The envelope of a delivery. -/
def envelopeOf (d : WebhookDelivery) (now : Nat) : Envelope where
  id := d.eventId
  event := d.event
  created := now

/-- The request for a delivery: its body, and the signature over the time in seconds and the body. -/
def postFor (d : WebhookDelivery) (endpoint : WebhookEndpoint) (now : Nat) : Post :=
  let rawBody := env.stringify (envelopeOf d now)
  let timestamp := now / 1000
  { deliveryId := d.id, url := endpoint.url, webhookId := d.eventId, timestamp := timestamp,
    signature := env.hmac endpoint.secret (toString timestamp ++ "." ++ rawBody), body := rawBody }

/-- The select of the endpoint and `fetch(endpoint.url, …)`; without an endpoint the run throws. -/
def post (r : Nat) (s : State) : Option State :=
  match s.runs r with
  | some run =>
    match run.pc with
    | .loaded d =>
      match s.endpoints.find? fun endpoint => endpoint.id = d.endpointId with
      | none => some (s.setPc r run .threw)
      | some endpoint => some { s.setPc r run (.posting d) with posts := s.posts ++ [postFor env d endpoint s.now] }
    | _ => none
  | none => none

/-- What is written after a reply, with the delay drawn for a retry. -/
def writeFor (d : WebhookDelivery) (reply : Reply) (now delay : Nat) : StatusWrite :=
  match reply.lastError with
  | none => .delivered now
  | some lastError =>
    let attempts := d.attempts + 1
    if attempts ≥ env.webhooks.maxAttempts then .dead attempts lastError
    else .failed delay (now + delay) attempts lastError

/-- The reply, or the end of the wait for it, with some delay `computeBackoffMs(attempts)` can return. -/
def receive (r : Nat) (reply : Reply) (delay : Nat) (s : State) : Option State :=
  match s.runs r with
  | some run =>
    match run.pc with
    | .posting d =>
      let cap := Worker.backoffCap env.cfg (d.attempts + 1)
      if cap / 2 ≤ delay ∧ delay ≤ cap then some (s.setPc r run (.settling d (writeFor env d reply s.now delay)))
      else none
    | _ => none
  | none => none

/-- Where a run goes after its update. -/
def afterWrite (d : WebhookDelivery) (w : StatusWrite) (basis : Nat) : Pc :=
  match w with
  | .failed delay _ attempts _ => .retryAdd d.id attempts delay basis
  | .delivered _ | .dead _ _ => .returned

/-- The update of the delivery, by its id only; it waits for a lock on the row. -/
def write (r : Nat) (s : State) : Option State :=
  match s.runs r with
  | some run =>
    match run.pc with
    | .settling d w =>
      if (s.deliveryLocks d.id).isSome then none
      else
        let deliveries := update s.deliveries d.id w.set
        let basis := ((find deliveries d.id).map WebhookDelivery.writes).getD 0
        some { s.setPc r run (afterWrite d w basis) with deliveries := deliveries }
    | _ => none
  | none => none

/-- The id of the retry job. -/
def retryJobId (deliveryId : String) (attempts : Nat) : String := deliveryId ++ ":retry:" ++ toString attempts

/-- `queue.add('webhook.deliver', …)` for the retry. -/
def retryAdd (r : Nat) (s : State) : Option State :=
  match s.runs r with
  | some run =>
    match run.pc with
    | .retryAdd deliveryId attempts delay basis =>
      some { s.setPc r run .returned with
        queue := s.queue.add (retryJobId deliveryId attempts) ⟨deliveryId, basis⟩ (.delayed (s.now + delay)) }
    | _ => none
  | none => none

/-! ## Failure and the end of a job -/

/-- The places where an awaited database or queue operation may reject. -/
def Pc.mayFail : Pc → Bool
  | .start | .loaded _ | .settling _ _ | .retryAdd _ _ _ _ => true
  | _ => false

/-- An awaited operation rejects, and the run throws. -/
def fail (r : Nat) (s : State) : Option State :=
  match s.runs r with
  | some run => if Pc.mayFail run.pc then some (s.setPc r run .threw) else none
  | none => none

/-- The job of a run that returned or threw is finished, and evicted. -/
def finish (r : Nat) (s : State) : Option State :=
  match s.runs r with
  | some run =>
    if run.pc.over then some { s.setPc r run .gone with queue := s.queue.finish run.jobId r } else none
  | none => none

/-- The process of a run dies. -/
def crash (r : Nat) (s : State) : Option State :=
  match s.runs r with
  | some run => some (s.setPc r run .gone)
  | none => none

/-- The lock of an active job expires and the job is put back. -/
def stall (jobId : String) (s : State) : Option State :=
  match s.queue jobId with
  | some job =>
    match job.state with
    | .active _ => some { s with queue := s.queue.setState jobId .waiting }
    | _ => none
  | none => none

/-- The lock of an active job expires once more than the queue allows: the job fails, and is evicted. -/
def giveUp (jobId : String) (s : State) : Option State :=
  match s.queue jobId with
  | some job =>
    match job.state with
    | .active r => some { s with queue := s.queue.finish jobId r }
    | _ => none
  | none => none

end Processor

end PaymentsProcessor.Webhooks
