/-
The webhook deliveries as a transition system: one action for every step of the API, the dispatchers, the reapers
and the workers, and the rules of what each step can do. `step_sound` derives the rules from the step function; the
invariants are proved over the rules.
-/
import PaymentsProcessor.Base.Transition
import PaymentsProcessor.Webhooks.Dispatcher

namespace PaymentsProcessor.Webhooks

open Transition PartialMap Processor Dispatcher Webhooks.Reaper

inductive Action
  | tick (ms : Nat)
  | emit (event : OutboxEvent) (aggregateId : String) (began : Nat)
  | insertEndpoint (url secret : String)
  | deactivate (id : String)
  | pollBegin (k : Nat)
  | pollSelect (k : Nat)
  | pollEndpoints (k : Nat)
  | pollCommit (k : Nat)
  | pollAdd (k : Nat) (id : String)
  | pollEnd (k : Nat)
  | reapSelect (k : Nat) (ids : List String)
  | reapCommit (k : Nat)
  | reapAdd (k : Nat) (id : String)
  | reapEnd (k : Nat)
  | dequeue (r : Nat) (jobId : String)
  | load (r : Nat)
  | post (r : Nat)
  | receive (r : Nat) (reply : Reply) (delay : Nat)
  | write (r : Nat)
  | retryAdd (r : Nat)
  | fail (r : Nat)
  | finish (r : Nat)
  | crash (r : Nat)
  | stall (jobId : String)
  | giveUp (jobId : String)
  deriving DecidableEq

variable (env : Env)

/-- One step. -/
def step (s : State) : Action → Option State
  | .tick ms => some { s with now := s.now + ms }
  | .emit event aggregateId began => emit env event aggregateId began s
  | .insertEndpoint url secret => insertEndpoint env url secret s
  | .deactivate id => deactivate id s
  | .pollBegin k => pollBegin k s
  | .pollSelect k => pollSelect k s
  | .pollEndpoints k => pollEndpoints k s
  | .pollCommit k => pollCommit env k s
  | .pollAdd k id => pollAdd k id s
  | .pollEnd k => pollEnd k s
  | .reapSelect k ids => reapSelect env k ids s
  | .reapCommit k => reapCommit k s
  | .reapAdd k id => reapAdd k id s
  | .reapEnd k => reapEnd k s
  | .dequeue r jobId => dequeue r jobId s
  | .load r => load r s
  | .post r => post env r s
  | .receive r reply delay => receive env r reply delay s
  | .write r => write r s
  | .retryAdd r => retryAdd r s
  | .fail r => fail r s
  | .finish r => finish r s
  | .crash r => crash r s
  | .stall jobId => stall jobId s
  | .giveUp jobId => giveUp jobId s

/-- The webhook deliveries from an empty database on. -/
def system : System State Action where
  init := State.initial
  step := step env

/-! ## The rules -/

/-- The steps that only move a run on. -/
inductive Walk (s : State) (r : Nat) (run : Run) : Action → Pc → Prop
  | loadNone (hpc : run.pc = .start) (hd : s.delivery run.data.deliveryId = none) : Walk s r run (.load r) .returned
  | loadFinal {d : WebhookDelivery} (hpc : run.pc = .start) (hd : s.delivery run.data.deliveryId = some d)
      (hfinal : d.status.final = true) : Walk s r run (.load r) .returned
  | load {d : WebhookDelivery} (hpc : run.pc = .start) (hd : s.delivery run.data.deliveryId = some d)
      (hfinal : d.status.final = false) : Walk s r run (.load r) (.loaded d)
  | postThrows {d : WebhookDelivery} (hpc : run.pc = .loaded d) : Walk s r run (.post r) .threw
  | receive {d : WebhookDelivery} {reply : Reply} {delay : Nat} (hpc : run.pc = .posting d) :
      Walk s r run (.receive r reply delay) (.settling d (writeFor env d reply s.now delay))
  | fail (hpc : Pc.mayFail run.pc = true) : Walk s r run (.fail r) .threw

/-- What each step can do. -/
inductive Step (s : State) : Action → State → Prop
  | tick (ms : Nat) : Step s (.tick ms) { s with now := s.now + ms }
  | emit (event : OutboxEvent) (aggregateId : String) (began : Nat) (row : OutboxRow)
      (hid : row.id = env.u.ulid s.ulids) (hnew : row.webhookDispatchedAt = none) :
      Step s (.emit event aggregateId began) { s with outbox := s.outbox ++ [row], ulids := s.ulids + 1 }
  | insertEndpoint (url secret : String) (endpoint : WebhookEndpoint) (hid : endpoint.id = env.u.ulid s.ulids) :
      Step s (.insertEndpoint url secret) { s with endpoints := s.endpoints ++ [endpoint], ulids := s.ulids + 1 }
  | deactivate (id : String) :
      Step s (.deactivate id) { s with
        endpoints := s.endpoints.map fun endpoint =>
          if endpoint.id = id then { endpoint with active := false } else endpoint }
  | pollBegin (k : Nat) (hk : s.polls k = none) : Step s (.pollBegin k) (s.setPoll k ⟨s.now, [], [], .begun⟩)
  | pollNone (k : Nat) (poll : Poll) (hk : s.polls k = some poll) (hpc : poll.pc = .begun) (hnone : undispatched s = []) :
      Step s (.pollSelect k) (s.setPoll k { poll with events := [], pc := .ended })
  | pollSelect (k : Nat) (poll : Poll) (hk : s.polls k = some poll) (hpc : poll.pc = .begun) :
      Step s (.pollSelect k) { s.setPoll k { poll with events := undispatched s, pc := .selected } with
        eventLocks := fun id => if id ∈ (undispatched s).map OutboxRow.id then some k else s.eventLocks id }
  | pollEndpoints (k : Nat) (poll : Poll) (hk : s.polls k = some poll) (hpc : poll.pc = .selected) :
      Step s (.pollEndpoints k) (s.setPoll k { poll with endpoints := activeEndpoints s, pc := .located })
  | pollCommit (k : Nat) (poll : Poll) (rows : List WebhookDelivery) (hk : s.polls k = some poll)
      (hpc : poll.pc = .located) (hrows : rows = deliveriesFor env poll.began s.ulids poll.events poll.endpoints)
      (hconstraints : constraints (s.deliveries ++ rows) = true) :
      Step s (.pollCommit k) { s.setPoll k { poll with pc := .adding (rows.map WebhookDelivery.id) } with
        deliveries := s.deliveries ++ rows
        outbox := markDispatched s.outbox (poll.events.map OutboxRow.id) s.now
        ulids := s.ulids + rows.length
        eventLocks := unlock s.eventLocks k }
  | pollAdd (k : Nat) (id : String) (poll : Poll) (left : List String) (hk : s.polls k = some poll)
      (hpc : poll.pc = .adding left) (hid : id ∈ left) :
      Step s (.pollAdd k id) { s.setPoll k { poll with pc := .adding (left.filter (· ≠ id)) } with
        queue := s.queue.add id ⟨id, 0⟩ .waiting }
  | pollEnd (k : Nat) (poll : Poll) (hk : s.polls k = some poll) :
      Step s (.pollEnd k) { s.setPoll k { poll with pc := if poll.pc.committed then .ended else .aborted } with
        eventLocks := unlock s.eventLocks k }
  | reapSelect (k : Nat) (ids : List String) (stuck : List Stranded) (hk : s.reaps k = none)
      (hstuck : ∀ row ∈ stuck, ∃ id ∈ ids, strandedRow env s id = some row) :
      Step s (.reapSelect k ids) { s with
        reaps := Function.update s.reaps k (some (.selected stuck))
        deliveryLocks := fun id => if id ∈ ids then some k else s.deliveryLocks id }
  | reapCommit (k : Nat) (stuck : List Stranded) (hk : s.reaps k = some (.selected stuck)) :
      Step s (.reapCommit k) { s with
        reaps := Function.update s.reaps k (some (.adding stuck))
        deliveryLocks := unlock s.deliveryLocks k }
  | reapAdd (k : Nat) (id : String) (stuck : List Stranded) (row : Stranded) (hk : s.reaps k = some (.adding stuck))
      (hfind : (stuck.find? fun row => row.id = id) = some row) :
      Step s (.reapAdd k id) { s with
        queue := s.queue.add (reapJobId row) ⟨row.id, row.basis⟩ .waiting
        reaps := Function.update s.reaps k (some (.adding (stuck.filter fun row => row.id ≠ id))) }
  | reapEnd (k : Nat) :
      Step s (.reapEnd k) { s with
        reaps := Function.update s.reaps k none
        deliveryLocks := unlock s.deliveryLocks k }
  | dequeue (r : Nat) (jobId : String) (job : LiveJob DeliveryJob) (hr : s.runs r = none)
      (hjob : s.queue jobId = some job) (hready : job.state.ready s.now = true) :
      Step s (.dequeue r jobId) { s with
        queue := s.queue.setState jobId (.active r)
        runs := Function.update s.runs r (some ⟨jobId, job.data, .start⟩) }
  | walk (r : Nat) (run : Run) (a : Action) (pc : Pc) (hr : s.runs r = some run) (hwalk : Walk env s r run a pc) :
      Step s a (s.setPc r run pc)
  | post (r : Nat) (run : Run) (d : WebhookDelivery) (endpoint : WebhookEndpoint) (hr : s.runs r = some run)
      (hpc : run.pc = .loaded d) :
      Step s (.post r) { s.setPc r run (.posting d) with posts := s.posts ++ [postFor env d endpoint s.now] }
  | write (r : Nat) (run : Run) (d : WebhookDelivery) (w : StatusWrite) (basis : Nat) (hr : s.runs r = some run)
      (hpc : run.pc = .settling d w)
      (hbasis : basis = ((find (update s.deliveries d.id w.set) d.id).map WebhookDelivery.writes).getD 0) :
      Step s (.write r) { s.setPc r run (afterWrite d w basis) with deliveries := update s.deliveries d.id w.set }
  | retryAdd (r : Nat) (run : Run) (deliveryId : String) (attempts delay basis : Nat) (hr : s.runs r = some run)
      (hpc : run.pc = .retryAdd deliveryId attempts delay basis) :
      Step s (.retryAdd r) { s.setPc r run .returned with
        queue := s.queue.add (retryJobId deliveryId attempts) ⟨deliveryId, basis⟩ (.delayed (s.now + delay)) }
  | finish (r : Nat) (run : Run) (hr : s.runs r = some run) (hover : run.pc.over = true) :
      Step s (.finish r) { s.setPc r run .gone with queue := s.queue.finish run.jobId r }
  | crash (r : Nat) (run : Run) (hr : s.runs r = some run) : Step s (.crash r) (s.setPc r run .gone)
  | stall (jobId : String) (r : Nat) (job : LiveJob DeliveryJob) (hjob : s.queue jobId = some job)
      (hactive : job.state = .active r) :
      Step s (.stall jobId) { s with queue := s.queue.setState jobId .waiting }
  | giveUp (jobId : String) (r : Nat) (job : LiveJob DeliveryJob) (hjob : s.queue jobId = some job)
      (hactive : job.state = .active r) :
      Step s (.giveUp jobId) { s with queue := s.queue.finish jobId r }

variable {env} {s s' : State} {a : Action}

theorem step_sound (h : step env s a = some s') : Step env s a s' := by
  cases a with
  | tick ms => cases h; exact .tick ms
  | emit event aggregateId began =>
    dsimp only [step, emit] at h
    split at h
    · cases h; exact .emit event aggregateId began _ rfl rfl
    · cases h
  | insertEndpoint url secret => cases h; exact .insertEndpoint url secret _ rfl
  | deactivate id =>
    dsimp only [step, deactivate] at h
    split at h
    · cases h; exact .deactivate id
    · cases h
  | pollBegin k =>
    dsimp only [step, pollBegin] at h
    split at h
    · rename_i hk; cases h; exact .pollBegin k hk
    · cases h
  | pollSelect k =>
    dsimp only [step, pollSelect] at h
    split at h
    · rename_i poll hk
      split at h
      · rename_i hpc
        split at h
        · rename_i hnone; cases h; exact .pollNone k poll hk hpc hnone
        · cases h; exact .pollSelect k poll hk hpc
      · cases h
    · cases h
  | pollEndpoints k =>
    dsimp only [step, pollEndpoints] at h
    split at h
    · rename_i poll hk
      split at h
      · rename_i hpc; cases h; exact .pollEndpoints k poll hk hpc
      · cases h
    · cases h
  | pollCommit k =>
    dsimp only [step, pollCommit] at h
    split at h
    · rename_i poll hk
      split at h
      · rename_i hpc
        split at h
        · rename_i hcons; cases h; exact .pollCommit k poll _ hk hpc rfl hcons
        · cases h
      · cases h
    · cases h
  | pollAdd k id =>
    dsimp only [step, pollAdd] at h
    split at h
    · rename_i poll hk
      split at h
      · rename_i left hpc
        split at h
        · rename_i hid; cases h; exact .pollAdd k id poll left hk hpc hid
        · cases h
      · cases h
    · cases h
  | pollEnd k =>
    dsimp only [step, pollEnd] at h
    split at h
    · rename_i poll hk; cases h; exact .pollEnd k poll hk
    · cases h
  | reapSelect k ids =>
    dsimp only [step, reapSelect] at h
    split at h
    · rename_i hk
      split at h
      · split at h
        · rename_i stuck hstuck; cases h; exact .reapSelect k ids stuck hk (exists_of_mem_mapM hstuck)
        · cases h
      · cases h
    · cases h
  | reapCommit k =>
    dsimp only [step, reapCommit] at h
    split at h
    · rename_i stuck hk; cases h; exact .reapCommit k stuck hk
    · cases h
  | reapAdd k id =>
    dsimp only [step, reapAdd] at h
    split at h
    · rename_i stuck hk
      split at h
      · rename_i row hrow; cases h; exact .reapAdd k id stuck row hk hrow
      · cases h
    · cases h
  | reapEnd k => cases h; exact .reapEnd k
  | dequeue r jobId =>
    dsimp only [step, dequeue] at h
    split at h
    · rename_i job hr hjob
      split at h
      · rename_i hready; cases h; exact .dequeue r jobId job hr hjob hready
      · cases h
    · cases h
  | load r =>
    dsimp only [step, load] at h
    split at h
    · rename_i run hr
      split at h
      · rename_i hpc
        split at h
        · rename_i hd; cases h; exact .walk r run _ _ hr (.loadNone hpc hd)
        · rename_i d hd
          split at h
          · rename_i hfinal; cases h; exact .walk r run _ _ hr (.loadFinal hpc hd hfinal)
          · rename_i hfinal; cases h; exact .walk r run _ _ hr (.load hpc hd (Bool.eq_false_iff.2 hfinal))
      · cases h
    · cases h
  | post r =>
    dsimp only [step, post] at h
    split at h
    · rename_i run hr
      split at h
      · rename_i d hpc
        split at h
        · cases h; exact .walk r run _ _ hr (.postThrows hpc)
        · rename_i endpoint hendpoint; cases h; exact .post r run d endpoint hr hpc
      · cases h
    · cases h
  | receive r reply delay =>
    dsimp only [step, receive] at h
    split at h
    · rename_i run hr
      split at h
      · rename_i d hpc
        split at h
        · cases h; exact .walk r run _ _ hr (.receive hpc)
        · cases h
      · cases h
    · cases h
  | write r =>
    dsimp only [step, write] at h
    split at h
    · rename_i run hr
      split at h
      · rename_i d w hpc
        split at h
        · cases h
        · cases h; exact .write r run d w _ hr hpc rfl
      · cases h
    · cases h
  | retryAdd r =>
    dsimp only [step, retryAdd] at h
    split at h
    · rename_i run hr
      split at h
      · rename_i deliveryId attempts delay basis hpc
        cases h
        exact .retryAdd r run deliveryId attempts delay basis hr hpc
      · cases h
    · cases h
  | fail r =>
    dsimp only [step, fail] at h
    split at h
    · rename_i run hr
      split at h
      · rename_i hpc; cases h; exact .walk r run _ _ hr (.fail hpc)
      · cases h
    · cases h
  | finish r =>
    dsimp only [step, finish] at h
    split at h
    · rename_i run hr
      split at h
      · rename_i hover; cases h; exact .finish r run hr hover
      · cases h
    · cases h
  | crash r =>
    dsimp only [step, crash] at h
    split at h
    · rename_i run hr; cases h; exact .crash r run hr
    · cases h
  | stall jobId =>
    dsimp only [step, stall] at h
    split at h
    · rename_i job hjob
      split at h
      · rename_i r hactive; cases h; exact .stall jobId r job hjob hactive
      · cases h
    · cases h
  | giveUp jobId =>
    dsimp only [step, giveUp] at h
    split at h
    · rename_i job hjob
      split at h
      · rename_i r hactive; cases h; exact .giveUp jobId r job hjob hactive
      · cases h
    · cases h

/-! ## Schedules -/

/-- The default configuration, with a signature that shows its inputs and a body that shows the event. -/
def standard : Env where
  cfg := default
  webhooks := default
  u := .zeros
  hmac secret text := secret ++ text
  stringify envelope := envelope.id ++ envelope.event.type

/-- A completed payment is announced to one endpoint, and its delivery, with the id `000`, is dispatched. -/
def announce : List Action :=
  [.insertEndpoint "https://shop.example/hook" "secret", .emit (.completed ⟨"p", .COMPLETED, 1050, "USD", none⟩) "p" 0,
    .pollBegin 0, .pollSelect 0, .pollEndpoints 0, .pollCommit 0, .pollAdd 0 "000"]

/-- A run takes a job and sends its request. -/
def send (r : Nat) (jobId : String) : List Action := [.dequeue r jobId, .load r, .post r]

/-- A tick after the deadline selects a delivery and commits. -/
def reap (k ms : Nat) (id : String) : List Action := [.tick ms, .reapSelect k [id], .reapCommit k]

end PaymentsProcessor.Webhooks
