/-
The pipeline as a transition system: every action of the API, the relay, the queue, the workers, the
bank and the reaper, in any order.
-/
import PaymentsProcessor.Base.Transition
import PaymentsProcessor.Bank.Simulated
import PaymentsProcessor.Pipeline.Relay

namespace PaymentsProcessor

open Transition

/-- The actions: `r` is a run, `w` a worker, `k` a poll or a tick. -/
inductive Action (κ : Type)
  | tick (ms : Nat)
  | submit (dto : CreatePaymentDto) (key hash correlationId : String)
  /-- a job from elsewhere -/
  | inject (jobId name : String) (data : JobData)
  | setConfig (c : κ)
  | pollSelect (k : Nat)
  | pollAdd (k : Nat) (id : String)
  | pollCommit (k : Nat)
  | pollAbort (k : Nat)
  | dequeue (r w : Nat) (jobId : String)
  | claimBegin (r : Nat)
  | claimSelect (r : Nat)
  | readClock (r : Nat)
  | claimUpdate (r : Nat)
  | authorize (r : Nat)
  | answer (r : Nat)
  | receive (r : Nat)
  | timeout (r : Nat)
  | settleBegin (r : Nat)
  | retryUpdate (r : Nat)
  | finalUpdate (r : Nat)
  | retryAdd (r delay : Nat)
  | fail (r : Nat)
  | finish (r : Nat)
  | stall (jobId : String)
  | crash (w : Nat)
  | reapBegin (k : Nat)
  | reapClock (k : Nat)
  | reapSelect (k : Nat) (pids : List String)
  | reapUpdate (k : Nat)
  | reapStamp (k : Nat)
  | reapAdd (k : Nat) (pid : String)
  | reapEnd (k : Nat)

namespace Pipeline

variable {β κ : Type} (port : BankPort β κ) (env : Env)

/-- What a submission leaves in the history. -/
def submitLog (dto : CreatePaymentDto) (correlationId : String) : InsertResult → List (Effect β)
  | .returned false _ row =>
    [.submitted row.id dto correlationId, .moved .submission row.id none row.status row.version]
  | _ => []

/-- `create_payment` on a validated body with an `Idempotency-Key`: the call of `insert_txn`. -/
def submit (dto : CreatePaymentDto) (key hash correlationId : String) (s : State β) : Option (State β) :=
  if dto.valid ∧ key ≠ "" then
    let result := insertTxn env.u s.now s.ulids dto key hash correlationId s.db
    some { s with
      db := result.2
      ulids := s.ulids + 3
      history := s.history ++ submitLog dto correlationId result.1 }
  else none

/-- One step of the pipeline. -/
def step (s : State β) : Action κ → Option (State β)
  | .tick ms => some { s with now := s.now + ms }
  | .submit dto key hash correlationId => submit env dto key hash correlationId s
  | .inject jobId name data => some (s.enqueue jobId name data .waiting)
  | .setConfig c => some { s with bank := port.setConfig c s.bank }
  | .pollSelect k => Relay.pollSelect k s
  | .pollAdd k id => Relay.pollAdd k id s
  | .pollCommit k => Relay.pollCommit k s
  | .pollAbort k => Relay.pollAbort k s
  | .dequeue r w jobId => Worker.dequeue r w jobId s
  | .claimBegin r => Worker.claimBegin r s
  | .claimSelect r => Worker.claimSelect r s
  | .readClock r => Worker.readClock r s
  | .claimUpdate r => Worker.claimUpdate env r s
  | .authorize r => Worker.authorize port env r s
  | .answer r => Worker.answer port r s
  | .receive r => Worker.receive env r s
  | .timeout r => Worker.timeout env r s
  | .settleBegin r => Worker.settleBegin r s
  | .retryUpdate r => Worker.retryUpdate env r s
  | .finalUpdate r => Worker.finalUpdate env r s
  | .retryAdd r delay => Worker.retryAdd env r delay s
  | .fail r => Worker.fail r s
  | .finish r => Worker.finish r s
  | .stall jobId => Worker.stall jobId s
  | .crash w => Worker.crash w s
  | .reapBegin k => Reaper.reapBegin k s
  | .reapClock k => Reaper.reapClock k s
  | .reapSelect k pids => Reaper.reapSelect env k pids s
  | .reapUpdate k => Reaper.reapUpdate env k s
  | .reapStamp k => Reaper.reapStamp k s
  | .reapAdd k pid => Reaper.reapAdd k pid s
  | .reapEnd k => Reaper.reapEnd k s

/-- The pipeline over a bank. -/
def system : System (State β) (Action κ) where
  init := State.initial port.init
  step := step port env

/-! ## Schedules -/

/-- The default configuration. -/
def standard : Env := ⟨default, .zeros⟩

/-- A client's request, for 10.50 in the default currency. -/
def order : CreatePaymentDto where
  customerId := "c1"
  sourceAccount := "src"
  destinationAccount := "dst"
  amount := "10.50"

/-- A request is accepted, and a poll publishes its outbox row `row`. -/
def accept (dto : CreatePaymentDto) (k : Nat) (row : String) : List (Action κ) :=
  [.submit dto "key" "hash" "corr", .pollSelect k, .pollAdd k row, .pollCommit k]

/-- A worker takes a job and claims its payment. -/
def claim (r w : Nat) (jobId : String) : List (Action κ) :=
  [.dequeue r w jobId, .claimBegin r, .claimSelect r, .readClock r, .claimUpdate r]

/-- A run's call is answered in time. -/
def call (r ms : Nat) : List (Action κ) := [.authorize r, .tick ms, .answer r, .receive r]

/-- A run commits a final outcome and its job is completed. -/
def settle (r : Nat) : List (Action κ) := [.settleBegin r, .readClock r, .finalUpdate r, .finish r]

/-- A run commits a retry, adds its job, and the delay passes. -/
def retry (r delay : Nat) : List (Action κ) :=
  [.settleBegin r, .readClock r, .retryUpdate r, .retryAdd r delay, .finish r, .tick delay]

/-- A tick after the deadline re-drives a payment. -/
def reap (k ms : Nat) (pid : String) : List (Action κ) :=
  [.tick ms, .reapBegin k, .reapClock k, .reapSelect k [pid], .reapClock k, .reapUpdate k, .reapStamp k, .reapAdd k pid,
    .reapEnd k]

end Pipeline

end PaymentsProcessor
