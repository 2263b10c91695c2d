/-
The whole service: the payment pipeline and the webhook deliveries over one database, one clock and one source of
ids. They share the outbox: the pipeline writes its rows and the relay's marks, the dispatchers write their own
marks. A step of either leaves the rest of the other as it is.
-/
import PaymentsProcessor.Pipeline.Amounts
import PaymentsProcessor.Pipeline.Polls
import PaymentsProcessor.Ledger.Refinement
import PaymentsProcessor.Webhooks.Attempts
import PaymentsProcessor.Webhooks.Fanout

namespace PaymentsProcessor.Service

open Transition PartialMap

variable {β κ : Type}

/-! ## The system -/

/-- The service as the two halves see it. -/
structure State (β : Type) where
  pipeline : PaymentsProcessor.State β
  webhooks : Webhooks.State

inductive Action (κ : Type)
  | payment (a : PaymentsProcessor.Action κ)
  | webhook (a : Webhooks.Action)

/-- What the API and the workers are configured with, apart from the webhooks. -/
def payments (env : Webhooks.Env) : Env := ⟨env.cfg, env.u⟩

/-- The steps of the dispatchers, the webhook reapers, the webhook workers and the endpoints: time passes and outbox
rows are written in the pipeline. -/
def delivers : Webhooks.Action → Bool
  | .tick _ | .emit _ _ _ => false
  | _ => true

/-- What the webhooks see of a pipeline. -/
def seen (p : PaymentsProcessor.State β) (w : Webhooks.State) : Webhooks.State :=
  { w with now := p.now, ulids := p.ulids, outbox := p.db.outbox }

/-- What the pipeline sees of the webhooks. -/
def marked (w : Webhooks.State) (p : PaymentsProcessor.State β) : PaymentsProcessor.State β :=
  { p with now := w.now, ulids := w.ulids, db := { p.db with outbox := w.outbox } }

variable (port : BankPort β κ) (env : Webhooks.Env)

/-- One step of the service. -/
def step (s : State β) : Action κ → Option (State β)
  | .payment a => (Pipeline.step port (payments env) s.pipeline a).map fun p => ⟨p, seen p s.webhooks⟩
  | .webhook a =>
    if delivers a then (Webhooks.step env s.webhooks a).map fun w => ⟨marked w s.pipeline, w⟩ else none

def system : System (State β) (Action κ) where
  init := ⟨State.initial port.init, Webhooks.State.initial⟩
  step := step port env

/-- The jobs of the payments queue are the pipeline's own. -/
def own : Action κ → Bool
  | .payment a => !Pipeline.foreign a
  | .webhook _ => true

/-! ## What the halves write of the outbox -/

section Pipeline

open PaymentStatus Worker Relay Reaper Pipeline

variable {port : BankPort β κ} {env : Env} {p p' : PaymentsProcessor.State β} {a : PaymentsProcessor.Action κ}

/-- What a step of the pipeline makes of the outbox and of the ids drawn. -/
inductive Writes (env : Env) (p p' : PaymentsProcessor.State β) : Prop
  | same (hout : p'.db.outbox = p.db.outbox) (hle : p.ulids ≤ p'.ulids)
  | insert (row : OutboxRow) (n : Nat) (hid : row.id = env.u.ulid n) (hle : p.ulids ≤ n) (hlt : n < p'.ulids)
      (hnew : row.webhookDispatchedAt = none) (hout : p'.db.outbox = p.db.outbox ++ [row])
  | publish (k : Nat) (poll : Poll) (hk : p.polls k = some poll) (hulids : p'.ulids = p.ulids)
      (hout : p'.db.outbox = (p.db.markPublished (poll.rows.map OutboxRow.id) p.now).outbox)

theorem writes (h : Step port env p a p') : Writes env p p' := by
  cases h with
  | accepted dto key hash correlationId amountCents row =>
    exact .insert _ (p.ulids + 1) rfl (Nat.le_succ _) (Nat.lt_succ_of_lt (Nat.lt_succ_self _)) rfl rfl
  | final r run began clock dis target q =>
    exact .insert _ (p.ulids + 1) rfl (Nat.le_succ _) (Nat.lt_succ_self _) rfl rfl
  | pollCommit k poll hk => exact .publish k poll hk rfl rfl
  | rejected => exact .same rfl (Nat.le_add_right _ 3)
  | claim | exhaust | retry => exact .same rfl (Nat.le_succ _)
  | reapUpdate => exact .same rfl (Nat.le_add_right _ _)
  | _ => exact .same rfl (Nat.le_refl _)

/-- A published row is one of the outbox, but for its mark. -/
theorem of_mem_markPublished {db : Db} {ids : List String} {now : Nat} {row : OutboxRow}
    (h : row ∈ (db.markPublished ids now).outbox) : ∃ old ∈ db.outbox, old.id = row.id ∧
      old.aggregateId = row.aggregateId ∧ row.event = old.event ∧
      old.webhookDispatchedAt = row.webhookDispatchedAt := by
  obtain ⟨old, hold, rfl⟩ := List.mem_map.1 h
  refine ⟨old, hold, ?_⟩
  split
  · exact ⟨rfl, rfl, rfl, rfl⟩
  · exact ⟨rfl, rfl, rfl, rfl⟩

/-- The type of a terminal event is the one its status calls for. -/
def LabelInv (outbox : List OutboxRow) : Prop := ∀ row ∈ outbox, ∀ payload, row.terminal? = some payload →
  Account.announcement payload.status = [row.event.type]

theorem LabelInv.step (h : LabelInv p.db.outbox) (hs : Step port env p a p') : LabelInv p'.db.outbox := by
  intro row hrow payload hpayload
  cases hs with
  | accepted =>
    rcases List.mem_append.1 hrow with hold | hnew
    · exact h row hold payload hpayload
    · cases List.mem_singleton.1 hnew
      cases hpayload
  | final r run began clock dis target q hr hpc htarget =>
    rcases List.mem_append.1 hrow with hold | hnew
    · exact h row hold payload hpayload
    · cases List.mem_singleton.1 hnew
      rw [(terminalRow_event ..).2] at hpayload
      cases hpayload
      have hfinal : target = COMPLETED ∨ target = FAILED := by cases dis <;> cases htarget <;> simp
      rcases hfinal with rfl | rfl <;> rfl
  | pollCommit k poll hk =>
    obtain ⟨old, hold, -, -, hevent, -⟩ := of_mem_markPublished hrow
    rw [OutboxRow.terminal?, hevent] at hpayload
    rw [hevent]
    exact h old hold payload hpayload
  | _ => exact h row hrow payload hpayload

end Pipeline

section Webhooks

open Webhooks Dispatcher

variable {env : Webhooks.Env} {w w' : Webhooks.State} {a : Webhooks.Action}

/-- A dispatched row is one of the outbox, but for its mark. -/
theorem of_mem_markDispatched {outbox : List OutboxRow} {ids : List String} {now : Nat} {row : OutboxRow}
    (h : row ∈ markDispatched outbox ids now) : ∃ old ∈ outbox, old.id = row.id ∧
      old.aggregateId = row.aggregateId ∧ row.event = old.event ∧ old.publishedAt = row.publishedAt := by
  obtain ⟨old, hold, rfl⟩ := List.mem_map.1 h
  refine ⟨old, hold, ?_⟩
  split
  · exact ⟨rfl, rfl, rfl, rfl⟩
  · exact ⟨rfl, rfl, rfl, rfl⟩

/-- The webhooks only mark events as dispatched. -/
theorem marks (h : Webhooks.Step env w a w') (hown : delivers a = true) : w.ulids ≤ w'.ulids ∧ w.now ≤ w'.now ∧
    (w'.outbox = w.outbox ∨ ∃ ids now, w'.outbox = markDispatched w.outbox ids now) := by
  cases h with
  | emit | tick => cases hown
  | insertEndpoint => exact ⟨Nat.le_succ _, Nat.le_refl _, Or.inl rfl⟩
  | pollCommit => exact ⟨Nat.le_add_right _ _, Nat.le_refl _, Or.inr ⟨_, _, rfl⟩⟩
  | _ => exact ⟨Nat.le_refl _, Nat.le_refl _, Or.inl rfl⟩

end Webhooks

end PaymentsProcessor.Service
