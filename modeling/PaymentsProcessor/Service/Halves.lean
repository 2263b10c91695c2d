/-
The halves of the service, each alone. The pipeline and the webhooks share the outbox, the clock and the source of ids. So
to either half a state of the service is one it reaches alone, up to the marks of the other and the ids the other has drawn;
and what a half can do from there alone, it can do in the service.
-/
import PaymentsProcessor.Pipeline.Shared
import PaymentsProcessor.Webhooks.Shared
import PaymentsProcessor.Service.Notifications

namespace PaymentsProcessor.Service

open Transition PartialMap

variable {β κ : Type} {port : BankPort β κ}

/-! ## One source of ids -/

/-- The ids left to one of those who share a source. -/
def idsLeft {m n : Nat} (u : UlidSource) (f : Renumbering m n) : UlidSource where
  ulid i := u.ulid (f.place i)
  injective := u.injective.comp f.strictMono.injective
  plain i := u.plain (f.place i)

/-- The pipeline among others. -/
def pipelines (port : BankPort β κ) (cfg : Config) :
    Sharing UlidSource String (PaymentsProcessor.State β) (PaymentsProcessor.Action κ) where
  toDrawing := Pipeline.drawing port cfg
  leave := idsLeft
  name_leave _ _ _ := rfl
  alone := Pipeline.solo
  drawn_alone _ _ := rfl
  init_alone _ := ⟨rfl, rfl⟩
  step_alone _ _ _ _ a hu := Pipeline.step_solo hu a

/-- The webhooks among others. -/
def deliveries (env : Webhooks.Env) : Sharing UlidSource String Webhooks.State Webhooks.Action where
  toDrawing := Webhooks.drawing env
  leave := idsLeft
  name_leave _ _ _ := rfl
  alone := Webhooks.solo
  drawn_alone _ _ := rfl
  init_alone _ := ⟨rfl, rfl⟩
  step_alone _ _ _ _ a hu := Webhooks.step_solo hu a

/-! ## What the pipeline writes for the webhooks -/

section Pipeline

open PaymentStatus Worker Relay Reaper Pipeline

variable {env : Env} {p p' : PaymentsProcessor.State β} {a : PaymentsProcessor.Action κ}

/-- A transaction has begun in the past. -/
def BeganInv (p : PaymentsProcessor.State β) : Prop :=
  All p.runs fun _ run => ∀ began dis clock, run.pc = .settleBegun began dis clock → began ≤ p.now

theorem now_le (h : Step port env p a p') : p.now ≤ p'.now := by
  cases h with
  | tick ms => exact Nat.le_add_right _ _
  | _ => exact Nat.le_refl _

theorem BeganInv.step (h : BeganInv p) (hs : Step port env p a p') : BeganInv p' := by
  have hK : All p.runs fun _ run => ∀ began dis clock, run.pc = .settleBegun began dis clock → began ≤ p'.now :=
    h.mono fun _ _ hrun began dis clock hpc => (hrun began dis clock hpc).trans (now_le hs)
  cases hs with
  | walk _ r run pc hr hw =>
    refine hK.but.set fun began dis clock hpc => ?_
    cases hw with
    | settleBegin => cases hpc; exact Nat.le_refl _
    | settleClock hpc' => cases hpc; exact (hK hr :) _ _ _ hpc'
    | _ => cases hpc
  | dequeue | claim | call | refuse | receive | rethrow | timeout | exhaust | retry | final | retryAdd | finish =>
    exact hK.but.set fun _ _ _ hpc => by cases hpc
  | crash w =>
    refine All.map _ (hK.mono fun r run hrun => ?_)
    split
    · exact fun _ _ _ hpc => by cases hpc
    · exact hrun
  | _ => exact hK

theorem beganInv {C : PaymentsProcessor.State β → PaymentsProcessor.Action κ → Prop} (h : Reach (Pipeline.system port env) C p) :
    BeganInv p :=
  h.invariant (I := BeganInv) all_empty fun _ _ _ _ hI _ hs => hI.step (step_sound hs)

/-- A row as `emit` writes it. -/
def emitted (u : UlidSource) (n : Nat) (event : OutboxEvent) (aggregateId : String) (began : Nat) : OutboxRow where
  id := u.ulid n
  aggregateType := "payment"
  aggregateId := aggregateId
  event := event
  publishedAt := none
  webhookDispatchedAt := none
  createdAt := began

/-- To the webhooks a step of the pipeline inserts an event, or nothing. -/
theorem emits (hbegan : BeganInv p) (hs : Step port env p a p') :
    (p'.now = p.now ∧ ∃ n event aggregateId began, p.ulids ≤ n ∧ n < p'.ulids ∧ began ≤ p.now ∧
      p'.db.outbox = p.db.outbox ++ [emitted env.u n event aggregateId began]) ∨
    (p.ulids ≤ p'.ulids ∧ p'.db.outbox.map Webhooks.unpublish = p.db.outbox.map Webhooks.unpublish) := by
  cases hs with
  | accepted dto key hash correlationId amountCents row =>
    exact Or.inl ⟨rfl, p.ulids + 1, _, row.id, p.now, Nat.le_succ _, Nat.lt_succ_self _ |>.trans (Nat.lt_succ_self _),
      Nat.le_refl _, rfl⟩
  | final r run began clock dis target q hr hpc =>
    exact Or.inl ⟨rfl, p.ulids + 1, _, run.data.paymentId, began, Nat.le_succ _, Nat.lt_succ_self _, hbegan hr began dis _ hpc,
      rfl⟩
  | pollCommit k poll =>
    refine Or.inr ⟨Nat.le_refl _, ?_⟩
    rw [Db.markPublished, List.map_map]
    refine List.map_congr_left fun row _ => ?_
    dsimp only [Function.comp]
    split <;> rfl
  | rejected => exact Or.inr ⟨Nat.le_add_right _ 3, rfl⟩
  | claim | exhaust | retry => exact Or.inr ⟨Nat.le_succ _, rfl⟩
  | reapUpdate => exact Or.inr ⟨Nat.le_add_right _ _, rfl⟩
  | _ => exact Or.inr ⟨Nat.le_refl _, rfl⟩

end Pipeline

/-! ## Each half alone -/

variable {env : Webhooks.Env} {s s' : State β} {a : Action κ}

/-- The halves see one outbox, one clock and one number of ids, and each is reached alone. -/
structure Halves (port : BankPort β κ) (env : Webhooks.Env) (s : State β) : Prop where
  agreed : seen s.pipeline s.webhooks = s.webhooks
  pipeline : (pipelines port env.cfg).Alone env.u (fun a => Pipeline.foreign a = false) s.pipeline
  webhooks : (deliveries env).Alone env.u (fun _ => True) s.webhooks

theorem Halves.began (h : Halves port env s) : BeganInv s.pipeline := by
  obtain ⟨m, n, f, -, hr⟩ := h.pipeline
  exact beganInv (p := Pipeline.solo m s.pipeline) hr

/-- The marks of the dispatchers are nothing to the pipeline alone. -/
theorem solo_marked {p : PaymentsProcessor.State β} {w : Webhooks.State} (hnow : w.now = p.now)
    (hout : Remarked p.db.outbox w.outbox) (m : Nat) : Pipeline.solo m (marked w p) = Pipeline.solo m p := by
  have hsame : w.outbox.map Pipeline.unmark = p.db.outbox.map Pipeline.unmark := by
    rcases hout with h | ⟨ids, now, h⟩
    · rw [h]
    · rw [h, Webhooks.Dispatcher.markDispatched, List.map_map]
      refine List.map_congr_left fun row _ => ?_
      dsimp only [Function.comp]
      split <;> rfl
  unfold Pipeline.solo marked Pipeline.unmarkDb
  simp only [hnow, hsame]

theorem delivers_now {w w' : Webhooks.State} {a : Webhooks.Action} (h : Webhooks.Step env w a w') (hown : delivers a = true) :
    w'.now = w.now := by
  cases h with
  | tick => cases hown
  | _ => rfl

/-- A step of the pipeline is, to the webhooks alone, time that passes, or an event that is emitted. -/
theorem webhooks_seen {p p' : PaymentsProcessor.State β} {w : Webhooks.State} {a : PaymentsProcessor.Action κ}
    (h : (deliveries env).Alone env.u (fun _ => True) w) (hagreed : seen p w = w) (hbegan : BeganInv p)
    (hs : Pipeline.Step port (payments env) p a p') : (deliveries env).Alone env.u (fun _ => True) (seen p' w) := by
  rw [← hagreed] at h
  rcases emits hbegan hs with ⟨hnow, n, event, aggregateId, began, hle, hlt, hpast, hout⟩ | ⟨hle, hout⟩
  · have hbefore : (deliveries env).Alone env.u (fun _ => True) { seen p w with ulids := n } := h.skip hle fun _ => rfl
    have hemit : (deliveries env).Alone env.u (fun _ => True) { seen p w with
        ulids := n + 1, outbox := p.db.outbox ++ [emitted env.u n event aggregateId began] } :=
      hbefore.step (a := .emit event aggregateId began) trivial (if_pos hpast)
    refine hemit.skip (t := seen p' w) hlt fun m => ?_
    show Webhooks.solo m _ = Webhooks.solo m _
    unfold Webhooks.solo seen
    simp only [hnow, hout]
    rfl
  · have htick : (deliveries env).Alone env.u (fun _ => True) { seen p w with now := p.now + (p'.now - p.now) } :=
      h.step (a := .tick (p'.now - p.now)) trivial rfl
    rw [Nat.add_sub_cancel' (now_le hs)] at htick
    refine htick.skip (t := seen p' w) hle fun m => ?_
    show Webhooks.solo m _ = Webhooks.solo m _
    unfold Webhooks.solo seen
    simp only [hout]

theorem Halves.step (h : Halves port env s) (hown : own a = true) (hs : Service.step port env s a = some s') :
    Halves port env s' := by
  cases a with
  | payment a =>
    obtain ⟨p, hp, rfl⟩ := Option.map_eq_some_iff.1 hs
    exact ⟨rfl, h.pipeline.step (by simpa [own] using hown) hp,
      webhooks_seen h.webhooks h.agreed h.began (Pipeline.step_sound hp)⟩
  | webhook a =>
    dsimp only [Service.step] at hs
    split at hs
    · rename_i hdelivers
      obtain ⟨w, hw, rfl⟩ := Option.map_eq_some_iff.1 hs
      have hrule := Webhooks.step_sound hw
      obtain ⟨hulids, -, hout⟩ := marks hrule hdelivers
      have hnow := delivers_now hrule hdelivers
      rw [← h.agreed] at hulids hout hnow
      exact ⟨rfl, h.pipeline.skip hulids (solo_marked hnow hout), h.webhooks.step trivial hw⟩
    · cases hs

theorem halves (h : Reach (system port env) (fun _ a => own a = true) s) : Halves port env s :=
  h.invariant (I := Halves port env)
    ⟨rfl, Sharing.Alone.init (pipelines port env.cfg) env.u env.u, Sharing.Alone.init (deliveries env) env.u env.u⟩
    fun _ _ _ _ hI hown hs => hI.step hown hs

/-- In every reached state of the service either half is in a state it reaches alone: the pipeline without the dispatchers'
marks, the webhooks without the relay's and with the clock and the events of the pipeline as their own, and each with some
of the shared ids, in their order. -/
theorem halves_alone (h : Reach (system port env) (fun _ a => own a = true) s) :
    (∃ m, ∃ f : Renumbering m s.pipeline.ulids,
      Reach (Pipeline.system port ⟨env.cfg, idsLeft env.u f⟩) (fun _ a => Pipeline.foreign a = false)
        (Pipeline.solo m s.pipeline)) ∧
    ∃ m, ∃ f : Renumbering m s.webhooks.ulids,
      Reach (Webhooks.system { env with u := idsLeft env.u f }) Free (Webhooks.solo m s.webhooks) := by
  obtain ⟨-, ⟨m, n, f, rfl, hp⟩, m', n', f', rfl, hw⟩ := halves h
  exact ⟨⟨m, f, hp⟩, m', f', hw⟩

/-- A payment and its notification, with six ids drawn by the pipeline and two by the webhooks. -/
theorem halves_alone_notified : ∃ s, Reach (system SimulatedBankAdapter.port Webhooks.standard) (fun _ a => own a = true) s ∧
    s.webhooks.posts.length = 2 ∧
    (∃ m, ∃ f : Renumbering m s.pipeline.ulids,
      Reach (Pipeline.system SimulatedBankAdapter.port ⟨Webhooks.standard.cfg, idsLeft Webhooks.standard.u f⟩)
        (fun _ a => Pipeline.foreign a = false) (Pipeline.solo m s.pipeline)) ∧
    ∃ m, ∃ f : Renumbering m s.webhooks.ulids,
      Reach (Webhooks.system { Webhooks.standard with u := idsLeft Webhooks.standard.u f }) Free
        (Webhooks.solo m s.webhooks) := by
  obtain ⟨s, hs, hp⟩ := exists_reach_of_execIf (show (execIf (system SimulatedBankAdapter.port Webhooks.standard)
    (fun _ a => own a = true) (system SimulatedBankAdapter.port Webhooks.standard).init notifiedTwice).any
      (fun s => s.webhooks.posts.length = 2) = true by decide +kernel)
  exact ⟨s, hs, of_decide_eq_true hp, halves_alone hs⟩

end PaymentsProcessor.Service
