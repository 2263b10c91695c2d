/-
From a submission to the receiver. Whatever has happened to the service, a payment that is not lost and has not ended can be
completed and its completion brought to an active endpoint, without a client: the pipeline can complete it alone, the
webhooks can deliver the announcement alone, and what the halves can do alone they can do together.
-/
import PaymentsProcessor.Service.Halves
import PaymentsProcessor.Ledger.Pending
import PaymentsProcessor.Webhooks.Dispatch

namespace PaymentsProcessor.Service

open Transition PartialMap PaymentStatus

variable {β κ : Type} {port : BankPort β κ}

/-! ## A willing bank -/

/-- The states a bank comes to. -/
inductive Banked (port : BankPort β κ) : β → Prop
  | init : Banked port port.init
  | authorize (req : BankAuthorizeRequest) {bank : β} (h : Banked port bank) : Banked port (port.authorize req bank).2
  | setConfig (c : κ) {bank : β} (h : Banked port bank) : Banked port (port.setConfig c bank)

/-- So configured, the bank authorises every request, whatever has been asked of it before. -/
def Willing (port : BankPort β κ) (c : κ) : Prop :=
  ∀ bank, Banked port bank → ∀ req, ∃ bankRef, (port.authorize req (port.setConfig c bank)).1 = .resolved (.authorized bankRef)

theorem Banked.wf {bank : SimulatedBankAdapter} (h : Banked SimulatedBankAdapter.port bank) : bank.WF := by
  induction h with
  | init => exact SimulatedBankAdapter.init_wf
  | authorize req _ ih => exact SimulatedBankAdapter.authorize_wf ih req
  | setConfig c _ ih => exact SimulatedBankAdapter.setConfig_wf ih c

/-- The simulated bank repeats authorisations, and makes new ones when told to. -/
theorem willing_simulated : Willing SimulatedBankAdapter.port { mode := some .alwaysAuthorize } := by
  intro bank hbank req
  refine ⟨SimulatedBankAdapter.bankRef req.idempotencyKey, ?_⟩
  show (SimulatedBankAdapter.authorize req (SimulatedBankAdapter.setConfig { mode := some .alwaysAuthorize } bank)).1 = _
  unfold SimulatedBankAdapter.authorize
  rw [SimulatedBankAdapter.setConfig_store]
  cases hstored : bank.store.lookup req.idempotencyKey with
  | some outcome => rw [hbank.wf.authorized _ _ hstored]
  | none => rfl

/-! ## The pipeline completes a payment -/

section Pipeline

open Pipeline Account

variable {env : Env} {p p' : PaymentsProcessor.State β} {pid : String} {c : κ}
  {C : PaymentsProcessor.State β → PaymentsProcessor.Action κ → Prop}

theorem banked (h : Reach (Pipeline.system port env) C p) : Banked port p.bank := by
  refine h.invariant (I := fun p => Banked port p.bank) .init fun t a t' _ hI _ hs => ?_
  cases step_sound hs with
  | answer => exact .authorize _ hI
  | setConfig c => exact .setConfig c hI
  | _ => exact hI

/-- A payment that has not ended and can be driven on. -/
structure Open (p : PaymentsProcessor.State β) (pid : String) (q : Payment) : Prop where
  payment : p.db.payments pid = some q
  unfinished : q.status.terminal = false
  driven : q.status = PENDING → Drivable p pid

/-- The first step out of PENDING is a claim. -/
theorem exists_claimed {q : Payment} {t : PaymentsProcessor.State β} (hr : Reach (Pipeline.system port env) Free p)
    (hp : p.db.payments pid = some q) (hst : q.status = PENDING) (h : Pipeline.Path port env unattended p t)
    (hbegun : Begun t.db pid) : ∃ u q', Pipeline.Path port env unattended p u ∧ u.db.payments pid = some q' ∧
      q'.status = PROCESSING := by
  induction h with
  | refl => exact absurd hbegun (not_begun hp hst)
  | @tail t t' hpath hlast ih =>
    by_cases hbefore : Begun t.db pid
    · exact ih hbefore
    · obtain ⟨q', hq', hne⟩ := hbegun
      obtain ⟨old, hold⟩ := Option.isSome_iff_exists.1 (payment_path hpath (by rw [hp]; rfl))
      have hpending : old.status = PENDING := by
        by_contra hother
        exact hbefore ⟨old, hold, hother⟩
      obtain ⟨a, ha, hs⟩ := hlast
      have hreach := hr.path hpath
      obtain ⟨x, hx, hxst, -⟩ := account_of_payment hold
      obtain ⟨y, hy, hyst, -⟩ := account_of_payment hq'
      have hstep := (step_sound hs).account (lockInv hreach) (pcInv hreach) (ledgerInv hreach).owned pid
      rw [hx, hy] at hstep
      cases hstep with
      | same => exact absurd (hyst.symm.trans (hxst.trans hpending)) hne
      | moved hm hmove =>
        cases hmove with
        | claim => exact ⟨t', q', hpath.tail ⟨a, ha, hs⟩, hq', hyst.symm⟩
        | retry hx' | exhaust hx' | settle hx' | reap hx' =>
          rw [hxst, hpending] at hx'
          cases hx'

/-- With a willing bank an open payment can be completed. -/
theorem Open.exists_paid {q : Payment} (h : Open p pid q) (hwilling : Willing port c)
    (hr : Reach (Pipeline.system port env) (fun _ a => foreign a = false) p) :
    ∃ t q', Pipeline.Path port env unattended p t ∧ t.db.payments pid = some q' ∧ q'.status = COMPLETED := by
  have hstuck : ∀ {u : PaymentsProcessor.State β} {q' : Payment},
      Reach (Pipeline.system port env) (fun _ a => foreign a = false) u → u.db.payments pid = some q' →
      q'.status = PROCESSING ∨ q'.status = RETRYING →
      ∃ t q'', Pipeline.Path port env unattended u t ∧ t.db.payments pid = some q'' ∧ q''.status = COMPLETED := by
    intro u q' hu hq' hst
    obtain ⟨bankRef, hauthorized⟩ := hwilling u.bank (banked hu) ⟨pid, q'.amountCents, q'.currency, pid⟩
    exact exists_completed hu hq' hst hauthorized
  cases hst : q.status with
  | PENDING =>
    obtain ⟨t, hpath, hbegun⟩ := canBegin hr h.payment hst (h.driven hst)
    obtain ⟨u, q', hpath', hq', hclaimed⟩ := exists_claimed hr.free h.payment hst hpath hbegun
    obtain ⟨v, q'', hpath'', hq'', hend⟩ := hstuck (own_path hr hpath') hq' (Or.inl hclaimed)
    exact ⟨v, q'', hpath'.trans hpath'', hq'', hend⟩
  | PROCESSING => exact hstuck hr h.payment (Or.inl hst)
  | RETRYING => exact hstuck hr h.payment (Or.inr hst)
  | COMPLETED | FAILED =>
    have hopen := h.unfinished
    rw [hst] at hopen
    cases hopen

/-- What drives a payment drives it in the pipeline alone. -/
theorem drivable_solo (m : Nat) : Drivable (solo m p) pid ↔ Drivable p pid := by
  refine or_congr_left ⟨?_, ?_⟩
  · rintro ⟨row, hrow, hrest⟩
    obtain ⟨old, hold, rfl⟩ := List.mem_map.1 hrow
    exact ⟨old, hold, hrest⟩
  · rintro ⟨row, hrow, hrest⟩
    exact ⟨unmark row, List.mem_map_of_mem hrow, hrest⟩

theorem Open.solo {q : Payment} (h : Open p pid q) (m : Nat) : Open (Pipeline.solo m p) pid q :=
  ⟨h.payment, h.unfinished, fun hst => (drivable_solo m).2 (h.driven hst)⟩

theorem lost_solo (m : Nat) : Lost (solo m p) pid ↔ Lost p pid :=
  ⟨fun h => ⟨h.pending, fun hd => h.undriven ((drivable_solo m).2 hd)⟩,
    fun h => ⟨h.pending, fun hd => h.undriven ((drivable_solo m).1 hd)⟩⟩

/-- No announcement of the payment has been dispatched. -/
def Undispatched (pid : String) (p : PaymentsProcessor.State β) : Prop := ∀ row ∈ p.db.outbox, row.aggregateId = pid →
  row.terminal?.isSome = true → row.webhookDispatchedAt = none

theorem Undispatched.path {test : PaymentsProcessor.Action κ → Bool} (h : Undispatched pid p)
    (hpath : Path (Pipeline.system port env) test p p') : Undispatched pid p' := by
  induction hpath with
  | refl => exact h
  | tail _ hlast ih =>
    obtain ⟨a, -, hs⟩ := hlast
    intro row hrow haggregate hterminal
    cases writes (step_sound hs) with
    | same hout => exact ih row (hout ▸ hrow) haggregate hterminal
    | insert new n hid hle hlt hnew hout =>
      rw [hout] at hrow
      rcases List.mem_append.1 hrow with hold | hin
      · exact ih row hold haggregate hterminal
      · cases List.mem_singleton.1 hin
        exact hnew
    | publish k poll hk hulids hout =>
      rw [hout] at hrow
      obtain ⟨old, hold, -, haggregate', hevent, hmark⟩ := of_mem_markPublished hrow
      rw [← hmark]
      refine ih old hold (haggregate'.trans haggregate) ?_
      unfold OutboxRow.terminal? at hterminal ⊢
      rwa [hevent] at hterminal

/-- Nothing of an open payment is announced. -/
theorem Open.undispatched {q : Payment} (h : Open p pid q) (hI : PipelineInv env p) : Undispatched pid p := by
  rintro row hrow rfl hterminal
  obtain ⟨payload, hpayload⟩ := Option.isSome_iff_exists.1 hterminal
  obtain ⟨-, q', hq', hfinal, -⟩ := terminal_row hI hrow hpayload
  rw [((hI.agree.outbox row hrow).2 payload hpayload).1, h.payment] at hq'
  cases hq'
  rw [h.unfinished] at hfinal
  cases hfinal

/-- A completed payment is announced. -/
theorem exists_announced {q : Payment} (hI : PipelineInv env p) (hq : p.db.payments pid = some q) (hst : q.status = COMPLETED) :
    ∃ row ∈ p.db.outbox, ∃ payload, row.aggregateId = pid ∧ row.event = .completed payload ∧ payload.paymentId = pid := by
  obtain ⟨x, hx, hxst, -⟩ := account_of_payment hq
  obtain ⟨q', -, -, -, -, -, -, hann⟩ := Db.account_eq_some hx
  have hwf := hI.ledger.wf hx
  have hopen : x.exhausted = false := by
    cases he : x.exhausted with
    | false => rfl
    | true =>
      have hfailed := hwf.exhausted he
      rw [hxst, hst] at hfailed
      cases hfailed
  have hbooks := hwf.announced
  rw [hann, hopen, if_neg Bool.false_ne_true, hxst, hst] at hbooks
  obtain ⟨row, hone, htype⟩ := List.map_eq_singleton_iff.1 hbooks
  have hmem : row ∈ p.db.terminalOf pid := hone ▸ List.mem_singleton_self row
  obtain ⟨hrow, hcond⟩ := List.mem_filter.1 hmem
  obtain ⟨haggregate, hterminal⟩ := of_decide_eq_true hcond
  obtain ⟨payload, hpayload⟩ := Option.isSome_iff_exists.1 hterminal
  refine ⟨row, hrow, payload, haggregate, ?_, ((hI.agree.outbox row hrow).2 payload hpayload).1.trans haggregate⟩
  unfold OutboxRow.terminal? at hpayload
  cases he : row.event with
  | submitted => rw [he] at hpayload; cases hpayload
  | completed payload' => rw [he] at hpayload; cases hpayload; rfl
  | failed payload' =>
    rw [he] at htype
    exact absurd (show "payment.failed" = "payment.completed" from htype) (by decide)

end Pipeline

/-! ## Together -/

/-- No client and no new endpoint, and the receivers all settle their requests in one way. -/
def unattended (reply : Webhooks.Reply) : Action κ → Bool
  | .payment a => Pipeline.unattended a
  | .webhook a => Webhooks.answering reply a

variable {env : Webhooks.Env} {s t : State β} {reply : Webhooks.Reply} {pid : String} {c : κ}

theorem own_of_unattended {a : Action κ} (h : unattended reply a = true) : own a = true := by
  cases a with
  | payment a => simp [own, Pipeline.foreign_of_unattended h]
  | webhook a => rfl

theorem reach_of_path (h : Reach (system port env) (fun _ a => own a = true) s)
    (hpath : Path (system port env) (unattended reply) s t) : Reach (system port env) (fun _ a => own a = true) t := by
  induction hpath with
  | refl => exact h
  | tail _ hlast ih =>
    obtain ⟨a, ha, hs⟩ := hlast
    exact .step ih (own_of_unattended ha) hs

/-- What the pipeline can do, the service can do. -/
theorem path_of_pipeline {p : PaymentsProcessor.State β} (hagreed : seen s.pipeline s.webhooks = s.webhooks)
    (h : Path (Pipeline.system port (payments env)) Pipeline.unattended s.pipeline p) :
    Path (system port env) (unattended reply) s ⟨p, seen p s.webhooks⟩ := by
  induction h with
  | refl => rw [hagreed]
  | tail _ hlast ih =>
    obtain ⟨a, ha, hs⟩ := hlast
    exact ih.tail ⟨.payment a, ha, Option.map_eq_some_iff.2 ⟨_, hs, rfl⟩⟩

/-- What the webhooks can do, the service can do; the pipeline lets time pass for them. -/
theorem path_of_webhooks {w : Webhooks.State} (hagreed : seen s.pipeline s.webhooks = s.webhooks)
    (h : Path (Webhooks.system env) (Webhooks.answering reply) s.webhooks w) :
    Path (system port env) (unattended reply) s ⟨marked w s.pipeline, w⟩ := by
  induction h with
  | refl =>
    have hmarked : marked s.webhooks s.pipeline = s.pipeline := by
      rw [← hagreed]
      rfl
    rw [hmarked]
  | @tail w w' _ hlast ih =>
    obtain ⟨a, ha, hs⟩ := hlast
    by_cases hown : delivers a = true
    · refine ih.tail ⟨.webhook a, ha, ?_⟩
      exact (if_pos hown).trans (Option.map_eq_some_iff.2 ⟨w', hs, rfl⟩)
    · cases a with
      | tick ms =>
        cases hs
        exact ih.tail ⟨.payment (.tick ms), rfl, rfl⟩
      | emit => cases ha
      | _ => exact absurd rfl hown

/-- In the service as alone, an open payment can be completed. -/
theorem exists_paid {q : Payment} (h : Reach (system port env) (fun _ a => own a = true) s) (hopen : Open s.pipeline pid q)
    (hwilling : Willing port c) : ∃ p q', Path (Pipeline.system port (payments env)) Pipeline.unattended s.pipeline p ∧
      p.db.payments pid = some q' ∧ q'.status = COMPLETED := by
  obtain ⟨m, n, f, hn, hr⟩ := (halves h).pipeline
  obtain ⟨t, q', hpath, hq', hst⟩ := (hopen.solo m).exists_paid hwilling hr
  obtain ⟨p, m', hpath', rfl, -⟩ := Sharing.exists_path (S := pipelines port env.cfg) f hn hpath
  exact ⟨p, q', hpath', hq', hst⟩

variable (reply) in
/-- In the service as alone, an announcement can be delivered. -/
theorem exists_delivered {row : OutboxRow} {endpoint : WebhookEndpoint}
    (h : Reach (system port env) (fun _ a => own a = true) s) (hrow : row ∈ s.webhooks.outbox)
    (hunmarked : row.webhookDispatchedAt = none) (hterminal : row.terminal?.isSome = true)
    (hendpoint : endpoint ∈ s.webhooks.endpoints) (hactive : endpoint.active = true) :
    ∃ w id d, Path (Webhooks.system env) (Webhooks.answering reply) s.webhooks w ∧ w.delivery id = some d ∧
      d.eventId = row.id ∧ d.endpointId = endpoint.id ∧ d.event = row.event ∧
      d.status = if reply.lastError = none then .delivered else .dead := by
  obtain ⟨m, n, f, hn, hr⟩ := (halves h).webhooks
  have hrow' : Webhooks.unpublish row ∈ (Webhooks.solo m s.webhooks).outbox := List.mem_map_of_mem hrow
  obtain ⟨t, id, d, hpath, hd, hevent, hend, hsame, hstatus⟩ :=
    Webhooks.exists_delivered reply hr hrow' hunmarked hterminal hendpoint hactive
  obtain ⟨w, m', hpath', rfl, -⟩ := Sharing.exists_path (S := deliveries env) f hn hpath
  exact ⟨w, id, d, hpath', hd, hevent, hend, hsame, hstatus⟩

/-- Nothing the service does brings a lost payment back. -/
theorem lost_step {a : Action κ} (h : Pipeline.Lost s.pipeline pid) (hr : Reach (system port env) (fun _ a => own a = true) s)
    (hown : own a = true) (hs : (system port env).step s a = some t) : Pipeline.Lost t.pipeline pid := by
  obtain ⟨m, n, f, hn, halone⟩ := (halves hr).pipeline
  cases a with
  | payment a =>
    obtain ⟨p, hp, rfl⟩ := Option.map_eq_some_iff.1 hs
    have hstep := (pipelines port env.cfg).step_alone env.u _ m s.pipeline a (Sharing.name_onward f hn)
    rw [show ((pipelines port env.cfg).system env.u).step s.pipeline a = some p from hp] at hstep
    exact (lost_solo _).1 (((lost_solo m).2 h).step halone (by simpa [own] using hown) hstep)
  | webhook a =>
    dsimp only [system, Service.step] at hs
    split at hs
    · rename_i hdelivers
      obtain ⟨w, hw, rfl⟩ := Option.map_eq_some_iff.1 hs
      have hrule := Webhooks.step_sound hw
      have hout := (marks hrule hdelivers).2.2
      have hnow := delivers_now hrule hdelivers
      rw [← (halves hr).agreed] at hout hnow
      -- the marks are nothing to the pipeline alone
      rw [← lost_solo m, solo_marked hnow hout, lost_solo m]
      exact h
    · cases hs

theorem lost_path (h : Pipeline.Lost s.pipeline pid) (hr : Reach (system port env) (fun _ a => own a = true) s)
    (hpath : Path (system port env) (unattended reply) s t) : Pipeline.Lost t.pipeline pid := by
  induction hpath with
  | refl => exact h
  | tail hbefore hlast ih =>
    obtain ⟨a, ha, hs⟩ := hlast
    exact lost_step ih (reach_of_path hr hbefore) (own_of_unattended ha) hs

/-- The payment is completed, and the endpoint has been told so. -/
structure Told (s : State β) (pid : String) (endpoint : WebhookEndpoint) : Prop where
  completed : ∃ q, s.pipeline.db.payments pid = some q ∧ q.status = COMPLETED
  delivered : ∃ id d payload, s.webhooks.delivery id = some d ∧ d.endpointId = endpoint.id ∧ d.event = .completed payload ∧
    payload.paymentId = pid ∧ d.status = .delivered

/-- An open payment can be completed, and its completion be told. -/
theorem exists_told {q : Payment} {endpoint : WebhookEndpoint} (h : Reach (system port env) (fun _ a => own a = true) s)
    (hopen : Open s.pipeline pid q) (hwilling : Willing port c) (hendpoint : endpoint ∈ s.webhooks.endpoints)
    (hactive : endpoint.active = true) (haccepts : reply.lastError = none) :
    ∃ t, Path (system port env) (unattended reply) s t ∧ Told t pid endpoint := by
  have hI := serviceInv h
  obtain ⟨p, q', hpaid, hq', hst⟩ := exists_paid h hopen hwilling
  have hpath : Path (system port env) (unattended reply) s ⟨p, seen p s.webhooks⟩ := path_of_pipeline (halves h).agreed hpaid
  have hr := reach_of_path h hpath
  obtain ⟨row, hrow, payload, haggregate, hevent, hpid⟩ := exists_announced (serviceInv hr).pipeline hq' hst
  have hterminal : row.terminal?.isSome = true := by
    unfold OutboxRow.terminal?
    rw [hevent]
    rfl
  have hunmarked := (hopen.undispatched hI.pipeline).path hpaid row hrow haggregate hterminal
  obtain ⟨w, id, d, hpath', hd, -, hend, hsame, hstatus⟩ := exists_delivered reply hr hrow hunmarked hterminal hendpoint hactive
  refine ⟨_, hpath.trans (path_of_webhooks (halves hr).agreed hpath'), ⟨q', hq', hst⟩, id, d, payload, hd, hend,
    hsame.trans hevent, hpid, ?_⟩
  rw [hstatus, if_pos haccepts]

/-- From every reached state of the service, whatever has crashed, failed or been lost on the way, a payment that has not
ended can be completed and its completion delivered to any active endpoint, by the service alone, if the bank can be made to
authorise and the receivers accept; unless it is PENDING and nothing drives it. -/
theorem told_unless_lost {q : Payment} {endpoint : WebhookEndpoint} (h : Reach (system port env) (fun _ a => own a = true) s)
    (hq : s.pipeline.db.payments pid = some q) (hunfinished : q.status.terminal = false) (hwilling : Willing port c)
    (hendpoint : endpoint ∈ s.webhooks.endpoints) (hactive : endpoint.active = true) (haccepts : reply.lastError = none) :
    (∃ t, Path (system port env) (unattended reply) s t ∧ Told t pid endpoint) ↔
      (q.status = PENDING → Pipeline.Drivable s.pipeline pid) := by
  constructor
  · rintro ⟨t, hpath, htold⟩ hst
    by_contra hundriven
    obtain ⟨q', hq', hpending⟩ := (lost_path ⟨⟨q, hq, hst⟩, hundriven⟩ h hpath).pending
    obtain ⟨q'', hq'', hcompleted⟩ := htold.completed
    cases hq'.symm.trans hq''
    rw [hpending] at hcompleted
    cases hcompleted
  · intro hdriven
    exact exists_told h ⟨hq, hunfinished, hdriven⟩ hwilling hendpoint hactive haccepts

/-- A worker crashes after the claim, and an endpoint is registered. -/
def abandoned : List (Action BankConfigPatch) :=
  [(Pipeline.accept Pipeline.order 0 "00" ++ Pipeline.claim 0 0 "00").map .payment, [.payment (.crash 0)],
    [.webhook (.insertEndpoint "https://shop.example/hook" "secret")]].flatten

theorem told_unless_lost_crashed : ∃ s, ∃ q : Payment, ∃ endpoint, Reach (system SimulatedBankAdapter.port Webhooks.standard)
    (fun _ a => own a = true) s ∧ (s.pipeline.runs 0).any (fun run => run.pc = .gone) = true ∧
    ((∃ t, Path (system SimulatedBankAdapter.port Webhooks.standard) (unattended (.response 200)) s t ∧ Told t "0" endpoint) ↔
      (q.status = PENDING → Pipeline.Drivable s.pipeline "0")) := by
  obtain ⟨s, hs, hp⟩ := exists_reach_of_execIf (show (execIf (system SimulatedBankAdapter.port Webhooks.standard)
    (fun _ a => own a = true) (system SimulatedBankAdapter.port Webhooks.standard).init abandoned).any
      (fun s => ((s.pipeline.db.payments "0").any fun q => q.status.terminal = false) &&
        s.webhooks.endpoints.any WebhookEndpoint.active && (s.pipeline.runs 0).any fun run => run.pc = .gone) = true by
        decide +kernel)
  obtain ⟨hcond, hgone⟩ := Bool.and_eq_true_iff.1 hp
  obtain ⟨hpayment, hendpoint⟩ := Bool.and_eq_true_iff.1 hcond
  obtain ⟨q, hq, hunfinished⟩ := (Option.any_eq_true _ _).1 hpayment
  obtain ⟨endpoint, hendpoint, hactive⟩ := List.any_eq_true.1 hendpoint
  exact ⟨s, q, endpoint, hs, hgone,
    told_unless_lost hs hq (of_decide_eq_true hunfinished) willing_simulated hendpoint hactive rfl⟩

end PaymentsProcessor.Service
