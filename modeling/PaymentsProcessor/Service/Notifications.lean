/-
What receivers are told. A payment is announced by its one terminal outbox row, the dispatchers copy the row's event
into the deliveries, and every request is built from a delivery: so whatever the interleaving, the crashes and the
redeliveries, a request tells the payment's own end, and all requests about one payment tell the same under one id.
-/
import PaymentsProcessor.Service.System

namespace PaymentsProcessor.Service

open Transition PartialMap PaymentStatus

variable {β κ : Type} {port : BankPort β κ}

/-! ## The pipeline under the steps of the webhooks -/

section Pipeline

open Pipeline

variable {env : Env} {p p' : PaymentsProcessor.State β} {a : PaymentsProcessor.Action κ} {w : Webhooks.State}

/-- The outbox is as it was, up to the marks of the dispatchers. -/
def Remarked (outbox outbox' : List OutboxRow) : Prop :=
  outbox' = outbox ∨ ∃ ids now, outbox' = Webhooks.Dispatcher.markDispatched outbox ids now

variable {outbox outbox' : List OutboxRow} {row : OutboxRow}

theorem Remarked.of_mem (h : Remarked outbox outbox') (hrow : row ∈ outbox') : ∃ old ∈ outbox, old.id = row.id ∧
    old.aggregateId = row.aggregateId ∧ row.event = old.event ∧ old.publishedAt = row.publishedAt := by
  rcases h with rfl | ⟨ids, now, rfl⟩
  · exact ⟨row, hrow, rfl, rfl, rfl, rfl⟩
  · exact of_mem_markDispatched hrow

theorem Remarked.mem (h : Remarked outbox outbox') (hrow : row ∈ outbox) : ∃ row' ∈ outbox', row'.id = row.id ∧
    row'.event = row.event := by
  rcases h with rfl | ⟨ids, now, rfl⟩
  · exact ⟨row, hrow, rfl, rfl⟩
  · exact Webhooks.markDispatched_mem ids now hrow

theorem Remarked.ids (h : Remarked outbox outbox') : outbox'.map OutboxRow.id = outbox.map OutboxRow.id := by
  rcases h with rfl | ⟨ids, now, rfl⟩
  · rfl
  · exact Webhooks.markDispatched_ids _ _ _

/-- The marks touch no terminal row's owner or event. -/
theorem Remarked.terminalOf (h : Remarked p.db.outbox w.outbox) (pid : String) :
    ((marked w p).db.terminalOf pid).map (fun row => row.event.type) =
      (p.db.terminalOf pid).map fun row => row.event.type := by
  unfold Db.terminalOf
  rcases h with h | ⟨ids, now, h⟩
  · rw [show (marked w p).db.outbox = p.db.outbox from h]
  · rw [show (marked w p).db.outbox = Webhooks.Dispatcher.markDispatched p.db.outbox ids now from h]
    unfold Webhooks.Dispatcher.markDispatched
    rw [List.filter_map, List.map_map]
    refine congrArg₂ _ (funext fun row => ?_) (List.filter_congr fun row _ => ?_)
    · dsimp only [Function.comp]
      split <;> rfl
    · dsimp only [Function.comp]
      split <;> rfl

theorem account_marked (h : Remarked p.db.outbox w.outbox) (pid : String) :
    (marked w p).db.account pid = p.db.account pid :=
  Db.account_congr rfl rfl (h.terminalOf pid)

/-- What holds of the pipeline in any company. -/
structure PipelineInv (env : Env) (p : PaymentsProcessor.State β) : Prop where
  ids : IdsInv env p
  locks : LockInv p
  pcs : PcInv p
  ledger : LedgerInv p
  jobs : JobInv p
  agree : AgreeInv p
  polls : PollsInv p
  labels : LabelInv p.db.outbox

theorem IdsInv.writes (h : IdsInv env p) (hw : Writes env p p') : IdsInv env p' := by
  cases hw with
  | same hout hle => exact h.keep (by rw [hout]) hle
  | insert row n hid hle hlt hnew hout => exact h.insert hout hid hle hlt
  | publish k poll hk hulids hout =>
    refine h.keep ?_ (Nat.le_of_eq hulids.symm)
    rw [hout, Db.markPublished, List.map_map]
    exact List.map_congr_left fun row _ => by dsimp only [Function.comp]; split <;> rfl

theorem LedgerInv.step (h : LedgerInv p) (hlocks : LockInv p) (hpcs : PcInv p) (hs : Step port env p a p') :
    LedgerInv p' := by
  refine ⟨hs.owned hlocks h.owned, fun {pid y} hy => ?_⟩
  have hstep := hs.account hlocks hpcs h.owned pid
  rw [hy] at hstep
  generalize hx : p.db.account pid = x at hstep
  cases hstep with
  | same => exact h.wf hx
  | opened => exact Account.opened_wf
  | moved hm hmove => exact (h.wf hx).moves hmove

theorem PipelineInv.step (h : PipelineInv env p) (hown : foreign a = false) (hs : Step port env p a p') :
    PipelineInv env p' where
  ids := IdsInv.writes h.ids (writes hs)
  locks := h.locks.step hs
  pcs := h.pcs.step hs
  ledger := LedgerInv.step h.ledger h.locks h.pcs hs
  jobs := h.jobs.step hown hs
  agree := h.agree.step hown hs
  polls := h.polls.step h.ids hs
  labels := h.labels.step hs

/-- The webhooks leave the pipeline as it is, but for their marks and the ids they draw. -/
theorem PipelineInv.marked (h : PipelineInv env p) (hout : Remarked p.db.outbox w.outbox) (hle : p.ulids ≤ w.ulids) :
    PipelineInv env (marked w p) where
  ids := h.ids.keep hout.ids hle
  locks := h.locks
  pcs := h.pcs
  ledger := by
    refine ⟨⟨h.ledger.owned.events, fun row hrow => ?_⟩, fun {pid x} hx => ?_⟩
    · obtain ⟨old, hold, -, haggregate, -⟩ := hout.of_mem hrow
      rw [← haggregate]
      exact h.ledger.owned.outbox old hold
    · rw [account_marked hout] at hx
      exact h.ledger.wf hx
  jobs := by
    have hmem : ∀ {row : OutboxRow} {data}, (∃ row' ∈ p.db.outbox, row'.id = row.id ∧ row'.submitted? = data) →
        ∃ row' ∈ w.outbox, row'.id = row.id ∧ row'.submitted? = data := by
      rintro row data ⟨row', hrow', hid, rfl⟩
      obtain ⟨row'', hrow'', hid', hevent⟩ := hout.mem hrow'
      exact ⟨row'', hrow'', hid'.trans hid, by unfold OutboxRow.submitted?; rw [hevent]⟩
    refine ⟨h.jobs.polls.mono fun k poll hpoll => ⟨fun row hrow => hmem (hpoll.1 row hrow), hpoll.2⟩,
      fun row hrow hsubmitted hpublished => ?_, h.jobs.origin.mono fun jobId job hjob => ?_, h.jobs.runs⟩
    · obtain ⟨old, hold, hid, -, hevent, hpub⟩ := hout.of_mem hrow
      rw [OutboxRow.submitted?, hevent] at hsubmitted
      rw [← hpub] at hpublished
      rw [← hid]
      exact h.jobs.published old hold hsubmitted hpublished
    · rcases hjob with hcolon | ⟨row, hrow, rfl, hdata⟩
      · exact Or.inl hcolon
      · obtain ⟨row', hrow', hid, hsame⟩ := hmem ⟨row, hrow, rfl, hdata⟩
        exact Or.inr ⟨row', hrow', hid, hsame⟩
  agree := by
    refine ⟨fun row hrow => ?_, h.agree.polls, h.agree.jobs, h.agree.runs, h.agree.reaps⟩
    obtain ⟨old, hold, -, haggregate, hevent, -⟩ := hout.of_mem hrow
    obtain ⟨hrows, hpayloads⟩ := h.agree.outbox old hold
    refine ⟨fun data hdata => hrows data ?_, fun payload hpayload => ?_⟩
    · rwa [OutboxRow.submitted?, hevent] at hdata
    · rw [← haggregate]
      refine hpayloads payload ?_
      rwa [OutboxRow.terminal?, hevent] at hpayload
  polls := ⟨h.polls.batches, h.polls.locks⟩
  labels row hrow payload hpayload := by
    obtain ⟨old, hold, -, -, hevent, -⟩ := hout.of_mem hrow
    rw [hevent]
    refine h.labels old hold payload ?_
    rwa [OutboxRow.terminal?, hevent] at hpayload

theorem pipelineInv_initial (env : Env) (bank : β) : PipelineInv env (State.initial bank) where
  ids := ⟨fun _ hid => absurd hid List.not_mem_nil, .nil⟩
  locks := all_empty
  pcs := all_empty
  ledger := ⟨Db.empty_owned, fun h => by cases h⟩
  jobs := ⟨all_empty, fun _ hrow => absurd hrow List.not_mem_nil, all_empty, all_empty⟩
  agree := ⟨fun _ hrow => absurd hrow List.not_mem_nil, all_empty, all_empty, all_empty, all_empty⟩
  polls := ⟨all_empty, fun _ _ hlock => by cases hlock⟩
  labels _ hrow := absurd hrow List.not_mem_nil

end Pipeline

/-! ## The webhooks under the steps of the pipeline -/

section Webhooks

open Webhooks

variable {env : Webhooks.Env} {w w' : Webhooks.State} {p p' : PaymentsProcessor.State β} {a : Webhooks.Action}
variable {outbox outbox' : List OutboxRow} {d : WebhookDelivery}

/-- The delivery is of a terminal event of the outbox. -/
def Sourced (outbox : List OutboxRow) (d : WebhookDelivery) : Prop :=
  ∃ row ∈ outbox, row.id = d.eventId ∧ row.terminal?.isSome = true ∧ row.event = d.event

/-- No row is lost. -/
def Kept (outbox outbox' : List OutboxRow) : Prop :=
  ∀ row ∈ outbox, ∃ row' ∈ outbox', row'.id = row.id ∧ row'.event = row.event

theorem Sourced.mono (h : Sourced outbox d) (hkept : Kept outbox outbox') : Sourced outbox' d := by
  obtain ⟨row, hrow, hid, hterminal, hevent⟩ := h
  obtain ⟨row', hrow', hid', hevent'⟩ := hkept row hrow
  exact ⟨row', hrow', hid'.trans hid, by unfold OutboxRow.terminal? at hterminal ⊢; rwa [hevent'], hevent'.trans hevent⟩

theorem kept_marks (h : Remarked outbox outbox') : Kept outbox outbox' := fun _ hrow => h.mem hrow

theorem kept_writes {env : PaymentsProcessor.Env} (h : Writes env p p') : Kept p.db.outbox p'.db.outbox := by
  intro row hrow
  cases h with
  | same hout => exact ⟨row, by rw [hout]; exact hrow, rfl, rfl⟩
  | insert new n hid hle hlt hnew hout =>
    exact ⟨row, by rw [hout]; exact List.mem_append_left _ hrow, rfl, rfl⟩
  | publish k poll hk hulids hout =>
    rw [hout]
    refine ⟨_, List.mem_map_of_mem hrow, ?_⟩
    split <;> exact ⟨rfl, rfl⟩

/-- What holds of the webhooks in any company: every delivery, every row a run has read and every request is of a
terminal event of the outbox. -/
structure WebhooksInv (env : Webhooks.Env) (w : Webhooks.State) : Prop where
  fanout : FanoutInv env w
  reads : All w.runs fun _ run => ∀ d, run.pc.read = some d → Sourced w.outbox d
  posts : ∀ post ∈ w.posts, ∃ d endpoint now, post = Processor.postFor env d endpoint now ∧ Sourced w.outbox d

/-- A request is one sent before, or is built from the row its run has read. -/
theorem Step.posts_inv (h : Webhooks.Step env w a w') {post : Post} (hpost : post ∈ w'.posts) : post ∈ w.posts ∨
    ∃ r run d endpoint, w.runs r = some run ∧ run.pc = .loaded d ∧ post = Processor.postFor env d endpoint w.now := by
  cases h with
  | post r run d endpoint hr hpc =>
    rcases List.mem_append.1 hpost with hold | hnew
    · exact Or.inl hold
    · exact Or.inr ⟨r, run, d, endpoint, hr, hpc, List.mem_singleton.1 hnew⟩
  | _ => exact Or.inl hpost

theorem WebhooksInv.step (h : WebhooksInv env w) (hown : delivers a = true) (hs : Webhooks.Step env w a w') :
    WebhooksInv env w' := by
  have hkept : Kept w.outbox w'.outbox := kept_marks (marks hs hown).2.2
  refine ⟨h.fanout.step hs, fun r run hr d hd => ?_, fun post hpost => ?_⟩
  · rcases hs.read_inv hr hd with ⟨old, hold, hread⟩ | ⟨id, hrow⟩
    · exact (h.reads hold d hread).mono hkept
    · exact Sourced.mono (h.fanout.sourced d (List.mem_of_find?_eq_some hrow)) hkept
  · rcases Step.posts_inv hs hpost with hold | ⟨r, run, d, endpoint, hr, hpc, rfl⟩
    · obtain ⟨d, endpoint, now, rfl, hd⟩ := h.posts post hold
      exact ⟨d, endpoint, now, rfl, hd.mono hkept⟩
    · exact ⟨d, endpoint, w.now, rfl, (h.reads hr d (by rw [hpc]; rfl)).mono hkept⟩

/-- Time passes, and ids are drawn elsewhere. -/
theorem FanoutInv.later (h : FanoutInv env w) (now : Nat) {n : Nat} (hle : w.ulids ≤ n) :
    FanoutInv env { w with now := now, ulids := n } :=
  ⟨h.events.mono hle, h.endpoints.mono hle, h.sourced, h.polls, h.unmarked, h.marked⟩

/-- A submission announces nothing. -/
theorem terminal?_of_submitted? {row : OutboxRow} (h : row.submitted?.isSome = true) : row.terminal? = none := by
  unfold OutboxRow.submitted? at h
  unfold OutboxRow.terminal?
  cases he : row.event with
  | submitted payload => rfl
  | completed payload | failed payload => rw [he] at h; cases h

/-- Marks of the relay, on rows that announce nothing. -/
theorem FanoutInv.published {outbox' : List OutboxRow} (ids : List String) (now : Nat) (h : FanoutInv env w)
    (hout : outbox' = w.outbox.map fun row => if row.id ∈ ids then { row with publishedAt := some now } else row)
    (hids : ∀ row ∈ w.outbox, row.terminal?.isSome = true → row.id ∉ ids) : FanoutInv env { w with outbox := outbox' } := by
  subst hout
  have hstay : ∀ row ∈ w.outbox, row.terminal?.isSome = true → row ∈ w.outbox.map fun row =>
      if row.id ∈ ids then { row with publishedAt := some now } else row :=
    fun row hrow hterminal => List.mem_map.2 ⟨row, hrow, if_neg (hids row hrow hterminal)⟩
  refine ⟨?_, h.endpoints, fun d hd => ?_, h.polls.mono fun k poll hhold hpc => ?_, fun row hrow => ?_, fun row hrow => ?_⟩
  · have hsame : (w.outbox.map fun row => if row.id ∈ ids then { row with publishedAt := some now } else row).map
        OutboxRow.id = w.outbox.map OutboxRow.id := by
      rw [List.map_map]
      exact List.map_congr_left fun row _ => by dsimp only [Function.comp]; split <;> rfl
    dsimp only
    rw [hsame]
    exact h.events
  · obtain ⟨row, hrow, hid, hterminal, hevent⟩ := h.sourced d hd
    exact ⟨row, hstay row hrow hterminal, hid, hterminal, hevent⟩
  · obtain ⟨hnodup, hlocked, hwaiting⟩ := hhold hpc
    refine ⟨hnodup, hlocked, fun row hrow => ?_⟩
    obtain ⟨hmem, hrest⟩ := hwaiting row hrow
    exact ⟨hstay row hmem hrest.2, hrest⟩
  · obtain ⟨old, hold, rfl⟩ := List.mem_map.1 hrow
    split
    · exact h.unmarked old hold
    · exact h.unmarked old hold
  · obtain ⟨old, hold, rfl⟩ := List.mem_map.1 hrow
    split
    · exact h.marked old hold
    · exact h.marked old hold

/-- The pipeline leaves the webhooks as they are, but for events it adds and the relay's marks on submissions. -/
theorem WebhooksInv.seen (h : WebhooksInv env w) (hp : PipelineInv (payments env) p) (hout : w.outbox = p.db.outbox)
    (hulids : w.ulids = p.ulids) (hw : Writes (payments env) p p') : WebhooksInv env (seen p' w) := by
  have hkept : Kept w.outbox p'.db.outbox := by
    rw [hout]
    exact kept_writes hw
  refine ⟨?_, h.reads.mono fun r run hread d hd => (hread d hd).mono hkept, fun post hpost => ?_⟩
  · cases hw with
    | same hout' hle =>
      have hlater := FanoutInv.later h.fanout p'.now (hulids.trans_le hle)
      unfold Service.seen
      rwa [hout', ← hout]
    | insert row n hid hle hlt hnew hout' =>
      -- the event is inserted as if announced at once, under the id drawn for it
      have hemit := (FanoutInv.later h.fanout w.now (hulids.trans_le hle)).step
        (.emit row.event row.aggregateId row.createdAt row hid hnew)
      have hlater := FanoutInv.later hemit p'.now (Nat.succ_le_of_lt hlt)
      unfold Service.seen
      rwa [hout', ← hout]
    | publish k poll hk hulids' hout' =>
      have hlater := FanoutInv.later h.fanout p'.now (Nat.le_of_eq (hulids.trans hulids'.symm))
      refine FanoutInv.published (poll.rows.map OutboxRow.id) p.now hlater ?_ fun row hrow hterminal hin => ?_
      · rw [hout', hout]
        rfl
      · -- a row of the poll is a submission
        obtain ⟨batched, hbatched, hid⟩ := List.mem_map.1 hin
        obtain ⟨other, hother, hid', hsame⟩ := (hp.jobs.polls hk).1 batched hbatched
        rw [show w.outbox = p.db.outbox from hout] at hrow
        cases hp.ids.unique hother hrow (hid'.trans hid)
        have hsubmitted := (hp.polls.batches hk).1 batched hbatched
        rw [← hsame] at hsubmitted
        rw [terminal?_of_submitted? hsubmitted] at hterminal
        cases hterminal
  · obtain ⟨d, endpoint, now, rfl, hd⟩ := h.posts post hpost
    exact ⟨d, endpoint, now, rfl, hd.mono hkept⟩

theorem webhooksInv_initial : WebhooksInv env Webhooks.State.initial :=
  ⟨fanoutInv_initial, all_empty, fun _ hpost => absurd hpost List.not_mem_nil⟩

end Webhooks

/-! ## The service -/

variable {env : Webhooks.Env} {s s' : State β} {a : Action κ}

/-- The halves agree on the clock, the ids and the outbox, and each is as it would be alone. -/
structure ServiceInv (env : Webhooks.Env) (s : State β) : Prop where
  ulids : s.webhooks.ulids = s.pipeline.ulids
  outbox : s.webhooks.outbox = s.pipeline.db.outbox
  pipeline : PipelineInv (payments env) s.pipeline
  webhooks : WebhooksInv env s.webhooks

theorem ServiceInv.step (h : ServiceInv env s) (hown : own a = true) (hs : step port env s a = some s') :
    ServiceInv env s' := by
  cases a with
  | payment a =>
    obtain ⟨p, hp, rfl⟩ := Option.map_eq_some_iff.1 hs
    have hrule := Pipeline.step_sound hp
    exact ⟨rfl, rfl, h.pipeline.step (by simpa [own] using hown) hrule,
      h.webhooks.seen h.pipeline h.outbox h.ulids (writes hrule)⟩
  | webhook a =>
    dsimp only [Service.step] at hs
    split at hs
    · rename_i hdelivers
      obtain ⟨w, hw, rfl⟩ := Option.map_eq_some_iff.1 hs
      have hrule := Webhooks.step_sound hw
      obtain ⟨hulids, -, hout⟩ := marks hrule hdelivers
      rw [h.outbox] at hout
      exact ⟨rfl, rfl, h.pipeline.marked hout (h.ulids.symm.trans_le hulids), h.webhooks.step hdelivers hrule⟩
    · cases hs

theorem serviceInv (h : Reach (system port env) (fun _ a => own a = true) s) : ServiceInv env s :=
  h.invariant (I := ServiceInv env) ⟨rfl, rfl, pipelineInv_initial _ _, webhooksInv_initial⟩
    fun _ _ _ _ hI hown hs => hI.step hown hs

/-! ## What is told -/

/-- The event of a payload. -/
def eventOf (payload : TerminalPayload) : OutboxEvent :=
  if payload.status = COMPLETED then .completed payload else .failed payload

/-- The request carries the payload of a terminal row, labelled by its status, under the id of the row. -/
def Tells (env : Webhooks.Env) (outbox : List OutboxRow) (post : Webhooks.Post) (payload : TerminalPayload) : Prop :=
  ∃ row ∈ outbox, row.terminal? = some payload ∧ post.webhookId = row.id ∧
    ∃ created, post.body = env.stringify ⟨row.id, eventOf payload, created⟩

/-- What a receiver takes in that skips the ids it has seen. -/
def taken : List String → List Webhooks.Post → List Webhooks.Post
  | _, [] => []
  | ids, post :: posts =>
    if post.webhookId ∈ ids then taken ids posts else post :: taken (post.webhookId :: ids) posts

/-- The payment has ended as the payload says. -/
def EndedAs (db : Db) (payload : TerminalPayload) : Prop :=
  ∃ p, db.payments payload.paymentId = some p ∧ p.status.terminal = true ∧ p.status = payload.status ∧
    p.amountCents = payload.amountCents ∧ p.currency = payload.currency

/-- Every request tells the end of a payment, all requests about a payment tell the same under one id, and of whatever
arrives, in any order and number, a receiver that skips known ids takes one request for each payment at most. -/
structure Faithful (env : Webhooks.Env) (s : State β) : Prop where
  told : ∀ post ∈ s.webhooks.posts, ∃ payload, Tells env s.pipeline.db.outbox post payload ∧ EndedAs s.pipeline.db payload
  alike : ∀ post post' payload payload', Tells env s.pipeline.db.outbox post payload →
    Tells env s.pipeline.db.outbox post' payload' →
      (payload.paymentId = payload'.paymentId ↔ post.webhookId = post'.webhookId) ∧
      (payload.paymentId = payload'.paymentId → payload = payload')
  once : ∀ arrived, (∀ post ∈ arrived, post ∈ s.webhooks.posts) → (taken [] arrived).Pairwise fun post post' =>
    ∀ payload payload', Tells env s.pipeline.db.outbox post payload → Tells env s.pipeline.db.outbox post' payload' →
      payload.paymentId ≠ payload'.paymentId

theorem mem_taken {post : Webhooks.Post} : ∀ {ids : List String} {posts : List Webhooks.Post}, post ∈ taken ids posts →
    post ∈ posts ∧ post.webhookId ∉ ids
  | _, [], h => by cases h
  | ids, first :: posts, h => by
    unfold taken at h
    split at h
    · obtain ⟨hmem, hnot⟩ := mem_taken h
      exact ⟨List.mem_cons_of_mem _ hmem, hnot⟩
    · rename_i hfirst
      rcases List.mem_cons.1 h with rfl | h
      · exact ⟨List.mem_cons_self, hfirst⟩
      · obtain ⟨hmem, hnot⟩ := mem_taken h
        exact ⟨List.mem_cons_of_mem _ hmem, fun hin => hnot (List.mem_cons_of_mem _ hin)⟩

theorem taken_pairwise : ∀ (ids : List String) (posts : List Webhooks.Post),
    (taken ids posts).Pairwise fun post post' => post.webhookId ≠ post'.webhookId
  | _, [] => .nil
  | ids, first :: posts => by
    unfold taken
    split
    · exact taken_pairwise ids posts
    · refine .cons (fun post hpost heq => ?_) (taken_pairwise _ posts)
      exact (mem_taken hpost).2 (by rw [← heq]; exact List.mem_cons_self)

theorem announcement_completed {st : PaymentStatus} : Account.announcement st = ["payment.completed"] ↔ st = COMPLETED := by
  cases st <;> decide

theorem announcement_failed {st : PaymentStatus} : Account.announcement st = ["payment.failed"] ↔ st = FAILED := by
  cases st <;> decide

/-- The event of a terminal row is the one of its payload. -/
theorem event_eq {outbox : List OutboxRow} {row : OutboxRow} {payload : TerminalPayload} (h : LabelInv outbox)
    (hrow : row ∈ outbox) (hpayload : row.terminal? = some payload) : row.event = eventOf payload := by
  have hlabel := h row hrow payload hpayload
  unfold OutboxRow.terminal? at hpayload
  unfold eventOf
  cases he : row.event with
  | submitted => rw [he] at hpayload; cases hpayload
  | completed payload' =>
    rw [he] at hpayload hlabel
    cases hpayload
    rw [if_pos (announcement_completed.1 hlabel)]
  | failed payload' =>
    rw [he] at hpayload hlabel
    cases hpayload
    rw [if_neg]
    rw [announcement_failed.1 hlabel]
    decide

/-- An announcement is made at the end it tells, and alone. -/
theorem announcement_ends {st st' : PaymentStatus} {type : String} (h : Account.announcement st' = [type])
    (hin : type ∈ Account.announcement st) : st.terminal = true ∧ st = st' ∧ (Account.announcement st).length = 1 := by
  cases st' with
  | COMPLETED | FAILED =>
    cases h
    cases st <;> first | exact ⟨rfl, rfl, rfl⟩ | exact absurd hin (by decide)
  | PENDING | PROCESSING | RETRYING => cases h

/-- A payment has one terminal row at most, and that tells how it ended. -/
theorem terminal_row {p : PaymentsProcessor.State β} {penv : PaymentsProcessor.Env} (h : PipelineInv penv p)
    {row : OutboxRow} {payload : TerminalPayload} (hrow : row ∈ p.db.outbox) (hpayload : row.terminal? = some payload) :
    p.db.terminalOf payload.paymentId = [row] ∧ EndedAs p.db payload := by
  obtain ⟨hpid, q, hq, hamount, hcurrency⟩ := (h.agree.outbox row hrow).2 payload hpayload
  rw [← hpid] at hq
  have hmem : row ∈ p.db.terminalOf payload.paymentId :=
    List.mem_filter.2 ⟨hrow, decide_eq_true ⟨hpid.symm, by rw [hpayload]; rfl⟩⟩
  obtain ⟨x, hx, hst, -⟩ := Pipeline.account_of_payment hq
  obtain ⟨q', hq', -, -, -, -, -, hann⟩ := Db.account_eq_some hx
  have hbooks := (h.ledger.wf hx).announced
  rw [hann] at hbooks
  -- the books of the account list the types of its terminal rows: one, and only at its end
  cases he : x.exhausted with
  | true =>
    rw [he, if_pos rfl, List.map_eq_nil_iff] at hbooks
    rw [hbooks] at hmem
    cases hmem
  | false =>
    rw [he, if_neg Bool.false_ne_true] at hbooks
    have hlabel := h.labels row hrow payload hpayload
    have hin : row.event.type ∈ Account.announcement x.status := hbooks ▸ List.mem_map_of_mem hmem
    obtain ⟨hfinal, hsame, hone⟩ := announcement_ends hlabel hin
    rw [← hbooks, List.length_map] at hone
    obtain ⟨other, hother⟩ := List.length_eq_one_iff.1 hone
    rw [hother] at hmem
    cases List.mem_singleton.1 hmem
    rw [hst] at hfinal hsame
    exact ⟨hother, q, hq, hfinal, hsame, hamount, hcurrency⟩

/-- In every run of the service, whatever its workers, relays, dispatchers, reapers and receivers do and wherever they
fail, receivers are told the payments' own ends, once each if they skip the ids they know. -/
theorem notifications_faithful (h : Reach (system port env) (fun _ a => own a = true) s) : Faithful env s := by
  have hI := serviceInv h
  have htells : ∀ {post payload}, Tells env s.pipeline.db.outbox post payload →
      ∃ row, s.pipeline.db.terminalOf payload.paymentId = [row] ∧ row.terminal? = some payload ∧ row ∈ s.pipeline.db.outbox ∧
        post.webhookId = row.id := by
    rintro post payload ⟨row, hrow, hpayload, hid, -⟩
    exact ⟨row, (terminal_row hI.pipeline hrow hpayload).1, hpayload, hrow, hid⟩
  have halike : ∀ post post' payload payload', Tells env s.pipeline.db.outbox post payload →
      Tells env s.pipeline.db.outbox post' payload' →
        (payload.paymentId = payload'.paymentId ↔ post.webhookId = post'.webhookId) ∧
        (payload.paymentId = payload'.paymentId → payload = payload') := by
    intro post post' payload payload' htell htell'
    obtain ⟨row, hone, hpayload, hrow, hid⟩ := htells htell
    obtain ⟨row', hone', hpayload', hrow', hid'⟩ := htells htell'
    have hsame : row = row' → payload = payload' := by
      rintro rfl
      exact Option.some.inj (hpayload.symm.trans hpayload')
    have heq : payload.paymentId = payload'.paymentId → row = row' := fun hpid => by
      rw [hpid, hone'] at hone
      exact (List.cons.inj hone).1.symm
    refine ⟨⟨fun hpid => by rw [hid, hid', heq hpid], fun hids => ?_⟩, fun hpid => hsame (heq hpid)⟩
    rw [hsame (hI.pipeline.ids.unique hrow hrow' (hid.symm.trans (hids.trans hid')))]
  refine ⟨fun post hpost => ?_, halike, fun arrived harrived => ?_⟩
  · obtain ⟨d, endpoint, now, rfl, row, hrow, hid, hterminal, hevent⟩ := hI.webhooks.posts post hpost
    rw [hI.outbox] at hrow
    obtain ⟨payload, hpayload⟩ := Option.isSome_iff_exists.1 hterminal
    refine ⟨payload, ⟨row, hrow, hpayload, hid.symm, now, ?_⟩, (terminal_row hI.pipeline hrow hpayload).2⟩
    rw [← event_eq hI.pipeline.labels hrow hpayload, hevent, hid]
    rfl
  · refine (taken_pairwise [] arrived).imp fun {post post'} hne payload payload' htell htell' hpid => ?_
    exact hne ((halike post post' payload payload' htell htell').1.1 hpid)

/-- A payment is completed and announced to one endpoint, which errs and is notified again. -/
def notifiedTwice : List (Action BankConfigPatch) :=
  [(Pipeline.accept Pipeline.order 0 "00" ++ Pipeline.claim 0 0 "00" ++ Pipeline.call 0 200 ++ Pipeline.settle 0).map .payment,
    [Webhooks.Action.insertEndpoint "https://shop.example/hook" "secret", .pollBegin 0, .pollSelect 0, .pollEndpoints 0,
      .pollCommit 0, .pollAdd 0 "00000000"].map .webhook,
    (Webhooks.send 0 "00000000").map .webhook,
    [Webhooks.Action.receive 0 (.response 500) 500, .write 0, .retryAdd 0, .finish 0].map .webhook,
    [.payment (.tick 1000)], (Webhooks.send 1 "00000000:retry:1").map .webhook].flatten

theorem notifications_faithful_redelivered : ∃ s, Reach (system SimulatedBankAdapter.port Webhooks.standard)
    (fun _ a => own a = true) s ∧ s.webhooks.posts.map Webhooks.Post.webhookId = ["000000", "000000"] ∧
    Faithful Webhooks.standard s := by
  obtain ⟨s, hs, hp⟩ := exists_reach_of_execIf (show (execIf (system SimulatedBankAdapter.port Webhooks.standard)
    (fun _ a => own a = true) (system SimulatedBankAdapter.port Webhooks.standard).init notifiedTwice).any
      (fun s => s.webhooks.posts.map Webhooks.Post.webhookId = ["000000", "000000"]) = true by decide +kernel)
  exact ⟨s, hs, of_decide_eq_true hp, notifications_faithful hs⟩

end PaymentsProcessor.Service
