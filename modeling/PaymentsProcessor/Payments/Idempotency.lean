/-
Idempotent submission: whatever the calls of `insert_txn` in progress and however they end, each pair of customer and
key has one payment with one row in every table, and every answer tells of it.
-/
import PaymentsProcessor.Payments.Customers

namespace PaymentsProcessor.Submissions

open Transition

variable {l : List (State × Action)} {s s' : State} {a : Action} {c : Nat} {x : Submission} {call : Call}

/-! ## Linearisation -/

/-- Call `c` has taken effect, and `c'` has not done so before. -/
def Precedes (answers : List Answer) (c c' : Nat) : Prop :=
  ∃ before after, answers = before ++ after ∧ (∃ a ∈ before, a.call = c) ∧ ∀ a ∈ before, a.call ≠ c'

/-- The answers are those of calls made one after the other, in an order that keeps a call that ended before another
started in front of it. -/
structure Linearised (l : List (State × Action)) (s : State) : Prop where
  sequential : Sequential s.answers s.db
  once : (s.answers.map Answer.call).Nodup
  made : ∀ a ∈ s.answers, ∃ pc, s.calls a.call = some ⟨a.x, pc⟩ ∧ pc.answered a.x a.result
  ended : ∀ c x result, s.calls c = some ⟨x, .ended result⟩ → ⟨c, x, result⟩ ∈ s.answers
  order : ∀ e ∈ l, ∀ c c' x result, e.1.calls c = some ⟨x, .ended result⟩ → e.1.calls c' = none →
    Precedes s.answers c c'

/-- No step takes an answer back. -/
theorem answers_prefix_step (hs : Step s a s') : s.answers <+: s'.answers := by
  cases hs with
  | commit c x hc => exact List.prefix_append _ _
  | read c x hc => exact List.prefix_append _ _
  | _ => exact List.prefix_rfl

theorem answers_prefix (h : Run system l s) : ∀ e ∈ l, e.1.answers <+: s.answers := by
  induction h with
  | init => exact fun e he => absurd he List.not_mem_nil
  | @step l s s' a hr hs ih =>
    have hlast := answers_prefix_step (step_sound hs)
    intro e he
    rcases List.mem_append.1 he with hold | hnew
    · exact (ih e hold).trans hlast
    · rw [List.mem_singleton.1 hnew]
      exact hlast

theorem run_inv (h : Run system l s) : SubmissionsInv s := submissionsInv (h.reach (C := Free) fun _ _ => trivial)

theorem linearised (h : Run system l s) : Linearised l s := by
  have hI := run_inv h
  refine ⟨hI.sequential, hI.once, hI.answers, fun c x result hc => (hI.calls hc).ended result rfl,
    fun e he c c' x result hc hc' => ?_⟩
  have hIe : SubmissionsInv e.1 := submissionsInv (h.reach_of_mem he).1
  obtain ⟨after, hafter⟩ := answers_prefix h e he
  refine ⟨e.1.answers, after, hafter.symm, ⟨_, (hIe.calls hc).ended result rfl, rfl⟩, ?_⟩
  rintro b hb rfl
  obtain ⟨pc, hcall, -⟩ := hIe.answers b hb
  rw [hc'] at hcall
  cases hcall

/-! ## The rows -/

/-- The tables hold one row each for every one of the submissions, and no others. -/
structure OneToOne (db : Db) (xs : List Submission) : Prop where
  ids : (xs.map Submission.id).Nodup
  payments : ∀ id p, db.payments id = some p ↔ ∃ x ∈ xs, x.payment = p ∧ x.id = id
  events : db.paymentEvents = xs.map Submission.event
  keys : db.idempotencyKeys = xs.map Submission.keyEntry
  outbox : db.outbox = xs.map Submission.outboxRow

theorem oneToOne (hI : SubmissionsInv s) : OneToOne s.db (committedOf s.answers) where
  ids := hI.history.ids
  payments := hI.history.payments
  events := hI.history.events
  keys := hI.history.keys
  outbox := hI.history.outbox

theorem keys_nodup (hI : SubmissionsInv s) :
    (s.db.idempotencyKeys.map fun k => (k.customerId, k.idempotencyKey)).Nodup := by
  rw [hI.history.keys, List.map_map]
  exact hI.history.pairs

/-- The tables hold nothing under the id. -/
structure NoRows (db : Db) (id : String) : Prop where
  payment : db.payments id = none
  events : ∀ e ∈ db.paymentEvents, e.paymentId ≠ id
  keys : ∀ k ∈ db.idempotencyKeys, k.paymentId ≠ id
  outbox : ∀ row ∈ db.outbox, row.aggregateId ≠ id

/-- A call that has not committed leaves no row. -/
theorem noRows_of_uncommitted (hI : SubmissionsInv s) (hc : s.calls c = some call)
    (hnot : ∀ b ∈ s.answers, b.call = c → b.committed = false) : NoRows s.db call.x.id := by
  have hids : ∀ y ∈ committedOf s.answers, y.id ≠ call.x.id := by
    intro y hy heq
    obtain ⟨b, hb, rfl⟩ := List.mem_map.1 hy
    obtain ⟨hmem, hcommitted⟩ := List.mem_filter.1 hb
    obtain ⟨pc, hcall, -⟩ := hI.answers b hmem
    rw [hnot b hmem (hI.distinct _ _ _ _ hcall hc heq)] at hcommitted
    cases hcommitted
  have hrows : ∀ {α : Type} (f : Submission → α) (g : α → String), (∀ y, g (f y) = y.id) →
      ∀ r ∈ (committedOf s.answers).map f, g r ≠ call.x.id := by
    intro α f g hg r hr
    obtain ⟨y, hy, rfl⟩ := List.mem_map.1 hr
    rw [hg]
    exact hids y hy
  have hone := oneToOne hI
  refine ⟨hI.history.payments_eq_none hids, ?_, ?_, ?_⟩
  · rw [hone.events]
    exact hrows _ _ fun _ => rfl
  · rw [hone.keys]
    exact hrows _ _ fun _ => rfl
  · rw [hone.outbox]
    exact hrows _ _ fun _ => rfl

/-- The call threw. -/
def CallPc.thrown : CallPc → Bool
  | .threw _ | .ended (.conflict _) | .ended (.failed _) => true
  | _ => false

theorem noRows_of_thrown (hI : SubmissionsInv s) (hc : s.calls c = some call) (hpc : call.pc.thrown = true) :
    NoRows s.db call.x.id := by
  refine noRows_of_uncommitted hI hc fun b hb hbc => ?_
  obtain ⟨pc, hcall, hanswered⟩ := hI.answers b hb
  rw [hbc, hc] at hcall
  cases hcall
  unfold Answer.committed
  cases pc with
  | threw message => exact hanswered.elim
  | ended result =>
    rw [← show result = b.result from hanswered]
    cases result with
    | returned replayed status body => cases hpc
    | conflict message => rfl
    | failed message => rfl
  | _ => cases hpc

/-! ## The answers -/

/-- The answer `b` is that of the one call that committed the pair. -/
structure Owns (answers : List Answer) (p : String × String) (b : Answer) : Prop where
  mem : b ∈ answers
  committed : b.committed = true
  pair : b.x.pair = p
  only : ∀ b' ∈ answers, b'.committed = true → b'.x.pair = p → b' = b

theorem committed_inj (hI : SubmissionsInv s) {b b' : Answer} (hb : b ∈ s.answers) (hb' : b' ∈ s.answers)
    (hcommitted : b.committed = true) (hcommitted' : b'.committed = true) (hpair : b'.x.pair = b.x.pair) : b' = b := by
  have hx : b'.x = b.x := List.inj_on_of_nodup_map hI.history.pairs
    (List.mem_map_of_mem (List.mem_filter.2 ⟨hb', hcommitted'⟩))
    (List.mem_map_of_mem (List.mem_filter.2 ⟨hb, hcommitted⟩)) hpair
  obtain ⟨pc, hcall, -⟩ := hI.answers b hb
  obtain ⟨pc', hcall', -⟩ := hI.answers b' hb'
  exact List.inj_on_of_nodup_map hI.once hb' hb (hI.distinct _ _ _ _ hcall' hcall (congrArg Submission.id hx))

/-- The key found for a pair is that of the call that committed it. -/
theorem findKey_of_owns (hI : SubmissionsInv s) {b : Answer} {customerId key : String}
    (hb : Owns s.answers (customerId, key) b) : s.db.findKey customerId key = some b.x.keyEntry := by
  have hmem : b.x ∈ committedOf s.answers := List.mem_map_of_mem (List.mem_filter.2 ⟨hb.mem, hb.committed⟩)
  cases hk : s.db.findKey customerId key with
  | none => exact absurd hb.pair (hI.history.findKey_eq_none hk _ hmem)
  | some k =>
    obtain ⟨y, hy, hpair, rfl⟩ := hI.history.findKey_eq_some hk
    rw [List.inj_on_of_nodup_map hI.history.pairs hy hmem (hpair.trans hb.pair.symm)]

theorem owns_of_committed (hI : SubmissionsInv s) {y : Submission} (hy : y ∈ committedOf s.answers) :
    ∃ b, b.x = y ∧ Owns s.answers y.pair b := by
  obtain ⟨b, hb, rfl⟩ := List.mem_map.1 hy
  obtain ⟨hmem, hcommitted⟩ := List.mem_filter.1 hb
  exact ⟨b, rfl, hmem, hcommitted, rfl, fun b' hb' hcommitted' => committed_inj hI hmem hb' hcommitted hcommitted'⟩

/-- A call that returns yields what is stored for the call that committed its pair, and says whether it is that one. -/
theorem returned (hI : SubmissionsInv s) {replayed : Bool} {status : Nat} {body : Payment}
    (hc : s.calls c = some ⟨x, .ended (.returned replayed status body)⟩) :
    ∃ b k, Owns s.answers x.pair b ∧ s.db.findKey x.dto.customerId x.key = some k ∧ status = k.responseStatus ∧
      body = k.responseBody ∧ (replayed = true ↔ b.call ≠ c) := by
  have hmem : ⟨c, x, .returned replayed status body⟩ ∈ s.answers := (hI.calls hc).ended _ rfl
  cases hI.history.answered _ hmem with
  | committed hresult =>
    dsimp only at hresult
    cases hresult
    have hown : Owns s.answers x.pair ⟨c, x, .returned false 202 x.payment⟩ :=
      ⟨hmem, rfl, rfl, fun b' hb' hcommitted' => committed_inj hI hmem hb' rfl hcommitted'⟩
    exact ⟨_, _, hown, findKey_of_owns hI hown, rfl, rfl, by simp⟩
  | conflict y hy hpair hhash hresult => cases hresult
  | replayed y hy hpair hhash hresult =>
    dsimp only at hresult
    cases hresult
    obtain ⟨b, rfl, hown⟩ := owns_of_committed hI hy
    rw [show b.x.pair = x.pair from hpair] at hown
    refine ⟨b, _, hown, findKey_of_owns hI hown, rfl, rfl, ?_⟩
    constructor
    · rintro - hbc
      have hcommitted := hown.committed
      rw [List.inj_on_of_nodup_map hI.once hown.mem hmem hbc] at hcommitted
      cases hcommitted
    · exact fun _ => rfl

/-- A call that ends, of a pair taken with another hash, ends in the conflict. -/
theorem conflicted (hI : SubmissionsInv s) {result : InsertResult} {k : IdempotencyKey}
    (hc : s.calls c = some ⟨x, .ended result⟩) (hk : s.db.findKey x.dto.customerId x.key = some k)
    (hhash : k.requestHash ≠ x.hash) : result = reusedKey := by
  have hmem : ⟨c, x, result⟩ ∈ s.answers := (hI.calls hc).ended _ rfl
  obtain ⟨z, hz, hzpair, rfl⟩ := hI.history.findKey_eq_some hk
  have hsame : ∀ y ∈ committedOf s.answers, y.pair = x.pair → y = z := fun y hy hpair =>
    List.inj_on_of_nodup_map hI.history.pairs hy hz (hpair.trans hzpair.symm)
  cases hI.history.answered _ hmem with
  | committed hresult =>
    have hown : x ∈ committedOf s.answers := by
      refine List.mem_map.2 ⟨⟨c, x, result⟩, List.mem_filter.2 ⟨hmem, ?_⟩, rfl⟩
      rw [show result = .returned false 202 x.payment from hresult]
      rfl
    rw [hsame x hown rfl] at hhash
    exact absurd rfl hhash
  | conflict y hy hpair hhash' hresult => exact hresult
  | replayed y hy hpair hhash' hresult =>
    rw [← hsame y hy hpair] at hhash
    exact absurd hhash' hhash

/-! ## The whole -/

/-- In every run the calls are linearised; each pair has at most one key; the four tables hold one row each for every
committed call; a call that returns yields what the committed call of its pair stored, as a replay exactly when it is
another; a call with another hash than that of its taken pair ends in the conflict; a call that throws leaves no row;
and each customer's calls are as in the run of these calls alone. -/
theorem idempotent_submission (h : Run system l s) :
    Linearised l s ∧ (s.db.idempotencyKeys.map fun k => (k.customerId, k.idempotencyKey)).Nodup ∧
    OneToOne s.db (committedOf s.answers) ∧
    (∀ c x replayed status body, s.calls c = some ⟨x, .ended (.returned replayed status body)⟩ →
      ∃ b k, Owns s.answers x.pair b ∧ s.db.findKey x.dto.customerId x.key = some k ∧ status = k.responseStatus ∧
        body = k.responseBody ∧ (replayed = true ↔ b.call ≠ c)) ∧
    (∀ c x result k, s.calls c = some ⟨x, .ended result⟩ → s.db.findKey x.dto.customerId x.key = some k →
      k.requestHash ≠ x.hash → result = reusedKey) ∧
    (∀ c call, s.calls c = some call → call.pc.thrown = true → NoRows s.db call.x.id) ∧
    ∀ u, ∃ l' t, Run system l' t ∧ l'.map Prod.snd = (l.filter (concerns u)).map Prod.snd ∧ Seen u s t := by
  have hI := run_inv h
  exact ⟨linearised h, keys_nodup hI, oneToOne hI, fun _ _ _ _ _ hc => returned hI hc,
    fun _ _ _ _ hc hk hhash => conflicted hI hc hk hhash, fun _ _ hc hpc => noRows_of_thrown hI hc hpc,
    seen_run h⟩

/-- Three calls of one customer under one key, the second with the hash of the first and the third with another; a
fourth call is another customer's. -/
def racing : List Action :=
  let dto : CreatePaymentDto :=
    { customerId := "anna", sourceAccount := "from", destinationAccount := "to", amount := "12.50" }
  [.start 0 dto "key" "hash" "corr0" "00" "01", .start 1 dto "key" "hash" "corr1" "10" "11",
    .start 2 dto "key" "other" "corr2" "20" "21", .start 3 { dto with customerId := "bert" } "key" "other" "corr3" "30" "31",
    .begin_ 1, .insertPayment 1, .insertEvent 1 "12", .begin_ 0, .insertPayment 0, .insertEvent 0 "02", .insertKey 0,
    .begin_ 3, .insertPayment 3, .insertEvent 3 "32", .insertKey 3, .insertOutbox 3, .commit 3, .answer 3,
    .insertOutbox 0, .commit 0, .insertKey 1, .begin_ 2, .insertPayment 2, .insertEvent 2 "22", .insertKey 2, .read 1,
    .read 2, .answer 0]

/-- The call returned the payment of the id as a replay. -/
def CallPc.replays (id : String) : CallPc → Bool
  | .ended (.returned replayed _ body) => replayed && body.id = id
  | _ => false

theorem idempotent_submission_racing : ∃ l s, Run system l s ∧
    (s.calls 1).any (fun call => call.pc.replays "00") = true ∧
    (s.calls 2).any (fun call => call.pc = .ended reusedKey) = true ∧ s.db.idempotencyKeys.length = 2 ∧
    OneToOne s.db (committedOf s.answers) := by
  obtain ⟨l, s, hrun, hp⟩ := exists_run_of_exec (show (exec system system.init racing).any
    (fun s => (s.calls 1).any (fun call => call.pc.replays "00") &&
      (s.calls 2).any (fun call => call.pc = .ended reusedKey) && s.db.idempotencyKeys.length = 2) = true by
        decide +kernel)
  simp only [Bool.and_eq_true, decide_eq_true_eq] at hp
  exact ⟨l, s, hrun, hp.1.1, hp.1.2, hp.2, (idempotent_submission hrun).2.2.1⟩

end PaymentsProcessor.Submissions
