/-
The pipeline beside others. The webhooks mark rows of the outbox as dispatched and draw ids from the same source; the
pipeline reads no such mark, and an id it has not drawn is nothing to it. So its steps are those of a pipeline that is
alone, without the marks and with the ids counted without those of the others.
-/
import PaymentsProcessor.Base.Renumbering
import PaymentsProcessor.Pipeline.Step

namespace PaymentsProcessor.Pipeline

open Transition PartialMap PaymentStatus Worker Relay Reaper

variable {β κ : Type} {port : BankPort β κ} {cfg : Config} {u v : UlidSource} {m : ℕ} {p p' : State β} {row : OutboxRow}
  {db : Db}

/-! ## The tables without the marks -/

/-- A row without the mark of the dispatchers. -/
def unmark (row : OutboxRow) : OutboxRow := { row with webhookDispatchedAt := none }

@[simp] theorem unmark_id : (unmark row).id = row.id := rfl
@[simp] theorem unmark_submitted? : (unmark row).submitted? = row.submitted? := rfl

def unmarkDb (db : Db) : Db := { db with outbox := db.outbox.map unmark }

@[simp] theorem unmarkDb_payments : (unmarkDb db).payments = db.payments := rfl
@[simp] theorem unmarkDb_findKey (customerId key : String) : (unmarkDb db).findKey customerId key = db.findKey customerId key :=
  rfl

theorem insertOutbox_unmarkDb (db : Db) (hrow : unmark row = row) :
    (unmarkDb db).insertOutbox row = unmarkDb (db.insertOutbox row) := by
  simp [unmarkDb, Db.insertOutbox, hrow]

theorem markPublished_unmarkDb (ids : List String) (now : ℕ) :
    (unmarkDb db).markPublished ids now = unmarkDb (db.markPublished ids now) := by
  unfold unmarkDb Db.markPublished
  simp only [List.map_map]
  congr 1
  refine List.map_congr_left fun row _ => ?_
  by_cases hid : row.id ∈ ids <;> simp [unmark, hid]

theorem updateWhere_unmarkDb (pid : String) (st : PaymentStatus) (f : Payment → Payment) :
    (unmarkDb db).updateWhere pid st f = (db.updateWhere pid st f).map (Prod.map id unmarkDb) := by
  unfold Db.updateWhere
  rw [unmarkDb_payments]
  cases db.payments pid with
  | none => rfl
  | some p =>
    dsimp only
    split <;> rfl

theorem store_unmarkDb (x : Submission) (p : Payment) : x.store p (unmarkDb db) = unmarkDb (x.store p db) :=
  insertOutbox_unmarkDb (((db.insertPayment p).insertEvents [submittedEvent p x.eventId x.correlationId
    x.began]).insertIdempotencyKey (keyRow x.dto p x.key x.hash x.began)) rfl

/-- A submission that draws the same ids. -/
theorem insertTxn_unmarkDb {n : ℕ} (hu : ∀ k, v.ulid (m + k) = u.ulid (n + k)) (now : ℕ) (dto : CreatePaymentDto)
    (key hash correlationId : String) : insertTxn v now m dto key hash correlationId (unmarkDb db) =
      Prod.map id unmarkDb (insertTxn u now n dto key hash correlationId db) := by
  have hfirst : v.ulid m = u.ulid n := hu 0
  unfold insertTxn Submission.insertTxn
  simp only [hfirst, hu 1, hu 2, unmarkDb_payments, unmarkDb_findKey]
  cases convAmountToUnits dto.amount with
  | error message => rfl
  | ok amountCents =>
    dsimp only
    split
    · rfl
    · exact congrArg (Prod.mk _) (store_unmarkDb _ _)

/-! ## The pipeline alone -/

def unmarkPoll (poll : Poll) : Poll := { poll with rows := poll.rows.map unmark }

/-- The pipeline as it would be alone, with `m` ids drawn. -/
def solo (m : ℕ) (p : State β) : State β :=
  { p with
    ulids := m
    db := unmarkDb p.db
    polls := Option.map unmarkPoll ∘ p.polls }

@[simp] theorem solo_now : (solo m p).now = p.now := rfl
@[simp] theorem solo_ulids : (solo m p).ulids = m := rfl
@[simp] theorem solo_db : (solo m p).db = unmarkDb p.db := rfl
@[simp] theorem solo_queue : (solo m p).queue = p.queue := rfl
@[simp] theorem solo_bank : (solo m p).bank = p.bank := rfl
@[simp] theorem solo_breakers : (solo m p).breakers = p.breakers := rfl
@[simp] theorem solo_runs : (solo m p).runs = p.runs := rfl
@[simp] theorem solo_calls : (solo m p).calls = p.calls := rfl
@[simp] theorem solo_reaps : (solo m p).reaps = p.reaps := rfl
@[simp] theorem solo_rowLocks : (solo m p).rowLocks = p.rowLocks := rfl
@[simp] theorem solo_outboxLocks : (solo m p).outboxLocks = p.outboxLocks := rfl
@[simp] theorem solo_polls : (solo m p).polls = Option.map unmarkPoll ∘ p.polls := rfl

/-- What a step from `p` has led to, alone. -/
def soloAfter (m : ℕ) (p p' : State β) : State β := solo (m + (p'.ulids - p.ulids)) p'

/-- A step that draws `d` ids. -/
theorem some_solo {q : State β} {d : ℕ} (h : p'.ulids = p.ulids + d) (hq : q = solo (m + d) p') :
    some q = (some p').map (soloAfter m p) := by
  rw [hq, Option.map_some, soloAfter, h, Nat.add_sub_cancel_left]

/-- A step that draws none. -/
theorem some_solo_same {q : State β} (h : p'.ulids = p.ulids) (hq : q = solo m p') :
    some q = (some p').map (soloAfter m p) := some_solo (d := 0) h hq

theorem ite_solo {c : Prop} [Decidable c] {x y x' y' : Option (State β)} (hx : x = x'.map (soloAfter m p))
    (hy : y = y'.map (soloAfter m p)) : (if c then x else y) = (if c then x' else y').map (soloAfter m p) := by
  split
  · exact hx
  · exact hy

/-! ## Statements -/

theorem unpublished_solo : unpublished (solo m p) = (unpublished p).map unmark := by
  unfold unpublished
  rw [List.map_take, List.map_insertionSort (fun a b : OutboxRow => a.createdAt ≤ b.createdAt)
    (fun a b : OutboxRow => a.createdAt ≤ b.createdAt) unmark _ fun _ _ _ _ => Iff.rfl]
  congr 2
  exact List.filter_map

theorem find?_unmark (rows : List OutboxRow) (id : String) :
    (rows.map unmark).find? (fun row => row.id = id) = (rows.find? fun row => row.id = id).map unmark := by
  rw [List.find?_map]
  rfl

theorem stuckRow_solo (clock : ℕ) : stuckRow ⟨cfg, v⟩ clock (solo m p) = stuckRow ⟨cfg, u⟩ clock p := rfl

theorem reapEvents_solo (hu : ∀ k, v.ulid (m + k) = u.ulid (p.ulids + k)) (began : ℕ) (pids : List String) :
    reapEvents ⟨cfg, v⟩ began m pids = reapEvents ⟨cfg, u⟩ began p.ulids pids := by
  have hfrom : ∀ (pids : List String) (d : ℕ),
      reapEvents ⟨cfg, v⟩ began (m + d) pids = reapEvents ⟨cfg, u⟩ began (p.ulids + d) pids := by
    intro pids
    induction pids with
    | nil => exact fun _ => rfl
    | cons pid pids ih =>
      intro d
      unfold reapEvents
      rw [Nat.add_assoc m, Nat.add_assoc p.ulids, ih (d + 1), hu d]
  exact hfrom pids 0

/-! ## Steps -/

/-- The steps that draw no id and leave the outbox alone. -/
def apart : Action κ → Bool
  | .submit _ _ _ _ | .pollSelect _ | .pollAdd _ _ | .pollCommit _ | .pollAbort _ | .claimUpdate _ | .retryUpdate _
  | .finalUpdate _ | .reapUpdate _ => false
  | _ => true

theorem step_solo_of_apart {a : Action κ} (ha : apart a = true) :
    step port ⟨cfg, v⟩ (solo m p) a = (step port ⟨cfg, u⟩ p a).map (soloAfter m p) := by
  cases a with
  | tick | inject | setConfig | crash | reapEnd => exact some_solo_same rfl rfl
  | claimBegin r | claimSelect r | settleBegin r | timeout r | fail r | finish r | authorize r | retryAdd r =>
    simp only [step, claimBegin, claimSelect, settleBegin, timeout, fail, finish, Worker.authorize, retryAdd, solo_runs,
      solo_db, unmarkDb_payments]
    cases p.runs r with
    | none => rfl
    | some run =>
      dsimp only
      cases run.pc with
      | claimBegun began =>
        cases p.db.payments run.data.paymentId with
        | none => first | rfl | exact some_solo_same rfl rfl
        | some q =>
          first
            | rfl
            | exact ite_solo (some_solo_same rfl rfl) rfl
            | exact ite_solo (some_solo_same rfl rfl) (some_solo_same rfl rfl)
      | retryAdd attempt =>
        first
          | rfl
          | exact ite_solo (some_solo_same rfl rfl) rfl
          | exact ite_solo (some_solo_same rfl rfl) (ite_solo (some_solo_same rfl rfl) rfl)
      | _ =>
        first
          | rfl
          | exact some_solo_same rfl rfl
          | exact ite_solo (some_solo_same rfl rfl) rfl
          | exact ite_solo (some_solo_same rfl rfl) (some_solo_same rfl rfl)
  | readClock r =>
    simp only [step, readClock, solo_runs]
    cases p.runs r with
    | none => rfl
    | some run =>
      dsimp only
      split <;> first | rfl | exact some_solo_same rfl rfl
  | receive r =>
    simp only [step, receive, solo_runs, solo_calls]
    cases p.runs r with
    | none => rfl
    | some run =>
      cases p.calls r with
      | none => rfl
      | some call =>
        dsimp only
        split <;> first | rfl | exact some_solo_same rfl rfl
  | answer r =>
    simp only [step, answer, solo_calls]
    cases p.calls r with
    | none => rfl
    | some call => exact ite_solo (some_solo_same rfl rfl) rfl
  | dequeue r w jobId =>
    simp only [step, dequeue, solo_runs, solo_queue]
    cases p.runs r with
    | some run => rfl
    | none =>
      cases p.queue jobId with
      | none => rfl
      | some job => exact ite_solo (some_solo_same rfl rfl) rfl
  | stall jobId =>
    simp only [step, stall, solo_queue]
    cases p.queue jobId with
    | none => rfl
    | some job =>
      dsimp only
      cases job.state <;> first | rfl | exact some_solo_same rfl rfl
  | reapBegin k | reapStamp k =>
    simp only [step, reapBegin, reapStamp, solo_reaps]
    cases p.reaps k with
    | none => first | rfl | exact some_solo_same rfl rfl
    | some reap => cases reap <;> first | rfl | exact some_solo_same rfl rfl
  | reapClock k =>
    simp only [step, reapClock, solo_reaps]
    cases p.reaps k with
    | none => rfl
    | some reap =>
      split <;> first | rfl | exact some_solo_same rfl rfl
  | reapSelect k pids =>
    simp only [step, reapSelect, solo_reaps, stuckRow_solo (u := u)]
    cases p.reaps k with
    | none => rfl
    | some reap =>
      cases reap with
      | begun began clock =>
        cases clock with
        | none => rfl
        | some clock =>
          refine ite_solo ?_ rfl
          cases pids.mapM (stuckRow ⟨cfg, u⟩ clock p) <;> first | rfl | exact some_solo_same rfl rfl
      | _ => rfl
  | reapAdd k pid =>
    simp only [step, reapAdd, solo_reaps]
    cases p.reaps k with
    | none => rfl
    | some reap =>
      cases reap with
      | adding stamp stuck =>
        dsimp only
        cases stuck.find? fun row => row.id = pid <;> first | rfl | exact some_solo_same rfl rfl
      | _ => rfl
  | _ => cases ha

/-! ## The relay -/

/-- A poll is set, and rows are locked for it. -/
theorem solo_polled (k : ℕ) (poll : Option Poll) (locks : String → Option ℕ) :
    solo m { p with polls := Function.update p.polls k poll, outboxLocks := locks } =
      { solo m p with
        polls := Function.update (solo m p).polls k (poll.map unmarkPoll), outboxLocks := locks } := by
  unfold solo
  rw [Function.comp_update]

theorem ids_unmarkDb (rows : List OutboxRow) : (rows.map unmark).map OutboxRow.id = rows.map OutboxRow.id := by
  rw [List.map_map]
  rfl

theorem pollSelect_solo (k : ℕ) : pollSelect k (solo m p) = (pollSelect k p).map (soloAfter m p) := by
  unfold pollSelect
  rw [unpublished_solo]
  simp only [solo_polls, Function.comp_apply]
  cases p.polls k with
  | some poll => rfl
  | none =>
    refine some_solo_same rfl ?_
    rw [solo_polled, ids_unmarkDb]
    rfl

theorem pollAdd_solo (k : ℕ) (id : String) : pollAdd k id (solo m p) = (pollAdd k id p).map (soloAfter m p) := by
  unfold pollAdd
  simp only [solo_polls, Function.comp_apply]
  cases p.polls k with
  | none => rfl
  | some poll =>
    simp only [Option.map_some, unmarkPoll, find?_unmark]
    cases poll.rows.find? fun row => row.id = id with
    | none => rfl
    | some row =>
      simp only [Option.map_some, unmark_submitted?]
      cases row.submitted? with
      | none => rfl
      | some data =>
        refine ite_solo rfl (some_solo_same rfl ?_)
        unfold solo
        rw [Function.comp_update]
        rfl

theorem pollCommit_solo (k : ℕ) : pollCommit k (solo m p) = (pollCommit k p).map (soloAfter m p) := by
  unfold pollCommit
  simp only [solo_polls, Function.comp_apply]
  cases p.polls k with
  | none => rfl
  | some poll =>
    have hadded : (∀ row ∈ (unmarkPoll poll).rows, row.id ∈ (unmarkPoll poll).added) ↔ ∀ row ∈ poll.rows, row.id ∈ poll.added :=
      List.forall_mem_map
    simp only [Option.map_some, hadded]
    refine ite_solo (some_solo_same rfl ?_) rfl
    unfold solo
    rw [Function.comp_update]
    simp only [unmarkPoll, ids_unmarkDb, markPublished_unmarkDb]
    rfl

theorem pollAbort_solo (k : ℕ) : pollAbort k (solo m p) = (pollAbort k p).map (soloAfter m p) := by
  unfold pollAbort
  simp only [solo_polls, Function.comp_apply]
  cases p.polls k with
  | none => rfl
  | some poll =>
    refine ite_solo (some_solo_same rfl ?_) rfl
    rw [solo_polled]
    rfl

/-! ## The steps that draw ids -/

section Drawing

variable (hu : ∀ k, v.ulid (m + k) = u.ulid (p.ulids + k))
include hu

theorem submit_solo (dto : CreatePaymentDto) (key hash correlationId : String) :
    submit ⟨cfg, v⟩ dto key hash correlationId (solo m p) =
      (submit ⟨cfg, u⟩ dto key hash correlationId p).map (soloAfter m p) := by
  unfold submit
  refine ite_solo (some_solo (d := 3) rfl ?_) rfl
  simp only [solo_now, solo_ulids, solo_db, insertTxn_unmarkDb hu]
  rfl

theorem claimUpdate_solo (r : ℕ) :
    claimUpdate ⟨cfg, v⟩ r (solo m p) = (claimUpdate ⟨cfg, u⟩ r p).map (soloAfter m p) := by
  have hfirst : v.ulid m = u.ulid p.ulids := hu 0
  unfold claimUpdate
  simp only [solo_runs, solo_db, solo_now, solo_ulids, updateWhere_unmarkDb, hfirst]
  cases p.runs r with
  | none => rfl
  | some run =>
    dsimp only
    cases run.pc with
    | claimRead began status clock =>
      cases clock with
      | none => rfl
      | some clock =>
        dsimp only
        cases p.db.updateWhere run.data.paymentId status (claimSet clock) with
        | none => exact some_solo_same rfl rfl
        | some x => exact ite_solo rfl (some_solo (d := 1) rfl rfl)
    | _ => rfl

theorem retryUpdate_solo (r : ℕ) :
    retryUpdate ⟨cfg, v⟩ r (solo m p) = (retryUpdate ⟨cfg, u⟩ r p).map (soloAfter m p) := by
  have hfirst : v.ulid m = u.ulid p.ulids := hu 0
  unfold retryUpdate
  simp only [solo_runs, solo_db, solo_now, solo_ulids, updateWhere_unmarkDb, hfirst]
  cases p.runs r with
  | none => rfl
  | some run =>
    dsimp only
    cases run.pc with
    | settleBegun began dis clock =>
      cases clock with
      | none => cases dis <;> rfl
      | some clock =>
        cases dis with
        | retry reason =>
          refine ite_solo (some_solo_same rfl rfl) ?_
          cases p.db.updateWhere run.data.paymentId PROCESSING (retrySet cfg clock reason) with
          | none => exact some_solo_same rfl rfl
          | some x => exact ite_solo rfl (ite_solo (some_solo (d := 1) rfl rfl) (some_solo (d := 1) rfl rfl))
        | _ => rfl
    | _ => rfl

theorem finalUpdate_solo (r : ℕ) :
    finalUpdate ⟨cfg, v⟩ r (solo m p) = (finalUpdate ⟨cfg, u⟩ r p).map (soloAfter m p) := by
  have hfirst : v.ulid m = u.ulid p.ulids := hu 0
  unfold finalUpdate
  simp only [solo_runs, solo_db, solo_now, solo_ulids, updateWhere_unmarkDb, hfirst, hu 1]
  cases p.runs r with
  | none => rfl
  | some run =>
    dsimp only
    cases run.pc with
    | settleBegun began dis clock =>
      cases clock with
      | none => rfl
      | some clock =>
        dsimp only
        cases dis.target with
        | none => rfl
        | some target =>
          dsimp only
          cases p.db.updateWhere run.data.paymentId PROCESSING (settleSet clock target) with
          | none => exact some_solo_same rfl rfl
          | some x =>
            refine ite_solo rfl (some_solo (d := 2) rfl ?_)
            dsimp only [Prod.map, id]
            unfold solo
            rw [← insertOutbox_unmarkDb _ rfl]
            rfl
    | _ => rfl

theorem reapUpdate_solo (k : ℕ) :
    reapUpdate ⟨cfg, v⟩ k (solo m p) = (reapUpdate ⟨cfg, u⟩ k p).map (soloAfter m p) := by
  unfold reapUpdate
  simp only [solo_reaps, solo_db, solo_now, solo_ulids, reapEvents_solo hu]
  cases p.reaps k with
  | none => rfl
  | some reap =>
    cases reap with
    | selected began time stuck clock =>
      cases clock with
      | none => rfl
      | some clock => exact some_solo rfl rfl
    | _ => rfl

/-- Beside others the pipeline makes the steps it makes alone. -/
theorem step_solo (a : Action κ) : step port ⟨cfg, v⟩ (solo m p) a = (step port ⟨cfg, u⟩ p a).map (soloAfter m p) := by
  cases a with
  | submit => exact submit_solo hu ..
  | pollSelect => exact pollSelect_solo ..
  | pollAdd => exact pollAdd_solo ..
  | pollCommit => exact pollCommit_solo ..
  | pollAbort => exact pollAbort_solo ..
  | claimUpdate => exact claimUpdate_solo hu ..
  | retryUpdate => exact retryUpdate_solo hu ..
  | finalUpdate => exact finalUpdate_solo hu ..
  | reapUpdate => exact reapUpdate_solo hu ..
  | _ => exact step_solo_of_apart rfl

end Drawing

/-! ## The ids that are drawn -/

theorem step_ulids {env : Env} {a : Action κ} (hs : Step port env p a p') : p.ulids ≤ p'.ulids := by
  cases hs with
  | rejected | accepted => exact Nat.le_add_right _ 3
  | claim | exhaust | retry | final => exact Nat.le_add_right _ _
  | reapUpdate => exact Nat.le_add_right _ _
  | _ => exact Nat.le_refl _

/-- The sources agree on the names drawn between two states. -/
def Agree (u v : UlidSource) (p p' : State β) : Prop := ∀ i, p.ulids ≤ i → i < p'.ulids → u.ulid i = v.ulid i

theorem Agree.first {d : ℕ} (h : Agree u v p p') (hd : p'.ulids = p.ulids + (d + 1)) : u.ulid p.ulids = v.ulid p.ulids :=
  h _ (Nat.le_refl _) (by omega)

theorem submit_reads {dto : CreatePaymentDto} {key hash correlationId : String}
    (h : submit ⟨cfg, u⟩ dto key hash correlationId p = some p') (hnames : Agree u v p p') :
    submit ⟨cfg, v⟩ dto key hash correlationId p = some p' := by
  unfold submit at h ⊢
  split at h
  · rename_i hvalid
    cases h
    have hname : ∀ k < 3, u.ulid (p.ulids + k) = v.ulid (p.ulids + k) := fun k hk =>
      hnames _ (Nat.le_add_right _ _) (Nat.add_lt_add_left hk _)
    have hsame : insertTxn v p.now p.ulids dto key hash correlationId p.db =
        insertTxn u p.now p.ulids dto key hash correlationId p.db := by
      unfold insertTxn
      rw [show v.ulid p.ulids = u.ulid p.ulids from (hname 0 (by decide)).symm, ← hname 1 (by decide), ← hname 2 (by decide)]
    rw [if_pos hvalid, hsame]
  · cases h

theorem claimUpdate_reads {r : ℕ} (h : claimUpdate ⟨cfg, u⟩ r p = some p') (hnames : Agree u v p p') :
    claimUpdate ⟨cfg, v⟩ r p = some p' := by
  unfold claimUpdate at h ⊢
  split at h
  · split at h
    · split at h
      · simp_all
      · split at h
        · cases h
        · cases h
          have hfirst : u.ulid p.ulids = v.ulid p.ulids := hnames.first (d := 0) rfl
          simp_all
    · cases h
  · cases h

theorem retryUpdate_reads {r : ℕ} (h : retryUpdate ⟨cfg, u⟩ r p = some p') (hnames : Agree u v p p') :
    retryUpdate ⟨cfg, v⟩ r p = some p' := by
  unfold retryUpdate at h ⊢
  split at h
  · split at h
    · split at h
      · simp_all
      · split at h
        · simp_all
        · split at h
          · cases h
          · split at h
            · cases h
              have hfirst : u.ulid p.ulids = v.ulid p.ulids := hnames.first (d := 0) rfl
              simp_all
            · cases h
              have hfirst : u.ulid p.ulids = v.ulid p.ulids := hnames.first (d := 0) rfl
              simp_all
    · cases h
  · cases h

theorem finalUpdate_reads {r : ℕ} (h : finalUpdate ⟨cfg, u⟩ r p = some p') (hnames : Agree u v p p') :
    finalUpdate ⟨cfg, v⟩ r p = some p' := by
  unfold finalUpdate at h ⊢
  split at h
  · split at h
    · split at h
      · cases h
      · split at h
        · simp_all
        · split at h
          · cases h
          · cases h
            have hfirst : u.ulid p.ulids = v.ulid p.ulids := hnames.first (d := 1) rfl
            have hsecond : u.ulid (p.ulids + 1) = v.ulid (p.ulids + 1) := hnames _ (Nat.le_succ _) (Nat.lt_succ_self _)
            simp_all
    · cases h
  · cases h

theorem reapEvents_congr {began : ℕ} : ∀ {pids : List String} {n : ℕ}, (∀ i < pids.length, u.ulid (n + i) = v.ulid (n + i)) →
    reapEvents ⟨cfg, v⟩ began n pids = reapEvents ⟨cfg, u⟩ began n pids
  | [], _, _ => rfl
  | pid :: pids, n, h => by
    have hfirst : u.ulid n = v.ulid n := h 0 (Nat.succ_pos _)
    unfold reapEvents
    rw [reapEvents_congr fun i hi => by rw [Nat.add_assoc, Nat.add_comm 1]; exact h (i + 1) (Nat.succ_lt_succ hi)]
    simp only [hfirst]

theorem reapUpdate_reads {k : ℕ} (h : reapUpdate ⟨cfg, u⟩ k p = some p') (hnames : Agree u v p p') :
    reapUpdate ⟨cfg, v⟩ k p = some p' := by
  unfold reapUpdate at h ⊢
  split at h
  · cases h
    dsimp only
    rw [reapEvents_congr fun i hi => hnames _ (Nat.le_add_right _ _) (Nat.add_lt_add_left hi _)]
  · cases h

/-- The pipeline draws its ids one after the other. -/
def drawing (port : BankPort β κ) (cfg : Config) : Drawing UlidSource String (State β) (Action κ) where
  name := UlidSource.ulid
  system u := system port ⟨cfg, u⟩
  drawn := State.ulids
  init_eq _ _ := rfl
  mono _ _ _ _ h := step_ulids (step_sound h)
  reads u v p a p' h hnames := by
    cases a with
    | submit => exact submit_reads h hnames
    | claimUpdate => exact claimUpdate_reads h hnames
    | retryUpdate => exact retryUpdate_reads h hnames
    | finalUpdate => exact finalUpdate_reads h hnames
    | reapUpdate => exact reapUpdate_reads h hnames
    | _ => exact h
end PaymentsProcessor.Pipeline
