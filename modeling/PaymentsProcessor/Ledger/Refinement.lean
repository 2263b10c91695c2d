/-
The pipeline refines the accounts: what the tables say about a payment changes only by opening its
account or by one of the moves, each made by the transaction that stands for it.
-/
import PaymentsProcessor.Ledger.Account
import PaymentsProcessor.Pipeline.Locks

namespace PaymentsProcessor

open PaymentStatus

namespace Db

/-! ## The account in the tables -/

/-- What the tables say about a payment. -/
def account (db : Db) (pid : String) : Option Account :=
  (db.payments pid).map fun p =>
    { status := p.status
      version := p.version
      attempts := p.attemptCount
      trail := (db.eventsOf pid).map fun e => (e.fromStatus, e.toStatus)
      exhausted := (db.eventsOf pid).any PaymentEvent.exhausting
      announced := (db.terminalOf pid).map fun row => row.event.type }

/-- Every audit row and every outbox row belongs to a payment. -/
structure Owned (db : Db) : Prop where
  events : ∀ e ∈ db.paymentEvents, (db.payments e.paymentId).isSome
  outbox : ∀ row ∈ db.outbox, (db.payments row.aggregateId).isSome

variable {db : Db} {pid pid' : String}

theorem empty_owned : Db.empty.Owned := ⟨fun _ h => absurd h List.not_mem_nil, fun _ h => absurd h List.not_mem_nil⟩

/-- A payment that does not exist has left no trace. -/
theorem Owned.blank (h : db.Owned) (hp : db.payments pid = none) : db.eventsOf pid = [] ∧ db.terminalOf pid = [] := by
  constructor
  · refine List.filter_eq_nil_iff.2 fun e he hc => ?_
    have hsome := h.events e he
    rw [of_decide_eq_true hc, hp] at hsome
    cases hsome
  · refine List.filter_eq_nil_iff.2 fun row hrow hc => ?_
    have hsome := h.outbox row hrow
    rw [(of_decide_eq_true hc).1, hp] at hsome
    cases hsome

/-- A database that keeps its payments and adds rows of payments it has. -/
theorem Owned.grow {db' : Db} (h : db.Owned) (hp : ∀ pid, (db.payments pid).isSome → (db'.payments pid).isSome)
    (he : ∀ e ∈ db'.paymentEvents, e ∈ db.paymentEvents ∨ (db'.payments e.paymentId).isSome)
    (ho : ∀ row ∈ db'.outbox, (∃ old ∈ db.outbox, old.aggregateId = row.aggregateId) ∨
      (db'.payments row.aggregateId).isSome) : db'.Owned := by
  refine ⟨fun e hmem => ?_, fun row hmem => ?_⟩
  · rcases he e hmem with hold | hnew
    · exact hp _ (h.events e hold)
    · exact hnew
  · rcases ho row hmem with ⟨old, hold, hid⟩ | hnew
    · rw [← hid]; exact hp _ (h.outbox old hold)
    · exact hnew

/-- A row of `payments` and its event written. -/
theorem Owned.write (h : db.Owned) (q : Payment) {e : PaymentEvent} (he : e.paymentId = pid) :
    ((db.setPayment pid q).insertEvents [e]).Owned := by
  refine h.grow (fun other hsome => ?_) (fun e' he' => ?_) fun row hrow => Or.inl ⟨row, hrow, rfl⟩
  · by_cases hc : other = pid
    · simp [hc]
    · simpa [hc] using hsome
  · rcases List.mem_append.1 he' with hold | hnew
    · exact Or.inl hold
    · rw [List.mem_singleton] at hnew
      subst hnew
      simp [he]

theorem account_eq_some {x : Account} (h : db.account pid = some x) :
    ∃ p, db.payments pid = some p ∧ x.status = p.status ∧ x.version = p.version ∧ x.attempts = p.attemptCount ∧
      x.trail = (db.eventsOf pid).map (fun e => (e.fromStatus, e.toStatus)) ∧
      x.exhausted = (db.eventsOf pid).any PaymentEvent.exhausting ∧
      x.announced = (db.terminalOf pid).map fun row => row.event.type := by
  obtain ⟨p, hp, rfl⟩ := Option.map_eq_some_iff.1 h
  exact ⟨p, hp, rfl, rfl, rfl, rfl, rfl, rfl⟩

theorem account_eq_none : db.account pid = none ↔ db.payments pid = none := Option.map_eq_none_iff

/-- The account depends on the payment's own rows only. -/
theorem account_congr {db' : Db} (hp : db'.payments pid = db.payments pid) (he : db'.eventsOf pid = db.eventsOf pid)
    (ho : (db'.terminalOf pid).map (fun row => row.event.type) = (db.terminalOf pid).map fun row => row.event.type) :
    db'.account pid = db.account pid := by
  unfold account
  rw [hp, he, ho]

@[simp] theorem eventsOf_setPayment (q : Payment) : (db.setPayment pid' q).eventsOf pid = db.eventsOf pid := rfl
@[simp] theorem terminalOf_setPayment (q : Payment) : (db.setPayment pid' q).terminalOf pid = db.terminalOf pid := rfl
@[simp] theorem terminalOf_insertEvents (es : List PaymentEvent) :
    (db.insertEvents es).terminalOf pid = db.terminalOf pid := rfl
@[simp] theorem eventsOf_updateIn (pids : List String) (f : Payment → Payment) :
    (db.updateIn pids f).eventsOf pid = db.eventsOf pid := rfl
@[simp] theorem terminalOf_updateIn (pids : List String) (f : Payment → Payment) :
    (db.updateIn pids f).terminalOf pid = db.terminalOf pid := rfl
@[simp] theorem eventsOf_insertOutbox (row : OutboxRow) : (db.insertOutbox row).eventsOf pid = db.eventsOf pid := rfl

theorem eventsOf_insertEvents (es : List PaymentEvent) :
    (db.insertEvents es).eventsOf pid = db.eventsOf pid ++ es.filter fun e => e.paymentId = pid :=
  List.filter_append _ _

theorem terminalOf_insertOutbox (row : OutboxRow) :
    (db.insertOutbox row).terminalOf pid =
      db.terminalOf pid ++ [row].filter fun row => row.aggregateId = pid ∧ row.terminal?.isSome :=
  List.filter_append _ _

theorem terminalOf_markPublished (ids : List String) (now : Nat) :
    ((db.markPublished ids now).terminalOf pid).map (fun row => row.event.type) =
      (db.terminalOf pid).map fun row => row.event.type := by
  have hterm : ∀ row : OutboxRow, (if row.id ∈ ids then { row with publishedAt := some now } else row).terminal? =
      row.terminal? := by intro row; split <;> rfl
  have hagg : ∀ row : OutboxRow, (if row.id ∈ ids then { row with publishedAt := some now } else row).aggregateId =
      row.aggregateId := by intro row; split <;> rfl
  have hevent : ∀ row : OutboxRow, (if row.id ∈ ids then { row with publishedAt := some now } else row).event =
      row.event := by intro row; split <;> rfl
  unfold terminalOf markPublished
  simp only [List.filter_map, List.map_map, Function.comp_def, hterm, hagg, hevent]

/-- Nothing is said of another payment when a row of `payments` and its event are written. -/
theorem account_write_other (q : Payment) {e : PaymentEvent} (he : e.paymentId = pid) (hne : pid' ≠ pid) :
    ((db.setPayment pid q).insertEvents [e]).account pid' = db.account pid' := by
  refine account_congr ?_ ?_ rfl
  · exact Function.update_of_ne hne _ _
  · rw [eventsOf_insertEvents]
    have hne' : e.paymentId ≠ pid' := fun hc => hne (hc.symm.trans he)
    simp [hne']

/-- A row of `payments` and its event written. -/
theorem account_write {x : Account} (hx : db.account pid = some x) (q : Payment) {e : PaymentEvent}
    (he : e.paymentId = pid) :
    ((db.setPayment pid q).insertEvents [e]).account pid = some
      { status := q.status, version := q.version, attempts := q.attemptCount,
        trail := x.trail ++ [(e.fromStatus, e.toStatus)], exhausted := x.exhausted || e.exhausting,
        announced := x.announced } := by
  obtain ⟨p, hp, -, -, -, htrail, hexh, hann⟩ := account_eq_some hx
  have hevents : ((db.setPayment pid q).insertEvents [e]).eventsOf pid = db.eventsOf pid ++ [e] := by
    simp [eventsOf_insertEvents, he]
  simp [account, hevents, htrail, hexh, hann]

/-- A row of `outbox` written. -/
theorem account_insertOutbox (row : OutboxRow) :
    (db.insertOutbox row).account pid = (db.account pid).map fun x =>
      { x with announced := x.announced ++
          if row.aggregateId = pid ∧ row.terminal?.isSome then [row.event.type] else [] } := by
  unfold account
  rw [terminalOf_insertOutbox, insertOutbox_payments, Option.map_map]
  by_cases hc : row.aggregateId = pid ∧ row.terminal?.isSome
  · simp [hc, Function.comp_def]
  · simp [hc, Function.comp_def]

end Db

/-! ## Moves of the pipeline -/

namespace Pipeline

open Worker Relay Reaper Account

variable {β κ : Type} {port : BankPort β κ} {env : Env} {s s' : State β} {a : Action κ} {pid : String}

/-- The move an action makes on a payment, where it is not held up: txn 1 claims, the RETRY transaction
retries or exhausts, txn 2 settles, the batch update of a tick reaps. -/
inductive Moved (env : Env) (s : State β) : Action κ → String → Move → Prop
  | claim {r : Nat} {run : Run} {began clock : Nat} {p : Payment} (hr : s.runs r = some run)
      (hpc : run.pc = .claimRead began p.status (some clock)) (hp : s.db.payments run.data.paymentId = some p) :
      Moved env s (.claimUpdate r) run.data.paymentId .claim
  | retry {r : Nat} {run : Run} {began clock : Nat} {reason : String} {p : Payment} (hr : s.runs r = some run)
      (hpc : run.pc = .settleBegun began (.retry reason) (some clock)) (hp : s.db.payments run.data.paymentId = some p)
      (hst : p.status = PROCESSING) (hleft : p.attemptCount + 1 ≤ env.cfg.maxRetries) :
      Moved env s (.retryUpdate r) run.data.paymentId .retry
  | exhaust {r : Nat} {run : Run} {began clock : Nat} {reason : String} {p : Payment} (hr : s.runs r = some run)
      (hpc : run.pc = .settleBegun began (.retry reason) (some clock)) (hp : s.db.payments run.data.paymentId = some p)
      (hst : p.status = PROCESSING) (hspent : p.attemptCount + 1 > env.cfg.maxRetries) :
      Moved env s (.retryUpdate r) run.data.paymentId .exhaust
  | settle {r : Nat} {run : Run} {began clock : Nat} {dis : Disposition} {target : PaymentStatus} {p : Payment}
      (hr : s.runs r = some run) (hpc : run.pc = .settleBegun began dis (some clock)) (htarget : dis.target = some target)
      (hp : s.db.payments run.data.paymentId = some p) (hst : p.status = PROCESSING) :
      Moved env s (.finalUpdate r) run.data.paymentId (.settle target)
  | reap {k began time clock : Nat} {stuck : List StuckRow} {row : StuckRow}
      (hk : s.reaps k = some (.selected began time stuck (some clock))) (hrow : row ∈ stuck)
      (hst : row.status = PROCESSING) : Moved env s (.reapUpdate k) row.id .reap

/-- A run moves the payment of its job. -/
theorem Moved.pid_eq {m : Move} (h : Moved env s a pid m) {r : Nat} {run : Run} (hr : s.runs r = some run)
    (ha : a = .claimUpdate r ∨ a = .retryUpdate r ∨ a = .finalUpdate r) : pid = run.data.paymentId := by
  cases h with
  | claim hr' | retry hr' | exhaust hr' | settle hr' =>
    simp only [Action.claimUpdate.injEq, Action.retryUpdate.injEq, Action.finalUpdate.injEq, reduceCtorEq, or_false,
      false_or] at ha
    rw [ha, hr] at hr'
    rw [Option.some.inj hr']
  | reap => simp at ha

/-- A tick moves only what it has selected in PROCESSING. -/
theorem Moved.mem_processing {m : Move} {k began time : Nat} {stuck : List StuckRow} {clock : Option Nat}
    (h : Moved env s (.reapUpdate k : Action κ) pid m) (hk : s.reaps k = some (.selected began time stuck clock)) :
    pid ∈ processingIds stuck := by
  cases h with
  | reap hk' hrow hst =>
    cases hk.symm.trans hk'
    exact List.mem_map_of_mem (List.mem_filter.2 ⟨hrow, decide_eq_true hst⟩)

/-- An action makes one kind of move only. -/
theorem Moved.unique {pid' : String} {m m' : Move} (h : Moved env s a pid m) (h' : Moved env s a pid' m') :
    m = m' := by
  cases h with
  | claim => cases h'; rfl
  | reap => cases h'; rfl
  | settle hr hpc htarget =>
    cases h' with
    | settle hr' hpc' htarget' =>
      cases hr.symm.trans hr'
      cases hpc.symm.trans hpc'
      rw [Option.some.inj (htarget.symm.trans htarget')]
  | retry hr hpc hp hst hleft =>
    cases h' with
    | retry => rfl
    | exhaust hr' hpc' hp' hst' hspent =>
      cases hr.symm.trans hr'
      cases hp.symm.trans hp'
      exact absurd hspent (Nat.not_lt.2 hleft)
  | exhaust hr hpc hp hst hspent =>
    cases h' with
    | exhaust => rfl
    | retry hr' hpc' hp' hst' hleft =>
      cases hr.symm.trans hr'
      cases hp.symm.trans hp'
      exact absurd hspent (Nat.not_lt.2 hleft)

/-- What a step makes of an account. -/
inductive AccountStep (env : Env) (s : State β) (a : Action κ) (pid : String) :
    Option Account → Option Account → Prop
  | same {x : Option Account} (hno : ∀ m, ¬ Moved env s a pid m) : AccountStep env s a pid x x
  | opened (hno : ∀ m, ¬ Moved env s a pid m) : AccountStep env s a pid none (some .opened)
  | moved {m : Move} {x y : Account} (hm : Moved env s a pid m) (h : x.Moves env.cfg.maxRetries m y) :
      AccountStep env s a pid (some x) (some y)

/-- A run that finds its payment in another status moves nothing. -/
theorem Walk.not_moved {r : Nat} {run : Run} {pc : Pc} (hr : s.runs r = some run) (hw : Walk s r run a pc) (m : Move) :
    ¬ Moved env s a pid m := by
  intro hm
  cases hw with
  | claimLost hpc hp =>
    cases hm with
    | claim hr' hpc' hp' =>
      cases hr.symm.trans hr'
      cases hpc.symm.trans hpc'
      exact hp _ hp' rfl
  | retryLost hpc hp =>
    cases hm with
    | retry hr' hpc' hp' hst | exhaust hr' hpc' hp' hst =>
      cases hr.symm.trans hr'
      exact hp _ hp' hst
  | finalLost hpc htarget hp =>
    cases hm with
    | settle hr' hpc' htarget' hp' hst =>
      cases hr.symm.trans hr'
      exact hp _ hp' hst
  | _ => cases hm

theorem account_of_payment {p : Payment} (hp : s.db.payments pid = some p) :
    ∃ x, s.db.account pid = some x ∧ x.status = p.status ∧ x.version = p.version ∧ x.attempts = p.attemptCount := by
  unfold Db.account
  rw [hp]
  exact ⟨_, rfl, rfl, rfl, rfl⟩

/-- The account of a new payment. -/
theorem account_insertSubmission {row : Payment} {event : PaymentEvent} {key : IdempotencyKey} {out : OutboxRow}
    (howned : s.db.Owned) (hfresh : s.db.payments row.id = none) (hrow : row.status = PENDING ∧ row.version = 0 ∧
      row.attemptCount = 0) (hevent : event.paymentId = row.id ∧ event.fromStatus = none ∧ event.toStatus = PENDING ∧
      event.exhausting = false) (hout : out.terminal? = none) :
    (s.db.insertSubmission row event key out).account pid =
      if pid = row.id then some .opened else s.db.account pid := by
  have hevents : (s.db.insertSubmission row event key out).eventsOf pid =
      s.db.eventsOf pid ++ [event].filter fun e => e.paymentId = pid := List.filter_append _ _
  have hterminal : (s.db.insertSubmission row event key out).terminalOf pid = s.db.terminalOf pid := by
    have happ : (s.db.insertSubmission row event key out).terminalOf pid =
        s.db.terminalOf pid ++ [out].filter fun row => row.aggregateId = pid ∧ row.terminal?.isSome :=
      List.filter_append _ _
    rw [happ]
    simp [hout]
  split
  · rename_i hpid
    subst hpid
    obtain ⟨hnoevents, hnoterminal⟩ := howned.blank hfresh
    unfold Db.account
    rw [hevents, hterminal, hnoevents, hnoterminal, Db.insertSubmission_payments, Function.update_self]
    simp [hrow, hevent, opened]
  · rename_i hpid
    refine Db.account_congr (Function.update_of_ne hpid _ _) ?_ (by rw [hterminal])
    have hne : event.paymentId ≠ pid := fun hc => hpid (hc.symm.trans hevent.1)
    rw [hevents]
    simp [hne]

/-- A step that writes the payment of a run moves that account only. -/
theorem accountStep_write {run : Run} {p : Payment} {db : Db} {m : Move}
    (hp : s.db.payments run.data.paymentId = some p)
    (hpid : ∀ m, Moved env s a pid m → pid = run.data.paymentId) (hm : Moved env s a run.data.paymentId m)
    (hother : pid ≠ run.data.paymentId → db.account pid = s.db.account pid)
    (hmoves : ∀ x, s.db.account run.data.paymentId = some x → x.status = p.status → x.version = p.version →
      x.attempts = p.attemptCount → ∃ y, db.account run.data.paymentId = some y ∧
        x.Moves env.cfg.maxRetries m y) :
    AccountStep env s a pid (s.db.account pid) (db.account pid) := by
  by_cases hc : pid = run.data.paymentId
  · obtain ⟨x, hx, hst, hv, hat⟩ := account_of_payment hp
    obtain ⟨y, hy, hxy⟩ := hmoves x hx hst hv hat
    rw [hc, hx, hy]
    exact .moved hm hxy
  · rw [hother hc]
    exact .same fun m hm' => hc (hpid m hm')

/-- The events of a batch: one for each of its payments. -/
theorem filter_reapEvents (env : Env) (began : Nat) (pid : String) : ∀ (n : Nat) {pids : List String}, pids.Nodup →
    ((reapEvents env began n pids).filter fun e => e.paymentId = pid).map
      (fun e => (e.fromStatus, e.toStatus, e.exhausting)) =
      if pid ∈ pids then [(some PROCESSING, RETRYING, false)] else []
  | _, [], _ => rfl
  | n, other :: pids, h => by
    have hnodup := List.nodup_cons.1 h
    have ih := filter_reapEvents env began pid (n + 1) hnodup.2
    unfold reapEvents
    by_cases hc : other = pid
    · subst hc
      rw [List.filter_cons_of_pos (by simp), List.map_cons, ih, if_neg hnodup.1, if_pos List.mem_cons_self]
      rfl
    · rw [List.filter_cons_of_neg (by simpa using hc), ih]
      simp [Ne.symm hc]

/-- What the batch update makes of the account of one of its payments. -/
theorem account_reap {began clock : Nat} {pids : List String} {p : Payment} {x : Account} (hids : pids.Nodup)
    (hmem : pid ∈ pids) (hp : s.db.payments pid = some p) (hx : s.db.account pid = some x) :
    ((s.db.updateIn pids (reapSet clock)).insertEvents (reapEvents env began s.ulids pids)).account pid = some
      { status := (reapSet clock p).status, version := (reapSet clock p).version,
        attempts := (reapSet clock p).attemptCount, trail := x.trail ++ [(some PROCESSING, RETRYING)],
        exhausted := x.exhausted, announced := x.announced } := by
  obtain ⟨p', hp', -, -, -, htrail, hexh, hann⟩ := Db.account_eq_some hx
  have hevents := filter_reapEvents env began pid s.ulids hids
  rw [if_pos hmem] at hevents
  obtain ⟨e, he, hfields⟩ : ∃ e, (reapEvents env began s.ulids pids).filter (fun e => e.paymentId = pid) = [e] ∧
      (e.fromStatus, e.toStatus, e.exhausting) = (some PROCESSING, RETRYING, false) :=
    List.map_eq_singleton_iff.1 hevents
  simp only [Prod.mk.injEq] at hfields
  unfold Db.account
  rw [Db.eventsOf_insertEvents, he, htrail, hexh, hann]
  simp [hmem, hp, hfields]

theorem mem_reapEvents {env : Env} {began : Nat} {e : PaymentEvent} : ∀ {n : Nat} {pids : List String},
    e ∈ reapEvents env began n pids → e.paymentId ∈ pids ∧ e.toStatus = RETRYING
  | _, [], h => by cases h
  | n, pid :: pids, h => by
    rcases List.mem_cons.1 h with rfl | h
    · exact ⟨List.mem_cons_self, rfl⟩
    · obtain ⟨hmem, hto⟩ := mem_reapEvents h
      exact ⟨List.mem_cons_of_mem _ hmem, hto⟩

theorem eventsOf_reap_other {began clock : Nat} {pids : List String} (hmem : pid ∉ pids) :
    ((s.db.updateIn pids (reapSet clock)).insertEvents (reapEvents env began s.ulids pids)).eventsOf pid =
      s.db.eventsOf pid := by
  have hnone : (reapEvents env began s.ulids pids).filter (fun e => e.paymentId = pid) = [] := by
    refine List.filter_eq_nil_iff.2 fun e he hc => hmem ?_
    rw [← of_decide_eq_true hc]
    exact (mem_reapEvents he).1
  rw [Db.eventsOf_insertEvents, Db.eventsOf_updateIn, hnone, List.append_nil]

/-- Every step moves every account as its rules say. -/
theorem Step.account (hlocks : LockInv s) (hpcs : PcInv s) (howned : s.db.Owned) (h : Step port env s a s') (pid : String) :
    AccountStep env s a pid (s.db.account pid) (s'.db.account pid) := by
  cases h with
  | walk _ r run pc hr hw => exact .same (hw.not_moved hr)
  | accepted dto key hash correlationId amountCents row hvalid hamount hrow hfresh =>
    rw [account_insertSubmission howned hfresh (by subst hrow; exact ⟨rfl, rfl, rfl⟩) ⟨rfl, rfl, rfl, rfl⟩ rfl]
    split
    · rename_i hpid
      rw [hpid, Db.account_eq_none.2 hfresh]
      exact .opened fun _ h => by cases h
    · exact .same fun _ h => by cases h
  | pollCommit k poll hk hlive hadded =>
    have heq : (s.db.markPublished (poll.rows.map OutboxRow.id) s.now).account pid = s.db.account pid :=
      Db.account_congr rfl rfl (Db.terminalOf_markPublished _ _)
    dsimp only
    rw [heq]
    exact .same fun _ h => by cases h
  | claim r run began clock p hr hpc hp =>
    refine accountStep_write hp (fun m hm => hm.pid_eq hr (Or.inl rfl)) (.claim hr hpc hp)
      (Db.account_write_other _ rfl) fun x hx hst hv hat => ⟨_, Db.account_write hx _ rfl, ?_⟩
    -- the status that was read may move to PROCESSING, and the compare-and-swap finds it unchanged
    have hcan : Pc.WF run.pc := hpcs hr
    rw [hpc, Pc.WF, ← hst] at hcan
    have hmove : x.Moves env.cfg.maxRetries .claim (x.advance PROCESSING) := .claim hcan
    simpa [Account.advance, claimSet, eventFor, PaymentEvent.exhausting, hst, hv, hat] using hmove
  | exhaust r run began clock reason p hr hpc hp hst hlock hspent =>
    refine accountStep_write hp (fun m hm => hm.pid_eq hr (Or.inr (Or.inl rfl))) (.exhaust hr hpc hp hst hspent)
      (Db.account_write_other _ rfl) fun x hx hst' hv hat => ⟨_, Db.account_write hx _ rfl, ?_⟩
    rw [← hat] at hspent
    have hmove := Moves.exhaust (hst'.trans hst) hspent
    rw [hat] at hspent
    simpa [Account.advance, retrySet, eventFor, PaymentEvent.exhausting, hst, hst', hv, hat, hspent] using hmove
  | retry r run began clock reason p hr hpc hp hst hlock hleft =>
    refine accountStep_write hp (fun m hm => hm.pid_eq hr (Or.inr (Or.inl rfl))) (.retry hr hpc hp hst hleft)
      (Db.account_write_other _ rfl) fun x hx hst' hv hat => ⟨_, Db.account_write hx _ rfl, ?_⟩
    rw [← hat] at hleft
    have hmove := Moves.retry (hst'.trans hst) hleft
    rw [hat] at hleft
    simpa [Account.advance, retrySet, eventFor, PaymentEvent.exhausting, hst, hst', hv, hat, Nat.not_lt.2 hleft]
      using hmove
  | final r run began clock dis target p hr hpc htarget hp hst =>
    have hfinal : target = COMPLETED ∨ target = FAILED := by cases dis <;> cases htarget <;> simp
    have hexh : dis.metadata.retriesExhausted = false := by cases dis <;> rfl
    have htype : (terminalRow run.data (env.u.ulid (s.ulids + 1)) target began).event.type =
        (announcement target).headD "" := by rcases hfinal with rfl | rfl <;> rfl
    have hterminal : (terminalRow run.data (env.u.ulid (s.ulids + 1)) target began).terminal?.isSome := by
      rcases hfinal with rfl | rfl <;> rfl
    refine accountStep_write hp (fun m hm => hm.pid_eq hr (Or.inr (Or.inr rfl))) (.settle hr hpc htarget hp hst)
      (fun hne => ?_) fun x hx hst' hv hat => ?_
    · rw [Db.account_insertOutbox, if_neg fun hc => hne (hc.1.symm : pid = run.data.paymentId)]
      simp only [List.append_nil, Option.map_id']
      exact Db.account_write_other _ rfl hne
    · rw [Db.account_insertOutbox, Db.account_write hx _ rfl, if_pos ⟨rfl, hterminal⟩, htype]
      refine ⟨_, rfl, ?_⟩
      have hmove := @Moves.settle env.cfg.maxRetries x target (hst'.trans hst) hfinal
      rcases hfinal with rfl | rfl
      all_goals simpa [Account.advance, settleSet, eventFor, PaymentEvent.exhausting, hexh, hst, hst', hv, hat,
        announcement] using hmove
  | reapUpdate k began time clock stuck hk =>
    by_cases hmem : pid ∈ processingIds stuck
    · -- the lock has kept the payment as it was selected
      obtain ⟨row, hrow, rfl, hst, p, hp, hstatus⟩ := hlocks.processing hk hmem
      obtain ⟨x, hx, hxst, hv, hat⟩ := account_of_payment hp
      rw [hx, account_reap (hlocks.nodup hk) hmem hp hx]
      have hmove := @Moves.reap env.cfg.maxRetries x (hxst.trans hstatus)
      refine .moved (.reap hk hrow hst) ?_
      simpa [Account.advance, reapSet, hxst, hv, hat, hstatus] using hmove
    · have hother : ((s.db.updateIn (processingIds stuck) (reapSet clock)).insertEvents
          (reapEvents env began s.ulids (processingIds stuck))).account pid = s.db.account pid :=
        Db.account_congr (if_neg hmem) (eventsOf_reap_other hmem) rfl
      dsimp only
      rw [hother]
      exact .same fun m hm => hmem (hm.mem_processing hk)
  | _ => exact .same fun _ h => by cases h

/-! ## Reached states -/

/-- No step writes a row of a payment that does not exist. -/
theorem Step.owned (hlocks : LockInv s) (howned : s.db.Owned) (h : Step port env s a s') : s'.db.Owned := by
  cases h with
  | accepted dto key hash correlationId amountCents row hvalid hamount hrow hfresh =>
    refine howned.grow (fun other hsome => ?_) (fun e he => ?_) fun out hout => ?_
    · by_cases hc : other = row.id
      · simp [hc]
      · simpa [hc] using hsome
    · rcases List.mem_append.1 he with hold | hnew
      · exact Or.inl hold
      · rw [List.mem_singleton] at hnew
        subst hnew
        simp [submittedEvent]
    · rcases List.mem_append.1 hout with hold | hnew
      · exact Or.inl ⟨out, hold, rfl⟩
      · rw [List.mem_singleton] at hnew
        subst hnew
        simp [submittedRow]
  | pollCommit k poll hk hlive hadded =>
    refine howned.grow (fun _ hsome => hsome) (fun e he => Or.inl he) fun row hrow => Or.inl ?_
    obtain ⟨old, hold, rfl⟩ := List.mem_map.1 hrow
    exact ⟨old, hold, by split <;> rfl⟩
  | claim => exact howned.write _ rfl
  | exhaust => exact howned.write _ rfl
  | retry => exact howned.write _ rfl
  | final r run began clock dis target p =>
    refine (howned.write (settleSet clock target p) (e := eventFor run.data (env.u.ulid s.ulids) PROCESSING target
      (some dis.metadata) began) rfl).grow (fun _ hsome => hsome) (fun e he => Or.inl he) fun row hrow => ?_
    rcases List.mem_append.1 hrow with hold | hnew
    · exact Or.inl ⟨row, hold, rfl⟩
    · rw [List.mem_singleton] at hnew
      subst hnew
      simp [terminalRow]
  | reapUpdate k began time clock stuck hk =>
    obtain ⟨hnodup, hheld⟩ := hlocks hk
    refine howned.grow (fun other hsome => ?_) (fun e he => ?_) fun row hrow => Or.inl ⟨row, hrow, rfl⟩
    · rw [Db.insertEvents_payments, Db.updateIn_payments]
      split
      · rw [Option.isSome_map]; exact hsome
      · exact hsome
    · rcases List.mem_append.1 he with hold | hnew
      · exact Or.inl hold
      · obtain ⟨row, hrow, hid⟩ := List.mem_map.1 (mem_reapEvents hnew).1
        obtain ⟨-, p, hp, -⟩ := hheld row (List.mem_of_mem_filter hrow)
        rw [hid] at hp
        rw [Db.insertEvents_payments, Db.updateIn_payments, hp]
        exact Or.inr (by split <;> rfl)
  | _ => exact howned

/-- In every reached state the books of every account agree. -/
structure LedgerInv (s : State β) : Prop where
  owned : s.db.Owned
  wf : ∀ {pid x}, s.db.account pid = some x → x.WF

theorem ledgerInv {C : State β → Action κ → Prop} (h : Transition.Reach (system port env) C s) : LedgerInv s := by
  refine h.invariant (I := LedgerInv) ⟨Db.empty_owned, fun h => by cases h⟩ fun t a t' hr hI _ hs => ?_
  have hrule := step_sound hs
  refine ⟨hrule.owned (lockInv hr) hI.owned, fun {pid y} hy => ?_⟩
  have hstep := hrule.account (lockInv hr) (pcInv hr) hI.owned pid
  rw [hy] at hstep
  generalize hx : t.db.account pid = x at hstep
  cases hstep with
  | same => exact hI.wf hx
  | opened => exact opened_wf
  | moved hm hmove => exact (hI.wf hx).moves hmove

/-- A step that moves an account moves it by the rules. -/
theorem moves_of_moved {x : Account} {m : Move} (hr : Transition.Reach (system port env) Transition.Free s)
    (hs : step port env s a = some s') (hm : Moved env s a pid m) (hx : s.db.account pid = some x) :
    ∃ y, s'.db.account pid = some y ∧ x.Moves env.cfg.maxRetries m y := by
  have hstep := (step_sound hs).account (lockInv hr) (pcInv hr) (ledgerInv hr).owned pid
  rw [hx] at hstep
  generalize hy : s'.db.account pid = y at hstep
  cases hstep with
  | same hno => exact absurd hm (hno m)
  | moved hm' hmove =>
    rw [hm'.unique hm] at hmove
    exact ⟨_, rfl, hmove⟩

end Pipeline

end PaymentsProcessor
