/-
What clients read of a payment. `find_one` reads its row, `list_events` checks that the row is there and then selects the
audit rows, and a replayed submission is answered with the row as it was inserted. Whatever is read earlier or later, and
by whichever of the three, is one life at different points of it.
-/
import PaymentsProcessor.Base.Rounds
import PaymentsProcessor.Ledger.Published
import PaymentsProcessor.Payments.Validation

namespace PaymentsProcessor

open PaymentStatus Transition PartialMap Pipeline

/-! ## The reads -/

/-- `find_one`. -/
def Db.findOne (db : Db) (id : String) : Except Thrown Payment :=
  match db.payments id with
  | none => .error (.http 404 (some (.inl "Payment for given id was not found")))
  | some row => .ok row

/-- A call of `list_events` with its statements apart: the existence check on one state of the tables, the select on a later
one. -/
inductive EventsRead (checked selected : Db) (id : String) : Except Thrown (List PaymentEvent) → Prop
  | missing {e : Thrown} (h : checked.findOne id = .error e) : EventsRead checked selected id (.error e)
  | found {row : Payment} {rows : List PaymentEvent} (h : checked.findOne id = .ok row)
      (hrows : Stamps.Reading PaymentEvent.occurredAt (selected.eventsOf id) rows) : EventsRead checked selected id (.ok rows)

/-! ## One life -/

/-- The audit rows lead from a status to a status along the transition map. -/
def Leads : PaymentStatus → List PaymentEvent → PaymentStatus → Prop
  | src, [], dst => dst = src
  | src, e :: es, dst => e.fromStatus = some src ∧ canTransition src e.toStatus = true ∧ Leads e.toStatus es dst

/-- A row after some more audit rows: the order is the same, each audit row counts one version, and without any the row is
as it was. -/
structure Since (new : List PaymentEvent) (p q : Payment) : Prop where
  order : { q with
    status := p.status
    version := p.version
    attemptCount := p.attemptCount
    lastErrorCode := p.lastErrorCode
    updatedAt := p.updatedAt } = p
  version : q.version = p.version + new.length
  attempts : p.attemptCount ≤ q.attemptCount
  leads : Leads p.status new q.status
  same : new = [] → q = p

theorem Leads.append {src mid dst : PaymentStatus} : ∀ {es es' : List PaymentEvent}, Leads src es mid → Leads mid es' dst →
    Leads src (es ++ es') dst
  | [], _, h, h' => h ▸ h'
  | _ :: _, _, ⟨hfrom, hedge, h⟩, h' => ⟨hfrom, hedge, h.append h'⟩

/-- Nothing follows a terminal status. -/
theorem Leads.eq_nil {src dst : PaymentStatus} {es : List PaymentEvent} (h : Leads src es dst)
    (hfinal : src.terminal = true) : es = [] := by
  cases es with
  | nil => rfl
  | cons e es =>
    have hno := not_canTransition_of_terminal (t := e.toStatus) hfinal
    rw [h.2.1] at hno
    cases hno

theorem since_refl (p : Payment) : Since [] p p := ⟨rfl, rfl, Nat.le_refl _, rfl, fun _ => rfl⟩

theorem Since.trans {new new' : List PaymentEvent} {p q r : Payment} (h : Since new p q) (h' : Since new' q r) :
    Since (new ++ new') p r where
  order := by
    have horder := h.order
    rw [← h'.order] at horder
    exact horder
  version := by
    rw [List.length_append, h'.version, h.version]
    omega
  attempts := Nat.le_trans h.attempts h'.attempts
  leads := h.leads.append h'.leads
  same := fun hnil => by
    obtain ⟨hn, hn'⟩ := List.append_eq_nil_iff.1 hnil
    rw [h'.same hn', h.same hn]

variable {β κ : Type} {port : BankPort β κ} {env : Env} {s s' t : State β} {a : Action κ} {pid : String} {p q : Payment}
variable {C : State β → Action κ → Prop}

/-! ## One step -/

/-- A write of a row: the columns of the order stay, and the version counts it. -/
structure Written (p q : Payment) : Prop where
  order : { q with
    status := p.status
    version := p.version
    attemptCount := p.attemptCount
    lastErrorCode := p.lastErrorCode
    updatedAt := p.updatedAt } = p
  version : q.version = p.version + 1
  attempts : p.attemptCount ≤ q.attemptCount

/-- A step leaves the row of a payment as it is, or writes it. -/
theorem Pipeline.Step.row (h : Step port env s a s') (hp : s.db.payments pid = some p) :
    ∃ q, s'.db.payments pid = some q ∧ (q = p ∨ Written p q) := by
  have hwrite : ∀ {pid' : String} {old new : Payment}, s.db.payments pid' = some old → Written old new →
      ∃ q, Function.update s.db.payments pid' (some new) pid = some q ∧ (q = p ∨ Written p q) := by
    intro pid' old new hold hnew
    by_cases hc : pid = pid'
    · subst hc
      cases hp.symm.trans hold
      exact ⟨new, Function.update_self .., Or.inr hnew⟩
    · exact ⟨p, (Function.update_of_ne hc _ _).trans hp, Or.inl rfl⟩
  cases h with
  | accepted dto key hash correlationId amountCents row hvalid hconv hrow hfresh =>
    have hne : pid ≠ row.id := by
      rintro rfl
      rw [hfresh] at hp
      cases hp
    exact ⟨p, (Function.update_of_ne hne _ _).trans hp, Or.inl rfl⟩
  | claim r run began clock old hr hpc hold => exact hwrite hold ⟨rfl, rfl, Nat.le_refl _⟩
  | exhaust r run began clock reason old hr hpc hold | retry r run began clock reason old hr hpc hold =>
    exact hwrite hold ⟨rfl, rfl, Nat.le_succ _⟩
  | final r run began clock dis target old hr hpc htarget hold =>
    refine hwrite hold ?_
    cases dis <;> cases htarget <;> exact ⟨rfl, rfl, Nat.le_refl _⟩
  | reapUpdate k began time clock stuck hk =>
    rw [Db.insertEvents_payments, Db.updateIn_payments, hp]
    split
    · exact ⟨_, rfl, Or.inr ⟨rfl, rfl, Nat.le_succ _⟩⟩
    · exact ⟨_, rfl, Or.inl rfl⟩
  | _ => exact ⟨p, hp, Or.inl rfl⟩

/-- A step adds the audit row of what it writes. -/
theorem Pipeline.Step.since (hr : Reach (system port env) C s) (h : Step port env s a s') (hp : s.db.payments pid = some p) :
    ∃ q new, s'.db.payments pid = some q ∧ s'.db.eventsOf pid = s.db.eventsOf pid ++ new ∧ Since new p q := by
  obtain ⟨q, hq, hrow⟩ := h.row hp
  obtain ⟨x, hx, hxst, hxv, -⟩ := account_of_payment hp
  obtain ⟨y, hy, hyst, hyv, -⟩ := account_of_payment hq
  obtain ⟨-, -, -, -, -, hxtrail, -⟩ := Db.account_eq_some hx
  obtain ⟨-, -, -, -, -, hytrail, -⟩ := Db.account_eq_some hy
  have hlength := ((ledgerInv hr).wf hx).version
  have haccount := h.account (lockInv hr) (pcInv hr) (ledgerInv hr).owned pid
  have hevents := h.eventsOf (lockInv hr) (ledgerInv hr).owned pid
  rw [hx, hy] at haccount
  rw [hxtrail, List.length_map] at hlength
  generalize s.db.eventsOf pid = events, s'.db.eventsOf pid = events' at *
  cases haccount with
  | same hno =>
    -- the version stays, so the row was not written
    have hqp : q = p := hrow.resolve_right fun hw => by
      have := hw.version
      omega
    subst hqp
    cases hevents with
    | same => exact ⟨q, [], hq, (List.append_nil _).symm, since_refl q⟩
    | opened => cases hlength
    | moved hm => exact absurd hm (hno _)
  | moved hm hmoves =>
    obtain ⟨htrail, hversion⟩ := hmoves.advance
    have hw : Written p q := hrow.resolve_left fun hqp => by
      subst hqp
      omega
    cases hevents with
    | same hno => exact absurd hm (hno _)
    | opened hno => exact absurd hm (hno _)
    | @moved _ e _ hm' =>
      -- the audit row is the last entry of the trail
      rw [hytrail, hxtrail, List.map_append] at htrail
      obtain ⟨hfrom, hto⟩ := Prod.mk.inj (List.singleton_inj.1 (List.append_cancel_left htrail))
      refine ⟨q, [e], hq, rfl, hw.order, hw.version, hw.attempts, ⟨?_, ?_, ?_⟩, fun hnil => by cases hnil⟩
      · rw [hfrom, hxst]
      · rw [hto, ← hxst]
        exact hmoves.canTransition
      · rw [hto, hyst]
        rfl

/-! ## Runs -/

/-- Along any path. -/
theorem since_of_path {test : Action κ → Bool} (hr : Reach (system port env) Free s) (hpath : Path (system port env) test s t)
    (hp : s.db.payments pid = some p) :
    ∃ q new, t.db.payments pid = some q ∧ t.db.eventsOf pid = s.db.eventsOf pid ++ new ∧ Since new p q := by
  induction hpath with
  | refl => exact ⟨p, [], hp, (List.append_nil _).symm, since_refl p⟩
  | tail hbefore hlast ih =>
    obtain ⟨q, new, hq, hnew, hsince⟩ := ih
    obtain ⟨a, -, hs⟩ := hlast
    obtain ⟨r, new', hr', hnew', hsince'⟩ := (step_sound hs).since (hr.path hbefore) hq
    exact ⟨r, new ++ new', hr', by rw [hnew', hnew, List.append_assoc], hsince.trans hsince'⟩

/-- The stored responses are the rows as they were inserted. -/
structure Inserted (db : Db) (k : IdempotencyKey) : Prop where
  pending : k.responseBody.status = PENDING ∧ k.responseBody.version = 0 ∧ k.responseBody.id = k.paymentId
  payment : ∃ q e new, db.payments k.paymentId = some q ∧ db.eventsOf k.paymentId = e :: new ∧ Since new k.responseBody q

/-- A stored response was stored before, or its submission is accepted now. -/
theorem Pipeline.Step.key_inv (h : Step port env s a s') {k : IdempotencyKey} (hk : k ∈ s'.db.idempotencyKeys) :
    k ∈ s.db.idempotencyKeys ∨ ∃ dto row key hash e, k = keyRow dto row key hash s.now ∧ e.paymentId = row.id ∧
      (∃ id amountCents, row = paymentRow dto id amountCents s.now) ∧ s.db.payments row.id = none ∧
      s'.db.payments row.id = some row ∧ s'.db.paymentEvents = s.db.paymentEvents ++ [e] := by
  cases h with
  | accepted dto key hash correlationId amountCents row hvalid hamount hrow hfresh =>
    rcases List.mem_append.1 hk with hold | hnew
    · exact Or.inl hold
    · cases List.mem_singleton.1 hnew
      exact Or.inr ⟨dto, row, key, hash, submittedEvent row _ correlationId s.now, rfl, rfl, ⟨_, _, hrow⟩, hfresh,
        Function.update_self .., rfl⟩
  | _ => exact Or.inl hk

theorem inserted (h : Reach (system port env) C s) : ∀ k ∈ s.db.idempotencyKeys, Inserted s.db k := by
  refine h.invariant (I := fun s => ∀ k ∈ s.db.idempotencyKeys, Inserted s.db k) (fun _ hk => by cases hk)
    fun t a t' hr hI _ hs k hk => ?_
  have hrule := step_sound hs
  rcases hrule.key_inv hk with hold | ⟨dto, row, key, hash, e, rfl, he, ⟨id, amountCents, hrow⟩, hfresh, hpayment, hevents⟩
  · obtain ⟨hpending, q, e, new, hq, hnew, hsince⟩ := hI k hold
    obtain ⟨r, new', hr', hnew', hsince'⟩ := hrule.since hr hq
    exact ⟨hpending, r, e, new ++ new', hr', by rw [hnew', hnew, List.cons_append], hsince.trans hsince'⟩
  · refine ⟨by subst hrow; exact ⟨rfl, rfl, rfl⟩, row, e, [], hpayment, ?_, since_refl row⟩
    show t'.db.eventsOf row.id = [e]
    have hblank : t.db.eventsOf row.id = [] := ((ledgerInv hr).owned.blank hfresh).1
    unfold Db.eventsOf at hblank ⊢
    rw [hevents, List.filter_append, hblank, filter_owner, he, if_pos rfl]
    rfl

/-! ## Clients -/

/-- What a client that has read a payment in one state reads of it in a later one: the same payment, with the audit rows
since. -/
structure ReadOn (s t : Db) (id : String) (p q : Payment) (new : List PaymentEvent) : Prop where
  row : t.findOne id = .ok q
  events : t.eventsOf id = s.eventsOf id ++ new
  since : Since new p q
  final : p.status.terminal = true → q = p
  /-- a call whose check saw the payment, and whose select sees this state, counts the versions -/
  listed : ∀ result, EventsRead s t id result → ∃ rows, result = .ok rows ∧ rows.length = q.version + 1

theorem findOne_ok {db : Db} {id : String} (h : db.findOne id = .ok p) : db.payments id = some p := by
  unfold Db.findOne at h
  split at h
  · cases h
  · rename_i row hrow
    cases h
    exact hrow

theorem findOne_some {db : Db} {id : String} (h : db.payments id = some p) : db.findOne id = .ok p := by
  unfold Db.findOne
  rw [h]

/-- In every run, whatever a client has read of a payment by its id is what it reads of it at any later time, or an earlier
point of the same life, and the answer to a replayed submission is its beginning. -/
theorem reads_progress {test : Action κ → Bool} (hr : Reach (system port env) C s) (hpath : Path (system port env) test s t) :
    (∀ id p, s.db.findOne id = .ok p → ∃ q new, ReadOn s.db t.db id p q new) ∧
    ∀ k ∈ t.db.idempotencyKeys, Inserted t.db k := by
  have hreach := hr.free.path hpath
  refine ⟨fun id p hp => ?_, inserted hreach⟩
  obtain ⟨q, new, hq, hnew, hsince⟩ := since_of_path hr.free hpath (findOne_ok hp)
  refine ⟨q, new, findOne_some hq, hnew, hsince, fun hfinal => hsince.same (hsince.leads.eq_nil hfinal), fun result hread => ?_⟩
  cases hread with
  | missing hmissing =>
    rw [hp] at hmissing
    cases hmissing
  | @found _ rows _ hrows =>
    refine ⟨rows, rfl, ?_⟩
    rw [hrows.1.length_eq]
    exact (audit_mirrors_payments hreach hq).version

/-- A payment is read when it is accepted, and again when it is completed. -/
theorem reads_progress_completed : ∃ s t, Reach (system SimulatedBankAdapter.port standard) Free s ∧
    Path (system SimulatedBankAdapter.port standard) (fun _ => true) s t ∧
    (s.db.payments "0").any (fun p => p.status = PENDING) = true ∧
    (t.db.payments "0").any (fun q => q.status = COMPLETED) = true ∧
    (∀ id p, s.db.findOne id = .ok p → ∃ q new, ReadOn s.db t.db id p q new) ∧
    ∀ k ∈ t.db.idempotencyKeys, Inserted t.db k := by
  obtain ⟨s, hexec, hpending⟩ := (Option.any_eq_true _ _).1 (show (exec (system SimulatedBankAdapter.port standard)
    (system SimulatedBankAdapter.port standard).init (accept order 0 "00")).any (fun s =>
      (s.db.payments "0").any (fun p => p.status = PENDING) &&
        (exec (system SimulatedBankAdapter.port standard) s (claim 0 0 "00" ++ call 0 200 ++ settle 0)).any fun t =>
          (t.db.payments "0").any fun q => q.status = COMPLETED) = true by decide)
  obtain ⟨hpending, hcompleted⟩ := Bool.and_eq_true_iff.1 hpending
  obtain ⟨t, hexec', hcompleted⟩ := (Option.any_eq_true _ _).1 hcompleted
  have hs : Reach (system SimulatedBankAdapter.port standard) Free s := Reach.init.exec hexec
  have hpath := Path.of_exec (p := fun _ => true) (fun _ _ => rfl) hexec'
  exact ⟨s, t, hs, hpath, hpending, hcompleted, reads_progress hs hpath⟩

end PaymentsProcessor
