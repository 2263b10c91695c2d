/-
What idempotent submission is for, with one call at a time: histories of `Submission.insertTxn` from the empty
database, the rows they leave and the answers they give.
-/
import PaymentsProcessor.Payments.InsertTxn

namespace PaymentsProcessor

namespace Submission

/-- The amount of the call in minor units. -/
def amountCents (x : Submission) : Nat := (convAmountToUnits x.dto.amount).toOption.getD 0

/-- The amount can be parsed. -/
def parsed (x : Submission) : Prop := convAmountToUnits x.dto.amount = .ok x.amountCents

/-- The payment of the call. -/
def payment (x : Submission) : Payment := x.row x.amountCents

/-- The customer and the idempotency key of the call. -/
def pair (x : Submission) : String × String := (x.dto.customerId, x.key)

/-- The four rows of the call. -/
def event (x : Submission) : PaymentEvent := submittedEvent x.payment x.eventId x.correlationId x.began
def keyEntry (x : Submission) : IdempotencyKey := keyRow x.dto x.payment x.key x.hash x.began
def outboxRow (x : Submission) : OutboxRow := submittedRow x.payment x.outboxId x.correlationId x.began

@[simp] theorem payment_id (x : Submission) : x.payment.id = x.id := rfl

variable {x : Submission} {db : Db}

theorem parsed_of_ok {n : Nat} (h : convAmountToUnits x.dto.amount = .ok n) : x.parsed ∧ x.amountCents = n := by
  have hn : x.amountCents = n := by
    unfold amountCents
    rw [h]
    rfl
  exact ⟨by unfold parsed; rw [h, hn], hn⟩

theorem insertTxn_free (hx : x.parsed) (hid : db.payments x.id = none) (hkey : db.findKey x.dto.customerId x.key = none) :
    x.insertTxn db = (.returned false 202 x.payment, x.store x.payment db) := by
  have hfree : ¬ ((db.payments x.id).isSome = true ∨ (db.findKey x.dto.customerId x.key).isSome = true) := by
    rw [hid, hkey]
    simp
  unfold insertTxn
  rw [show convAmountToUnits x.dto.amount = .ok x.amountCents from hx]
  dsimp only
  rw [if_neg hfree]
  rfl

theorem insertTxn_taken {k : IdempotencyKey} (hx : x.parsed) (hkey : db.findKey x.dto.customerId x.key = some k) :
    x.insertTxn db = (replay x.dto x.key x.hash (some k), db) := by
  have htaken : (db.payments x.id).isSome = true ∨ (db.findKey x.dto.customerId x.key).isSome = true := by
    rw [hkey]
    exact Or.inr rfl
  unfold insertTxn
  rw [show convAmountToUnits x.dto.amount = .ok x.amountCents from hx]
  dsimp only
  rw [if_pos htaken, hkey]

end Submission

/-! ## Histories -/

/-- A call with what it is answered. -/
structure Answer where
  call : Nat
  x : Submission
  result : InsertResult

/-- The call committed its rows. -/
def Answer.committed (a : Answer) : Bool :=
  match a.result with
  | .returned false _ _ => true
  | _ => false

/-- The calls that committed, in order. -/
def committedOf (h : List Answer) : List Submission := (h.filter Answer.committed).map Answer.x

/-- The answers and the tables of calls made one after the other. -/
inductive Sequential : List Answer → Db → Prop
  | nil : Sequential [] Db.empty
  | snoc {h : List Answer} {db db' : Db} {c : Nat} {x : Submission} {result : InsertResult} :
      Sequential h db → x.insertTxn db = (result, db') → Sequential (h ++ [⟨c, x, result⟩]) db'

/-- The message of the `ConflictException`. -/
def reusedKey : InsertResult := .conflict "Idempotency-Key reused with a different request payload"

/-- How a call is answered: with its own payment, as a conflict with the call that has its pair, or with the payment
of that call. -/
inductive Answered (h : List Answer) (a : Answer) : Prop
  | committed (hresult : a.result = .returned false 202 a.x.payment)
  | conflict (y : Submission) (hy : y ∈ committedOf h) (hpair : y.pair = a.x.pair) (hhash : y.hash ≠ a.x.hash)
      (hresult : a.result = reusedKey)
  | replayed (y : Submission) (hy : y ∈ committedOf h) (hpair : y.pair = a.x.pair) (hhash : y.hash = a.x.hash)
      (hresult : a.result = .returned true 202 y.payment)

/-- What a history has written and answered. -/
structure HistoryInv (h : List Answer) (db : Db) : Prop where
  payments : ∀ id p, db.payments id = some p ↔ ∃ x ∈ committedOf h, x.payment = p ∧ x.id = id
  events : db.paymentEvents = (committedOf h).map Submission.event
  keys : db.idempotencyKeys = (committedOf h).map Submission.keyEntry
  outbox : db.outbox = (committedOf h).map Submission.outboxRow
  pairs : ((committedOf h).map Submission.pair).Nodup
  ids : ((committedOf h).map Submission.id).Nodup
  answered : ∀ a ∈ h, Answered h a

variable {h : List Answer} {db db' : Db} {a : Answer} {x y : Submission}

theorem committedOf_snoc (h : List Answer) (a : Answer) :
    committedOf (h ++ [a]) = committedOf h ++ if a.committed then [a.x] else [] := by
  unfold committedOf
  rw [List.filter_append, List.map_append]
  cases hc : a.committed <;> simp [hc]

theorem Answered.snoc (ha : Answered h a) (b : Answer) : Answered (h ++ [b]) a := by
  have hmem : ∀ y ∈ committedOf h, y ∈ committedOf (h ++ [b]) := fun y hy => by
    rw [committedOf_snoc]
    exact List.mem_append_left _ hy
  cases ha with
  | committed hresult => exact .committed hresult
  | conflict y hy hpair hhash hresult => exact .conflict y (hmem y hy) hpair hhash hresult
  | replayed y hy hpair hhash hresult => exact .replayed y (hmem y hy) hpair hhash hresult

/-- The key of a pair is that of the call that committed it. -/
theorem HistoryInv.findKey_eq_some (hI : HistoryInv h db) {customerId key : String} {k : IdempotencyKey}
    (hk : db.findKey customerId key = some k) : ∃ y ∈ committedOf h, y.pair = (customerId, key) ∧ k = y.keyEntry := by
  unfold Db.findKey at hk
  have hmem := List.mem_of_find?_eq_some hk
  have hpair := List.find?_some hk
  rw [hI.keys] at hmem
  obtain ⟨y, hy, rfl⟩ := List.mem_map.1 hmem
  exact ⟨y, hy, Prod.ext (of_decide_eq_true hpair).1 (of_decide_eq_true hpair).2, rfl⟩

theorem HistoryInv.findKey_eq_none (hI : HistoryInv h db) {customerId key : String}
    (hk : db.findKey customerId key = none) : ∀ y ∈ committedOf h, y.pair ≠ (customerId, key) := by
  intro y hy hpair
  unfold Db.findKey at hk
  rw [hI.keys, List.find?_eq_none] at hk
  refine hk _ (List.mem_map_of_mem hy) (decide_eq_true ?_)
  exact ⟨congrArg Prod.fst hpair, congrArg Prod.snd hpair⟩

theorem HistoryInv.payments_eq_none (hI : HistoryInv h db) {id : String} (hid : ∀ y ∈ committedOf h, y.id ≠ id) :
    db.payments id = none := by
  cases hp : db.payments id with
  | none => rfl
  | some p =>
    obtain ⟨y, hy, -, hyid⟩ := (hI.payments id p).1 hp
    exact absurd hyid (hid y hy)

/-- A call that finds its pair free, with a new id, adds its four rows. -/
theorem HistoryInv.store (hI : HistoryInv h db) (c : Nat) (hkey : db.findKey x.dto.customerId x.key = none)
    (hid : ∀ y ∈ committedOf h, y.id ≠ x.id) :
    HistoryInv (h ++ [⟨c, x, .returned false 202 x.payment⟩]) (x.store x.payment db) := by
  have hcommitted : committedOf (h ++ [⟨c, x, .returned false 202 x.payment⟩]) = committedOf h ++ [x] :=
    committedOf_snoc h _
  refine ⟨fun id p => ?_, ?_, ?_, ?_, ?_, ?_, fun a ha => ?_⟩
  · rw [hcommitted]
    show Function.update db.payments x.id (some x.payment) id = some p ↔ _
    by_cases hx : id = x.id
    · subst hx
      rw [Function.update_self]
      constructor
      · intro hp
        cases hp
        exact ⟨x, List.mem_append_right _ (List.mem_singleton_self x), rfl, rfl⟩
      · rintro ⟨y, hy, rfl, hyid⟩
        rcases List.mem_append.1 hy with hold | hnew
        · exact absurd hyid (hid y hold)
        · rw [List.mem_singleton.1 hnew]
    · rw [Function.update_of_ne hx, hI.payments]
      constructor
      · rintro ⟨y, hy, hrest⟩
        exact ⟨y, List.mem_append_left _ hy, hrest⟩
      · rintro ⟨y, hy, hp, hyid⟩
        rcases List.mem_append.1 hy with hold | hnew
        · exact ⟨y, hold, hp, hyid⟩
        · rw [List.mem_singleton.1 hnew] at hyid
          exact absurd hyid.symm hx
  · rw [hcommitted, List.map_append, ← hI.events]
    rfl
  · rw [hcommitted, List.map_append, ← hI.keys]
    rfl
  · rw [hcommitted, List.map_append, ← hI.outbox]
    rfl
  · rw [hcommitted, List.map_append, List.map_singleton, List.nodup_append]
    refine ⟨hI.pairs, List.nodup_singleton _, fun p hp q hq heq => ?_⟩
    obtain ⟨y, hy, rfl⟩ := List.mem_map.1 hp
    rw [List.mem_singleton.1 hq] at heq
    exact hI.findKey_eq_none hkey y hy heq
  · rw [hcommitted, List.map_append, List.map_singleton, List.nodup_append]
    refine ⟨hI.ids, List.nodup_singleton _, fun p hp q hq heq => ?_⟩
    obtain ⟨y, hy, rfl⟩ := List.mem_map.1 hp
    rw [List.mem_singleton.1 hq] at heq
    exact hid y hy heq
  · rcases List.mem_append.1 ha with hold | hnew
    · exact (hI.answered a hold).snoc _
    · rw [List.mem_singleton.1 hnew]
      exact .committed rfl

/-- A call that finds its pair taken adds nothing. -/
theorem HistoryInv.replay (hI : HistoryInv h db) (c : Nat) {k : IdempotencyKey}
    (hkey : db.findKey x.dto.customerId x.key = some k) :
    HistoryInv (h ++ [⟨c, x, replay x.dto x.key x.hash (some k)⟩]) db := by
  obtain ⟨y, hy, hpair, rfl⟩ := hI.findKey_eq_some hkey
  have hresult : PaymentsProcessor.replay x.dto x.key x.hash (some y.keyEntry) =
      if y.hash ≠ x.hash then reusedKey else .returned true 202 y.payment := rfl
  have hcommitted : committedOf (h ++ [⟨c, x, PaymentsProcessor.replay x.dto x.key x.hash (some y.keyEntry)⟩]) =
      committedOf h := by
    rw [committedOf_snoc, hresult, if_neg, List.append_nil]
    unfold Answer.committed
    by_cases hhash : y.hash = x.hash <;> simp [hhash, reusedKey]
  refine ⟨by rw [hcommitted]; exact hI.payments, by rw [hcommitted]; exact hI.events, by rw [hcommitted]; exact hI.keys,
    by rw [hcommitted]; exact hI.outbox, by rw [hcommitted]; exact hI.pairs, by rw [hcommitted]; exact hI.ids,
    fun a ha => ?_⟩
  rcases List.mem_append.1 ha with hold | hnew
  · exact (hI.answered a hold).snoc _
  · rw [List.mem_singleton.1 hnew]
    rw [← hcommitted] at hy
    by_cases hhash : y.hash = x.hash
    · exact .replayed y hy hpair hhash (by rw [hresult, if_neg (not_not.2 hhash)])
    · exact .conflict y hy hpair hhash (by rw [hresult, if_pos hhash])

/-- A history of calls with distinct ids and amounts that can be parsed. -/
theorem Sequential.inv (hs : Sequential h db) (hids : (h.map fun a => a.x.id).Nodup) (hparsed : ∀ a ∈ h, a.x.parsed) :
    HistoryInv h db := by
  induction hs with
  | nil =>
    refine ⟨fun id p => ?_, rfl, rfl, rfl, List.nodup_nil, List.nodup_nil, fun a ha => absurd ha List.not_mem_nil⟩
    constructor
    · intro hp
      cases hp
    · rintro ⟨x, hx, -⟩
      cases hx
  | @snoc h db db' c x result hs hcall ih =>
    rw [List.map_append, List.map_singleton, List.nodup_append] at hids
    have hI := ih hids.1 fun a ha => hparsed a (List.mem_append_left _ ha)
    have hx : x.parsed := hparsed ⟨c, x, result⟩ (List.mem_append_right _ (List.mem_singleton_self _))
    have hnew : ∀ y ∈ committedOf h, y.id ≠ x.id := by
      intro y hy
      obtain ⟨a, ha, rfl⟩ := List.mem_map.1 hy
      exact hids.2.2 _ (List.mem_map_of_mem (List.mem_filter.1 ha).1) _ (List.mem_singleton_self _)
    cases hkey : db.findKey x.dto.customerId x.key with
    | none =>
      rw [Submission.insertTxn_free hx (hI.payments_eq_none hnew) hkey] at hcall
      cases hcall
      exact hI.store c hkey hnew
    | some k =>
      rw [Submission.insertTxn_taken hx hkey] at hcall
      cases hcall
      exact hI.replay c hkey

end PaymentsProcessor
