/-
Concurrent calls of `insert_txn`, one step for each of their statements. What a transaction has inserted is seen by
no other until its commit stores its four rows, but its entry for the pair of customer and key makes the inserts of
the same pair wait. The ids are drawn from those never drawn before, so that the constraint of the pair is the only
one an insert can violate.
-/
import PaymentsProcessor.Base.PartialMap
import PaymentsProcessor.Base.Transition
import PaymentsProcessor.Payments.Sequential

namespace PaymentsProcessor.Submissions

open Transition PartialMap

/-! ## The state -/

/-- Where a call is. -/
inductive CallPc
  /-- the amount is parsed, the transaction not begun -/
  | started
  | begun
  | insertedPayment
  | insertedEvent
  | insertedKey
  | insertedOutbox
  /-- an insert failed with code 23505, and everything is rolled back -/
  | violated
  /-- the transaction is committed, the call has not returned -/
  | committed
  /-- the call returned, or threw what it found for its pair -/
  | ended (result : InsertResult)
  /-- an error of another kind was passed on -/
  | threw (message : String)
  /-- its process died -/
  | crashed
  deriving DecidableEq

/-- A call in progress or past; the ids and the time of its transaction are filled in as they are drawn and read. -/
structure Call where
  x : Submission
  pc : CallPc

structure State where
  now : Nat
  db : Db
  /-- the ids drawn so far -/
  drawn : List String
  /-- the pairs inserted by open transactions -/
  held : String × String → Option Nat
  calls : Nat → Option Call
  /-- the calls in the order in which they took effect, which no step reads -/
  answers : List Answer

/-- Nothing has happened. -/
def State.initial : State where
  now := 0
  db := .empty
  drawn := []
  held := fun _ => none
  calls := fun _ => none
  answers := []

/-- Move a call on. -/
def State.setCall (s : State) (c : Nat) (call : Call) : State :=
  { s with calls := Function.update s.calls c (some call) }

/-- The transaction of a call ends without a trace. -/
def State.rollback (s : State) (c : Nat) (call : Call) : State :=
  { s.setCall c call with held := unlock s.held c }

/-! ## The statements -/

/-- A call with two ids drawn; its event has none yet, and its transaction has not begun. -/
def called (dto : CreatePaymentDto) (key hash correlationId id outboxId : String) : Submission where
  dto := dto
  key := key
  hash := hash
  correlationId := correlationId
  id := id
  outboxId := outboxId
  eventId := ""
  began := 0

/-- The head of `insert_txn`: two ids are drawn and the amount is parsed. -/
def start (c : Nat) (dto : CreatePaymentDto) (key hash correlationId id outboxId : String) (s : State) : Option State :=
  match s.calls c with
  | none =>
    if id ∉ s.drawn ∧ outboxId ∉ s.drawn ∧ id ≠ outboxId then
      let x := called dto key hash correlationId id outboxId
      match convAmountToUnits dto.amount with
      | .error message => some { s.setCall c ⟨x, .threw message⟩ with drawn := id :: outboxId :: s.drawn }
      | .ok _ => some { s.setCall c ⟨x, .started⟩ with drawn := id :: outboxId :: s.drawn }
    else none
  | some _ => none

/-- `BEGIN`. -/
def begin_ (c : Nat) (s : State) : Option State :=
  match s.calls c with
  | some ⟨x, .started⟩ => some (s.setCall c ⟨{ x with began := s.now }, .begun⟩)
  | _ => none

/-- `INSERT INTO payments … RETURNING *`. -/
def insertPayment (c : Nat) (s : State) : Option State :=
  match s.calls c with
  | some ⟨x, .begun⟩ => some (s.setCall c ⟨x, .insertedPayment⟩)
  | _ => none

/-- `INSERT INTO payment_events`, under an id drawn for it. -/
def insertEvent (c : Nat) (eventId : String) (s : State) : Option State :=
  match s.calls c with
  | some ⟨x, .insertedPayment⟩ =>
    if eventId ∉ s.drawn then
      some { s.setCall c ⟨{ x with eventId := eventId }, .insertedEvent⟩ with drawn := eventId :: s.drawn }
    else none
  | _ => none

/-- `INSERT INTO idempotency_keys`: it fails where a row of the pair is committed, and waits where an open
transaction has inserted one. -/
def insertKey (c : Nat) (s : State) : Option State :=
  match s.calls c with
  | some ⟨x, .insertedEvent⟩ =>
    if (s.db.findKey x.dto.customerId x.key).isSome then some (s.rollback c ⟨x, .violated⟩)
    else if (s.held x.pair).isSome then none
    else some { s.setCall c ⟨x, .insertedKey⟩ with held := Function.update s.held x.pair (some c) }
  | _ => none

/-- `INSERT INTO outbox`. -/
def insertOutbox (c : Nat) (s : State) : Option State :=
  match s.calls c with
  | some ⟨x, .insertedKey⟩ => some (s.setCall c ⟨x, .insertedOutbox⟩)
  | _ => none

/-- `COMMIT`. -/
def commit (c : Nat) (s : State) : Option State :=
  match s.calls c with
  | some ⟨x, .insertedOutbox⟩ =>
    some { s.rollback c ⟨x, .committed⟩ with
      db := x.store x.payment s.db
      answers := s.answers ++ [⟨c, x, .returned false 202 x.payment⟩] }
  | _ => none

/-- The call returns its own payment. -/
def answer (c : Nat) (s : State) : Option State :=
  match s.calls c with
  | some ⟨x, .committed⟩ => some (s.setCall c ⟨x, .ended (.returned false 202 x.payment)⟩)
  | _ => none

/-- The select of the row of the pair, and what the call makes of it. -/
def read (c : Nat) (s : State) : Option State :=
  match s.calls c with
  | some ⟨x, .violated⟩ =>
    let result := replay x.dto x.key x.hash (s.db.findKey x.dto.customerId x.key)
    some { s.setCall c ⟨x, .ended result⟩ with answers := s.answers ++ [⟨c, x, result⟩] }
  | _ => none

/-- The places where an awaited database operation may reject. -/
def CallPc.mayFail : CallPc → Bool
  | .started | .begun | .insertedPayment | .insertedEvent | .insertedKey | .insertedOutbox | .violated => true
  | .committed | .ended _ | .threw _ | .crashed => false

/-- An awaited operation rejects with another error: its transaction is rolled back and the call throws. -/
def fail (c : Nat) (message : String) (s : State) : Option State :=
  match s.calls c with
  | some ⟨x, pc⟩ => if pc.mayFail then some (s.rollback c ⟨x, .threw message⟩) else none
  | none => none

/-- The process of a call dies. -/
def crash (c : Nat) (s : State) : Option State :=
  match s.calls c with
  | some ⟨x, pc⟩ => if pc.mayFail ∨ pc = .committed then some (s.rollback c ⟨x, .crashed⟩) else none
  | none => none

/-! ## The system -/

inductive Action
  | tick (ms : Nat)
  | start (c : Nat) (dto : CreatePaymentDto) (key hash correlationId id outboxId : String)
  | begin_ (c : Nat)
  | insertPayment (c : Nat)
  | insertEvent (c : Nat) (eventId : String)
  | insertKey (c : Nat)
  | insertOutbox (c : Nat)
  | commit (c : Nat)
  | answer (c : Nat)
  | read (c : Nat)
  | fail (c : Nat) (message : String)
  | crash (c : Nat)

/-- One step. -/
def step (s : State) : Action → Option State
  | .tick ms => some { s with now := s.now + ms }
  | .start c dto key hash correlationId id outboxId => start c dto key hash correlationId id outboxId s
  | .begin_ c => begin_ c s
  | .insertPayment c => insertPayment c s
  | .insertEvent c eventId => insertEvent c eventId s
  | .insertKey c => insertKey c s
  | .insertOutbox c => insertOutbox c s
  | .commit c => commit c s
  | .answer c => answer c s
  | .read c => read c s
  | .fail c message => fail c message s
  | .crash c => crash c s

/-- Any number of calls from an empty database on. -/
def system : System State Action where
  init := State.initial
  step := step

/-! ## The rules -/

/-- The steps that only move a call on, perhaps with a value read or drawn. -/
inductive Walk (s : State) (c : Nat) (x : Submission) : Action → CallPc → Submission → CallPc → List String → Prop
  | begin_ : Walk s c x (.begin_ c) .started { x with began := s.now } .begun []
  | insertPayment : Walk s c x (.insertPayment c) .begun x .insertedPayment []
  | insertEvent (eventId : String) (hfresh : eventId ∉ s.drawn) :
      Walk s c x (.insertEvent c eventId) .insertedPayment { x with eventId := eventId } .insertedEvent [eventId]
  | insertOutbox : Walk s c x (.insertOutbox c) .insertedKey x .insertedOutbox []
  | answer : Walk s c x (.answer c) .committed x (.ended (.returned false 202 x.payment)) []

/-- What each step can do. -/
inductive Step (s : State) : Action → State → Prop
  | tick (ms : Nat) : Step s (.tick ms) { s with now := s.now + ms }
  | start (c : Nat) (x : Submission) (pc : CallPc) (hx : x = called x.dto x.key x.hash x.correlationId x.id x.outboxId)
      (hc : s.calls c = none) (hfresh : x.id ∉ s.drawn ∧ x.outboxId ∉ s.drawn ∧ x.id ≠ x.outboxId)
      (hpc : (∃ message, convAmountToUnits x.dto.amount = .error message ∧ pc = .threw message) ∨
        pc = .started ∧ x.parsed) :
      Step s (.start c x.dto x.key x.hash x.correlationId x.id x.outboxId)
        { s.setCall c ⟨x, pc⟩ with drawn := x.id :: x.outboxId :: s.drawn }
  | walk (c : Nat) (x y : Submission) (a : Action) (pc pc' : CallPc) (ids : List String) (hc : s.calls c = some ⟨x, pc⟩)
      (hwalk : Walk s c x a pc y pc' ids) : Step s a { s.setCall c ⟨y, pc'⟩ with drawn := ids ++ s.drawn }
  | violate (c : Nat) (x : Submission) (hc : s.calls c = some ⟨x, .insertedEvent⟩)
      (htaken : (s.db.findKey x.dto.customerId x.key).isSome = true) :
      Step s (.insertKey c) (s.rollback c ⟨x, .violated⟩)
  | insertKey (c : Nat) (x : Submission) (hc : s.calls c = some ⟨x, .insertedEvent⟩)
      (hfree : s.db.findKey x.dto.customerId x.key = none) (hheld : s.held x.pair = none) :
      Step s (.insertKey c) { s.setCall c ⟨x, .insertedKey⟩ with held := Function.update s.held x.pair (some c) }
  | commit (c : Nat) (x : Submission) (hc : s.calls c = some ⟨x, .insertedOutbox⟩) :
      Step s (.commit c) { s.rollback c ⟨x, .committed⟩ with
        db := x.store x.payment s.db
        answers := s.answers ++ [⟨c, x, .returned false 202 x.payment⟩] }
  | read (c : Nat) (x : Submission) (hc : s.calls c = some ⟨x, .violated⟩) :
      Step s (.read c) { s.setCall c ⟨x, .ended (replay x.dto x.key x.hash (s.db.findKey x.dto.customerId x.key))⟩ with
        answers := s.answers ++ [⟨c, x, replay x.dto x.key x.hash (s.db.findKey x.dto.customerId x.key)⟩] }
  | fail (c : Nat) (x : Submission) (pc : CallPc) (message : String) (hc : s.calls c = some ⟨x, pc⟩)
      (hpc : pc.mayFail = true) : Step s (.fail c message) (s.rollback c ⟨x, .threw message⟩)
  | crash (c : Nat) (x : Submission) (pc : CallPc) (hc : s.calls c = some ⟨x, pc⟩)
      (hpc : pc.mayFail = true ∨ pc = .committed) : Step s (.crash c) (s.rollback c ⟨x, .crashed⟩)

variable {s s' : State} {a : Action}

theorem step_sound (h : step s a = some s') : Step s a s' := by
  cases a with
  | tick ms => cases h; exact .tick ms
  | start c dto key hash correlationId id outboxId =>
    have hrule := fun pc => Step.start (s := s) c (called dto key hash correlationId id outboxId) pc rfl
    dsimp only [step, start] at h
    split at h
    · rename_i hc
      split at h
      · rename_i hfresh
        split at h
        · rename_i message hamount
          rw [← Option.some.inj h]
          exact hrule _ hc hfresh (Or.inl ⟨message, hamount, rfl⟩)
        · rename_i n hamount
          have hparsed : (called dto key hash correlationId id outboxId).parsed :=
            (Submission.parsed_of_ok (x := called dto key hash correlationId id outboxId) hamount).1
          rw [← Option.some.inj h]
          exact hrule _ hc hfresh (Or.inr ⟨rfl, hparsed⟩)
      · cases h
    · cases h
  | begin_ c =>
    dsimp only [step, begin_] at h
    split at h
    · rename_i x hc; cases h; exact .walk c x _ _ _ _ _ hc .begin_
    · cases h
  | insertPayment c =>
    dsimp only [step, insertPayment] at h
    split at h
    · rename_i x hc; cases h; exact .walk c x _ _ _ _ _ hc .insertPayment
    · cases h
  | insertEvent c eventId =>
    dsimp only [step, insertEvent] at h
    split at h
    · rename_i x hc
      split at h
      · rename_i hfresh; cases h; exact .walk c x _ _ _ _ _ hc (.insertEvent eventId hfresh)
      · cases h
    · cases h
  | insertKey c =>
    dsimp only [step, insertKey] at h
    split at h
    · rename_i x hc
      split at h
      · rename_i htaken; cases h; exact .violate c x hc htaken
      · rename_i hfree
        split at h
        · cases h
        · rename_i hheld
          cases h
          exact .insertKey c x hc (Option.not_isSome_iff_eq_none.1 hfree) (Option.not_isSome_iff_eq_none.1 hheld)
    · cases h
  | insertOutbox c =>
    dsimp only [step, insertOutbox] at h
    split at h
    · rename_i x hc; cases h; exact .walk c x _ _ _ _ _ hc .insertOutbox
    · cases h
  | commit c =>
    dsimp only [step, commit] at h
    split at h
    · rename_i x hc; cases h; exact .commit c x hc
    · cases h
  | answer c =>
    dsimp only [step, answer] at h
    split at h
    · rename_i x hc; cases h; exact .walk c x _ _ _ _ _ hc .answer
    · cases h
  | read c =>
    dsimp only [step, read] at h
    split at h
    · rename_i x hc; cases h; exact .read c x hc
    · cases h
  | fail c message =>
    dsimp only [step, fail] at h
    split at h
    · rename_i x pc hc
      split at h
      · rename_i hpc; cases h; exact .fail c x pc message hc hpc
      · cases h
    · cases h
  | crash c =>
    dsimp only [step, crash] at h
    split at h
    · rename_i x pc hc
      split at h
      · rename_i hpc; cases h; exact .crash c x pc hc hpc
      · cases h
    · cases h

theorem step_complete (h : Step s a s') : step s a = some s' := by
  cases h with
  | tick ms => rfl
  | start c x pc hx hc hfresh hpc =>
    dsimp only [step, start]
    rw [hc]
    dsimp only
    rw [if_pos hfresh, ← hx]
    rcases hpc with ⟨message, hamount, rfl⟩ | ⟨rfl, hamount⟩
    · rw [hamount]
    · rw [show convAmountToUnits x.dto.amount = .ok x.amountCents from hamount]
  | walk c x y a pc pc' ids hc hwalk =>
    cases hwalk with
    | begin_ => dsimp only [step, begin_]; rw [hc]; rfl
    | insertPayment => dsimp only [step, insertPayment]; rw [hc]; rfl
    | insertEvent eventId hfresh =>
      dsimp only [step, insertEvent]
      rw [hc]
      exact if_pos hfresh
    | insertOutbox => dsimp only [step, insertOutbox]; rw [hc]; rfl
    | answer => dsimp only [step, answer]; rw [hc]; rfl
  | violate c x hc htaken =>
    dsimp only [step, insertKey]
    rw [hc]
    exact if_pos htaken
  | insertKey c x hc hfree hheld =>
    dsimp only [step, insertKey]
    rw [hc]
    dsimp only
    rw [hfree, hheld]
    rfl
  | commit c x hc => dsimp only [step, commit]; rw [hc]
  | read c x hc => dsimp only [step, read]; rw [hc]
  | fail c x pc message hc hpc =>
    dsimp only [step, fail]
    rw [hc]
    exact if_pos hpc
  | crash c x pc hc hpc =>
    dsimp only [step, crash]
    rw [hc]
    exact if_pos hpc

end PaymentsProcessor.Submissions
