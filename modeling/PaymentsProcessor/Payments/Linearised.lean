/-
Every interleaving of the statements of `insert_txn` is a sequential history: a call takes effect where it commits,
or where it reads the row of its pair, and its answer is the one it would have got with no other call in progress.
-/
import PaymentsProcessor.Payments.Statements
import Mathlib.Data.List.Nodup

namespace PaymentsProcessor.Submissions

open Transition PartialMap

variable {s s' : State} {a : Action} {c : Nat} {x y : Submission} {pc pc' : CallPc}

/-! ## The invariant -/

/-- The transaction of the call has inserted the entry of its pair. -/
def CallPc.holdsKey : CallPc → Bool
  | .insertedKey | .insertedOutbox => true
  | _ => false

/-- The call has thrown an error other than those about its pair. -/
def CallPc.failed : CallPc → Bool
  | .threw _ => true
  | _ => false

/-- The call has taken effect with the answer. -/
def CallPc.answered (x : Submission) (result : InsertResult) : CallPc → Prop
  | .committed => result = .returned false 202 x.payment
  | .ended result' => result' = result
  | .crashed => True
  | _ => False

/-- What holds of a call by where it is. -/
structure CallInv (s : State) (c : Nat) (call : Call) : Prop where
  drawn : call.x.id ∈ s.drawn
  parsed : call.pc.failed = false → call.x.parsed
  holds : call.pc.holdsKey = true → s.held call.x.pair = some c
  violated : call.pc = .violated → (s.db.findKey call.x.dto.customerId call.x.key).isSome = true
  pending : call.pc.mayFail = true ∨ call.pc.failed = true → ∀ a ∈ s.answers, a.call ≠ c
  committed : call.pc = .committed → ⟨c, call.x, .returned false 202 call.x.payment⟩ ∈ s.answers
  ended : ∀ result, call.pc = .ended result → ⟨c, call.x, result⟩ ∈ s.answers

/-- The open transaction of the call has inserted the entry of the pair, of which no row is committed. -/
def HeldBy (s : State) (p : String × String) (c : Nat) : Prop :=
  ∃ call, s.calls c = some call ∧ call.pc.holdsKey = true ∧ call.x.pair = p ∧ s.db.findKey p.1 p.2 = none

structure SubmissionsInv (s : State) : Prop where
  calls : All s.calls (CallInv s)
  distinct : ∀ c c' call call', s.calls c = some call → s.calls c' = some call' → call.x.id = call'.x.id → c = c'
  held : ∀ p c, s.held p = some c → HeldBy s p c
  answers : ∀ a ∈ s.answers, ∃ pc, s.calls a.call = some ⟨a.x, pc⟩ ∧ pc.answered a.x a.result
  once : (s.answers.map Answer.call).Nodup
  sequential : Sequential s.answers s.db

/-- The calls that have taken effect have distinct ids and amounts that can be parsed. -/
theorem SubmissionsInv.history (h : SubmissionsInv s) : HistoryInv s.answers s.db := by
  refine h.sequential.inv ?_ fun a ha => ?_
  · refine List.Nodup.map_on (fun a ha b hb hid => ?_) (List.Nodup.of_map _ h.once)
    obtain ⟨pc, hcall, -⟩ := h.answers a ha
    obtain ⟨pc', hcall', -⟩ := h.answers b hb
    exact List.inj_on_of_nodup_map h.once ha hb (h.distinct _ _ _ _ hcall hcall' hid)
  · obtain ⟨pc, hcall, hanswered⟩ := h.answers a ha
    refine (h.calls hcall).parsed ?_
    cases pc <;> first | rfl | cases hanswered

/-! ## What a step of one call leaves to the others -/

structure Grows (s s' : State) (c : Nat) : Prop where
  drawn : ∀ id ∈ s.drawn, id ∈ s'.drawn
  held : ∀ p c', c' ≠ c → (s'.held p = some c' ↔ s.held p = some c')
  taken : ∀ customerId key, (s.db.findKey customerId key).isSome = true → (s'.db.findKey customerId key).isSome = true
  free : ∀ p c', c' ≠ c → s.held p = some c' → s.db.findKey p.1 p.2 = none → s'.db.findKey p.1 p.2 = none
  kept : ∀ a ∈ s.answers, a ∈ s'.answers
  new : ∀ a ∈ s'.answers, a ∈ s.answers ∨ a.call = c

/-- A step that changes neither the tables nor the answers. -/
theorem Grows.quiet (hdb : s'.db = s.db) (hanswers : s'.answers = s.answers) (hdrawn : ∀ id ∈ s.drawn, id ∈ s'.drawn)
    (hheld : ∀ p c', c' ≠ c → (s'.held p = some c' ↔ s.held p = some c')) : Grows s s' c where
  drawn := hdrawn
  held := hheld
  taken _ _ h := by rw [hdb]; exact h
  free _ _ _ _ h := by rw [hdb]; exact h
  kept _ h := by rw [hanswers]; exact h
  new _ h := by rw [hanswers] at h; exact Or.inl h

/-- A rollback or a commit releases the entries of its own call. -/
theorem unlock_iff (held : String × String → Option Nat) (p : String × String) {c c' : Nat} (hne : c' ≠ c) :
    unlock held c p = some c' ↔ held p = some c' :=
  ⟨fun h => (of_unlock_eq_some h).1, unlock_eq_some hne⟩

theorem unlock_self (held : String × String → Option Nat) (p : String × String) (c : Nat) : unlock held c p ≠ some c :=
  fun h => (of_unlock_eq_some h).2 rfl

theorem CallInv.other {c' : Nat} {call : Call} (h : CallInv s c' call) (hgrows : Grows s s' c) (hne : c' ≠ c) :
    CallInv s' c' call where
  drawn := hgrows.drawn _ h.drawn
  parsed := h.parsed
  holds hpc := (hgrows.held _ _ hne).2 (h.holds hpc)
  violated hpc := hgrows.taken _ _ (h.violated hpc)
  pending hpc b hb := by
    rcases hgrows.new b hb with hold | hnew
    · exact h.pending hpc b hold
    · rw [hnew]; exact Ne.symm hne
  committed hpc := hgrows.kept _ (h.committed hpc)
  ended result hpc := hgrows.kept _ (h.ended result hpc)

/-- A step of one call: what it has to show is about that call alone. -/
theorem SubmissionsInv.move (h : SubmissionsInv s) (hid : ∀ c' call, c' ≠ c → s.calls c' = some call → call.x.id ≠ y.id)
    (hcalls : s'.calls = Function.update s.calls c (some ⟨y, pc'⟩)) (hgrows : Grows s s' c) (hcall : CallInv s' c ⟨y, pc'⟩)
    (hheld : ∀ p, s'.held p = some c → pc'.holdsKey = true ∧ y.pair = p ∧ s'.db.findKey p.1 p.2 = none)
    (hanswers : ∀ b ∈ s'.answers, b.call = c → b.x = y ∧ pc'.answered y b.result)
    (honce : (s'.answers.map Answer.call).Nodup) (hseq : Sequential s'.answers s'.db) : SubmissionsInv s' := by
  have hself : s'.calls c = some ⟨y, pc'⟩ := by
    rw [hcalls]
    exact Function.update_self ..
  have hother : ∀ c', c' ≠ c → s'.calls c' = s.calls c' := fun c' hne => by
    rw [hcalls, Function.update_of_ne hne]
  refine ⟨?_, fun c1 c2 call1 call2 h1 h2 heq => ?_, fun p c' hp => ?_, fun b hb => ?_, honce, hseq⟩
  · rw [hcalls]
    exact AllBut.set (fun c' call hne hc' => (h.calls hc').other hgrows hne) hcall
  · by_cases hc1 : c1 = c
    · by_cases hc2 : c2 = c
      · rw [hc1, hc2]
      · rw [hc1, hself] at h1
        cases h1
        rw [hother c2 hc2] at h2
        exact absurd heq.symm (hid c2 call2 hc2 h2)
    · rw [hother c1 hc1] at h1
      by_cases hc2 : c2 = c
      · rw [hc2, hself] at h2
        cases h2
        exact absurd heq (hid c1 call1 hc1 h1)
      · rw [hother c2 hc2] at h2
        exact h.distinct c1 c2 call1 call2 h1 h2 heq
  · by_cases hcc : c' = c
    · subst hcc
      obtain ⟨hholds, hpair, hfree⟩ := hheld p hp
      exact ⟨_, hself, hholds, hpair, hfree⟩
    · have hp' := (hgrows.held p c' hcc).1 hp
      obtain ⟨call, hc', hholds, hpair, hfree⟩ := h.held p c' hp'
      exact ⟨call, (hother c' hcc).trans hc', hholds, hpair, hgrows.free p c' hcc hp' hfree⟩
  · by_cases hcc : b.call = c
    · obtain ⟨hx, hpc⟩ := hanswers b hb hcc
      refine ⟨pc', ?_, by rw [hx]; exact hpc⟩
      rw [hcc, hself, hx]
    · rcases hgrows.new b hb with hmem | hnew
      · obtain ⟨pc, hc', hpc⟩ := h.answers b hmem
        exact ⟨pc, (hother _ hcc).trans hc', hpc⟩
      · exact absurd hnew hcc

/-- A step of one call that changes neither the tables nor the answers. -/
theorem SubmissionsInv.quiet (h : SubmissionsInv s) (hid : ∀ c' call, c' ≠ c → s.calls c' = some call → call.x.id ≠ y.id)
    (hcalls : s'.calls = Function.update s.calls c (some ⟨y, pc'⟩)) (hdb : s'.db = s.db) (hanswers : s'.answers = s.answers)
    (hgrows : Grows s s' c) (hcall : CallInv s' c ⟨y, pc'⟩)
    (hheld : ∀ p, s'.held p = some c → pc'.holdsKey = true ∧ y.pair = p ∧ s.db.findKey p.1 p.2 = none)
    (hanswered : ∀ b ∈ s.answers, b.call = c → b.x = y ∧ pc'.answered y b.result) : SubmissionsInv s' := by
  refine h.move hid hcalls hgrows hcall ?_ ?_ ?_ ?_
  · rw [hdb]; exact hheld
  · rw [hanswers]; exact hanswered
  · rw [hanswers]; exact h.once
  · rw [hanswers, hdb]; exact h.sequential

/-! ## Steps -/

/-- The id of a call is its own. -/
theorem SubmissionsInv.ids (h : SubmissionsInv s) (hc : s.calls c = some ⟨x, pc⟩) (hid : y.id = x.id) :
    ∀ c' call, c' ≠ c → s.calls c' = some call → call.x.id ≠ y.id := by
  intro c' call hne hc' heq
  exact hne (h.distinct c' c call ⟨x, pc⟩ hc' hc (heq.trans hid))

/-- A call that holds no entry before a step that gives it none. -/
theorem SubmissionsInv.holds (h : SubmissionsInv s) (hc : s.calls c = some ⟨x, pc⟩) {p : String × String}
    (hp : s.held p = some c) : pc.holdsKey = true ∧ x.pair = p ∧ s.db.findKey p.1 p.2 = none := by
  obtain ⟨call, hc', hholds, hpair, hfree⟩ := h.held p c hp
  rw [hc] at hc'
  cases hc'
  exact ⟨hholds, hpair, hfree⟩

/-- A call that has not taken effect has no answer. -/
theorem SubmissionsInv.unanswered (h : SubmissionsInv s) (hc : s.calls c = some ⟨x, pc⟩)
    (hpc : pc.mayFail = true ∨ pc.failed = true) : ∀ b ∈ s.answers, b.call ≠ c :=
  (h.calls hc).pending hpc

/-- The key found after a commit. -/
theorem findKey_store (x : Submission) (db : Db) (customerId key : String) :
    (x.store x.payment db).findKey customerId key =
      (db.findKey customerId key).or (if x.pair = (customerId, key) then some x.keyEntry else none) := by
  have hkeys : (x.store x.payment db).idempotencyKeys = db.idempotencyKeys ++ [x.keyEntry] := rfl
  unfold Db.findKey
  rw [hkeys, List.find?_append]
  congr 1
  by_cases hpair : x.pair = (customerId, key)
  · have hboth : x.keyEntry.customerId = customerId ∧ x.keyEntry.idempotencyKey = key :=
      ⟨congrArg Prod.fst hpair, congrArg Prod.snd hpair⟩
    simp [hpair, hboth]
  · have hnot : ¬ (x.keyEntry.customerId = customerId ∧ x.keyEntry.idempotencyKey = key) :=
      fun hboth => hpair (Prod.ext hboth.1 hboth.2)
    simp [hpair, hnot]

/-- A commit as it is seen by the other calls. -/
theorem Grows.commit (h : SubmissionsInv s) (hc : s.calls c = some ⟨x, .insertedOutbox⟩) :
    Grows s { s.rollback c ⟨x, .committed⟩ with
      db := x.store x.payment s.db
      answers := s.answers ++ [⟨c, x, .returned false 202 x.payment⟩] } c where
  drawn _ hid := hid
  held p c' hne := unlock_iff s.held p hne
  taken customerId key hsome := by
    dsimp only
    rw [findKey_store]
    obtain ⟨k, hk⟩ := Option.isSome_iff_exists.1 hsome
    rw [hk]
    rfl
  free p c' hne hp hnone := by
    dsimp only
    have hown : s.held x.pair = some c := (h.calls hc).holds rfl
    have hpair : x.pair ≠ (p.1, p.2) := by
      intro heq
      rw [heq, hp] at hown
      exact hne (Option.some.inj hown)
    rw [findKey_store, hnone, if_neg hpair]
    rfl
  kept _ ha := List.mem_append_left _ ha
  new b hb := by
    rcases List.mem_append.1 hb with hold | hnew
    · exact Or.inl hold
    · rw [List.mem_singleton.1 hnew]
      exact Or.inr rfl

/-- A commit takes effect as the call does on its own. -/
theorem SubmissionsInv.commit_eq (h : SubmissionsInv s) (hc : s.calls c = some ⟨x, .insertedOutbox⟩) :
    x.insertTxn s.db = (.returned false 202 x.payment, x.store x.payment s.db) := by
  have hown : s.held x.pair = some c := (h.calls hc).holds rfl
  refine Submission.insertTxn_free ((h.calls hc).parsed rfl) (h.history.payments_eq_none fun y hy heq => ?_)
    (h.holds hc hown).2.2
  obtain ⟨b, hb, rfl⟩ := List.mem_map.1 hy
  have hmem := (List.mem_filter.1 hb).1
  obtain ⟨pc, hcall, -⟩ := h.answers b hmem
  exact h.unanswered hc (Or.inl rfl) b hmem (h.distinct _ _ _ _ hcall hc heq)

/-- A read takes effect as the call does on its own. -/
theorem SubmissionsInv.read_eq (h : SubmissionsInv s) (hc : s.calls c = some ⟨x, .violated⟩) :
    x.insertTxn s.db = (replay x.dto x.key x.hash (s.db.findKey x.dto.customerId x.key), s.db) := by
  obtain ⟨k, hk⟩ := Option.isSome_iff_exists.1 ((h.calls hc).violated rfl)
  rw [hk]
  exact Submission.insertTxn_taken ((h.calls hc).parsed rfl) hk

/-- One more answer, of a call that had none. -/
theorem SubmissionsInv.once_snoc (h : SubmissionsInv s) {b : Answer} (hnone : ∀ b' ∈ s.answers, b'.call ≠ b.call) :
    ((s.answers ++ [b]).map Answer.call).Nodup := by
  rw [List.map_append, List.map_singleton, List.nodup_append]
  refine ⟨h.once, List.nodup_singleton _, fun d hd e he heq => ?_⟩
  obtain ⟨b', hb, rfl⟩ := List.mem_map.1 hd
  rw [List.mem_singleton.1 he] at heq
  exact hnone b' hb heq

/-- A step before the call takes effect, which gives it no entry that it does not hold. -/
theorem SubmissionsInv.before (h : SubmissionsInv s) (hc : s.calls c = some ⟨x, pc⟩) (hpc : pc.mayFail = true)
    (hid : y.id = x.id) (hcalls : s'.calls = Function.update s.calls c (some ⟨y, pc'⟩)) (hdb : s'.db = s.db)
    (hanswers : s'.answers = s.answers) (hdrawn : ∀ id ∈ s.drawn, id ∈ s'.drawn)
    (hothers : ∀ p c', c' ≠ c → (s'.held p = some c' ↔ s.held p = some c')) (hparsed : pc'.failed = false → y.parsed)
    (hheld : ∀ p, s'.held p = some c ↔ pc'.holdsKey = true ∧ y.pair = p)
    (hfree : pc'.holdsKey = true → s.db.findKey y.dto.customerId y.key = none)
    (hviolated : pc' = .violated → (s.db.findKey y.dto.customerId y.key).isSome = true)
    (hnext : pc' ≠ .committed ∧ ∀ result, pc' ≠ .ended result) : SubmissionsInv s' := by
  have hnone := h.unanswered hc (Or.inl hpc)
  refine h.quiet (h.ids hc hid) hcalls hdb hanswers (.quiet hdb hanswers hdrawn hothers) ?_ ?_ ?_
  · refine ⟨?_, hparsed, fun hholds => (hheld _).2 ⟨hholds, rfl⟩, fun hv => ?_, fun _ => ?_,
      fun hcom => absurd hcom hnext.1, fun result hend => absurd hend (hnext.2 result)⟩
    · show y.id ∈ s'.drawn
      rw [hid]
      exact hdrawn _ (h.calls hc).drawn
    · rw [hdb]
      exact hviolated hv
    · rw [hanswers]
      exact hnone
  · intro p hp
    obtain ⟨hholds, rfl⟩ := (hheld p).1 hp
    exact ⟨hholds, rfl, hfree hholds⟩
  · exact fun b hb hbc => absurd hbc (hnone b hb)

/-- A call without an entry holds none. -/
theorem SubmissionsInv.holds_none (h : SubmissionsInv s) (hc : s.calls c = some ⟨x, pc⟩) (hpc : pc.holdsKey = false)
    (p : String × String) : s.held p ≠ some c := by
  intro hp
  rw [(h.holds hc hp).1] at hpc
  cases hpc

/-- A step before the call takes effect, after which it holds no entry. -/
theorem SubmissionsInv.keyless (h : SubmissionsInv s) (hc : s.calls c = some ⟨x, pc⟩) (hpc : pc.mayFail = true)
    (hid : y.id = x.id) (hcalls : s'.calls = Function.update s.calls c (some ⟨y, pc'⟩)) (hdb : s'.db = s.db)
    (hanswers : s'.answers = s.answers) (hdrawn : ∀ id ∈ s.drawn, id ∈ s'.drawn)
    (hothers : ∀ p c', c' ≠ c → (s'.held p = some c' ↔ s.held p = some c')) (hparsed : pc'.failed = false → y.parsed)
    (hkey : pc'.holdsKey = false) (hnone : ∀ p, s'.held p ≠ some c)
    (hviolated : pc' = .violated → (s.db.findKey y.dto.customerId y.key).isSome = true)
    (hnext : pc' ≠ .committed ∧ ∀ result, pc' ≠ .ended result) : SubmissionsInv s' := by
  refine h.before hc hpc hid hcalls hdb hanswers hdrawn hothers hparsed (fun p => ?_) (fun hholds => ?_) hviolated hnext
  · constructor
    · intro hp
      exact absurd hp (hnone p)
    · rintro ⟨hholds, -⟩
      rw [hkey] at hholds
      cases hholds
  · rw [hkey] at hholds
    cases hholds

theorem SubmissionsInv.step (h : SubmissionsInv s) (hs : Step s a s') : SubmissionsInv s' := by
  cases hs with
  | tick ms =>
    refine ⟨h.calls.mono fun c call hcall => ?_, h.distinct, h.held, h.answers, h.once, h.sequential⟩
    exact ⟨hcall.drawn, hcall.parsed, hcall.holds, hcall.violated, hcall.pending, hcall.committed, hcall.ended⟩
  | start c x pc hx hc hfresh hpc =>
    -- a call that has not begun has neither answer nor entry
    have hnone : ∀ b ∈ s.answers, b.call ≠ c := by
      rintro b hb rfl
      obtain ⟨pc, hcall, -⟩ := h.answers b hb
      rw [hc] at hcall
      cases hcall
    have hheld : ∀ p, s.held p ≠ some c := by
      intro p hp
      obtain ⟨call, hcall, -⟩ := h.held p c hp
      rw [hc] at hcall
      cases hcall
    have hdrawn : ∀ id ∈ s.drawn, id ∈ x.id :: x.outboxId :: s.drawn :=
      fun id hmem => List.mem_cons_of_mem _ (List.mem_cons_of_mem _ hmem)
    refine h.quiet (y := x) (fun c' call _ hc' heq => hfresh.1 (heq ▸ (h.calls hc').drawn)) rfl rfl rfl
      (.quiet rfl rfl hdrawn fun _ _ _ => Iff.rfl) ?_ (fun p hp => absurd hp (hheld p))
      (fun b hb hbc => absurd hbc (hnone b hb))
    rcases hpc with ⟨message, -, rfl⟩ | ⟨rfl, hparsed⟩
    · exact ⟨List.mem_cons_self, by rintro ⟨⟩, by rintro ⟨⟩, by simp, fun _ => hnone, by simp, by simp⟩
    · exact ⟨List.mem_cons_self, fun _ => hparsed, by rintro ⟨⟩, by simp, fun _ => hnone, by simp, by simp⟩
  | walk c x y a pc pc' ids hc hwalk =>
    have hdrawn : ∀ id ∈ s.drawn, id ∈ ids ++ s.drawn := fun id hid => List.mem_append_right _ hid
    cases hwalk with
    | begin_ =>
      exact h.keyless (y := { x with began := s.now }) hc rfl rfl rfl rfl rfl hdrawn (fun _ _ _ => Iff.rfl)
        (fun _ => (h.calls hc).parsed rfl) rfl (h.holds_none hc rfl) (by simp) ⟨by simp, by simp⟩
    | insertPayment =>
      exact h.keyless hc rfl rfl rfl rfl rfl hdrawn (fun _ _ _ => Iff.rfl) (fun _ => (h.calls hc).parsed rfl) rfl
        (h.holds_none hc rfl) (by simp) ⟨by simp, by simp⟩
    | insertEvent eventId hfresh =>
      exact h.keyless (y := { x with eventId := eventId }) hc rfl rfl rfl rfl rfl hdrawn (fun _ _ _ => Iff.rfl)
        (fun _ => (h.calls hc).parsed rfl) rfl (h.holds_none hc rfl) (by simp) ⟨by simp, by simp⟩
    | insertOutbox =>
      -- the entry stays with the call until it commits
      have hown : s.held x.pair = some c := (h.calls hc).holds rfl
      refine h.before hc rfl rfl rfl rfl rfl hdrawn (fun _ _ _ => Iff.rfl) (fun _ => (h.calls hc).parsed rfl)
        (fun p => ⟨fun hp => ⟨rfl, (h.holds hc hp).2.1⟩, ?_⟩) (fun _ => (h.holds hc hown).2.2) (by simp) ⟨by simp, by simp⟩
      rintro ⟨-, rfl⟩
      exact hown
    | answer =>
      have hmine := (h.calls hc).committed rfl
      refine h.quiet (h.ids hc rfl) rfl rfl rfl (.quiet rfl rfl hdrawn fun _ _ _ => Iff.rfl) ?_
        (fun p hp => absurd hp (h.holds_none hc rfl p)) fun b hb hbc => ?_
      · refine ⟨hdrawn _ (h.calls hc).drawn, fun _ => (h.calls hc).parsed rfl, by rintro ⟨⟩, by simp, ?_, by simp, ?_⟩
        · rintro (hpc | hpc) <;> cases hpc
        · intro result hend
          cases hend
          exact hmine
      · obtain ⟨pc, hcall, hanswered⟩ := h.answers b hb
        rw [hbc, hc] at hcall
        cases hcall
        exact ⟨rfl, hanswered.symm⟩
  | violate c x hc htaken =>
    exact h.keyless hc rfl rfl rfl rfl rfl (fun _ hid => hid) (fun p _ hne => unlock_iff s.held p hne)
      (fun _ => (h.calls hc).parsed rfl) rfl (fun p => unlock_self s.held p c) (fun _ => htaken) ⟨by simp, by simp⟩
  | insertKey c x hc hfree hheld =>
    -- the unique index lets one open transaction at a time insert an entry of the pair
    refine h.before hc rfl rfl rfl rfl rfl (fun _ hid => hid) (fun p c' hne => ?_) (fun _ => (h.calls hc).parsed rfl)
      (fun p => ?_) (fun _ => hfree) (by simp) ⟨by simp, by simp⟩
    · by_cases hp : p = x.pair
      · subst hp
        show Function.update s.held x.pair (some c) x.pair = some c' ↔ _
        rw [Function.update_self, hheld]
        constructor
        · intro heq
          exact absurd (Option.some.inj heq).symm hne
        · intro heq
          cases heq
      · show Function.update s.held x.pair (some c) p = some c' ↔ _
        rw [Function.update_of_ne hp]
    · show Function.update s.held x.pair (some c) p = some c ↔ _
      by_cases hp : p = x.pair
      · subst hp
        rw [Function.update_self]
        exact ⟨fun _ => ⟨rfl, rfl⟩, fun _ => rfl⟩
      · rw [Function.update_of_ne hp]
        exact ⟨fun hheld => absurd hheld (h.holds_none hc rfl p), fun hpair => absurd hpair.2.symm hp⟩
  | commit c x hc =>
    -- the call takes effect here: its answer is the one of a call on its own, appended to the history
    have hnone := h.unanswered hc (Or.inl rfl)
    refine h.move (h.ids hc rfl) rfl (.commit h hc) ?_ (fun p hp => absurd hp (unlock_self s.held p c))
      (fun b hb hbc => ?_) (h.once_snoc hnone) (.snoc h.sequential (h.commit_eq hc))
    · refine ⟨(h.calls hc).drawn, fun _ => (h.calls hc).parsed rfl, by rintro ⟨⟩, by simp, ?_, fun _ => ?_, by simp⟩
      · rintro (hpc | hpc) <;> cases hpc
      · exact List.mem_append_right _ (List.mem_singleton_self _)
    · rcases List.mem_append.1 hb with hold | hnew
      · exact absurd hbc (hnone b hold)
      · rw [List.mem_singleton.1 hnew]
        exact ⟨rfl, rfl⟩
  | read c x hc =>
    -- and here the loser of the race, which reads the winner's row after its own rollback
    have hnone := h.unanswered hc (Or.inl rfl)
    refine h.move (h.ids hc rfl) rfl ?_ ?_ (fun p hp => absurd hp (h.holds_none hc rfl p)) (fun b hb hbc => ?_)
      (h.once_snoc hnone) (.snoc h.sequential (h.read_eq hc))
    · refine ⟨fun _ hid => hid, fun _ _ _ => Iff.rfl, fun _ _ hsome => hsome, fun _ _ _ _ hfree => hfree,
        fun _ hb => List.mem_append_left _ hb, fun b hb => ?_⟩
      rcases List.mem_append.1 hb with hold | hnew
      · exact Or.inl hold
      · rw [List.mem_singleton.1 hnew]
        exact Or.inr rfl
    · refine ⟨(h.calls hc).drawn, fun _ => (h.calls hc).parsed rfl, by rintro ⟨⟩, by simp, ?_, by simp, fun result hend => ?_⟩
      · rintro (hpc | hpc) <;> cases hpc
      · cases hend
        exact List.mem_append_right _ (List.mem_singleton_self _)
    · rcases List.mem_append.1 hb with hold | hnew
      · exact absurd hbc (hnone b hold)
      · rw [List.mem_singleton.1 hnew]
        exact ⟨rfl, rfl⟩
  | fail c x pc message hc hpc =>
    exact h.keyless hc hpc rfl rfl rfl rfl (fun _ hid => hid) (fun p _ hne => unlock_iff s.held p hne) (by rintro ⟨⟩) rfl
      (fun p => unlock_self s.held p c) (by simp) ⟨by simp, by simp⟩
  | crash c x pc hc hpc =>
    refine h.quiet (h.ids hc rfl) rfl rfl rfl (.quiet rfl rfl (fun _ hid => hid) fun p _ hne => unlock_iff s.held p hne) ?_
      (fun p hp => absurd hp (unlock_self s.held p c)) fun b hb hbc => ?_
    · refine ⟨(h.calls hc).drawn, fun _ => (h.calls hc).parsed ?_, by rintro ⟨⟩, by simp, ?_, by simp, by simp⟩
      · rcases hpc with hpc | rfl
        · cases pc <;> first | rfl | cases hpc
        · rfl
      · rintro (hpc | hpc) <;> cases hpc
    · obtain ⟨pc', hcall, -⟩ := h.answers b hb
      rw [hbc, hc] at hcall
      cases hcall
      exact ⟨rfl, trivial⟩

theorem submissionsInv_initial : SubmissionsInv State.initial where
  calls := all_empty
  distinct _ _ _ _ hc := by cases hc
  held _ _ hp := by cases hp
  answers _ ha := absurd ha List.not_mem_nil
  once := List.nodup_nil
  sequential := .nil

theorem submissionsInv {C : State → Action → Prop} (h : Reach system C s) : SubmissionsInv s :=
  h.invariant (I := SubmissionsInv) submissionsInv_initial fun _ _ _ _ hI _ hs => hI.step (step_sound hs)

end PaymentsProcessor.Submissions
