/-
What the row locks of the reaper are good for: as long as the transaction of a tick is open, the
payments it selected stay locked by it, in the status it read. And where a run can be.
-/
import PaymentsProcessor.Base.PartialMap
import PaymentsProcessor.Pipeline.Step

namespace PaymentsProcessor.Pipeline

open PaymentStatus Worker Reaper Transition PartialMap

variable {β κ : Type} {port : BankPort β κ} {env : Env} {s s' : State β} {a : Action κ}

/-! ## The select of a tick -/

/-- A selected row is the payment's, stuck and not locked before. -/
theorem stuckRow_eq_some {clock : Nat} {pid : String} {row : StuckRow} (h : stuckRow env clock s pid = some row) :
    row.id = pid ∧ s.rowLocks pid = none ∧ ∃ p, s.db.payments pid = some p ∧
      (p.status = PROCESSING ∨ p.status = RETRYING) ∧ p.status = row.status ∧ p.amountCents = row.amountCents ∧
      p.currency = row.currency ∧ p.updatedAt + env.cfg.reaperDeadlineMs < clock := by
  unfold stuckRow at h
  split at h
  · rename_i p hp
    split at h
    · rename_i hc
      cases h
      exact ⟨rfl, hc.2.2, p, hp, hc.1, rfl, rfl, rfl, hc.2.1⟩
    · cases h
  · cases h

/-- The rows of a select are the selected payments' own, one for each. -/
theorem mapM_stuckRow {clock : Nat} : ∀ {pids : List String} {stuck : List StuckRow},
    pids.mapM (stuckRow env clock s) = some stuck →
      stuck.map StuckRow.id = pids ∧ ∀ row ∈ stuck, stuckRow env clock s row.id = some row
  | [], stuck, h => by
    cases h
    exact ⟨rfl, fun row hrow => by cases hrow⟩
  | pid :: pids, stuck, h => by
    rw [List.mapM_cons] at h
    obtain ⟨row, hrow, h⟩ := Option.bind_eq_some_iff.1 h
    obtain ⟨rest, hrest, h⟩ := Option.bind_eq_some_iff.1 h
    cases h
    have hid := (stuckRow_eq_some hrow).1
    obtain ⟨hids, hrows⟩ := mapM_stuckRow hrest
    refine ⟨by rw [List.map_cons, hid, hids], fun other hother => ?_⟩
    rcases List.mem_cons.1 hother with rfl | hother
    · rw [hid]; exact hrow
    · exact hrows other hother

/-! ## The locks of a tick -/

/-- An open tick has selected different payments, holds their locks, and their status is the one it
read. -/
def Holds (db : Db) (rowLocks : String → Option Nat) (k : Nat) : Reap → Prop
  | .selected _ _ stuck _ => (stuck.map StuckRow.id).Nodup ∧ ∀ row ∈ stuck, rowLocks row.id = some k ∧
      ∃ p, db.payments row.id = some p ∧ p.status = row.status
  | _ => True

/-- Every tick holds what it selected. -/
def LockInv (s : State β) : Prop := All s.reaps (Holds s.db s.rowLocks)

/-- A tick still holds what it selected if these payments keep their status and their locks. -/
theorem Holds.mono {db db' : Db} {locks locks' : String → Option Nat} {k : Nat} {reap : Reap}
    (h : Holds db locks k reap)
    (hkeep : ∀ pid, locks pid = some k → locks' pid = some k ∧ ∀ p, db.payments pid = some p →
      ∃ p', db'.payments pid = some p' ∧ p'.status = p.status) : Holds db' locks' k reap := by
  cases reap with
  | selected began time stuck clock =>
    refine ⟨h.1, fun row hrow => ?_⟩
    obtain ⟨hlock, p, hp, hst⟩ := h.2 row hrow
    obtain ⟨hlock', hp'⟩ := hkeep row.id hlock
    obtain ⟨p', hp', hst'⟩ := hp' p hp
    exact ⟨hlock', p', hp', hst'.trans hst⟩
  | _ => exact h

/-- A tick selects a payment once. -/
theorem LockInv.nodup (h : LockInv s) {k began time : Nat} {stuck : List StuckRow} {clock : Option Nat}
    (hk : s.reaps k = some (.selected began time stuck clock)) :
    (processingIds stuck).Nodup :=
  (List.filter_sublist.map StuckRow.id).nodup (h hk).1

/-- What a tick has selected in PROCESSING still is in PROCESSING. -/
theorem LockInv.processing (h : LockInv s) {k began time : Nat} {stuck : List StuckRow} {clock : Option Nat} {pid : String}
    (hk : s.reaps k = some (.selected began time stuck clock)) (hmem : pid ∈ processingIds stuck) :
    ∃ row ∈ stuck, row.id = pid ∧ row.status = PROCESSING ∧ ∃ p, s.db.payments pid = some p ∧ p.status = PROCESSING := by
  obtain ⟨row, hrow, rfl⟩ := List.mem_map.1 hmem
  obtain ⟨hrow, hst⟩ := List.mem_filter.1 hrow
  have hst : row.status = PROCESSING := of_decide_eq_true hst
  obtain ⟨-, p, hp, hsame⟩ := (h hk).2 row hrow
  exact ⟨row, hrow, rfl, hst, p, hp, hsame.trans hst⟩

/-- Writing a payment that is not locked disturbs no tick. -/
theorem LockInv.write (h : LockInv s) {pid : String} (hlock : s.rowLocks pid = none) {db : Db} {q : Payment}
    (hdb : db.payments = Function.update s.db.payments pid (some q)) : All s.reaps (Holds db s.rowLocks) :=
  h.mono fun k reap hheld => hheld.mono fun other hother => by
    have hne : other ≠ pid := by
      rintro rfl
      rw [hlock] at hother
      cases hother
    refine ⟨hother, fun p hp => ⟨p, ?_, rfl⟩⟩
    rw [hdb, Function.update_of_ne hne]
    exact hp

/-- Ending the transaction of a tick disturbs no other one. -/
theorem LockInv.unlock (h : LockInv s) (k : Nat) : AllBut s.reaps k (Holds s.db (unlock s.rowLocks k)) :=
  fun _ _ hne hk => (h hk).mono fun _ hlock => ⟨unlock_eq_some hne hlock, fun p hp => ⟨p, hp, rfl⟩⟩

theorem LockInv.step (h : LockInv s) (hs : Step port env s a s') : LockInv s' := by
  cases hs with
  | accepted dto key hash correlationId amountCents row hvalid hamount hrow hfresh =>
    refine h.mono fun k reap hheld => hheld.mono fun pid hlock => ⟨hlock, fun p hp => ⟨p, ?_, rfl⟩⟩
    have hne : pid ≠ row.id := by
      rintro rfl
      rw [hfresh] at hp
      cases hp
    rw [Db.insertSubmission_payments, Function.update_of_ne hne]
    exact hp
  | claim r run began clock p hr hpc hp hlock => exact h.write hlock rfl
  | exhaust r run began clock reason p hr hpc hp hst hlock => exact h.write hlock rfl
  | retry r run began clock reason p hr hpc hp hst hlock => exact h.write hlock rfl
  | final r run began clock dis target p hr hpc htarget hp hst hlock => exact h.write hlock rfl
  | reapBegin k hk => exact h.but.set trivial
  | deadlineClock k began hk => exact h.but.set trivial
  | batchClock k began time stuck hk => exact h.but.set (h hk :)
  | reapStamp k stuck hk => exact h.but.set trivial
  | reapAdd k stamp stuck row hk hrow => exact h.but.set trivial
  | reapEnd k => exact (h.unlock k).erase
  | reapUpdate k began time clock stuck hk =>
    -- the updated payments are locked by this tick, so no other one has selected them
    refine AllBut.set (fun k' reap hne hk' => (h hk').mono fun pid hlock => ⟨unlock_eq_some hne hlock, ?_⟩) trivial
    have hnot : pid ∉ processingIds stuck := by
      intro hc
      obtain ⟨row, hrow, rfl⟩ := List.mem_map.1 hc
      have hown := ((h hk).2 row (List.mem_of_mem_filter hrow)).1
      exact hne (Option.some.inj (hlock.symm.trans hown))
    intro p hp
    refine ⟨p, ?_, rfl⟩
    rw [Db.insertEvents_payments, Db.updateIn_payments, if_neg hnot]
    exact hp
  | reapSelect k pids began clock stuck hk hnodup hstuck =>
    obtain ⟨hids, hrows⟩ := mapM_stuckRow hstuck
    refine AllBut.set (fun k' reap hne hk' => (h hk').mono fun pid hlock => ?_) ⟨hids ▸ hnodup, fun row hrow => ?_⟩
    · -- a payment locked by another tick was skipped
      have hnot : pid ∉ pids := by
        rw [← hids]
        intro hc
        obtain ⟨row, hrow, rfl⟩ := List.mem_map.1 hc
        rw [(stuckRow_eq_some (hrows row hrow)).2.1] at hlock
        cases hlock
      exact ⟨(if_neg hnot).trans hlock, fun p hp => ⟨p, hp, rfl⟩⟩
    · obtain ⟨-, -, p, hp, -, hst, -⟩ := stuckRow_eq_some (hrows row hrow)
      exact ⟨if_pos (hids ▸ List.mem_map_of_mem hrow), p, hp, hst⟩
  | _ => exact h

/-- In every reached state every tick holds what it selected. -/
theorem lockInv {C : State β → Action κ → Prop} (h : Reach (system port env) C s) : LockInv s :=
  h.invariant (I := LockInv) all_empty fun _ _ _ _ hI _ hs => hI.step (step_sound hs)

/-! ## Where a run can be -/

/-- A run past the select of txn 1 has read a status that may move to PROCESSING, and a run about to add
a retry job counts its attempt from one. -/
def Pc.WF : Pc → Prop
  | .claimRead _ status _ => canTransition status PROCESSING = true
  | .retryAdd attempt => 1 ≤ attempt
  | _ => True

/-- Every run is where it can be. -/
def PcInv (s : State β) : Prop := All s.runs fun _ run => Pc.WF run.pc

theorem PcInv.step (h : PcInv s) (hs : Step port env s a s') : PcInv s' := by
  cases hs with
  | walk _ r run pc hr hw =>
    refine h.but.set ?_
    cases hw with
    | claimRead hpc hp hst => exact hst
    | claimClock hpc =>
      have hcan : Pc.WF run.pc := h hr
      rwa [hpc] at hcan
    | _ => trivial
  | dequeue | claim | call | refuse | rethrow | timeout | exhaust | final | retryAdd | finish =>
    exact h.but.set trivial
  | receive r run call since outcome => exact h.but.set trivial
  | retry r run began clock reason p => exact h.but.set (Nat.le_add_left 1 p.attemptCount)
  | crash w =>
    refine All.map _ (h.mono fun r run hrun => ?_)
    split
    · trivial
    · exact hrun
  | _ => exact h

theorem pcInv {C : State β → Action κ → Prop} (h : Reach (system port env) C s) : PcInv s :=
  h.invariant (I := PcInv) all_empty fun _ _ _ _ hI _ hs => hI.step (step_sound hs)

end PaymentsProcessor.Pipeline
