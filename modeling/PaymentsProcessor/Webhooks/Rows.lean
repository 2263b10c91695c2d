/-
The rows of deliveries in any company. However runs of one delivery overlap, whichever wrote last has left a row whose
columns agree with its status, since it writes the count it made with the status it chose by it.
-/
import PaymentsProcessor.Webhooks.Attempts

namespace PaymentsProcessor.Webhooks

open Transition PartialMap Processor Dispatcher Webhooks.Reaper

variable {env : Env} {s s' : State} {a : Action} {d : WebhookDelivery}

/-- The columns of a row agree with its status, and no more attempts are counted than statuses were written. -/
structure Lawful (env : Env) (d : WebhookDelivery) : Prop where
  pending : d.status = .pending → d.attempts = 0 ∧ d.nextAttemptAt = none ∧ d.lastError = none ∧ d.deliveredAt = none
  failed : d.status = .failed → 1 ≤ d.attempts ∧ d.attempts < env.webhooks.maxAttempts ∧ d.nextAttemptAt.isSome = true ∧
    d.lastError.isSome = true
  dead : d.status = .dead → d.attempts = max 1 env.webhooks.maxAttempts ∧ d.lastError.isSome = true
  delivered : d.status = .delivered → 1 ≤ d.attempts ∧ d.deliveredAt.isSome = true
  counted : d.attempts ≤ d.writes

/-- What a run writes is chosen by the count it has made. -/
def StatusWrite.Lawful (env : Env) (d : WebhookDelivery) : StatusWrite → Prop
  | .delivered _ => True
  | .dead attempts _ => attempts = d.attempts + 1 ∧ attempts = max 1 env.webhooks.maxAttempts
  | .failed _ _ attempts _ => attempts = d.attempts + 1 ∧ attempts < env.webhooks.maxAttempts

/-- A row that is not final has attempts left, unless it has had none. -/
theorem Lawful.attempts_lt (h : Lawful env d) (hopen : d.status.final = false) :
    d.attempts = 0 ∨ d.attempts < env.webhooks.maxAttempts := by
  cases hst : d.status with
  | pending => exact Or.inl (h.pending hst).1
  | failed => exact Or.inr (h.failed hst).2.1
  | delivered | dead => rw [hst] at hopen; cases hopen

theorem lawful_writeFor (h : Lawful env d) (hopen : d.status.final = false) (reply : Reply) (now delay : Nat) :
    (writeFor env d reply now delay).Lawful env d := by
  have hleft := h.attempts_lt hopen
  unfold writeFor
  split
  · trivial
  · dsimp only
    split
    · exact ⟨rfl, by omega⟩
    · exact ⟨rfl, by omega⟩

/-- A write leaves a lawful row, whatever was written meanwhile. -/
theorem Lawful.set {row : WebhookDelivery} {w : StatusWrite} (h : Lawful env row) (hd : Lawful env d)
    (hw : w.Lawful env d) (hle : d.writes ≤ row.writes) : Lawful env (w.set row) := by
  have hcount := hd.counted
  have hcount' := h.counted
  cases w with
  | delivered deliveredAt =>
    exact ⟨by rintro ⟨⟩, by rintro ⟨⟩, by rintro ⟨⟩, fun _ => ⟨Nat.le_add_left _ _, rfl⟩, Nat.succ_le_succ hcount'⟩
  | dead attempts lastError =>
    obtain ⟨heq, hmax⟩ := hw
    refine ⟨by rintro ⟨⟩, by rintro ⟨⟩, fun _ => ⟨hmax, rfl⟩, by rintro ⟨⟩, ?_⟩
    show attempts ≤ row.writes + 1
    omega
  | failed delay nextAttemptAt attempts lastError =>
    obtain ⟨heq, hmax⟩ := hw
    refine ⟨by rintro ⟨⟩, fun _ => ⟨?_, hmax, rfl, rfl⟩, by rintro ⟨⟩, by rintro ⟨⟩, ?_⟩
    · show 1 ≤ attempts
      omega
    · show attempts ≤ row.writes + 1
      omega

/-- A new delivery. -/
theorem lawful_deliveryFor (env : Env) (row : OutboxRow) (endpoint : WebhookEndpoint) (id : String) (began : Nat) :
    Lawful env (deliveryFor row endpoint id began) :=
  ⟨fun _ => ⟨rfl, rfl, rfl, rfl⟩, by rintro ⟨⟩, by rintro ⟨⟩, by rintro ⟨⟩, Nat.le_refl _⟩

/-- The rows, what runs have read of them, and what runs are about to write. -/
structure LawInv (env : Env) (s : State) : Prop where
  rows : ∀ id d, s.delivery id = some d → Lawful env d
  reads : All s.runs fun _ run => ∀ d, run.pc.read = some d → Lawful env d
  writes : All s.runs fun _ run => ∀ d w, run.pc = .settling d w → w.Lawful env d

/-- A row was there before the step, or was inserted by it, or had its status written by it. -/
theorem Step.row_inv {id : String} (hs : Step env s a s') (h : s'.delivery id = some d) :
    s.delivery id = some d ∨ (∃ row endpoint did began, d = deliveryFor row endpoint did began) ∨
      ∃ r run read w old, a = .write r ∧ s.runs r = some run ∧ run.pc = .settling read w ∧ read.id = id ∧
        s.delivery id = some old ∧ d = w.set old := by
  cases hs with
  | pollCommit k poll rows hk hpc hrows =>
    have hfind : (s.deliveries ++ rows).find? (fun d => decide (d.id = id)) = some d := h
    rw [List.find?_append] at hfind
    cases hold : s.deliveries.find? fun d => decide (d.id = id) with
    | some old =>
      rw [hold] at hfind
      cases hfind
      exact Or.inl hold
    | none =>
      rw [hold, Option.none_or, hrows] at hfind
      obtain ⟨x, -, rfl⟩ := List.mem_map.1 (List.mem_of_find?_eq_some hfind)
      exact Or.inr (Or.inl ⟨_, _, _, _, rfl⟩)
  | write r run read w basis hr hpc =>
    have hupd : find (update s.deliveries read.id w.set) id = some d := h
    rw [find_update w.set_id] at hupd
    obtain ⟨old, hold, hset⟩ := Option.map_eq_some_iff.1 hupd
    split at hset
    · rename_i hid
      exact Or.inr (Or.inr ⟨r, run, read, w, old, rfl, hr, hpc, hid.symm, hold, hset.symm⟩)
    · subst hset
      exact Or.inl hold
  | _ => exact Or.inl h

theorem LawInv.step (h : LawInv env s) (hI : SnapshotInv s) (hs : Step env s a s') : LawInv env s' := by
  refine ⟨fun id d hd => ?_, fun r run hr d hread => ?_, ?_⟩
  · rcases hs.row_inv hd with hold | ⟨row, endpoint, did, began, rfl⟩ | ⟨r, run, read, w, old, -, hr, hpc, rfl, hold, rfl⟩
    · exact h.rows id d hold
    · exact lawful_deliveryFor env row endpoint did began
    · have hread : run.pc.read = some read := by rw [hpc]; rfl
      obtain ⟨row, hrow, hle, -⟩ := ((hI.runs hr).read read hread).asOf
      rw [((hI.runs hr).read read hread).id] at hold
      cases hold.symm.trans hrow
      exact (h.rows _ _ hold).set (h.reads hr read hread) (h.writes hr read w hpc) hle
  · rcases hs.read_inv hr hread with ⟨old, hold, hread⟩ | ⟨id, hrow⟩
    · exact h.reads hold d hread
    · exact h.rows id d hrow
  · cases hs with
    | dequeue r jobId job hr hjob => exact AllBut.set (All.but h.writes) fun _ _ hpc => by cases hpc
    | walk r run a pc hr hwalk =>
      refine AllBut.set (All.but h.writes) fun read w hpc => ?_
      cases hwalk with
      | @receive read' reply delay hpc' =>
        have hread : run.pc.read = some read' := by rw [hpc']; rfl
        cases hpc
        exact lawful_writeFor (h.reads hr _ hread) ((hI.runs hr).read _ hread).open_ reply _ _
      | loadNone | loadFinal | load | postThrows | fail => cases hpc
    | write r run read w basis hr hpc =>
      refine AllBut.set (All.but h.writes) fun read' w' hpc' => ?_
      cases w <;> cases hpc'
    | post r run d endpoint hr hpc => exact AllBut.set (All.but h.writes) fun _ _ hpc => by cases hpc
    | retryAdd r run deliveryId attempts delay basis hr hpc => exact AllBut.set (All.but h.writes) fun _ _ hpc => by cases hpc
    | finish r run hr => exact AllBut.set (All.but h.writes) fun _ _ hpc => by cases hpc
    | crash r run hr => exact AllBut.set (All.but h.writes) fun _ _ hpc => by cases hpc
    | _ => exact h.writes

/-- In every reached state, however runs of a delivery overlap, every row is lawful. -/
theorem rows_lawful {C : State → Action → Prop} (h : Reach (system env) C s) :
    ∀ id d, s.delivery id = some d → Lawful env d :=
  (h.invariant (I := LawInv env) ⟨fun _ _ hrow => (by cases hrow), all_empty, all_empty⟩
    fun _ _ _ hr hI _ hs => hI.step (snapshotInv hr) (step_sound hs)).rows

/-- The overlapping runs, the second of which writes over the first one's success. -/
theorem rows_lawful_overlapping : ∃ s, Reach (system standard) Free s ∧
    (s.delivery "000").any (fun d => d.status = .failed ∧ d.deliveredAt.isSome) = true ∧
    ∀ id d, s.delivery id = some d → Lawful standard d := by
  obtain ⟨s, hs, hp⟩ := exists_reach_of_exec (show (exec (system standard) (system standard).init
    (overlapping ++ [.write 1])).any
      (fun s => (s.delivery "000").any fun d => d.status = .failed ∧ d.deliveredAt.isSome) = true by decide +kernel)
  exact ⟨s, hs, hp, rows_lawful hs⟩

end PaymentsProcessor.Webhooks
