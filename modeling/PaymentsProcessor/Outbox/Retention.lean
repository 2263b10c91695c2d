/-
What a drop may lose. `dropExpired` goes by the date in a partition's name alone, while the partition may reach beyond
that day and a row is taken by a consumer that may be down. No row is lost as long as what is dropped is of one day and
no consumer is behind by more than the retention.
-/
import PaymentsProcessor.Outbox.Cleanup

namespace PaymentsProcessor.OutboxCleanupService

open Calendar Transition PartialMap

variable {retentionDays start : Nat} {s s' : State} {a : Action}

/-! ## The condition -/

/-- Every dropped row had been taken by its consumer. -/
def NoneLost (s : State) : Prop := ∀ d ∈ s.dropped, d.row.consumed = true

/-- A partition of the name is no longer than the day in it. -/
def ofOneDay (name : List Char) (s : State) : Bool :=
  s.table.parts.all fun p => p.name ≠ name || p.upper ≤ p.lower + dayMs

/-- No row in a day partition has waited for its consumer since before the retention. -/
def consumersInTime (retentionDays cutoffNow : Nat) (s : State) : Bool := s.table.rows.all fun r =>
  r.1.isNone || r.2.consumed || (cutoffNow / dayMs - retentionDays) * dayMs ≤ (r.2.createdAt : Int)

/-- If the step is a drop, the partition is of one day, and the consumers are in time for the tick's cutoff. -/
def dropsInTime (retentionDays : Nat) (s : State) : Action → Bool
  | .execute k =>
    match s.ticks k with
    | some (.dropping cutoffNow (name :: _)) => ofOneDay name s && consumersInTime retentionDays cutoffNow s
    | _ => true
  | _ => true

/-! ## Nothing is lost -/

/-- A row in an expired partition of one day is older than the retention. -/
theorem created_before {p : Partition} {cutoffNow : Nat} {row : OutboxRow} (hp : NamedByLower p)
    (hone : p.upper ≤ p.lower + dayMs) (hexpired : expired (utcDay cutoffNow (-retentionDays)) p.name = true)
    (hholds : p.Holds (row.createdAt : Int)) : (row.createdAt : Int) < (cutoffNow / dayMs - retentionDays) * dayMs := by
  obtain ⟨day, last, hday, -, rfl⟩ := hp
  have hbefore := expired_spec (partitionDay_of_expired hday hexpired) hexpired
  calc (row.createdAt : Int) < last * dayMs := hholds.2
    _ ≤ day * dayMs + dayMs := hone
    _ = (day + 1) * dayMs := (succ_mul_dayMs day).symm
    _ ≤ (cutoffNow / dayMs - retentionDays) * dayMs := mul_dayMs_le.2 (Int.add_one_le_of_lt hbefore)

/-- A row in an expired partition has been taken, if the partition is of one day and the consumers are in time. -/
theorem consumed_of_inTime (hI : TableInv retentionDays s) {name : List Char} {cutoffNow : Nat} {row : OutboxRow}
    (hone : ofOneDay name s = true) (hin : consumersInTime retentionDays cutoffNow s = true)
    (hexpired : expired (utcDay cutoffNow (-retentionDays)) name = true) (hrow : row ∈ s.table.rowsOf name) :
    row.consumed = true := by
  obtain ⟨p, hp, rfl, hholds⟩ := RangeTable.holds_of_mem_rowsOf hrow
  have hwidth : p.upper ≤ p.lower + dayMs := by
    have h := List.all_eq_true.1 hone p hp
    simpa using h
  have hold := created_before (hI.parts p hp) hwidth hexpired hholds
  have hwaits := List.all_eq_true.1 hin _ (RangeTable.mem_rowsOf.1 hrow)
  simp only [Option.isNone_some, Bool.false_or, Bool.or_eq_true, decide_eq_true_eq] at hwaits
  rcases hwaits with htaken | hyoung
  · exact htaken
  · omega

theorem NoneLost.step (h : NoneLost s) (hI : TableInv retentionDays s) (hin : dropsInTime retentionDays s a = true)
    (hs : Step retentionDays s a s') : NoneLost s' := by
  cases hs with
  | drop k cutoffNow name names hk =>
    simp only [dropsInTime, hk, Bool.and_eq_true] at hin
    intro d hd
    rcases List.mem_append.1 hd with hold | hnew
    · exact h d hold
    · obtain ⟨row, hrow, rfl⟩ := List.mem_map.1 hnew
      exact consumed_of_inTime hI hin.1 hin.2 ((hI.ticks hk :).2 name List.mem_cons_self) hrow
  | _ => exact h

/-- In every run in which, whenever a tick drops a partition, that is of one day and no row in a day partition has waited
for its consumer since before the retention of the tick, no row is dropped that its consumer has not taken. -/
theorem none_lost (h : Reach (system retentionDays start) (fun s a => dropsInTime retentionDays s a = true) s) :
    NoneLost s :=
  h.invariant (I := NoneLost) (fun _ hd => absurd hd List.not_mem_nil) fun _ _ _ hr hI hin hs =>
    hI.step (tableInv hr) hin (step_sound hs)

/-- A submission is published a second after it was accepted, and its partition dropped nine days later. -/
theorem none_lost_published : ∃ s, Reach (system 7 0) (fun s a => dropsInTime 7 s a = true) s ∧
    s.dropped.length = 1 ∧ NoneLost s := by
  obtain ⟨s, hs, hp⟩ := exists_reach_of_execIf (show (execIf (system 7 0) (fun s a => dropsInTime 7 s a = true)
    (system 7 0).init ([.insert (submittedAt 0), .tick 1000, .publish ["0"], .tick (9 * 86400000)] ++ tickActions 0 3)).any
      (fun s => s.dropped.length = 1) = true by decide +kernel)
  exact ⟨s, hs, of_decide_eq_true hp, none_lost hs⟩

/-- The relay is down for nine days: the submission is dropped unpublished. -/
theorem unpublished_lost : ∃ s, Reach (system 7 0) Free s ∧ ¬ NoneLost s := by
  obtain ⟨s, hs, hp⟩ := exists_reach_of_exec (show (exec (system 7 0) (system 7 0).init
    ([.insert (submittedAt 0), .tick (9 * 86400000)] ++ tickActions 0 3)).any
      (fun s => s.dropped.any fun d => !d.row.consumed) = true by decide +kernel)
  obtain ⟨d, hd, hwaits⟩ := List.any_eq_true.1 hp
  refine ⟨s, hs, fun hall => ?_⟩
  rw [hall d hd] at hwaits
  cases hwaits

/-- Midnight passes within a statement, so the partition named after the sixteenth takes the rows of the seventeenth as
well, and loses one of them before the retention is over. -/
example : (exec (system 7 0) (system 7 0).init
    ([.tick (9 * 86400000 - 1), .begin_ 0] ++ (List.replicate 7 (ensureActions 0 0)).flatten ++ ensureActions 0 1 ++
      [.fail 0, .tick (7 * 86400000), .insert (submittedAt (16 * 86400000)), .tick (7 * 86400000)] ++ tickActions 0 1)).any
    (fun s => s.dropped.any fun d =>
      !d.row.consumed && (d.cutoffNow / dayMs - 7) * dayMs ≤ (d.row.createdAt : Int)) = true := by
  decide +kernel

end PaymentsProcessor.OutboxCleanupService
