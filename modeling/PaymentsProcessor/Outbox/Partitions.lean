/-
The names of the partitions and their ranges, over any number of ticks of any number of instances: the law of the names
holds as long as no day ends between the two readings of the clock that make one statement.
-/
import PaymentsProcessor.Outbox.Cleanup

namespace PaymentsProcessor.OutboxCleanupService

open Calendar Transition PartialMap

variable {retentionDays start : Nat} {s s' : State} {a : Action}

/-! ## The law -/

/-- A partition is named after the one day it covers. -/
def NamedByRange (p : Partition) : Prop :=
  ∃ y m d : Nat, y ≤ 9999 ∧ 1 ≤ m ∧ m ≤ 12 ∧ 1 ≤ d ∧ (d : Int) ≤ daysInMonth y (m - 1) ∧
    p.name = "outbox_p".toList ++ pad 4 y ++ pad 2 m ++ pad 2 d ∧
    p.lower = dateUTC y (m - 1 : Int) d ∧ p.upper = p.lower + dayMs

/-- The names of the partitions made are their ranges, and what is dropped is older than the retention. -/
structure NamesLaw (retentionDays : Nat) (s : State) : Prop where
  named : ∀ p ∈ s.made, NamedByRange p
  disjoint : ∀ p ∈ s.made, ∀ q ∈ s.made, p ≠ q → p.Disjoint q
  parsed : ∀ p ∈ s.made, partitionDay p.name = some p.lower
  retained : ∀ d ∈ s.dropped, (d.row.createdAt : Int) < (d.cutoffNow / dayMs - retentionDays) * dayMs

/-- If the step makes a partition, both readings of the clock for it were taken on one day. -/
def readOnOneDay (s : State) : Action → Bool
  | .execute k =>
    match s.ticks k with
    | some (.creating i fromNow toNow) =>
      (creation s.table i fromNow toNow).isNone || (fromNow : Int) / dayMs = (toNow : Int) / dayMs
    | _ => true
  | _ => true

theorem readOnOneDay_of_ne (h : ∀ k, a ≠ .execute k) : readOnOneDay s a = true := by
  cases a with
  | execute k => exact absurd rfl (h k)
  | _ => rfl

/-- A step that leaves the table makes no partition. -/
theorem Advance.readOnOneDay {k : Nat} {t : Option Tick} (h : Advance retentionDays s k a t) : readOnOneDay s a = true := by
  cases h with
  | skip i fromNow toNow hk hskips =>
    have hnew : creation s.table i fromNow toNow = none := if_pos hskips
    simp [OutboxCleanupService.readOnOneDay, hk, hnew]
  | createFails i fromNow toNow hk hskips hnew => simp [OutboxCleanupService.readOnOneDay, hk, hnew]
  | list cutoffNow hk => simp [OutboxCleanupService.readOnOneDay, hk]
  | _ => rfl

/-! ## Partitions of one day -/

theorem namedByRange_partOf {day : Int} (hday : -1 ≤ day) (h : partitionDay (nameOf day) = some (day * dayMs)) :
    NamedByRange (partOf day) := by
  have hyear := year_ge hday
  have hlate : yearFromDay day ≤ 9999 := by
    by_contra hlate
    rw [partitionDay_late (by omega)] at h
    cases h
  have hdate := dateFromDay_bounds day
  have hmonth := monthFromDay_le day
  refine ⟨(yearFromDay day).toNat, monthFromDay day + 1, (dateFromDay day).toNat, by omega, by omega, by omega, by omega, ?_,
    rfl, ?_, ?_⟩
  · rw [Int.toNat_of_nonneg (by omega), Int.toNat_of_nonneg (by omega)]
    exact hdate.2
  · unfold dateUTC
    rw [Int.toNat_of_nonneg (by omega), Int.toNat_of_nonneg (by omega), Nat.cast_succ, Int.add_sub_cancel,
      if_neg (by omega), makeDay_self]
    rfl
  · exact succ_mul_dayMs day

/-! ## The invariant -/

/-- The partitions are those of the migration and those made, all of one day; the rows dropped are expired. -/
structure PartitionsInv (retentionDays : Nat) (s : State) : Prop where
  parts : ∀ p ∈ s.table.parts, ∃ day, -1 ≤ day ∧ p = partOf day
  made : ∀ p ∈ s.made, ∃ day, -1 ≤ day ∧ p = partOf day ∧ partitionDay p.name = some p.lower
  dropped : ∀ d ∈ s.dropped, (d.row.createdAt : Int) < (d.cutoffNow / dayMs - retentionDays) * dayMs

/-- A partition made from two readings of one day is the partition of a day. -/
theorem creation_partOf {table table' : Table} {i fromNow toNow : Nat} {p : Partition}
    (h : creation table i fromNow toNow = some (p, table')) (hday : (fromNow : Int) / dayMs = (toNow : Int) / dayMs) :
    ∃ day, -1 ≤ day ∧ p = partOf day := by
  obtain ⟨hname, -, hlower, hupper, -⟩ := creation_spec h
  have hnonneg := day_nonneg fromNow
  refine ⟨fromNow / dayMs + i, by omega, ?_⟩
  cases p
  unfold partOf
  rw [← hday, ← Int.add_assoc] at hupper
  exact congr (congr (congrArg _ hname) hlower) hupper

/-- A row in an expired partition is older than the retention. -/
theorem retained_of_expired {day : Int} {cutoffNow : Nat} {row : OutboxRow} (hday : -1 ≤ day)
    (hexpired : expired (utcDay cutoffNow (-retentionDays)) (nameOf day) = true)
    (hholds : (partOf day).Holds (row.createdAt : Int)) :
    (row.createdAt : Int) < (cutoffNow / dayMs - retentionDays) * dayMs := by
  have hbefore := expired_spec (partitionDay_of_expired hday hexpired) hexpired
  exact lt_of_lt_of_le hholds.2 (mul_dayMs_le.2 (Int.add_one_le_of_lt hbefore))

theorem PartitionsInv.step (h : PartitionsInv retentionDays s) (hI : TableInv retentionDays s)
    (hs : Step retentionDays s a s') (hday : readOnOneDay s a = true) : PartitionsInv retentionDays s' := by
  obtain ⟨hP, hM, hD⟩ := h
  cases hs with
  | tick ms => exact ⟨hP, hM, hD⟩
  | insert row => exact ⟨hP, hM, hD⟩
  | mark => exact ⟨hP, hM, hD⟩
  | advance => exact ⟨hP, hM, hD⟩
  | create k i fromNow toNow p table hk hnew =>
    simp only [readOnOneDay, hk, hnew, Option.isNone_some, Bool.false_or, decide_eq_true_eq] at hday
    obtain ⟨-, hparsed, -, -, hcreate, -⟩ := creation_spec hnew
    have hparts := (RangeTable.create_eq_some hcreate).2
    obtain ⟨day, hlow, hp⟩ := creation_partOf hnew hday
    refine ⟨fun q hq => ?_, fun q hq => ?_, hD⟩
    · rw [hparts] at hq
      rcases List.mem_cons.1 hq with rfl | hold
      · exact ⟨day, hlow, hp⟩
      · exact hP q hold
    · rcases List.mem_cons.1 hq with rfl | hold
      · exact ⟨day, hlow, hp, hparsed⟩
      · exact hM q hold
  | drop k cutoffNow name names hk =>
    refine ⟨fun p hp => hP p (RangeTable.mem_parts_drop.1 hp).1, hM, fun d hd => ?_⟩
    rcases List.mem_append.1 hd with hold | hnew
    · exact hD d hold
    · obtain ⟨row, hrow, rfl⟩ := List.mem_map.1 hnew
      obtain ⟨p, hp, hname, hholds⟩ := RangeTable.holds_of_mem_rowsOf hrow
      obtain ⟨day, hlow, rfl⟩ := hP p hp
      have hone := (hI.ticks hk :).2 name List.mem_cons_self
      rw [← hname] at hone
      exact retained_of_expired hlow hone hholds

theorem partitionsInv (h : Reach (system retentionDays start) (fun s a => readOnOneDay s a = true) s) :
    PartitionsInv retentionDays s :=
  h.invariant (I := PartitionsInv retentionDays)
    ⟨migrate_parts start, fun _ hp => absurd hp List.not_mem_nil, fun _ hd => absurd hd List.not_mem_nil⟩
    fun _ _ _ hr hI hC hs => hI.step (tableInv hr) (step_sound hs) hC

theorem PartitionsInv.law (h : PartitionsInv retentionDays s) : NamesLaw retentionDays s := by
  constructor
  · intro p hp
    obtain ⟨day, hlow, rfl, hparsed⟩ := h.made p hp
    exact namedByRange_partOf hlow hparsed
  · intro p hp q hq hne
    obtain ⟨day, -, rfl, -⟩ := h.made p hp
    obtain ⟨day', -, rfl, -⟩ := h.made q hq
    exact partOf_disjoint fun hday => hne (congrArg partOf hday)
  · intro p hp
    obtain ⟨day, -, -, hparsed⟩ := h.made p hp
    exact hparsed
  · exact h.dropped

/-! ## The law holds as long as no day ends between two readings for one partition -/

/-- In every run all partitions made are named after the one day they cover, and nothing younger than the retention is
dropped, exactly if both clock readings of each statement that makes a partition were taken on one day. -/
theorem names_are_ranges_iff {l : List (State × Action)} (h : Run (system retentionDays start) l s) :
    (∀ t ∈ states l s, NamesLaw retentionDays t) ↔ ∀ x ∈ l, readOnOneDay x.1 x.2 = true := by
  refine h.forall_iff (C := fun s a => readOnOneDay s a = true) (partitionsInv .init).law fun s a s' hr hP hs => ?_
  have hI := partitionsInv hr
  constructor
  · intro hlaw
    have hstep := step_sound hs
    cases hstep with
    | tick ms => rfl
    | insert row => rfl
    | mark _ f hf ha => exact readOnOneDay_of_ne ha
    | advance _ k t ha => exact ha.readOnOneDay
    | create k i fromNow toNow p table hk hnew =>
      -- the upper bound is that of the name, a day after the lower one
      obtain ⟨-, -, hlower, hupper, -⟩ := creation_spec hnew
      obtain ⟨y, m, d, -, -, -, -, -, -, -, hrange⟩ := hlaw.named p List.mem_cons_self
      have hday : (fromNow : Int) / dayMs = (toNow : Int) / dayMs := by
        rw [hlower, hupper, ← succ_mul_dayMs, mul_dayMs_eq] at hrange
        omega
      simp [readOnOneDay, hk, hnew, hday]
    | drop k cutoffNow name names hk => simp [readOnOneDay, hk]
  · exact fun hC => (hI.step (tableInv hr) (step_sound hs) hC).law

/-- On the ninth day a tick, begun a millisecond before midnight, makes one partition. -/
def ninthDay (ms : Nat) : List Action :=
  [.tick (9 * 86400000 - 1), .begin_ 0] ++ (List.replicate 7 (ensureActions 0 0)).flatten ++ ensureActions 0 ms

theorem names_are_ranges_iff_made : ∃ l s, Run (system 7 0) l s ∧ s.made.length = 1 ∧
    ((∀ t ∈ states l s, NamesLaw 7 t) ↔ ∀ x ∈ l, readOnOneDay x.1 x.2 = true) := by
  obtain ⟨l, s, hl, hp⟩ := exists_run_of_exec (show (exec (system 7 0) (system 7 0).init (ninthDay 0)).any
    (fun s => s.made.length = 1) = true by decide +kernel)
  exact ⟨l, s, hl, of_decide_eq_true hp, names_are_ranges_iff hl⟩

/-- Midnight passes between the two readings: the partition of the sixteenth covers the seventeenth as well. -/
theorem two_days_in_one_name : ∃ l s, Run (system 7 0) l s ∧ ¬ NamesLaw 7 s ∧
    s.made = [⟨"outbox_p19700116".toList, 15 * dayMs, 17 * dayMs⟩] := by
  obtain ⟨l, s, hl, hp⟩ := exists_run_of_exec (show (exec (system 7 0) (system 7 0).init (ninthDay 1)).any
    (fun s => s.made = [⟨"outbox_p19700116".toList, 15 * dayMs, 17 * dayMs⟩]) = true by decide +kernel)
  have hmade := of_decide_eq_true hp
  refine ⟨l, s, hl, fun hlaw => ?_, hmade⟩
  obtain ⟨y, m, d, -, -, -, -, -, -, -, hrange⟩ := hlaw.named _ (hmade ▸ List.mem_singleton_self _)
  exact absurd hrange (by decide)

end PaymentsProcessor.OutboxCleanupService
