/-
The partitioned outbox over its life: inserts by the API, the marks of the relay and the dispatcher, and any number of
ticks of any number of instances of `OutboxCleanupService`, one step for each of their statements and one for each of their
readings of the clock. So the day may change between the two readings that make one statement; the partition then covers
two days, and its name says one. A statement may fail at any time, which ends its tick; whoever is down takes no step.
-/
import PaymentsProcessor.Base.PartialMap
import PaymentsProcessor.Base.RangeTable
import PaymentsProcessor.Base.Transition
import PaymentsProcessor.Database.Schema
import PaymentsProcessor.Outbox.Naming

namespace PaymentsProcessor

/-- Its consumer has taken the row: the relay a submission, the webhook dispatcher a terminal event. -/
def OutboxRow.consumed (row : OutboxRow) : Bool :=
  match row.event with
  | .submitted _ => row.publishedAt.isSome
  | .completed _ | .failed _ => row.webhookDispatchedAt.isSome

namespace OutboxCleanupService

open Calendar Transition PartialMap

/-! ## The state -/

/-- `AHEAD_DAYS`. -/
def aheadDays : Nat := 7

/-- `outbox`, partitioned by `created_at`. -/
abbrev Table := RangeTable (List Char) fun row : OutboxRow => (row.createdAt : Int)

abbrev Partition := RangePart (List Char) Int

/-- The partition of a day. -/
def partOf (day : Int) : Partition := ⟨nameOf day, day * dayMs, (day + 1) * dayMs⟩

/-- The migration: the default partition, and those from the day before to fourteen days ahead. -/
def migrate (start : Nat) : Table :=
  (List.range 16).foldl (fun t i => (t.create (partOf (start / dayMs + i - 1))).getD t) .empty

/-- Where a tick is, with the readings it has taken. -/
inductive Tick
  | ensuring (i : Nat)
  | ensuringFrom (i fromNow : Nat)
  | creating (i fromNow toNow : Nat)
  | expiring
  | listing (cutoffNow : Nat)
  | dropping (cutoffNow : Nat) (names : List (List Char))
  deriving DecidableEq

/-- A row dropped with its partition, with the cutoff reading of the tick. -/
structure Dropped where
  cutoffNow : Nat
  row : OutboxRow

structure State where
  now : Nat
  table : Table
  /-- by instance of the service -/
  ticks : Nat → Option Tick
  /-- the partitions made by `ensurePartitions`, which no step reads -/
  made : List Partition
  /-- the rows dropped by `dropExpired`, which no step reads -/
  dropped : List Dropped

/-! ## The statements of a tick -/

/-- The partition with the name exists, so the statement does nothing. -/
def skips (table : Table) (i fromNow toNow : Nat) : Bool :=
  (createStatement i fromNow toNow).any fun stmt => table.has stmt.name

/-- The partition of a statement, if the database can read the bounds. -/
def partitionOf (i fromNow toNow : Nat) : Option Partition := do
  let stmt ← createStatement i fromNow toNow
  let lower ← timestamptz stmt.lower
  let upper ← timestamptz stmt.upper
  some ⟨stmt.name, lower, upper⟩

/-- The partition the statement makes and the table with it, if it is not skipped and does not fail. -/
def creation (table : Table) (i fromNow toNow : Nat) : Option (Partition × Table) :=
  if skips table i fromNow toNow then none
  else (partitionOf i fromNow toNow).bind fun p => (table.create p).map fun table => (p, table)

/-- After the statement of the `i`-th day: the next one, or `dropExpired`. -/
def afterCreate (i : Nat) : Tick := if i < aheadDays then .ensuring (i + 1) else .expiring

/-- `CREATE TABLE IF NOT EXISTS`; an error ends the tick. -/
def ensurePartition (k i fromNow toNow : Nat) (s : State) : State :=
  match creation s.table i fromNow toNow with
  | some (p, table) =>
    { s with table := table, made := p :: s.made, ticks := Function.update s.ticks k (some (afterCreate i)) }
  | none =>
    { s with
      ticks := Function.update s.ticks k (if skips s.table i fromNow toNow then some (afterCreate i) else none) }

/-- `day < cutoff`. -/
def expired (cutoff : Option Int) (name : List Char) : Bool :=
  match partitionDay name, cutoff with
  | some day, some cutoff => day < cutoff
  | _, _ => false

/-- The partitions to drop, or the end of the tick. -/
def dropsLeft (cutoffNow : Nat) : List (List Char) → Option Tick
  | [] => none
  | names => some (.dropping cutoffNow names)

/-- The partitions whose names say that they are expired; the default one does not match the pattern. -/
def listExpired (retentionDays cutoffNow : Nat) (table : Table) : List (List Char) :=
  (table.parts.map RangePart.name).filter (expired (utcDay cutoffNow (-retentionDays)))

/-- The next reading of the clock. -/
def read (k : Nat) (s : State) : Option State :=
  match s.ticks k with
  | some (.ensuring i) => some { s with ticks := Function.update s.ticks k (some (.ensuringFrom i s.now)) }
  | some (.ensuringFrom i fromNow) =>
    some { s with ticks := Function.update s.ticks k (some (.creating i fromNow s.now)) }
  | some .expiring => some { s with ticks := Function.update s.ticks k (some (.listing s.now)) }
  | _ => none

/-- The next statement. -/
def execute (retentionDays k : Nat) (s : State) : Option State :=
  match s.ticks k with
  | some (.creating i fromNow toNow) => some (ensurePartition k i fromNow toNow s)
  | some (.listing cutoffNow) =>
    some { s with ticks := Function.update s.ticks k (dropsLeft cutoffNow (listExpired retentionDays cutoffNow s.table)) }
  | some (.dropping cutoffNow (name :: names)) =>
    some
      { s with
        table := s.table.drop name
        ticks := Function.update s.ticks k (dropsLeft cutoffNow names)
        dropped := s.dropped ++ (s.table.rowsOf name).map (Dropped.mk cutoffNow) }
  | _ => none

/-! ## The consumers -/

/-- `published_at` set by the relay. -/
def publishRow (ids : List String) (now : Nat) (row : OutboxRow) : OutboxRow :=
  if row.id ∈ ids ∧ row.submitted?.isSome ∧ row.publishedAt = none then { row with publishedAt := some now } else row

/-- `webhook_dispatched_at` set by the dispatcher. -/
def dispatchRow (ids : List String) (now : Nat) (row : OutboxRow) : OutboxRow :=
  if row.id ∈ ids ∧ row.terminal?.isSome ∧ row.webhookDispatchedAt = none then
    { row with webhookDispatchedAt := some now }
  else row

theorem publishRow_createdAt (ids : List String) (now : Nat) (row : OutboxRow) :
    (publishRow ids now row).createdAt = row.createdAt := by
  unfold publishRow
  split <;> rfl

theorem dispatchRow_createdAt (ids : List String) (now : Nat) (row : OutboxRow) :
    (dispatchRow ids now row).createdAt = row.createdAt := by
  unfold dispatchRow
  split <;> rfl

/-! ## The system -/

inductive Action
  | tick (ms : Nat)
  /-- a transaction that began at the row's `created_at` inserts it -/
  | insert (row : OutboxRow)
  | publish (ids : List String)
  | dispatch (ids : List String)
  /-- a tick begins -/
  | begin_ (k : Nat)
  | read (k : Nat)
  | execute (k : Nat)
  /-- a statement of a tick fails, or its process dies -/
  | fail (k : Nat)

/-- One step. -/
def step (retentionDays : Nat) (s : State) : Action → Option State
  | .tick ms => some { s with now := s.now + ms }
  | .insert row =>
    if row.createdAt ≤ s.now ∧ row.publishedAt = none ∧ row.webhookDispatchedAt = none then
      some { s with table := s.table.insert row }
    else none
  | .publish ids =>
    some { s with table := s.table.update (publishRow ids s.now) fun row => by rw [publishRow_createdAt] }
  | .dispatch ids =>
    some { s with table := s.table.update (dispatchRow ids s.now) fun row => by rw [dispatchRow_createdAt] }
  | .begin_ k =>
    if s.ticks k = none then some { s with ticks := Function.update s.ticks k (some (.ensuring 0)) } else none
  | .read k => read k s
  | .execute k => execute retentionDays k s
  | .fail k => some { s with ticks := Function.update s.ticks k none }

/-- The outbox from the migration on. -/
def system (retentionDays start : Nat) : System State Action where
  init := ⟨start, migrate start, fun _ => none, [], []⟩
  step := step retentionDays

/-- A submission inserted at a time. -/
def submittedAt (now : Nat) : OutboxRow where
  id := "0"
  aggregateType := "payment"
  aggregateId := "p"
  event := .submitted { paymentId := "p", amountCents := 1050, currency := "USD" }
  publishedAt := none
  webhookDispatchedAt := none
  createdAt := now

/-- The readings and the statement of one partition, with time passing between the readings. -/
def ensureActions (k ms : Nat) : List Action := [.read k, .tick ms, .read k, .execute k]

/-- A tick with so many partitions to drop, at one time. -/
def tickActions (k drops : Nat) : List Action :=
  .begin_ k :: (List.replicate 8 (ensureActions k 0)).flatten ++ [.read k, .execute k] ++ List.replicate drops (.execute k)

/-! ## The rules -/

/-- What a step of a tick can do that leaves the table as it is. -/
inductive Advance (retentionDays : Nat) (s : State) (k : Nat) : Action → Option Tick → Prop
  | begin_ (hk : s.ticks k = none) : Advance retentionDays s k (.begin_ k) (some (.ensuring 0))
  | readFrom (i : Nat) (hk : s.ticks k = some (.ensuring i)) :
      Advance retentionDays s k (.read k) (some (.ensuringFrom i s.now))
  | readTo (i fromNow : Nat) (hk : s.ticks k = some (.ensuringFrom i fromNow)) :
      Advance retentionDays s k (.read k) (some (.creating i fromNow s.now))
  | readCutoff (hk : s.ticks k = some .expiring) : Advance retentionDays s k (.read k) (some (.listing s.now))
  | skip (i fromNow toNow : Nat) (hk : s.ticks k = some (.creating i fromNow toNow))
      (hskips : skips s.table i fromNow toNow = true) : Advance retentionDays s k (.execute k) (some (afterCreate i))
  | createFails (i fromNow toNow : Nat) (hk : s.ticks k = some (.creating i fromNow toNow))
      (hskips : skips s.table i fromNow toNow = false) (hnew : creation s.table i fromNow toNow = none) :
      Advance retentionDays s k (.execute k) none
  | list (cutoffNow : Nat) (hk : s.ticks k = some (.listing cutoffNow)) :
      Advance retentionDays s k (.execute k) (dropsLeft cutoffNow (listExpired retentionDays cutoffNow s.table))
  | fail : Advance retentionDays s k (.fail k) none

/-- What each step can do. -/
inductive Step (retentionDays : Nat) (s : State) : Action → State → Prop
  | tick (ms : Nat) : Step retentionDays s (.tick ms) { s with now := s.now + ms }
  | insert (row : OutboxRow) (hcreated : row.createdAt ≤ s.now) :
      Step retentionDays s (.insert row) { s with table := s.table.insert row }
  | mark (a : Action) (f : OutboxRow → OutboxRow) (hf : ∀ row, (f row).createdAt = row.createdAt)
      (ha : ∀ k, a ≠ .execute k) :
      Step retentionDays s a { s with table := s.table.update f fun row => by rw [hf] }
  | advance (a : Action) (k : Nat) (t : Option Tick) (h : Advance retentionDays s k a t) :
      Step retentionDays s a { s with ticks := Function.update s.ticks k t }
  | create (k i fromNow toNow : Nat) (p : Partition) (table : Table)
      (hk : s.ticks k = some (.creating i fromNow toNow)) (hnew : creation s.table i fromNow toNow = some (p, table)) :
      Step retentionDays s (.execute k) { s with
        table := table, made := p :: s.made, ticks := Function.update s.ticks k (some (afterCreate i)) }
  | drop (k cutoffNow : Nat) (name : List Char) (names : List (List Char))
      (hk : s.ticks k = some (.dropping cutoffNow (name :: names))) :
      Step retentionDays s (.execute k) { s with
        table := s.table.drop name
        ticks := Function.update s.ticks k (dropsLeft cutoffNow names)
        dropped := s.dropped ++ (s.table.rowsOf name).map (Dropped.mk cutoffNow) }

variable {retentionDays start : Nat} {s s' : State} {a : Action}

theorem ensurePartition_sound {k i fromNow toNow : Nat} (hk : s.ticks k = some (.creating i fromNow toNow)) :
    Step retentionDays s (.execute k) (ensurePartition k i fromNow toNow s) := by
  unfold ensurePartition
  cases hnew : creation s.table i fromNow toNow with
  | some made => exact .create k i fromNow toNow made.1 made.2 hk hnew
  | none =>
    refine .advance _ k _ ?_
    split
    · rename_i hskips
      exact .skip i fromNow toNow hk hskips
    · rename_i hskips
      exact .createFails i fromNow toNow hk (Bool.eq_false_iff.2 hskips) hnew

theorem step_sound (h : step retentionDays s a = some s') : Step retentionDays s a s' := by
  cases a with
  | tick ms =>
    cases h
    exact .tick ms
  | insert row =>
    dsimp only [step] at h
    split at h
    · rename_i hnew
      cases h
      exact .insert row hnew.1
    · cases h
  | publish ids =>
    cases h
    exact .mark _ _ (publishRow_createdAt ids s.now) (by simp)
  | dispatch ids =>
    cases h
    exact .mark _ _ (dispatchRow_createdAt ids s.now) (by simp)
  | begin_ k =>
    dsimp only [step] at h
    split at h
    · rename_i hk
      cases h
      exact .advance _ k _ (.begin_ hk)
    · cases h
  | read k =>
    dsimp only [step, read] at h
    split at h
    · rename_i i hk
      cases h
      exact .advance _ k _ (.readFrom i hk)
    · rename_i i fromNow hk
      cases h
      exact .advance _ k _ (.readTo i fromNow hk)
    · rename_i hk
      cases h
      exact .advance _ k _ (.readCutoff hk)
    · cases h
  | execute k =>
    dsimp only [step, execute] at h
    split at h
    · rename_i i fromNow toNow hk
      cases h
      exact ensurePartition_sound hk
    · rename_i cutoffNow hk
      cases h
      exact .advance _ k _ (.list cutoffNow hk)
    · rename_i cutoffNow name names hk
      cases h
      exact .drop k cutoffNow name names hk
    · cases h
  | fail k =>
    cases h
    exact .advance _ k _ .fail

/-! ## Days -/

theorem mul_dayMs_lt {a b : Int} : a * dayMs < b * dayMs ↔ a < b := Int.mul_lt_mul_right (by decide)

theorem mul_dayMs_le {a b : Int} : a * dayMs ≤ b * dayMs ↔ a ≤ b := Int.mul_le_mul_right (by decide)

theorem mul_dayMs_eq {a b : Int} : a * dayMs = b * dayMs ↔ a = b := Int.mul_eq_mul_right_iff (by decide)

theorem succ_mul_dayMs (a : Int) : (a + 1) * dayMs = a * dayMs + dayMs := by
  rw [Int.add_mul, Int.one_mul]

/-- The partitions of two days are disjoint. -/
theorem partOf_disjoint {d d' : Int} (h : d ≠ d') : (partOf d).Disjoint (partOf d') := by
  rcases lt_or_gt_of_ne h with hlt | hgt
  · exact Or.inl (mul_dayMs_le.2 (Int.add_one_le_of_lt hlt))
  · exact Or.inr (mul_dayMs_le.2 (Int.add_one_le_of_lt hgt))

/-- What is read from the name is the start of its day. -/
theorem partitionDay_partOf {day t : Int} (hday : -1 ≤ day) (h : partitionDay (nameOf day) = some t) : t = day * dayMs := by
  rcases Int.lt_or_le 9999 (yearFromDay day) with hlate | hyear
  · rw [partitionDay_late hlate] at h
    cases h
  · rw [partitionDay_nameOf hday hyear] at h
    cases h
    rfl

/-- A name that is expired says a day. -/
theorem partitionDay_of_expired {day : Int} {cutoff : Option Int} (hday : -1 ≤ day) (h : expired cutoff (nameOf day) = true) :
    partitionDay (nameOf day) = some (day * dayMs) := by
  unfold expired at h
  split at h
  · rename_i ht
    rw [ht, partitionDay_partOf hday ht]
  · cases h

/-- What is expired lies before the retention, from the day of the cutoff reading on. -/
theorem expired_spec {cutoffNow : Nat} {name : List Char} {day : Int} (hname : partitionDay name = some (day * dayMs))
    (h : expired (utcDay cutoffNow (-retentionDays)) name = true) : day < cutoffNow / dayMs - retentionDays := by
  unfold expired at h
  split at h
  · rename_i t cutoff ht hcutoff
    rw [ht, Option.some.injEq] at hname
    rw [hname, utcDay_eq hcutoff, decide_eq_true_eq, mul_dayMs_lt] at h
    omega
  · cases h

/-- A partition made is that of the first reading's day, and reaches to the end of the second's. -/
theorem creation_spec {table table' : Table} {i fromNow toNow : Nat} {p : Partition}
    (h : creation table i fromNow toNow = some (p, table')) :
    p.name = nameOf (fromNow / dayMs + i) ∧ partitionDay p.name = some p.lower ∧
    p.lower = (fromNow / dayMs + i) * dayMs ∧ p.upper = (toNow / dayMs + (i + 1)) * dayMs ∧
    table.create p = some table' ∧ yearFromDay (toNow / dayMs + (i + 1)) ≤ 9999 := by
  unfold creation at h
  split at h
  · cases h
  · obtain ⟨q, hq, h⟩ := Option.bind_eq_some_iff.1 h
    obtain ⟨t, ht, h⟩ := Option.map_eq_some_iff.1 h
    cases h
    obtain ⟨stmt, hstmt, hq⟩ := Option.bind_eq_some_iff.1 hq
    obtain ⟨lower, hlower, hq⟩ := Option.bind_eq_some_iff.1 hq
    obtain ⟨upper, hupper, hq⟩ := Option.bind_eq_some_iff.1 hq
    cases hq
    obtain ⟨hname, hparsed, hl, hu, hyear⟩ := createStatement_spec hstmt hlower hupper
    exact ⟨hname, hparsed, hl, hu, ht, hyear⟩

/-! ## The table over a run -/

/-- A partition is named after the day it begins with. -/
def NamedByLower (p : Partition) : Prop :=
  ∃ day last, -1 ≤ day ∧ day < last ∧ p = ⟨nameOf day, day * dayMs, last * dayMs⟩

/-- What a tick has read is past, and it drops only what was expired then. -/
def Tick.Past (retentionDays now : Nat) : Tick → Prop
  | .listing cutoffNow => cutoffNow ≤ now
  | .dropping cutoffNow names => cutoffNow ≤ now ∧ ∀ name ∈ names, expired (utcDay cutoffNow (-retentionDays)) name = true
  | _ => True

structure TableInv (retentionDays : Nat) (s : State) : Prop where
  parts : ∀ p ∈ s.table.parts, NamedByLower p
  created : ∀ r ∈ s.table.rows, r.2.createdAt ≤ s.now
  ticks : All s.ticks fun _ tick => tick.Past retentionDays s.now

theorem namedByLower_partOf {day : Int} (h : -1 ≤ day) : NamedByLower (partOf day) :=
  ⟨day, day + 1, h, Int.lt_succ day, rfl⟩

theorem migrate_parts (start : Nat) : ∀ p ∈ (migrate start).parts, ∃ day, -1 ≤ day ∧ p = partOf day := by
  have hstart := day_nonneg start
  have hfold : ∀ (l : List Nat) (t : Table), (∀ p ∈ t.parts, ∃ day, -1 ≤ day ∧ p = partOf day) →
      ∀ p ∈ (l.foldl (fun t i => (t.create (partOf (start / dayMs + i - 1))).getD t) t).parts,
        ∃ day, -1 ≤ day ∧ p = partOf day := by
    intro l
    induction l with
    | nil => exact fun t ht => ht
    | cons i l ih =>
      intro t ht
      refine ih _ fun p hp => ?_
      dsimp only at hp
      cases hcreate : t.create (partOf (start / dayMs + i - 1)) with
      | none =>
        rw [hcreate] at hp
        exact ht p hp
      | some t' =>
        rw [hcreate, Option.getD_some, (RangeTable.create_eq_some hcreate).2] at hp
        rcases List.mem_cons.1 hp with rfl | hold
        · exact ⟨_, by omega, rfl⟩
        · exact ht p hold
  unfold migrate
  exact hfold (List.range 16) .empty fun _ hp => absurd hp List.not_mem_nil

theorem migrate_rows (start : Nat) : (migrate start).rows = [] := by
  have hfold : ∀ (l : List Nat) (t : Table), t.rows = [] →
      (l.foldl (fun t i => (t.create (partOf (start / dayMs + i - 1))).getD t) t).rows = [] := by
    intro l
    induction l with
    | nil => exact fun t ht => ht
    | cons i l ih =>
      intro t ht
      refine ih _ ?_
      dsimp only
      cases hcreate : t.create (partOf (start / dayMs + i - 1)) with
      | none => exact ht
      | some t' => exact (RangeTable.create_eq_some hcreate).1.trans ht
  exact hfold (List.range 16) .empty rfl

theorem creation_named {table table' : Table} {i fromNow toNow : Nat} {p : Partition}
    (h : creation table i fromNow toNow = some (p, table')) : NamedByLower p := by
  obtain ⟨hname, -, hlower, hupper, hcreate, -⟩ := creation_spec h
  have hlt := (RangeTable.accepts_of_create hcreate).1
  have hnonneg := day_nonneg fromNow
  rw [hlower, hupper, mul_dayMs_lt] at hlt
  refine ⟨fromNow / dayMs + i, toNow / dayMs + (i + 1), by omega, hlt, ?_⟩
  cases p
  exact congr (congr (congrArg _ hname) hlower) hupper

theorem Tick.Past.later {tick : Tick} {now now' : Nat} (h : tick.Past retentionDays now) (hle : now ≤ now') :
    tick.Past retentionDays now' := by
  cases tick with
  | listing cutoffNow => exact Nat.le_trans h hle
  | dropping cutoffNow names => exact ⟨Nat.le_trans h.1 hle, h.2⟩
  | _ => trivial

theorem past_dropsLeft {k cutoffNow : Nat} {names : List (List Char)}
    (hT : All s.ticks fun _ tick => tick.Past retentionDays s.now)
    (hcutoff : cutoffNow ≤ s.now) (hnames : ∀ name ∈ names, expired (utcDay cutoffNow (-retentionDays)) name = true) :
    All (Function.update s.ticks k (dropsLeft cutoffNow names)) fun _ tick => tick.Past retentionDays s.now := by
  cases names with
  | nil => exact hT.but.erase
  | cons name names => exact hT.but.set ⟨hcutoff, hnames⟩

theorem past_afterCreate (i now : Nat) : (afterCreate i).Past retentionDays now := by
  unfold afterCreate
  split <;> trivial

theorem TableInv.advance {k : Nat} {t : Option Tick} (h : TableInv retentionDays s) (ha : Advance retentionDays s k a t) :
    All (Function.update s.ticks k t) fun _ tick => tick.Past retentionDays s.now := by
  have hT := h.ticks
  cases ha with
  | begin_ hk => exact hT.but.set trivial
  | readFrom i hk => exact hT.but.set trivial
  | readTo i fromNow hk => exact hT.but.set trivial
  | readCutoff hk => exact hT.but.set (Nat.le_refl _)
  | skip i fromNow toNow hk hskips => exact hT.but.set (past_afterCreate i s.now)
  | createFails i fromNow toNow hk hskips hnew => exact hT.but.erase
  | list cutoffNow hk => exact past_dropsLeft hT (hT hk) fun name hname => (List.mem_filter.1 hname).2
  | fail => exact hT.but.erase

theorem TableInv.step (h : TableInv retentionDays s) (hs : Step retentionDays s a s') : TableInv retentionDays s' := by
  obtain ⟨hP, hC, hT⟩ := h
  cases hs with
  | tick ms =>
    exact ⟨hP, fun r hr => Nat.le_trans (hC r hr) (Nat.le_add_right _ _),
      hT.mono fun _ _ htick => htick.later (Nat.le_add_right _ _)⟩
  | insert row hcreated =>
    refine ⟨hP, fun r hr => ?_, hT⟩
    rcases List.mem_append.1 hr with hold | hnew
    · exact hC r hold
    · cases List.mem_singleton.1 hnew
      exact hcreated
  | mark _ f hf ha =>
    refine ⟨hP, fun r hr => ?_, hT⟩
    obtain ⟨old, hold, rfl⟩ := List.mem_map.1 hr
    rw [hf]
    exact hC old hold
  | advance _ k t ha => exact ⟨hP, hC, TableInv.advance ⟨hP, hC, hT⟩ ha⟩
  | create k i fromNow toNow p table hk hnew =>
    obtain ⟨-, -, -, -, hcreate, -⟩ := creation_spec hnew
    obtain ⟨hrows, hparts⟩ := RangeTable.create_eq_some hcreate
    refine ⟨fun q hq => ?_, fun r hr => ?_, hT.but.set (past_afterCreate i s.now)⟩
    · rw [hparts] at hq
      rcases List.mem_cons.1 hq with rfl | hold
      · exact creation_named hnew
      · exact hP q hold
    · rw [hrows] at hr
      exact hC r hr
  | drop k cutoffNow name names hk =>
    obtain ⟨hcutoff, hnames⟩ := (hT hk :)
    refine ⟨fun p hp => hP p (RangeTable.mem_parts_drop.1 hp).1, fun r hr => hC r (RangeTable.mem_rows_drop.1 hr).1, ?_⟩
    exact past_dropsLeft hT hcutoff fun name' hname => hnames name' (List.mem_cons_of_mem _ hname)

theorem tableInv {C : State → Action → Prop} (h : Reach (system retentionDays start) C s) : TableInv retentionDays s := by
  refine h.invariant (I := TableInv retentionDays) ⟨fun p hp => ?_, fun r hr => ?_, all_empty⟩ fun _ _ _ _ hI _ hs =>
    hI.step (step_sound hs)
  · obtain ⟨day, hday, rfl⟩ := migrate_parts start p hp
    exact namedByLower_partOf hday
  · rw [show (system retentionDays start).init.table.rows = [] from migrate_rows start] at hr
    exact absurd hr List.not_mem_nil

end OutboxCleanupService

end PaymentsProcessor
