/-
Whether a tick of the cleanup repairs the table. A day's partition can no longer be created once rows of that day have gone
to the default partition, or a partition made around midnight reaches into the day: a tick ends with all its partitions
made and all expired ones gone exactly if neither is so for its days when it starts.
-/
import PaymentsProcessor.Outbox.Cleanup

namespace PaymentsProcessor.OutboxCleanupService

open Calendar Transition PartialMap

variable {retentionDays start k : Nat} {s s' t : State} {a : Action} {table table' : Table} {day : Int}

/-! ## Ticks -/

/-- The day of the clock. -/
def State.today (s : State) : Int := (s.now : Int) / dayMs

/-- If the step makes a partition, both readings of the clock for it were taken on the day. -/
def madeOn (today : Int) (s : State) : Action → Bool
  | .execute k =>
    match s.ticks k with
    | some (.creating i fromNow toNow) =>
      (creation s.table i fromNow toNow).isNone || ((fromNow : Int) / dayMs = today && (toNow : Int) / dayMs = today)
    | _ => true
  | _ => true

/-- The tick of instance `k` goes on from the first state and ends in the second, whatever runs between its statements
but statements of a tick of another day, with none of its own failing for want of the database. -/
inductive Ticking (retentionDays k : Nat) (today : Int) : State → State → Prop
  | done {s : State} (hk : s.ticks k = none) : Ticking retentionDays k today s s
  | next {s s' t : State} {a : Action} (hk : s.ticks k ≠ none) (ha : a ≠ .fail k) (hmade : madeOn today s a = true)
      (hs : step retentionDays s a = some s') (hrest : Ticking retentionDays k today s' t) : Ticking retentionDays k today s t

/-- A tick of instance `k` within one day, from its first statement to its end. -/
structure TickRun (retentionDays k : Nat) (s t : State) : Prop where
  starts : ∃ fromNow toNow : Nat, s.ticks k = some (.creating 0 fromNow toNow) ∧
    (fromNow : Int) / dayMs = s.today ∧ (toNow : Int) / dayMs = s.today
  runs : ∃ s', step retentionDays s (.execute k) = some s' ∧ Ticking retentionDays k s.today s' t
  ends : t.today = s.today

/-- There is a partition of each of the days today to today + 7, and none before the retention. -/
structure Maintained (retentionDays : Nat) (s : State) : Prop where
  ahead : ∀ i : Nat, i ≤ aheadDays → ∃ p ∈ s.table.parts, partitionDay p.name = some ((s.today + i) * dayMs) ∧
    p.lower = (s.today + i) * dayMs ∧ p.upper = (s.today + i + 1) * dayMs
  expired : ∀ p ∈ s.table.parts, ∀ day, partitionDay p.name = some (day * dayMs) → s.today - retentionDays ≤ day

/-- Nothing is in the way of the partitions of a tick. -/
structure Clear (s : State) : Prop where
  /-- `outbox_default` holds no row created today -/
  unspilled : ∀ r ∈ s.table.rows, r.1 = none → (r.2.createdAt : Int) / dayMs ≠ s.today
  /-- no partition reaches into a day that is not its own -/
  apart : ∀ p ∈ s.table.parts, ∀ i : Nat, i ≤ aheadDays → p.Disjoint (partOf (s.today + i)) ∨ p = partOf (s.today + i)
  /-- the dates have four digits of year -/
  dated : ∀ i : Nat, i ≤ aheadDays → yearFromDay (s.today + i) ≤ 9999 ∧
    (yearFromDay (s.today + i + 1) ≤ 9999 ∨ partOf (s.today + i) ∈ s.table.parts)

theorem State.today_nonneg (s : State) : 0 ≤ s.today := day_nonneg s.now

theorem State.today_mono (h : s.now ≤ s'.now) : s.today ≤ s'.today :=
  Int.ediv_le_ediv (by decide) (Int.ofNat_le.2 h)

/-! ## A day -/

/-- The statement for the day would find or make its partition. -/
def Ready (table : Table) (day : Int) : Prop :=
  yearFromDay day ≤ 9999 ∧ (partOf day ∈ table.parts ∨ yearFromDay (day + 1) ≤ 9999 ∧ table.Accepts (partOf day))

theorem holds_partOf {time : Int} : (partOf day).Holds time ↔ time / dayMs = day := by
  unfold RangePart.Holds partOf dayMs
  dsimp only
  omega

theorem partOf_inj {day' : Int} (h : partOf day = partOf day') : day = day' :=
  mul_dayMs_eq.1 (congrArg RangePart.lower h)

/-- The partition of a name begins with the day of the name. -/
theorem NamedByLower.range {p : Partition} (h : NamedByLower p) (hname : p.name = nameOf day) (hday : -1 ≤ day)
    (hyear : yearFromDay day ≤ 9999) : p.lower = day * dayMs ∧ (day + 1) * dayMs ≤ p.upper := by
  obtain ⟨first, last, hfirst, hlt, rfl⟩ := h
  have hparsed := partitionDay_nameOf hday hyear
  rw [← hname] at hparsed
  have hsame := mul_dayMs_eq.1 (partitionDay_partOf hfirst hparsed)
  rw [hsame]
  exact ⟨rfl, mul_dayMs_le.2 (Int.add_one_le_of_lt hlt)⟩

/-- What may be in the way of a day. -/
theorem ready_iff : Ready table day ↔
    (∀ r ∈ table.rows, r.1 = none → (r.2.createdAt : Int) / dayMs ≠ day) ∧
      (∀ p ∈ table.parts, p.Disjoint (partOf day) ∨ p = partOf day) ∧
      yearFromDay day ≤ 9999 ∧ (yearFromDay (day + 1) ≤ 9999 ∨ partOf day ∈ table.parts) := by
  constructor
  · rintro ⟨hyear, hmem | ⟨hnext, -, hapart, hspilled⟩⟩
    · refine ⟨fun r hr hnone hcreated => ?_, fun p hp => ?_, hyear, Or.inr hmem⟩
      · exact table.spilled r hr hnone _ hmem (holds_partOf.2 hcreated)
      · by_cases hsame : p = partOf day
        · exact Or.inr hsame
        · exact Or.inl (RangeTable.disjoint_of_ne hp hmem hsame)
    · refine ⟨fun r hr hnone hcreated => ?_, fun p hp => Or.inl (Or.symm (hapart p hp)), hyear, Or.inl hnext⟩
      exact hspilled r hr hnone (holds_partOf.2 hcreated)
  · rintro ⟨hspilled, hapart, hyear, hdated⟩
    refine ⟨hyear, ?_⟩
    by_cases hmem : partOf day ∈ table.parts
    · exact Or.inl hmem
    · refine Or.inr ⟨hdated.resolve_right hmem, mul_dayMs_lt.2 (Int.lt_succ day), fun p hp => ?_, fun r hr hnone hholds => ?_⟩
      · refine Or.symm ((hapart p hp).resolve_right ?_)
        rintro rfl
        exact hmem hp
      · exact hspilled r hr hnone (holds_partOf.1 hholds)

/-- No row of a later day is there yet. -/
theorem clear_iff (h : TableInv retentionDays s) : Clear s ↔ ∀ i : Nat, i ≤ aheadDays → Ready s.table (s.today + i) := by
  constructor
  · intro hclear i hi
    refine ready_iff.2 ⟨fun r hr hnone hcreated => ?_, fun p hp => hclear.apart p hp i hi, hclear.dated i hi⟩
    have hpast : (r.2.createdAt : Int) / dayMs ≤ s.today := Int.ediv_le_ediv (by decide) (Int.ofNat_le.2 (h.created r hr))
    exact hclear.unspilled r hr hnone (by omega)
  · intro hready
    refine ⟨fun r hr hnone => ?_, fun p hp i hi => (ready_iff.1 (hready i hi)).2.1 p hp,
      fun i hi => (ready_iff.1 (hready i hi)).2.2⟩
    have hzero := (ready_iff.1 (hready 0 (Nat.zero_le _))).1 r hr hnone
    rwa [Nat.cast_zero, Int.add_zero] at hzero

/-! ## Statements of a day -/

section

variable {today : Int} {i fromNow toNow : Nat} (hfrom : (fromNow : Int) / dayMs = today) (hto : (toNow : Int) / dayMs = today)

include hfrom hto

theorem skips_eq (hyear : yearFromDay (today + i) ≤ 9999) : skips table i fromNow toNow = table.has (nameOf (today + i)) := by
  unfold skips
  rw [createStatement_of_year hfrom hto hyear]
  rfl

theorem partitionOf_eq (hyear : yearFromDay (today + i + 1) ≤ 9999) :
    partitionOf i fromNow toNow = some (partOf (today + i)) := by
  have htoday := day_nonneg fromNow
  have hfirst := yearFromDay_mono (show today + i ≤ today + i + 1 by omega)
  have hlow := year_ge (show -1 ≤ today + i by omega)
  rw [Int.add_assoc] at hyear hfirst
  have hlower := timestamptz_of_year (show 1 ≤ yearFromDay (today + i) by omega) (by omega)
  have hupper := timestamptz_of_year (show 1 ≤ yearFromDay (today + (i + 1)) by omega) hyear
  have hstmt := createStatement_of_year hfrom hto (show yearFromDay (today + i) ≤ 9999 by omega)
  refine Option.bind_eq_some_iff.2 ⟨_, hstmt, Option.bind_eq_some_iff.2 ⟨_, hlower, Option.bind_eq_some_iff.2 ⟨_, hupper, ?_⟩⟩⟩
  unfold partOf
  rw [Int.add_assoc]

/-- What the statement of a day makes is its partition. -/
theorem creation_eq {p : Partition} (h : creation table i fromNow toNow = some (p, table')) :
    p = partOf (today + i) ∧ table.create (partOf (today + i)) = some table' ∧ yearFromDay (today + i + 1) ≤ 9999 := by
  obtain ⟨hname, -, hlower, hupper, hcreate, hyear⟩ := creation_spec h
  rw [hfrom] at hname hlower
  rw [hto, ← Int.add_assoc] at hupper hyear
  have hp : p = partOf (today + i) := by
    cases p
    unfold partOf
    exact congr (congr (congrArg _ hname) hlower) hupper
  exact ⟨hp, hp ▸ hcreate, hyear⟩

/-- The statement for a day that is not in the way is skipped over its partition, or makes it. -/
theorem statement_of_ready (hP : ∀ p ∈ table.parts, NamedByLower p) (h : Ready table (today + i)) :
    skips table i fromNow toNow = true ∧ partOf (today + i) ∈ table.parts ∨
      skips table i fromNow toNow = false ∧ ∃ table', creation table i fromNow toNow = some (partOf (today + i), table') := by
  have htoday := day_nonneg fromNow
  obtain ⟨hyear, hready⟩ := h
  rw [skips_eq hfrom hto hyear]
  rcases hready with hmem | ⟨hnext, haccepts⟩
  · exact Or.inl ⟨RangeTable.has_iff.2 ⟨_, hmem, rfl⟩, hmem⟩
  · have hnot : table.has (nameOf (today + i)) = false := by
      rw [Bool.eq_false_iff]
      intro hhas
      obtain ⟨p, hp, hname⟩ := RangeTable.has_iff.1 hhas
      obtain ⟨hlower, hupper⟩ := (hP p hp).range hname (by omega) hyear
      have hlt : (today + i) * dayMs < (today + i + 1) * dayMs := mul_dayMs_lt.2 (Int.lt_succ _)
      rcases haccepts.2.1 p hp with hle | hle
      · exact absurd (Int.lt_of_lt_of_le hlt hle) (by omega)
      · exact absurd (Int.lt_of_lt_of_le hlt (Int.le_trans hupper hle)) (Int.lt_irrefl _)
    obtain ⟨table', hcreate, -⟩ := RangeTable.create_of_accepts haccepts
    refine Or.inr ⟨hnot, table', ?_⟩
    unfold creation
    rw [skips_eq hfrom hto hyear, hnot, partitionOf_eq hfrom hto hnext, Option.bind_some, hcreate]
    rfl

end

/-! ## What a step does to a day -/

/-- The partition named after today is there. -/
def Begun (today : Int) (table : Table) : Prop :=
  ∃ p ∈ table.parts, p.name = nameOf today ∧ p.lower = today * dayMs ∧ (today + 1) * dayMs ≤ p.upper

theorem Ready.congr (hparts : table'.parts = table.parts)
    (hspilled : (∀ r ∈ table'.rows, r.1 = none → (r.2.createdAt : Int) / dayMs ≠ day) ↔
      ∀ r ∈ table.rows, r.1 = none → (r.2.createdAt : Int) / dayMs ≠ day) : Ready table' day ↔ Ready table day := by
  rw [ready_iff, ready_iff, hparts, hspilled]

/-- The partition of a day is in the way of no day. -/
theorem ready_create_iff {today : Int} (h : table.create (partOf today) = some table') (hyear : yearFromDay (today + 1) ≤ 9999) :
    Ready table' day ↔ Ready table day := by
  obtain ⟨hrows, hparts⟩ := RangeTable.create_eq_some h
  have haccepts := RangeTable.accepts_of_create h
  constructor
  · rintro ⟨hday, hready⟩
    refine ⟨hday, ?_⟩
    rcases hready with hmem | ⟨hnext, hlt, hapart, hspilled⟩
    · rw [hparts] at hmem
      rcases List.mem_cons.1 hmem with hnew | hold
      · cases partOf_inj hnew
        exact Or.inr ⟨hyear, haccepts⟩
      · exact Or.inl hold
    · rw [hparts] at hapart
      rw [hrows] at hspilled
      exact Or.inr ⟨hnext, hlt, fun q hq => hapart q (List.mem_cons_of_mem _ hq), hspilled⟩
  · rintro ⟨hday, hready⟩
    refine ⟨hday, ?_⟩
    by_cases hsame : day = today
    · subst hsame
      exact Or.inl (hparts ▸ List.mem_cons_self)
    · rcases hready with hmem | ⟨hnext, hlt, hapart, hspilled⟩
      · exact Or.inl (hparts ▸ List.mem_cons_of_mem _ hmem)
      · refine Or.inr ⟨hnext, hlt, fun q hq => ?_, by rwa [hrows]⟩
        rw [hparts] at hq
        rcases List.mem_cons.1 hq with rfl | hold
        · exact partOf_disjoint hsame
        · exact hapart q hold

/-- What a tick drops lies before the retention. -/
theorem lt_of_dropping {cutoffNow now : Nat} {names : List (List Char)}
    (h : (Tick.dropping cutoffNow names).Past retentionDays now) (hday : -1 ≤ day) (hmem : nameOf day ∈ names) :
    day < now / dayMs - retentionDays := by
  have hexpired := h.2 _ hmem
  have hbefore := expired_spec (partitionDay_of_expired hday hexpired) hexpired
  have hle : (cutoffNow : Int) / dayMs ≤ now / dayMs := Int.ediv_le_ediv (by decide) (Int.ofNat_le.2 h.1)
  omega

/-- A partition that begins before today's does not reach it. -/
theorem Begun.disjoint {today : Int} (h : Begun today table) {q : Partition} (hq : q ∈ table.parts)
    (hlower : q.lower < today * dayMs) (hday : today ≤ day) : (partOf day).Disjoint q := by
  obtain ⟨p, hp, -, hlow, hupper⟩ := h
  have hne : q ≠ p := by
    rintro rfl
    exact absurd hlow (Int.ne_of_lt hlower)
  have hstart : today * dayMs ≤ day * dayMs := mul_dayMs_le.2 hday
  have hlength : today * dayMs < (today + 1) * dayMs := mul_dayMs_lt.2 (Int.lt_succ today)
  refine Or.inr ?_
  rcases RangeTable.disjoint_of_ne hq hp hne with hle | hle
  · exact Int.le_trans hle (hlow ▸ hstart)
  · omega

/-- Once today's partition is there, no step of the day puts anything in the way of the days ahead, or out of it. -/
theorem Begun.step (h : Begun s.today s.table) (hI : TableInv retentionDays s) (hs : Step retentionDays s a s')
    (hmade : madeOn s.today s a = true) : Begun s.today s'.table ∧
      ∀ day, s.today ≤ day → (Ready s'.table day ↔ Ready s.table day) := by
  have htoday := s.today_nonneg
  cases hs with
  | tick ms => exact ⟨h, fun _ _ => Iff.rfl⟩
  | advance => exact ⟨h, fun _ _ => Iff.rfl⟩
  | mark _ f hf ha =>
    refine ⟨h, fun day _ => Ready.congr rfl ⟨fun hall r hr hnone => ?_, fun hall r hr hnone => ?_⟩⟩
    · have hmarked := hall (r.1, f r.2) (List.mem_map_of_mem hr) hnone
      rwa [hf] at hmarked
    · obtain ⟨old, hold, rfl⟩ := List.mem_map.1 hr
      rw [hf]
      exact hall old hold hnone
  | insert row hcreated =>
    refine ⟨h, fun day hday => Ready.congr rfl ⟨fun hall r hr => hall r (List.mem_append_left _ hr), fun hall r hr hnone => ?_⟩⟩
    rcases List.mem_append.1 hr with hold | hnew
    · exact hall r hold hnone
    · -- a row of today goes to today's partition
      intro hcreatedOn
      obtain ⟨p, hp, -, hlow, hupper⟩ := h
      refine (s.table.insert row).spilled r hr hnone p hp ?_
      have hpast : (row.createdAt : Int) / dayMs ≤ s.today := Int.ediv_le_ediv (by decide) (Int.ofNat_le.2 hcreated)
      cases List.mem_singleton.1 hnew
      dsimp only at hcreatedOn
      have hholds := holds_partOf.2 (show (row.createdAt : Int) / dayMs = s.today by omega)
      exact ⟨hlow ▸ hholds.1, Int.lt_of_lt_of_le hholds.2 hupper⟩
  | create k i fromNow toNow p table hk hnew =>
    simp only [madeOn, hk, hnew, Option.isNone_some, Bool.false_or, Bool.and_eq_true, decide_eq_true_eq] at hmade
    obtain ⟨rfl, hcreate, hyear⟩ := creation_eq hmade.1 hmade.2 hnew
    refine ⟨?_, fun day _ => ready_create_iff hcreate hyear⟩
    obtain ⟨p, hp, hrest⟩ := h
    exact ⟨p, (RangeTable.create_eq_some hcreate).2 ▸ List.mem_cons_of_mem _ hp, hrest⟩
  | drop k cutoffNow name names hk =>
    have hpast := (hI.ticks hk :)
    have hbefore : ∀ day, -1 ≤ day → nameOf day = name → day < s.today := by
      intro day hday hname
      have hlt := lt_of_dropping hpast hday (hname ▸ List.mem_cons_self)
      unfold State.today
      omega
    have hlower : ∀ q ∈ s.table.parts, q.name = name → q.lower < s.today * dayMs := by
      intro q hq hname
      obtain ⟨first, last, hfirst, -, rfl⟩ := hI.parts q hq
      exact mul_dayMs_lt.2 (hbefore first hfirst hname)
    constructor
    · obtain ⟨p, hp, hname, hrest⟩ := h
      refine ⟨p, RangeTable.mem_parts_drop.2 ⟨hp, fun hdropped => ?_⟩, hname, hrest⟩
      have hlt := hbefore s.today (by omega) (hname ▸ hdropped)
      omega
    · intro day hday
      have hmem : partOf day ∈ (s.table.drop name).parts ↔ partOf day ∈ s.table.parts := by
        rw [RangeTable.mem_parts_drop]
        refine ⟨And.left, fun hp => ⟨hp, fun hdropped => ?_⟩⟩
        have hlt := hbefore day (by omega) hdropped
        omega
      unfold Ready
      rw [hmem]
      refine and_congr_right fun _ => or_congr_right (and_congr_right fun _ => ?_)
      constructor
      · rintro ⟨hlt, hapart, hspilled⟩
        refine ⟨hlt, fun q hq => ?_, fun r hr hnone => ?_⟩
        · by_cases hdropped : q.name = name
          · exact h.disjoint hq (hlower q hq hdropped) hday
          · exact hapart q (RangeTable.mem_parts_drop.2 ⟨hq, hdropped⟩)
        · exact hspilled r (RangeTable.mem_rows_drop.2 ⟨hr, by rw [hnone]; simp⟩) hnone
      · rintro ⟨hlt, hapart, hspilled⟩
        exact ⟨hlt, fun q hq => hapart q (RangeTable.mem_parts_drop.1 hq).1,
          fun r hr => hspilled r (RangeTable.mem_rows_drop.1 hr).1⟩

/-! ## Progress of a tick -/

/-- The partitions of the first days from today on are there. -/
def Made (today : Int) (days : Nat) (table : Table) : Prop := ∀ j : Nat, j < days → partOf (today + j) ∈ table.parts

/-- No partition is expired, the names apart. -/
def NoneExpiredBut (retentionDays : Nat) (today : Int) (names : List (List Char)) (table : Table) : Prop :=
  ∀ p ∈ table.parts, ∀ day, partitionDay p.name = some (day * dayMs) → today - retentionDays ≤ day ∨ p.name ∈ names

/-- What a tick has achieved on its day. -/
def Progress (retentionDays : Nat) (today : Int) (table : Table) : Tick → Prop
  | .ensuring i => i ≤ aheadDays ∧ Made today i table
  | .ensuringFrom i fromNow => i ≤ aheadDays ∧ (fromNow : Int) / dayMs = today ∧ Made today i table
  | .creating i fromNow toNow =>
    i ≤ aheadDays ∧ (fromNow : Int) / dayMs = today ∧ (toNow : Int) / dayMs = today ∧ Made today i table
  | .expiring => Made today (aheadDays + 1) table
  | .listing cutoffNow => (cutoffNow : Int) / dayMs = today ∧ Made today (aheadDays + 1) table
  | .dropping _ names => Made today (aheadDays + 1) table ∧ NoneExpiredBut retentionDays today names table

/-- The tick of `k` is on its way, or has ended with everything done. -/
def OnTrack (retentionDays k : Nat) (today : Int) (s : State) : Prop :=
  match s.ticks k with
  | none => Made today (aheadDays + 1) s.table ∧ NoneExpiredBut retentionDays today [] s.table
  | some tick => Progress retentionDays today s.table tick

theorem onTrack_of {today : Int} {tick : Tick} (hk : s.ticks k = some tick) (h : Progress retentionDays today s.table tick) :
    OnTrack retentionDays k today s := by
  unfold OnTrack
  rwa [hk]

theorem onTrack_afterCreate {today : Int} {i : Nat} (hi : i ≤ aheadDays) (hk : s.ticks k = some (afterCreate i))
    (h : Made today (i + 1) s.table) : OnTrack retentionDays k today s := by
  refine onTrack_of hk ?_
  unfold afterCreate
  split
  · rename_i hlt
    exact ⟨hlt, h⟩
  · rename_i hlast
    rw [show i = aheadDays by omega] at h
    exact h

/-- The rest of the drops. -/
theorem onTrack_dropsLeft {today : Int} {cutoffNow : Nat} {names : List (List Char)} (hk : s.ticks k = dropsLeft cutoffNow names)
    (h : Progress retentionDays today s.table (.dropping cutoffNow names)) : OnTrack retentionDays k today s := by
  unfold OnTrack
  rw [hk]
  cases names with
  | nil => exact h
  | cons name names => exact h

/-- Where no partition of the days ahead is lost and only partitions of days from today on are new, a tick keeps what it
has achieved. -/
theorem Progress.mono {today : Int} {tick : Tick} (h : Progress retentionDays today table tick)
    (hkeep : ∀ day, today ≤ day → partOf day ∈ table.parts → partOf day ∈ table'.parts)
    (hnew : ∀ p ∈ table'.parts, p ∈ table.parts ∨ ∀ day, partitionDay p.name = some (day * dayMs) → today ≤ day) :
    Progress retentionDays today table' tick := by
  have hmade : ∀ {days : Nat}, Made today days table → Made today days table' := fun hm j hj => hkeep _ (by omega) (hm j hj)
  cases tick with
  | ensuring i => exact ⟨h.1, hmade h.2⟩
  | ensuringFrom i fromNow => exact ⟨h.1, h.2.1, hmade h.2.2⟩
  | creating i fromNow toNow => exact ⟨h.1, h.2.1, h.2.2.1, hmade h.2.2.2⟩
  | expiring => exact hmade h
  | listing cutoffNow => exact ⟨h.1, hmade h.2⟩
  | dropping cutoffNow names =>
    refine ⟨hmade h.1, fun p hp day hday => ?_⟩
    rcases hnew p hp with hold | hlate
    · exact h.2 p hold day hday
    · have hle := hlate day hday
      exact Or.inl (by omega)

/-- The listing names every partition that is expired. -/
theorem noneExpiredBut_listExpired {cutoffNow : Nat} (hP : ∀ p ∈ table.parts, NamedByLower p)
    (hyear : yearFromDay ((cutoffNow : Int) / dayMs) ≤ 9999) :
    NoneExpiredBut retentionDays (cutoffNow / dayMs) (listExpired retentionDays cutoffNow table) table := by
  intro p hp day hday
  rcases Int.lt_or_le day ((cutoffNow : Int) / dayMs - retentionDays) with hlt | hle
  · obtain ⟨first, last, hfirst, -, hrange⟩ := hP p hp
    have hsame : day = first := by
      rw [hrange] at hday
      exact mul_dayMs_eq.1 (partitionDay_partOf hfirst hday)
    have hlast := day_lt_of_year hyear
    have hcutoff : utcDay cutoffNow (-retentionDays) = some (((cutoffNow : Int) / dayMs + -retentionDays) * dayMs) :=
      utcDay_eq_some (by omega) (by omega) (by omega)
    refine Or.inr (List.mem_filter.2 ⟨List.mem_map_of_mem hp, ?_⟩)
    unfold expired
    rw [hday, hcutoff]
    exact decide_eq_true (mul_dayMs_lt.2 (by omega))
  · exact Or.inl hle

/-- A step of the tick that leaves the table brings it on, where nothing is in the way of its days. -/
theorem OnTrack.advance {tick : Tick} {u : Option Tick} (hI : TableInv retentionDays s)
    (hready : ∀ i : Nat, i ≤ aheadDays → Ready s.table (s.today + i)) (hk : s.ticks k = some tick)
    (h : Progress retentionDays s.today s.table tick) (hfail : a ≠ .fail k) (ha : Advance retentionDays s k a u) :
    OnTrack retentionDays k s.today { s with ticks := Function.update s.ticks k u } := by
  cases ha with
  | begin_ hk' =>
    rw [hk] at hk'
    cases hk'
  | readFrom i hk' =>
    cases hk.symm.trans hk'
    exact onTrack_of (Function.update_self ..) ⟨h.1, rfl, h.2⟩
  | readTo i fromNow hk' =>
    cases hk.symm.trans hk'
    exact onTrack_of (Function.update_self ..) ⟨h.1, h.2.1, rfl, h.2.2⟩
  | readCutoff hk' =>
    cases hk.symm.trans hk'
    exact onTrack_of (Function.update_self ..) ⟨rfl, h⟩
  | skip i fromNow toNow hk' hskips =>
    cases hk.symm.trans hk'
    obtain ⟨hi, hfrom, hto, hmade⟩ := h
    refine onTrack_afterCreate hi (Function.update_self ..) fun j hj => ?_
    rcases Nat.lt_or_eq_of_le (Nat.le_of_lt_succ hj) with hlt | rfl
    · exact hmade j hlt
    · rcases statement_of_ready hfrom hto hI.parts (hready j hi) with ⟨-, hmem⟩ | ⟨hnot, -⟩
      · exact hmem
      · rw [hskips] at hnot
        cases hnot
  | createFails i fromNow toNow hk' hskips hnew =>
    cases hk.symm.trans hk'
    obtain ⟨hi, hfrom, hto, hmade⟩ := h
    rcases statement_of_ready hfrom hto hI.parts (hready i hi) with ⟨hskipped, -⟩ | ⟨-, table', hmakes⟩
    · rw [hskips] at hskipped
      cases hskipped
    · rw [hnew] at hmakes
      cases hmakes
  | list cutoffNow hk' =>
    cases hk.symm.trans hk'
    obtain ⟨hday, hmade⟩ := h
    refine onTrack_dropsLeft (Function.update_self ..) ⟨hmade, ?_⟩
    rw [← hday]
    have hyear := (hready 0 (Nat.zero_le _)).1
    rw [Nat.cast_zero, Int.add_zero, ← hday] at hyear
    exact noneExpiredBut_listExpired hI.parts hyear
  | fail => exact absurd rfl hfail

theorem OnTrack.step {tick : Tick} (hI : TableInv retentionDays s)
    (hready : ∀ i : Nat, i ≤ aheadDays → Ready s.table (s.today + i)) (hk : s.ticks k = some tick)
    (h : Progress retentionDays s.today s.table tick) (hfail : a ≠ .fail k) (hs : Step retentionDays s a s')
    (hmade : madeOn s.today s a = true) : OnTrack retentionDays k s.today s' := by
  have htoday := s.today_nonneg
  -- a step of another instance, or of none, leaves the tick where it stands
  have hother : ∀ {k' : Nat} {u : Option Tick}, k ≠ k' → Function.update s.ticks k' u k = some tick :=
    fun hne => (Function.update_of_ne hne _ _).trans hk
  cases hs with
  | tick ms => exact onTrack_of hk h
  | insert row => exact onTrack_of hk h
  | mark => exact onTrack_of hk h
  | advance _ k' u ha =>
    by_cases hc : k = k'
    · subst hc
      exact OnTrack.advance hI hready hk h hfail ha
    · exact onTrack_of (hother hc) h
  | create k' i fromNow toNow p table' hk' hnew =>
    simp only [madeOn, hk', hnew, Option.isNone_some, Bool.false_or, Bool.and_eq_true, decide_eq_true_eq] at hmade
    obtain ⟨rfl, hcreate, -⟩ := creation_eq hmade.1 hmade.2 hnew
    have hparts := (RangeTable.create_eq_some hcreate).2
    by_cases hc : k = k'
    · subst hc
      cases hk.symm.trans hk'
      obtain ⟨hi, -, -, hdone⟩ := h
      refine onTrack_afterCreate hi (Function.update_self ..) fun j hj => ?_
      rw [hparts]
      rcases Nat.lt_or_eq_of_le (Nat.le_of_lt_succ hj) with hlt | rfl
      · exact List.mem_cons_of_mem _ (hdone j hlt)
      · exact List.mem_cons_self
    · refine onTrack_of (hother hc) (h.mono (fun day _ hp => ?_) fun p hp => ?_)
      · exact hparts ▸ List.mem_cons_of_mem _ hp
      · rw [hparts] at hp
        rcases List.mem_cons.1 hp with rfl | hold
        · refine Or.inr fun day hday => ?_
          have hsame := mul_dayMs_eq.1 (partitionDay_partOf (by omega) hday)
          omega
        · exact Or.inl hold
  | drop k' cutoffNow name names hk' =>
    have hpast := (hI.ticks hk' :)
    have hkeep : ∀ day, s.today ≤ day → partOf day ∈ s.table.parts → partOf day ∈ (s.table.drop name).parts := by
      intro day hday hp
      refine RangeTable.mem_parts_drop.2 ⟨hp, fun hdropped => ?_⟩
      have hlt := lt_of_dropping hpast (show -1 ≤ day by omega) (hdropped ▸ List.mem_cons_self)
      unfold State.today at hday
      omega
    by_cases hc : k = k'
    · subst hc
      cases hk.symm.trans hk'
      refine onTrack_dropsLeft (Function.update_self ..) ⟨fun j hj => hkeep _ (by omega) (h.1 j hj), fun p hp day hday => ?_⟩
      obtain ⟨hold, hne⟩ := RangeTable.mem_parts_drop.1 hp
      rcases h.2 p hold day hday with hlate | hleft
      · exact Or.inl hlate
      · exact Or.inr ((List.mem_cons.1 hleft).resolve_left hne)
    · exact onTrack_of (hother hc) (h.mono hkeep fun p hp => Or.inl (RangeTable.mem_parts_drop.1 hp).1)

/-! ## A tick to its end -/

theorem Step.now_le (h : Step retentionDays s a s') : s.now ≤ s'.now := by
  cases h with
  | tick ms => exact Nat.le_add_right _ _
  | _ => exact Nat.le_refl _

theorem Ticking.now_le {today : Int} (h : Ticking retentionDays k today s t) : s.now ≤ t.now := by
  induction h with
  | done => exact Nat.le_refl _
  | next hk ha hmade hs hrest ih => exact Nat.le_trans (step_sound hs).now_le ih

/-- No day begins within a tick of one day. -/
theorem Ticking.today_eq {today : Int} (hs : Step retentionDays s a s') (h : Ticking retentionDays k today s' t)
    (hday : s.today = today) (hend : t.today = today) : s'.today = today := by
  have hfirst := State.today_mono hs.now_le
  have hlast := State.today_mono h.now_le
  omega

/-- A tick on its way ends with everything done. -/
theorem Ticking.done_of_onTrack {today : Int} (h : Ticking retentionDays k today s t) (hI : TableInv retentionDays s)
    (hday : s.today = today) (hend : t.today = today) (hB : Begun today s.table)
    (hready : ∀ i : Nat, i ≤ aheadDays → Ready s.table (today + i)) (hP : OnTrack retentionDays k today s) :
    Made today (aheadDays + 1) t.table ∧ NoneExpiredBut retentionDays today [] t.table := by
  induction h with
  | done hk =>
    unfold OnTrack at hP
    rwa [hk] at hP
  | @next s s' t a hk ha hmade hs hrest ih =>
    have hrule := step_sound hs
    have hday' := hrest.today_eq hrule hday hend
    subst hday
    obtain ⟨hB', hkeeps⟩ := hB.step hI hrule hmade
    refine ih (hI.step hrule) hday' hend hB' (fun i hi => (hkeeps _ (by omega)).2 (hready i hi)) ?_
    obtain ⟨tick, htick⟩ := Option.ne_none_iff_exists'.1 hk
    unfold OnTrack at hP
    rw [htick] at hP
    exact OnTrack.step hI hready htick hP ha hrule hmade

/-- What is in the way of a day ahead when a tick goes on is so when it ends. -/
theorem Ticking.ready {today : Int} (h : Ticking retentionDays k today s t) (hI : TableInv retentionDays s)
    (hday : s.today = today) (hend : t.today = today) (hB : Begun today s.table) (hle : today ≤ day)
    (hready : Ready t.table day) : Ready s.table day := by
  induction h with
  | done hk => exact hready
  | @next s s' t a hk ha hmade hs hrest ih =>
    have hrule := step_sound hs
    have hday' := hrest.today_eq hrule hday hend
    subst hday
    obtain ⟨hB', hkeeps⟩ := hB.step hI hrule hmade
    exact (hkeeps day hle).1 (ih (hI.step hrule) hday' hend hB' hready)

theorem Ticking.inv {today : Int} (h : Ticking retentionDays k today s t) (hI : TableInv retentionDays s) :
    TableInv retentionDays t := by
  induction h with
  | done => exact hI
  | next hk ha hmade hs hrest ih => exact ih (hI.step (step_sound hs))

/-! ## Ticks end -/

/-- A tick drops what is left and ends. -/
theorem exists_ticking_dropping (retentionDays k cutoffNow : Nat) : ∀ (names : List (List Char)) {s : State},
    s.ticks k = dropsLeft cutoffNow names → ∃ t, Ticking retentionDays k s.today s t ∧ t.now = s.now
  | [], s, hk => ⟨s, .done hk, rfl⟩
  | name :: names, s, hk => by
    have hk' : s.ticks k = some (.dropping cutoffNow (name :: names)) := hk
    have hmade : madeOn s.today s (.execute k) = true := by simp [madeOn, hk']
    generalize hs' : ({ s with
        table := s.table.drop name
        ticks := Function.update s.ticks k (dropsLeft cutoffNow names)
        dropped := s.dropped ++ (s.table.rowsOf name).map (Dropped.mk cutoffNow) } : State) = s'
    have hs : step retentionDays s (.execute k) = some s' := by
      dsimp only [step, execute]
      rw [hk', ← hs']
    have hnow : s'.now = s.now := by rw [← hs']
    obtain ⟨t, ht, hend⟩ := exists_ticking_dropping retentionDays k cutoffNow names (s := s')
      (by rw [← hs']; exact Function.update_self ..)
    unfold State.today at ht ⊢
    rw [hnow] at ht
    exact ⟨t, .next (by rw [hk']; simp) (by simp) hmade hs ht, hend.trans hnow⟩

/-- After the last partition a tick reads its cutoff, lists and drops. -/
theorem exists_ticking_expiring (retentionDays : Nat) (hk : s.ticks k = some .expiring) :
    ∃ t, Ticking retentionDays k s.today s t ∧ t.now = s.now := by
  generalize hs₁ : ({ s with ticks := Function.update s.ticks k (some (.listing s.now)) } : State) = s₁
  have hread : step retentionDays s (.read k) = some s₁ := by
    dsimp only [step, OutboxCleanupService.read]
    rw [hk, ← hs₁]
  have hk₁ : s₁.ticks k = some (.listing s.now) := by
    rw [← hs₁]
    exact Function.update_self ..
  generalize hs₂ : ({ s₁ with
    ticks := Function.update s₁.ticks k (dropsLeft s.now (listExpired retentionDays s.now s₁.table)) } : State) = s₂
  have hlist : step retentionDays s₁ (.execute k) = some s₂ := by
    dsimp only [step, execute]
    rw [hk₁, ← hs₂]
  obtain ⟨t, ht, hend⟩ := exists_ticking_dropping retentionDays k s.now (listExpired retentionDays s.now s₁.table) (s := s₂)
    (by rw [← hs₂]; exact Function.update_self ..)
  have hnow₁ : s₁.now = s.now := by rw [← hs₁]
  have hnow₂ : s₂.now = s.now := by rw [← hs₂]; exact hnow₁
  have hmade : madeOn s.today s₁ (.execute k) = true := by simp [madeOn, hk₁]
  unfold State.today at ht hmade ⊢
  rw [hnow₂] at ht
  refine ⟨t, ?_, hend.trans hnow₂⟩
  exact .next (by rw [hk]; simp) (by simp) rfl hread (.next (by rw [hk₁]; simp) (by simp) hmade hlist ht)

/-- The two readings of the clock before a statement. -/
theorem exec_readings (retentionDays : Nat) {i : Nat} (hk : s.ticks k = some (.ensuring i)) :
    ∃ s₁ s₂, step retentionDays s (.read k) = some s₁ ∧ step retentionDays s₁ (.read k) = some s₂ ∧ s₁.ticks k ≠ none ∧
      s₂ = { s with ticks := Function.update s.ticks k (some (.creating i s.now s.now)) } := by
  refine ⟨_, _, by dsimp only [step, OutboxCleanupService.read]; rw [hk], ?_, ?_, rfl⟩
  · dsimp only [step, OutboxCleanupService.read]
    rw [Function.update_self]
    dsimp only
    rw [Function.update_idem]
  · dsimp only
    rw [Function.update_self]
    simp

/-- After its statement a tick has ended, or goes on. -/
theorem exists_ticking_after (retentionDays : Nat) {i : Nat}
    (h : ∀ s₁ : State, s₁.ticks k = some (afterCreate i) → s₁.now = s.now →
      ∃ t, Ticking retentionDays k s₁.today s₁ t ∧ t.now = s₁.now) :
    ∃ t, Ticking retentionDays k s.today (ensurePartition k i s.now s.now s) t ∧ t.now = s.now := by
  generalize hs' : ensurePartition k i s.now s.now s = s'
  have hnow : s'.now = s.now := by
    rw [← hs']
    unfold ensurePartition
    split <;> rfl
  have hk : s'.ticks k = none ∨ s'.ticks k = some (afterCreate i) := by
    rw [← hs']
    unfold ensurePartition
    split
    · exact Or.inr (Function.update_self ..)
    · dsimp only
      rw [Function.update_self]
      split
      · exact Or.inr rfl
      · exact Or.inl rfl
  rcases hk with hk | hk
  · exact ⟨s', .done hk, hnow⟩
  · obtain ⟨t, ht, hend⟩ := h s' hk hnow
    unfold State.today at ht ⊢
    rw [hnow] at ht hend
    exact ⟨t, ht, hend⟩

/-- A tick reads the clock twice and executes its statement. -/
theorem exists_ticking_ensuring (retentionDays : Nat) {i : Nat} (hk : s.ticks k = some (.ensuring i))
    (h : ∀ {s₂ : State}, s₂.ticks k = some (.creating i s₂.now s₂.now) →
      ∃ s' t, step retentionDays s₂ (.execute k) = some s' ∧ Ticking retentionDays k s₂.today s' t ∧ t.now = s₂.now) :
    ∃ t, Ticking retentionDays k s.today s t ∧ t.now = s.now := by
  obtain ⟨s₁, s₂, hread₁, hread₂, hk₁, hs₂⟩ := exec_readings retentionDays hk
  have hnow : s₂.now = s.now := by rw [hs₂]
  have hk₂ : s₂.ticks k = some (.creating i s₂.now s₂.now) := by
    rw [hnow, hs₂]
    exact Function.update_self ..
  obtain ⟨s', t, hs, ht, hend⟩ := h hk₂
  have hmade : madeOn s₂.today s₂ (.execute k) = true := by simp [madeOn, hk₂, State.today]
  unfold State.today at hmade ht ⊢
  rw [hnow] at hmade ht hend
  refine ⟨t, ?_, hend⟩
  refine .next (by rw [hk]; simp) (by simp) rfl hread₁ (.next hk₁ (by simp) rfl hread₂ (.next ?_ (by simp) hmade hs ht))
  rw [hk₂]
  simp

/-- A statement ends its tick, or the tick goes on with the next one and after the last with the drops. -/
theorem exists_ticking_creating (retentionDays k : Nat) : ∀ (n : Nat) {i : Nat} {s : State}, i + n = aheadDays →
    s.ticks k = some (.creating i s.now s.now) →
    ∃ s' t, step retentionDays s (.execute k) = some s' ∧ Ticking retentionDays k s.today s' t ∧ t.now = s.now := by
  intro n
  induction n with
  | zero =>
    intro i s hi hk
    refine ⟨ensurePartition k i s.now s.now s, ?_⟩
    obtain ⟨t, ht, hend⟩ := exists_ticking_after retentionDays (i := i) (s := s) (k := k) fun s₁ hk₁ _ =>
      exists_ticking_expiring retentionDays (by rw [hk₁, afterCreate, if_neg (by omega)])
    exact ⟨t, by dsimp only [step, execute]; rw [hk], ht, hend⟩
  | succ n ih =>
    intro i s hi hk
    refine ⟨ensurePartition k i s.now s.now s, ?_⟩
    obtain ⟨t, ht, hend⟩ := exists_ticking_after retentionDays (i := i) (s := s) (k := k) fun s₁ hk₁ _ => by
      rw [afterCreate, if_pos (by omega)] at hk₁
      exact exists_ticking_ensuring retentionDays hk₁ fun hk₂ => ih (by omega) hk₂
    exact ⟨t, by dsimp only [step, execute]; rw [hk], ht, hend⟩

/-- From its first statement on a tick can run to its end. -/
theorem exists_tickRun (retentionDays : Nat) (hk : s.ticks k = some (.creating 0 s.now s.now)) :
    ∃ t, TickRun retentionDays k s t := by
  obtain ⟨s', t, hs, ht, hend⟩ := exists_ticking_creating retentionDays k aheadDays (Nat.zero_add _) hk
  exact ⟨t, ⟨s.now, s.now, hk, rfl, rfl⟩, ⟨s', hs, ht⟩, congrArg (fun now : Nat => (now : Int) / dayMs) hend⟩

/-! ## Which ticks repair the table -/

/-- What is maintained is in the way of no day. -/
theorem Maintained.ready (h : Maintained retentionDays s) (hI : TableInv retentionDays s) {i : Nat} (hi : i ≤ aheadDays) :
    Ready s.table (s.today + i) := by
  obtain ⟨p, hp, hparsed, hlower, hupper⟩ := h.ahead i hi
  obtain ⟨first, last, hfirst, -, rfl⟩ := hI.parts p hp
  have hsame := mul_dayMs_eq.1 hlower
  have hlast := mul_dayMs_eq.1 hupper
  subst hsame
  subst hlast
  refine ⟨?_, Or.inl hp⟩
  by_contra hlate
  rw [partitionDay_late (by omega)] at hparsed
  cases hparsed

theorem maintained_of_made (hmade : Made s.today (aheadDays + 1) s.table)
    (hexpired : NoneExpiredBut retentionDays s.today [] s.table)
    (hyear : ∀ i : Nat, i ≤ aheadDays → yearFromDay (s.today + i) ≤ 9999) : Maintained retentionDays s := by
  have htoday := s.today_nonneg
  constructor
  · intro i hi
    exact ⟨_, hmade i (Nat.lt_succ_of_le hi), partitionDay_nameOf (by omega) (hyear i hi), rfl, rfl⟩
  · intro p hp day hday
    exact (hexpired p hp day hday).resolve_right List.not_mem_nil

/-- The first statement fails and ends the tick, or leaves today's partition there and nothing in the way of a day that
was not so before. -/
theorem execute_first {fromNow toNow : Nat} (hI : TableInv retentionDays s) (hk : s.ticks k = some (.creating 0 fromNow toNow))
    (hfrom : (fromNow : Int) / dayMs = s.today) (hto : (toNow : Int) / dayMs = s.today)
    (hs : Step retentionDays s (.execute k) s') :
    s'.ticks k = none ∧ s'.table = s.table ∧ ¬ Ready s.table s.today ∨
      s'.ticks k = some (afterCreate 0) ∧ Begun s.today s'.table ∧ (∀ day, Ready s'.table day ↔ Ready s.table day) ∧
        (Ready s.table s.today → partOf s.today ∈ s'.table.parts) := by
  have htoday := s.today_nonneg
  have hzero : s.today + ((0 : Nat) : Int) = s.today := by simp
  have hstatement := statement_of_ready (i := 0) hfrom hto hI.parts
  rw [hzero] at hstatement
  cases hs with
  | mark _ f hf ha => exact absurd rfl (ha k)
  | advance _ k' u ha =>
    cases ha with
    | skip i from' to' hk' hskips =>
      cases hk.symm.trans hk'
      refine Or.inr ⟨Function.update_self .., ?_, fun _ => Iff.rfl, fun hready => ?_⟩
      · obtain ⟨stmt, hstmt, hhas⟩ := (Option.any_eq_true _ _).1 hskips
        obtain ⟨p, hp, hname⟩ := RangeTable.has_iff.1 hhas
        have hyear : yearFromDay s.today ≤ 9999 := by
          by_contra hlate
          obtain ⟨first, last, -, -, hrange⟩ := hI.parts p hp
          refine (name_late (i := 0) ?_ hstmt).1 first ?_
          · rw [hfrom, hzero]
            omega
          · rw [← hname, hrange]
        have hstmt' := createStatement_of_year (i := 0) hfrom hto (by rwa [hzero])
        rw [hstmt, Option.some.injEq] at hstmt'
        rw [hstmt', hzero] at hname
        obtain ⟨hlower, hupper⟩ := (hI.parts p hp).range hname (by omega) hyear
        exact ⟨p, hp, hname, hlower, hupper⟩
      · rcases hstatement hready with ⟨-, hmem⟩ | ⟨hnot, -⟩
        · exact hmem
        · rw [hskips] at hnot
          cases hnot
    | createFails i from' to' hk' hskips hnew =>
      cases hk.symm.trans hk'
      refine Or.inl ⟨Function.update_self .., rfl, fun hready => ?_⟩
      rcases hstatement hready with ⟨hskipped, -⟩ | ⟨-, table', hmakes⟩
      · rw [hskips] at hskipped
        cases hskipped
      · rw [hnew] at hmakes
        cases hmakes
    | list cutoffNow hk' =>
      rw [hk] at hk'
      cases hk'
  | create _ i from' to' p table' hk' hnew =>
    cases hk.symm.trans hk'
    obtain ⟨rfl, hcreate, hyear⟩ := creation_eq hfrom hto hnew
    have hparts := (RangeTable.create_eq_some hcreate).2
    rw [hzero] at hcreate hyear hparts
    have hmem : partOf s.today ∈ table'.parts := hparts ▸ List.mem_cons_self
    exact Or.inr ⟨Function.update_self .., ⟨_, hmem, rfl, rfl, Int.le_refl _⟩, fun _ => ready_create_iff hcreate hyear,
      fun _ => hmem⟩
  | drop _ cutoffNow name names hk' =>
    rw [hk] at hk'
    cases hk'

theorem TickRun.maintained_iff (hI : TableInv retentionDays s) (h : TickRun retentionDays k s t) :
    Maintained retentionDays t ↔ Clear s := by
  obtain ⟨⟨fromNow, toNow, hk, hfrom, hto⟩, ⟨s', hs, hticking⟩, hend⟩ := h
  have hrule := step_sound hs
  have hI' := hI.step hrule
  have hday := hticking.today_eq hrule rfl hend
  have hfirst := execute_first hI hk hfrom hto hrule
  have hzero : s.today + ((0 : Nat) : Int) = s.today := by simp
  rw [clear_iff hI]
  constructor
  · intro hmaintained i hi
    have hready := hmaintained.ready (hticking.inv hI') hi
    rw [hend] at hready
    rcases hfirst with ⟨hk', htable, -⟩ | ⟨-, hB, hsame, -⟩
    · -- the tick is over
      cases hticking with
      | next hgoes => exact absurd hk' hgoes
      | done => rwa [htable] at hready
    · exact (hsame _).1 (hticking.ready hI' hday hend hB (by omega) hready)
  · intro hready
    rcases hfirst with ⟨-, -, hnot⟩ | ⟨hk', hB, hsame, hmem⟩
    · have hnow := hready 0 (Nat.zero_le _)
      rw [hzero] at hnow
      exact absurd hnow hnot
    · have hmade : Made s.today (0 + 1) s'.table := by
        intro j hj
        cases Nat.lt_one_iff.1 hj
        have hnow := hready 0 (Nat.zero_le _)
        rw [hzero] at hnow ⊢
        exact hmem hnow
      have hdone := hticking.done_of_onTrack hI' hday hend hB (fun i hi => (hsame _).2 (hready i hi))
        (onTrack_afterCreate (Nat.zero_le _) hk' hmade)
      rw [← hend] at hdone
      exact maintained_of_made hdone.1 hdone.2 fun i hi => hend ▸ (hready i hi).1

/-- In every reached state: an idle instance can begin a tick and come to its first statement, with the table as it is, and
run to the end from there; and a tick that begins and ends on one day, with its statements finding the database and no
partition made meanwhile from readings of another day, ends with the partitions of that day and the next seven there and no
expired one, exactly if nothing is in the way of them when its first statement runs. -/
theorem tick_maintains_iff (h : Reach (system retentionDays start) Free s) :
    (s.ticks k = none → ∃ s' t, exec (system retentionDays start) s [.begin_ k, .read k, .read k] = some s' ∧
      s'.table = s.table ∧ s'.now = s.now ∧ TickRun retentionDays k s' t) ∧
      ∀ t, TickRun retentionDays k s t → (Maintained retentionDays t ↔ Clear s) := by
  refine ⟨fun hk => ?_, fun t hrun => hrun.maintained_iff (tableInv h)⟩
  generalize hs₀ : ({ s with ticks := Function.update s.ticks k (some (.ensuring 0)) } : State) = s₀
  have hbegin : step retentionDays s (.begin_ k) = some s₀ := by
    dsimp only [step]
    rw [if_pos hk, hs₀]
  have hk₀ : s₀.ticks k = some (.ensuring 0) := by
    rw [← hs₀]
    exact Function.update_self ..
  obtain ⟨s₁, s₂, hread₁, hread₂, -, hs₂⟩ := exec_readings retentionDays hk₀
  have hnow₂ : s₂.now = s₀.now := by rw [hs₂]
  have hk₂ : s₂.ticks k = some (.creating 0 s₂.now s₂.now) := by
    rw [hnow₂, hs₂]
    exact Function.update_self ..
  obtain ⟨t, ht⟩ := exists_tickRun retentionDays hk₂
  refine ⟨s₂, t, ?_, by rw [hs₂, ← hs₀], by rw [hnow₂, ← hs₀], ht⟩
  simp only [exec, system, hbegin, hread₁, hread₂, Option.bind_some]

/-- The service was down for ten days, within the partitions of the migration. -/
theorem tick_maintains_iff_ten_days : ∃ s s' t, Reach (system 7 0) Free s ∧ s.table.rows.length = 1 ∧
    exec (system 7 0) s [.begin_ 0, .read 0, .read 0] = some s' ∧ TickRun 7 0 s' t ∧ (Maintained 7 t ↔ Clear s') := by
  obtain ⟨s, hs, hp⟩ := exists_reach_of_exec (show (exec (system 7 0) (system 7 0).init
    [.tick (10 * 86400000), .insert (submittedAt (10 * 86400000))]).any
      (fun s => s.ticks 0 = none && s.table.rows.length = 1) = true by decide +kernel)
  obtain ⟨hk, hrows⟩ := Bool.and_eq_true_iff.1 hp
  obtain ⟨s', t, hexec, -, -, hrun⟩ := (tick_maintains_iff hs).1 (of_decide_eq_true hk)
  exact ⟨s, s', t, hs, of_decide_eq_true hrows, hexec, hrun, (tick_maintains_iff (hs.exec hexec)).2 t hrun⟩

/-- The service was down for twenty days, and a payment is accepted before its first tick: the tick fails at its first
statement, and today has no partition. -/
theorem spilled_day_unrepaired : ∃ s t, Reach (system 7 0) Free s ∧ TickRun 7 0 s t ∧ ¬ Maintained 7 t := by
  obtain ⟨s, hs, hp⟩ := exists_reach_of_exec (show (exec (system 7 0) (system 7 0).init
    [.tick (20 * 86400000), .insert (submittedAt (20 * 86400000)), .begin_ 0, .read 0, .read 0]).any
      (fun s => s.ticks 0 = some (.creating 0 s.now s.now) && (step 7 s (.execute 0)).any fun t =>
        t.ticks 0 = none && (t.now = s.now && t.table.parts.all fun p => p.lower ≠ (t.now : Int) / dayMs * dayMs)) = true
      by decide +kernel)
  obtain ⟨hk, hp⟩ := Bool.and_eq_true_iff.1 hp
  obtain ⟨t, ht, hp⟩ := (Option.any_eq_true _ _).1 hp
  obtain ⟨hended, hp⟩ := Bool.and_eq_true_iff.1 hp
  obtain ⟨hnow, hmissing⟩ := Bool.and_eq_true_iff.1 hp
  have hday : t.today = s.today := congrArg (fun now : Nat => (now : Int) / dayMs) (of_decide_eq_true hnow)
  refine ⟨s, t, hs, ⟨⟨s.now, s.now, of_decide_eq_true hk, rfl, rfl⟩, ⟨t, ht, .done (of_decide_eq_true hended)⟩, hday⟩,
    fun hall => ?_⟩
  obtain ⟨p, hp, -, hlower, -⟩ := hall.ahead 0 (Nat.zero_le _)
  rw [Nat.cast_zero, Int.add_zero] at hlower
  exact of_decide_eq_true (List.all_eq_true.1 hmissing p hp) hlower

/-- A tick around midnight leaves a partition of two days, with no row in the default one: the last statement of the tick
of the next day fails. -/
example : (exec (system 7 0) (system 7 0).init
    ([.tick (9 * 86400000 - 1), .begin_ 0] ++ (List.replicate 7 (ensureActions 0 0)).flatten ++ ensureActions 0 1 ++
      [.fail 0, .begin_ 0] ++ (List.replicate 8 (ensureActions 0 0)).flatten)).any
    (fun s => s.ticks 0 = none && (s.table.rows.length = 0 && s.table.parts.all fun p => p.lower ≠ 16 * dayMs)) = true := by
  decide +kernel

end PaymentsProcessor.OutboxCleanupService
