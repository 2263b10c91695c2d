/-
How `OutboxCleanupService` names its partitions: a name and two bounds, written from two readings of the clock, and the
date that `dropExpired` reads from a name.
-/
import PaymentsProcessor.Base.Calendar
import PaymentsProcessor.Shared.RoundTrip

namespace PaymentsProcessor.OutboxCleanupService

open Calendar

/-! ## Dates -/

/-- A day in milliseconds. -/
def dayMs : Int := 86400000

/-- `TimeClip`; `none` is the invalid date. -/
def timeClip (t : Int) : Option Int := if -8640000000000000 ≤ t ∧ t ≤ 8640000000000000 then some t else none

/-- `setUTCHours(0, 0, 0, 0)`. -/
def setUTCMidnight (t : Int) : Option Int := timeClip (t / dayMs * dayMs)

/-- `setUTCDate(getUTCDate() + offset)`. -/
def addUTCDays (t offset : Int) : Option Int :=
  let day := t / dayMs
  timeClip (makeDay (yearFromDay day) (monthFromDay day) (dateFromDay day + offset) * dayMs + t % dayMs)

/-- `utcDay`, with the reading of `new Date()`. -/
def utcDay (now : Nat) (offsetDays : Int) : Option Int := do
  let d ← timeClip now
  let d ← setUTCMidnight d
  addUTCDays d offsetDays

/-- A number in at least `k` digits. -/
def pad (k n : Nat) : List Char := padStart k '0' (Nat.toDigits 10 n)

/-- The year as `toISOString` writes it. -/
def isoYear (y : Int) : List Char :=
  if 0 ≤ y ∧ y ≤ 9999 then pad 4 y.toNat else (if y < 0 then '-' else '+') :: pad 6 y.natAbs

/-- `toISOString` up to the `T`, which is at least ten characters. -/
def isoDate (t : Int) : List Char :=
  let day := t / dayMs
  isoYear (yearFromDay day) ++ '-' :: pad 2 (monthFromDay day + 1) ++ '-' :: pad 2 (dateFromDay day).toNat

/-- `isoDay`: `toISOString().slice(0, 10)`, an error on the invalid date. -/
def isoDay (d : Option Int) : Option (List Char) := d.map fun t => (isoDate t).take 10

/-- `Date.UTC(y, m, d)`. -/
def dateUTC (y m d : Int) : Int := makeDay (if 0 ≤ y ∧ y ≤ 99 then 1900 + y else y) m d * dayMs

/-- The captures of `/^outbox_p(\d{4})(\d{2})(\d{2})$/`. -/
def matchName (name : List Char) : Option (List Char × List Char × List Char) :=
  let digits := name.drop 8
  if name.take 8 = "outbox_p".toList ∧ digits.length = 8 ∧ digits.all Char.isDigit then
    some (digits.take 4, (digits.drop 4).take 2, digits.drop 6)
  else none

/-- The date `dropExpired` reads from a name. -/
def partitionDay (name : List Char) : Option Int :=
  (matchName name).map fun m => dateUTC (digitsValue m.1) (digitsValue m.2.1 - 1 : Int) (digitsValue m.2.2)

/-! ## The statements -/

/-- The name and the bounds in a `CREATE TABLE IF NOT EXISTS … PARTITION OF`. -/
structure CreateStatement where
  name : List Char
  lower : List Char
  upper : List Char
  deriving DecidableEq

/-- The time of day in the bounds. -/
def midnight : List Char := " 00:00:00+00".toList

/-- The `i`-th statement of `ensurePartitions`, with the readings for `from` and `to`; `none` where `toISOString` throws. -/
def createStatement (i fromNow toNow : Nat) : Option CreateStatement := do
  let lower ← isoDay (utcDay fromNow i)
  let upper ← isoDay (utcDay toNow (i + 1))
  some ⟨"outbox_p".toList ++ lower.filter (· ≠ '-'), lower ++ midnight, upper ++ midnight⟩

/-- How the database reads a bound: a date of the calendar in ten characters, at midnight; an error otherwise. -/
def timestamptz (s : List Char) : Option Int :=
  let y := s.take 4
  let m := (s.drop 5).take 2
  let d := (s.drop 8).take 2
  if s = y ++ '-' :: m ++ '-' :: d ++ midnight ∧ (y ++ m ++ d).length = 8 ∧ (y ++ m ++ d).all Char.isDigit ∧
      1 ≤ digitsValue y ∧ 1 ≤ digitsValue m ∧ digitsValue m ≤ 12 ∧ 1 ≤ digitsValue d ∧
      (digitsValue d : Int) ≤ daysInMonth (digitsValue y) (digitsValue m - 1) then
    some (makeDay (digitsValue y) (digitsValue m - 1 : Int) (digitsValue d) * dayMs)
  else none

/-! ## Days -/

theorem timeClip_eq {t t' : Int} (h : timeClip t = some t') : t' = t := by
  unfold timeClip at h
  split at h
  · cases h
    rfl
  · cases h

theorem timeClip_of_le {t : Int} (hlow : -8640000000000000 ≤ t) (hhigh : t ≤ 8640000000000000) : timeClip t = some t := by
  unfold timeClip
  rw [if_pos ⟨hlow, hhigh⟩]

/-- A date of `utcDay` is a day of the clock's, that many days ahead. -/
theorem utcDay_eq {now : Nat} {offsetDays t : Int} (h : utcDay now offsetDays = some t) :
    t = (now / dayMs + offsetDays) * dayMs := by
  obtain ⟨d, hd, h⟩ := Option.bind_eq_some_iff.1 h
  obtain ⟨m, hm, h⟩ := Option.bind_eq_some_iff.1 h
  rw [timeClip_eq hd] at hm
  have hday : m / dayMs = now / dayMs := by
    rw [timeClip_eq hm]
    exact Int.mul_ediv_cancel _ (by decide)
  have hrest : m % dayMs = 0 := by
    rw [timeClip_eq hm]
    exact Int.mul_emod_left _ _
  have ht := timeClip_eq h
  rw [makeDay_add, hday, hrest, Int.add_zero] at ht
  exact ht

/-- The last date of `utcDay` is later than any year of four digits. -/
theorem day_lt_of_year {day : Int} (h : yearFromDay day ≤ 9999) : day < 2932897 := by
  have hmono := dayFromYear_mono (show yearFromDay day + 1 ≤ 10000 by omega)
  have hlast : dayFromYear 10000 = 2932897 := by decide
  have hspec := (yearFromDay_spec day).2
  omega

theorem day_nonneg (now : Nat) : 0 ≤ (now : Int) / dayMs := Int.ediv_nonneg (Int.natCast_nonneg _) (by decide)

/-- The date of `utcDay` where it and the clock's are in range. -/
theorem utcDay_eq_some {now : Nat} {offsetDays : Int} (hnow : (now : Int) / dayMs < 100000000)
    (hlow : -100000000 ≤ (now : Int) / dayMs + offsetDays) (hhigh : (now : Int) / dayMs + offsetDays ≤ 100000000) :
    utcDay now offsetDays = some ((now / dayMs + offsetDays) * dayMs) := by
  have hday := day_nonneg now
  have hclock : timeClip now = some (now : Int) :=
    timeClip_of_le (by unfold dayMs at hnow; omega) (by unfold dayMs at hnow; omega)
  have hmidnight : setUTCMidnight now = some ((now : Int) / dayMs * dayMs) := by
    unfold setUTCMidnight
    exact timeClip_of_le (by unfold dayMs at *; omega) (by unfold dayMs at *; omega)
  have hadd : addUTCDays ((now : Int) / dayMs * dayMs) offsetDays = some ((now / dayMs + offsetDays) * dayMs) := by
    unfold addUTCDays
    dsimp only
    rw [Int.mul_ediv_cancel _ (by decide), Int.mul_emod_left, makeDay_add, Int.add_zero]
    exact timeClip_of_le (by unfold dayMs at *; omega) (by unfold dayMs at *; omega)
  exact Option.bind_eq_some_iff.2 ⟨_, hclock, Option.bind_eq_some_iff.2 ⟨_, hmidnight, hadd⟩⟩

/-! ## Numbers -/

theorem pad_isDigit (k n : Nat) : ∀ c ∈ pad k n, c.isDigit = true := by
  intro c hc
  rcases List.mem_append.1 hc with hzero | hdigit
  · rw [List.eq_of_mem_replicate hzero]
    decide
  · exact Nat.isDigit_of_mem_toDigits (by omega) (by omega) hdigit

theorem digitsValue_pad (k n : Nat) : digitsValue (pad k n) = n := by
  unfold pad padStart
  rw [digitsValue_append, digitsValue_replicate_zero, Nat.zero_mul, Nat.zero_add]
  exact digitsValue_toDigits n

theorem pad_length {k n : Nat} (hk : 0 < k) (hn : n < 10 ^ k) : (pad k n).length = k := by
  have hlen := (Nat.length_toDigits_le_iff (b := 10) (by omega) hk).2 hn
  unfold pad padStart
  rw [List.length_append, List.length_replicate]
  omega

theorem pad_filter (k n : Nat) : (pad k n).filter (· ≠ '-') = pad k n := by
  refine List.filter_eq_self.2 fun c hc => decide_eq_true ?_
  rintro rfl
  exact absurd (pad_isDigit k n _ hc) (by decide)

/-! ## Writing and reading a date -/

/-- The name of the partition of a day. -/
def nameOf (day : Int) : List Char :=
  "outbox_p".toList ++ pad 4 (yearFromDay day).toNat ++ pad 2 (monthFromDay day + 1) ++ pad 2 (dateFromDay day).toNat

variable {day t : Int}

theorem pad_month_length (day : Int) : (pad 2 (monthFromDay day + 1)).length = 2 := by
  have hmonth := monthFromDay_le day
  exact pad_length (by omega) (by omega)

theorem pad_date_length (day : Int) : (pad 2 (dateFromDay day).toNat).length = 2 := by
  have hdate := (dateFromDay_bounds day).2
  have hmonth := daysInMonth_le (yearFromDay day) (monthFromDay_le day)
  exact pad_length (by omega) (by omega)

theorem day_mul_ediv (day : Int) : day * dayMs / dayMs = day := Int.mul_ediv_cancel _ (by decide)

/-- A date of four digits of year is ten characters. -/
theorem isoDate_eq (hlow : 0 ≤ yearFromDay day) (hhigh : yearFromDay day ≤ 9999) :
    (isoDate (day * dayMs)).take 10 = pad 4 (yearFromDay day).toNat ++ '-' :: pad 2 (monthFromDay day + 1) ++
      '-' :: pad 2 (dateFromDay day).toNat := by
  have hyear : (pad 4 (yearFromDay day).toNat).length = 4 := pad_length (by omega) (by omega)
  unfold isoDate isoYear
  simp only [day_mul_ediv]
  rw [if_pos ⟨hlow, hhigh⟩]
  refine List.take_of_length_le ?_
  simp [hyear, pad_month_length, pad_date_length]

/-- A date of another year begins with a sign, a late one with a plus. -/
theorem isoDate_sign (h : ¬ (0 ≤ yearFromDay day ∧ yearFromDay day ≤ 9999)) :
    ∃ c rest, (isoDate (day * dayMs)).take 10 = c :: rest ∧ c.isDigit = false ∧ (9999 < yearFromDay day → c = '+') := by
  unfold isoDate isoYear
  simp only [day_mul_ediv]
  rw [if_neg h]
  refine ⟨_, _, rfl, ?_, fun hlate => if_neg (by omega)⟩
  split <;> decide

/-- The parts of a date. -/
theorem parts_of_date {y m d : List Char} (rest : List Char) (hy : y.length = 4) (hm : m.length = 2) (hd : d.length = 2) :
    (y ++ '-' :: m ++ '-' :: d ++ rest).take 4 = y ∧ ((y ++ '-' :: m ++ '-' :: d ++ rest).drop 5).take 2 = m ∧
    ((y ++ '-' :: m ++ '-' :: d ++ rest).drop 8).take 2 = d := by
  have hy' : y.drop 8 = [] := List.drop_eq_nil_of_le (by omega)
  have hm' : m.drop 3 = [] := List.drop_eq_nil_of_le (by omega)
  simp [List.take_append, List.drop_append, hy, hm, hd, hy', hm']

/-- What the database reads from a date that was written is the date. -/
theorem timestamptz_isoDate {d : Int} (hd : d = day * dayMs) (h : timestamptz ((isoDate d).take 10 ++ midnight) = some t) :
    0 ≤ yearFromDay day ∧ yearFromDay day ≤ 9999 ∧ t = d := by
  subst hd
  by_cases hyear : 0 ≤ yearFromDay day ∧ yearFromDay day ≤ 9999
  · refine ⟨hyear.1, hyear.2, ?_⟩
    have hlen : (pad 4 (yearFromDay day).toNat).length = 4 := pad_length (by omega) (by omega)
    obtain ⟨hy, hm, hd⟩ := parts_of_date midnight hlen (pad_month_length day) (pad_date_length day)
    have hdate := (dateFromDay_bounds day).1
    rw [isoDate_eq hyear.1 hyear.2] at h
    unfold timestamptz at h
    simp only [hy, hm, hd, digitsValue_pad] at h
    split at h
    · cases h
      rw [Int.toNat_of_nonneg hyear.1, Int.toNat_of_nonneg (by omega), Nat.cast_succ, Int.add_sub_cancel, makeDay_self]
    · cases h
  · obtain ⟨c, rest, hc, hsign, -⟩ := isoDate_sign hyear
    rw [hc] at h
    unfold timestamptz at h
    simp [hsign] at h

theorem year_ge (h : -1 ≤ day) : 1969 ≤ yearFromDay day := by
  obtain ⟨-, hhigh⟩ := yearFromDay_spec day
  by_contra hlt
  have hmono := dayFromYear_mono (show yearFromDay day + 1 ≤ 1969 by omega)
  have hfirst : dayFromYear 1969 = -365 := by decide
  omega

/-- The date in a name. -/
theorem nameOf_digits (day : Int) : (nameOf day).take 8 = "outbox_p".toList ∧ (nameOf day).drop 8 =
    pad 4 (yearFromDay day).toNat ++ (pad 2 (monthFromDay day + 1) ++ pad 2 (dateFromDay day).toNat) := by
  have hprefix : "outbox_p".toList.length = 8 := by decide
  unfold nameOf
  rw [List.append_assoc, List.append_assoc]
  constructor
  · exact List.take_left' hprefix
  · exact List.drop_left' hprefix

theorem nameOf_isDigit (day : Int) : ∀ c ∈ pad 4 (yearFromDay day).toNat ++ (pad 2 (monthFromDay day + 1) ++
    pad 2 (dateFromDay day).toNat), c.isDigit = true := by
  simp only [List.mem_append]
  rintro c (hc | hc | hc)
  · exact pad_isDigit _ _ c hc
  · exact pad_isDigit _ _ c hc
  · exact pad_isDigit _ _ c hc

/-- The database reads a date of four digits of year. -/
theorem timestamptz_of_year (hlow : 1 ≤ yearFromDay day) (hhigh : yearFromDay day ≤ 9999) :
    timestamptz ((isoDate (day * dayMs)).take 10 ++ midnight) = some (day * dayMs) := by
  have hlen : (pad 4 (yearFromDay day).toNat).length = 4 := pad_length (by omega) (by omega)
  have hm := pad_month_length day
  have hd := pad_date_length day
  obtain ⟨hy, hmonth, hdate⟩ := parts_of_date midnight hlen hm hd
  have hbounds := dateFromDay_bounds day
  have hle := monthFromDay_le day
  have hdigits := nameOf_isDigit day
  rw [← List.append_assoc] at hdigits
  rw [isoDate_eq (by omega) hhigh]
  unfold timestamptz
  simp only [hy, hmonth, hdate, digitsValue_pad]
  rw [if_pos]
  · rw [Int.toNat_of_nonneg (by omega), Int.toNat_of_nonneg (by omega), Nat.cast_succ, Int.add_sub_cancel, makeDay_self]
  · refine ⟨trivial, by simp [hlen, hm, hd], List.all_eq_true.2 hdigits, by omega, by omega, by omega, by omega, ?_⟩
    rw [Int.toNat_of_nonneg (by omega), Int.toNat_of_nonneg (by omega), Nat.add_sub_cancel]
    exact hbounds.2

/-- What `dropExpired` reads from a name of eight digits is the day. -/
theorem partitionDay_nameOf (hday : -1 ≤ day) (hyear : yearFromDay day ≤ 9999) :
    partitionDay (nameOf day) = some (day * dayMs) := by
  have hlow := year_ge hday
  have hy : (pad 4 (yearFromDay day).toNat).length = 4 := pad_length (by omega) (by omega)
  have hm := pad_month_length day
  have hd := pad_date_length day
  have hdigits := nameOf_isDigit day
  have hmatch : matchName (nameOf day) = some (pad 4 (yearFromDay day).toNat, pad 2 (monthFromDay day + 1),
      pad 2 (dateFromDay day).toNat) := by
    obtain ⟨htake, hdrop⟩ := nameOf_digits day
    unfold matchName
    rw [htake, hdrop]
    dsimp only
    rw [if_pos ⟨rfl, by simp [hy, hm, hd], List.all_eq_true.2 hdigits⟩]
    have hdrop6 : (pad 4 (yearFromDay day).toNat).drop 6 = [] := List.drop_eq_nil_of_le (by omega)
    simp [List.drop_append, hy, hm, hdrop6]
  have hdate := (dateFromDay_bounds day).1
  unfold partitionDay
  rw [hmatch]
  simp only [Option.map_some, digitsValue_pad]
  unfold dateUTC
  rw [Int.toNat_of_nonneg (by omega), Int.toNat_of_nonneg (by omega), Nat.cast_succ, Int.add_sub_cancel,
    if_neg (by omega), makeDay_self]

/-- The name is the date without its hyphens. -/
theorem nameOf_eq (hlow : 0 ≤ yearFromDay day) (hhigh : yearFromDay day ≤ 9999) :
    "outbox_p".toList ++ ((isoDate (day * dayMs)).take 10).filter (· ≠ '-') = nameOf day := by
  have hhyphen : ∀ l : List Char, ('-' :: l).filter (· ≠ '-') = l.filter (· ≠ '-') := fun l =>
    List.filter_cons_of_neg (by decide)
  unfold nameOf
  rw [isoDate_eq hlow hhigh, List.filter_append, List.filter_append, hhyphen, hhyphen, pad_filter, pad_filter, pad_filter,
    List.append_assoc, List.append_assoc, List.append_assoc]

/-- A name of a later year has too many digits. -/
theorem partitionDay_late (hyear : 9999 < yearFromDay day) : partitionDay (nameOf day) = none := by
  have hlong : 4 < (pad 4 (yearFromDay day).toNat).length := by
    have hlen := mt (Nat.length_toDigits_le_iff (n := (yearFromDay day).toNat) (b := 10) (k := 4) (by omega) (by omega)).1
      (by omega)
    unfold pad padStart
    rw [List.length_append, List.length_replicate]
    omega
  have hmatch : matchName (nameOf day) = none := by
    have hm := pad_month_length day
    have hd := pad_date_length day
    unfold matchName
    dsimp only
    rw [(nameOf_digits day).2, if_neg]
    rintro ⟨-, hlength, -⟩
    rw [List.length_append, List.length_append] at hlength
    omega
  unfold partitionDay
  rw [hmatch]
  rfl

/-- The name and the bounds of a statement that the database can read: the day of the first reading, and the start of
the day after that of the second. -/
theorem createStatement_spec {i fromNow toNow : Nat} {stmt : CreateStatement} {lower upper : Int}
    (h : createStatement i fromNow toNow = some stmt) (hlower : timestamptz stmt.lower = some lower)
    (hupper : timestamptz stmt.upper = some upper) :
    stmt.name = nameOf (fromNow / dayMs + i) ∧ partitionDay stmt.name = some lower ∧
    lower = (fromNow / dayMs + i) * dayMs ∧ upper = (toNow / dayMs + (i + 1)) * dayMs ∧
    yearFromDay (toNow / dayMs + (i + 1)) ≤ 9999 := by
  obtain ⟨_, hl, h⟩ := Option.bind_eq_some_iff.1 h
  obtain ⟨_, hu, h⟩ := Option.bind_eq_some_iff.1 h
  cases h
  obtain ⟨l, hfrom, rfl⟩ := Option.map_eq_some_iff.1 hl
  obtain ⟨u, hto, rfl⟩ := Option.map_eq_some_iff.1 hu
  have hl := utcDay_eq hfrom
  have hu := utcDay_eq hto
  obtain ⟨hlow, hhigh, rfl⟩ := timestamptz_isoDate hl hlower
  obtain ⟨-, hlast, rfl⟩ := timestamptz_isoDate hu hupper
  have hname := nameOf_eq hlow hhigh
  rw [← hl] at hname
  have hday := day_nonneg fromNow
  refine ⟨hname, ?_, hl, hu, hlast⟩
  rw [hname, hl]
  exact partitionDay_nameOf (by omega) hhigh

/-- The statement for a date of four digits of year. -/
theorem createStatement_of_year {i fromNow toNow : Nat} {today : Int} (hfrom : (fromNow : Int) / dayMs = today)
    (hto : (toNow : Int) / dayMs = today) (hyear : yearFromDay (today + i) ≤ 9999) :
    createStatement i fromNow toNow = some ⟨nameOf (today + i), (isoDate ((today + i) * dayMs)).take 10 ++ midnight,
      (isoDate ((today + (i + 1)) * dayMs)).take 10 ++ midnight⟩ := by
  have htoday := day_nonneg fromNow
  have hlast := day_lt_of_year hyear
  have hlow := year_ge (show -1 ≤ today + i by omega)
  unfold createStatement
  rw [utcDay_eq_some (by omega) (by omega) (by omega), utcDay_eq_some (by omega) (by omega) (by omega), hfrom, hto,
    ← nameOf_eq (by omega) hyear]
  rfl

/-- A date of more digits is written with a sign. -/
theorem name_late {i fromNow toNow : Nat} {stmt : CreateStatement} (hyear : 9999 < yearFromDay (fromNow / dayMs + i))
    (h : createStatement i fromNow toNow = some stmt) : (∀ day, stmt.name ≠ nameOf day) ∧ timestamptz stmt.lower = none := by
  obtain ⟨_, hl, h⟩ := Option.bind_eq_some_iff.1 h
  obtain ⟨_, hu, h⟩ := Option.bind_eq_some_iff.1 h
  cases h
  obtain ⟨l, hfrom, rfl⟩ := Option.map_eq_some_iff.1 hl
  have hl := utcDay_eq hfrom
  constructor
  · intro day hname
    -- the ninth character is a sign on the left, and a digit on the right
    have hmore : ¬ (0 ≤ yearFromDay (fromNow / dayMs + i) ∧ yearFromDay (fromNow / dayMs + i) ≤ 9999) := by omega
    obtain ⟨c, rest, hc, hsign, hne⟩ := isoDate_sign hmore
    rw [hl, hc, List.filter_cons_of_pos (by rw [hne hyear]; decide)] at hname
    have hdrop := (nameOf_digits day).2
    rw [← hname, List.drop_left' (show "outbox_p".toList.length = 8 by decide)] at hdrop
    rw [nameOf_isDigit day c (hdrop ▸ List.mem_cons_self)] at hsign
    cases hsign
  · cases hread : timestamptz ((isoDate l).take 10 ++ midnight) with
    | none => rfl
    | some lower =>
      have hhigh := (timestamptz_isoDate hl hread).2.1
      omega

end PaymentsProcessor.OutboxCleanupService
