/-
Tables partitioned by ranges of a key, with a default partition, as in Postgres: each partition has a name and a range
from its lower bound up to but not including its upper one, and a row goes to the partition whose range holds its key.
-/
import Mathlib.Order.Lattice
import Mathlib.Data.List.Basic
import Mathlib.Data.List.Pairwise

/-- A partition. -/
structure RangePart (ν β : Type) where
  name : ν
  lower : β
  upper : β
  deriving DecidableEq

namespace RangePart

variable {ν β : Type} [LinearOrder β]

/-- The range holds the key. -/
def Holds (p : RangePart ν β) (b : β) : Prop := p.lower ≤ b ∧ b < p.upper

instance (p : RangePart ν β) (b : β) : Decidable (p.Holds b) := inferInstanceAs (Decidable (_ ∧ _))

/-- The ranges have no key in common. -/
def Disjoint (p q : RangePart ν β) : Prop := p.upper ≤ q.lower ∨ q.upper ≤ p.lower

instance (p q : RangePart ν β) : Decidable (p.Disjoint q) := inferInstanceAs (Decidable (_ ∨ _))

instance : Std.Symm (Disjoint (ν := ν) (β := β)) := ⟨fun _ _ => Or.symm⟩

end RangePart

/-- A table with rows `α` and names `ν`: its partitions, and every row with the name of the partition that stores it,
`none` for the default one. Every row is where its key says. -/
structure RangeTable (ν : Type) {α β : Type} [LinearOrder β] (key : α → β) where
  parts : List (RangePart ν β)
  rows : List (Option ν × α)
  disjoint : parts.Pairwise RangePart.Disjoint
  placed : ∀ r ∈ rows, ∀ n, r.1 = some n → ∃ p ∈ parts, p.name = n ∧ p.Holds (key r.2)
  spilled : ∀ r ∈ rows, r.1 = none → ∀ p ∈ parts, ¬ p.Holds (key r.2)

namespace RangeTable

variable {ν α β : Type} [DecidableEq ν] [LinearOrder β] {key : α → β}

/-- No rows and no partition but the default one. -/
def empty : RangeTable ν key where
  parts := []
  rows := []
  disjoint := List.Pairwise.nil
  placed _ h := absurd h List.not_mem_nil
  spilled _ h := absurd h List.not_mem_nil

/-- Where a row goes. -/
def route (t : RangeTable ν key) (x : α) : Option ν := (t.parts.find? fun p => p.Holds (key x)).map RangePart.name

/-- `INSERT`. -/
def insert (t : RangeTable ν key) (x : α) : RangeTable ν key where
  parts := t.parts
  rows := t.rows ++ [(t.route x, x)]
  disjoint := t.disjoint
  placed r hr n hn := by
    rcases List.mem_append.1 hr with hold | hnew
    · exact t.placed r hold n hn
    · cases List.mem_singleton.1 hnew
      obtain ⟨p, hp, rfl⟩ := Option.map_eq_some_iff.1 hn
      have hholds := List.find?_some (p := fun p : RangePart ν β => decide (p.Holds (key x))) hp
      exact ⟨p, List.mem_of_find?_eq_some hp, rfl, of_decide_eq_true hholds⟩
  spilled r hr hnone p hp := by
    rcases List.mem_append.1 hr with hold | hnew
    · exact t.spilled r hold hnone p hp
    · cases List.mem_singleton.1 hnew
      have hall := List.find?_eq_none.1 (Option.map_eq_none_iff.1 hnone) p hp
      simpa using hall

/-- `UPDATE` that leaves the key. -/
def update (t : RangeTable ν key) (f : α → α) (hf : ∀ x, key (f x) = key x) : RangeTable ν key where
  parts := t.parts
  rows := t.rows.map fun r => (r.1, f r.2)
  disjoint := t.disjoint
  placed r hr n hn := by
    obtain ⟨old, hold, rfl⟩ := List.mem_map.1 hr
    dsimp only
    rw [hf]
    exact t.placed old hold n hn
  spilled r hr hnone := by
    obtain ⟨old, hold, rfl⟩ := List.mem_map.1 hr
    dsimp only
    rw [hf]
    exact t.spilled old hold hnone

/-- There is a partition of the name. -/
def has (t : RangeTable ν key) (n : ν) : Bool := t.parts.any fun p => p.name = n

/-- The range is not empty, meets no other one and holds no row of the default partition. -/
def Accepts (t : RangeTable ν key) (p : RangePart ν β) : Prop :=
  p.lower < p.upper ∧ (∀ q ∈ t.parts, p.Disjoint q) ∧ ∀ r ∈ t.rows, r.1 = none → ¬ p.Holds (key r.2)

instance (t : RangeTable ν key) (p : RangePart ν β) : Decidable (t.Accepts p) := inferInstanceAs (Decidable (_ ∧ _ ∧ _))

/-- `CREATE TABLE … PARTITION OF`; the name must be new. -/
def create (t : RangeTable ν key) (p : RangePart ν β) : Option (RangeTable ν key) :=
  if h : t.Accepts p then
    some
      { parts := p :: t.parts
        rows := t.rows
        disjoint := List.pairwise_cons.2 ⟨h.2.1, t.disjoint⟩
        placed := fun r hr n hn => by
          obtain ⟨q, hq, hname, hholds⟩ := t.placed r hr n hn
          exact ⟨q, List.mem_cons_of_mem _ hq, hname, hholds⟩
        spilled := fun r hr hnone q hq => by
          rcases List.mem_cons.1 hq with rfl | hold
          · exact h.2.2 r hr hnone
          · exact t.spilled r hr hnone q hold }
  else none

/-- `DROP TABLE IF EXISTS`. -/
def drop (t : RangeTable ν key) (n : ν) : RangeTable ν key where
  parts := t.parts.filter (·.name ≠ n)
  rows := t.rows.filter (·.1 ≠ some n)
  disjoint := t.disjoint.filter _
  placed r hr n' hn' := by
    rw [List.mem_filter] at hr
    obtain ⟨p, hp, hname, hholds⟩ := t.placed r hr.1 n' hn'
    refine ⟨p, List.mem_filter.2 ⟨hp, decide_eq_true fun hn => of_decide_eq_true hr.2 ?_⟩, hname, hholds⟩
    rw [hn', ← hname, hn]
  spilled r hr hnone p hp := t.spilled r (List.mem_filter.1 hr).1 hnone p (List.mem_filter.1 hp).1

/-- The rows a drop deletes. -/
def rowsOf (t : RangeTable ν key) (n : ν) : List α := (t.rows.filter (·.1 = some n)).map Prod.snd

/-! ## What the statements do -/

variable {t t' : RangeTable ν key} {p q : RangePart ν β} {n : ν} {x : α}

/-- A row a drop deletes is in the range of a partition of the name. -/
theorem holds_of_mem_rowsOf (h : x ∈ t.rowsOf n) : ∃ p ∈ t.parts, p.name = n ∧ p.Holds (key x) := by
  obtain ⟨r, hr, rfl⟩ := List.mem_map.1 h
  rw [List.mem_filter] at hr
  exact t.placed r hr.1 n (of_decide_eq_true hr.2)

theorem mem_rowsOf : x ∈ t.rowsOf n ↔ (some n, x) ∈ t.rows := by
  unfold rowsOf
  constructor
  · intro h
    obtain ⟨⟨place, y⟩, hr, rfl⟩ := List.mem_map.1 h
    obtain ⟨hr, hplace⟩ := List.mem_filter.1 hr
    cases of_decide_eq_true hplace
    exact hr
  · exact fun h => List.mem_map.2 ⟨_, List.mem_filter.2 ⟨h, decide_eq_true rfl⟩, rfl⟩

theorem has_iff : t.has n = true ↔ ∃ p ∈ t.parts, p.name = n := by
  simp [has]

omit [DecidableEq ν] in
/-- Two partitions of a table have no key in common. -/
theorem disjoint_of_ne (hp : p ∈ t.parts) (hq : q ∈ t.parts) (hne : p ≠ q) : p.Disjoint q :=
  t.disjoint.forall hp hq hne

omit [DecidableEq ν] in
theorem create_of_accepts (h : t.Accepts p) : ∃ t', t.create p = some t' ∧ t'.rows = t.rows ∧ t'.parts = p :: t.parts := by
  unfold create
  rw [dif_pos h]
  exact ⟨_, rfl, rfl, rfl⟩

omit [DecidableEq ν] in
theorem accepts_of_create (h : t.create p = some t') : t.Accepts p := by
  unfold create at h
  split at h
  · rename_i hp
    exact hp
  · cases h

omit [DecidableEq ν] in
theorem create_eq_some (h : t.create p = some t') : t'.rows = t.rows ∧ t'.parts = p :: t.parts := by
  unfold create at h
  split at h
  · cases h
    exact ⟨rfl, rfl⟩
  · cases h

@[simp] theorem mem_parts_drop : q ∈ (t.drop n).parts ↔ q ∈ t.parts ∧ q.name ≠ n := by
  simp [drop]

@[simp] theorem mem_rows_drop {r : Option ν × α} : r ∈ (t.drop n).rows ↔ r ∈ t.rows ∧ r.1 ≠ some n := by
  simp [drop]

end RangeTable
