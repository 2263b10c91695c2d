/-
Logs whose entries carry stamps, read in the order of the stamps. Entries with equal stamps may be read in any order. A
log whose stamps increase has one reading, itself; an entry whose stamp is not above the last one can be read before it.
-/
import Mathlib.Data.List.Sort

namespace Stamps

variable {α ι : Type} [LinearOrder ι] {stamp : α → ι} {log l : List α}

/-- `l` has the entries of the log in an order of their stamps. -/
structure Reading (stamp : α → ι) (log l : List α) : Prop where
  perm : l.Perm log
  sorted : l.Pairwise fun a b => stamp a ≤ stamp b

/-- The stamps increase along the log. -/
def Increasing (stamp : α → ι) (log : List α) : Prop := log.Pairwise fun a b => stamp a < stamp b

/-- The reading that keeps entries with equal stamps in the order of the log. -/
def reading (stamp : α → ι) (log : List α) : List α := log.insertionSort fun a b => stamp a ≤ stamp b

theorem reading_reading (stamp : α → ι) (log : List α) : Reading stamp log (reading stamp log) :=
  ⟨List.perm_insertionSort _ log, List.pairwise_insertionSort (fun a b => stamp a ≤ stamp b) log⟩

theorem increasing_snoc {a : α} : Increasing stamp (log ++ [a]) ↔ Increasing stamp log ∧ ∀ b ∈ log, stamp b < stamp a := by
  unfold Increasing
  rw [List.pairwise_append]
  simp

/-- A log whose stamps increase has no other reading. -/
theorem Reading.eq (h : Reading stamp log l) (hlog : Increasing stamp log) : l = log := by
  refine List.Perm.eq_of_pairwise (fun a b ha hb hle hge => ?_) h.sorted (hlog.imp le_of_lt) h.perm
  have hdistinct : (log.map stamp).Nodup := List.pairwise_map.2 (hlog.imp ne_of_lt)
  exact List.inj_on_of_nodup_map hdistinct (h.perm.mem_iff.1 ha) hb (le_antisymm hle hge)

/-- An entry whose stamp is not above that of the last entry can be read before it. -/
theorem exists_reading_getLast {init : List α} {a z : α} (hlog : Increasing stamp (init ++ [z])) (ha : stamp a ≤ stamp z) :
    ∃ l, Reading stamp (init ++ [z] ++ [a]) (l ++ [z]) := by
  obtain ⟨hperm, hsorted⟩ := reading_reading stamp (init ++ [a])
  refine ⟨reading stamp (init ++ [a]), ?_, ?_⟩
  · refine (hperm.append_right [z]).trans ?_
    rw [List.append_assoc, List.append_assoc]
    exact (List.Perm.swap z a []).append_left init
  · rw [List.pairwise_append]
    refine ⟨hsorted, List.pairwise_singleton _ _, fun b hb c hc => ?_⟩
    rw [List.mem_singleton] at hc
    subst hc
    rcases List.mem_append.1 (hperm.mem_iff.1 hb) with hmem | hmem
    · exact le_of_lt ((increasing_snoc.1 hlog).2 b hmem)
    · rwa [List.mem_singleton.1 hmem]

end Stamps
